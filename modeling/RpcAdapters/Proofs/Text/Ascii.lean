import Mathlib.Tactic.SplitIfs
import RpcAdapters.Text.Utf8

/-!
# ASCII texts and their bytes

A character of ASCII is one byte, its own number.  Any other has several bytes, and none of them is the
byte of a character of ASCII.

* `isLower_iff`, `isUpper_iff`       the letters of ASCII by their numbers;
* `isAlphanum_iff`                   letters and digits by their kinds;
* `IsAscii s`                        all characters of `s` are ASCII;
* `utf8_of_isAscii`                  the bytes of such a text are its characters;
* `length_utf8EncodeChar_of_le`      another character has at least two bytes;
* `le_of_mem_utf8EncodeChar`         and all of them are large.
-/

namespace RpcAdapters.Text

/-! ## letters -/

theorem isLower_iff {c : Char} : c.isLower = true ↔ 97 ≤ c.toNat ∧ c.toNat ≤ 122 := by
  unfold Char.isLower
  rw [Bool.and_eq_true, decide_eq_true_iff, decide_eq_true_iff]
  exact Iff.rfl

theorem isUpper_iff {c : Char} : c.isUpper = true ↔ 65 ≤ c.toNat ∧ c.toNat ≤ 90 := by
  unfold Char.isUpper
  rw [decide_eq_true_iff]
  exact Iff.rfl

theorem isAlpha_iff {c : Char} : c.isAlpha = true ↔ c.isUpper = true ∨ c.isLower = true := by
  unfold Char.isAlpha
  exact Bool.or_eq_true_iff

theorem isAlphanum_iff {c : Char} : c.isAlphanum = true ↔
    c.isUpper = true ∨ c.isLower = true ∨ c.isDigit = true := by
  unfold Char.isAlphanum
  rw [Bool.or_eq_true_iff, isAlpha_iff, or_assoc]

/-! ## ASCII characters -/

def IsAscii (s : String) : Prop := ∀ c ∈ s.toList, c.toNat < 128

theorem isAscii_iff_all {s : String} : IsAscii s ↔ (s.toList.all fun c => c.toNat < 128) = true := by
  unfold IsAscii
  rw [List.all_eq_true]
  simp only [decide_eq_true_iff]

instance (s : String) : Decidable (IsAscii s) := decidable_of_iff _ isAscii_iff_all.symm

theorem toNat_toUInt8 {c : Char} (h : c.toNat < 128) : c.toUInt8.toNat = c.toNat := by
  show c.toNat % 256 = c.toNat
  omega

theorem toUInt8_inj {c d : Char} (hc : c.toNat < 128) (hd : d.toNat < 128) :
    c.toUInt8 = d.toUInt8 ↔ c = d := by
  rw [← UInt8.toNat_inj, toNat_toUInt8 hc, toNat_toUInt8 hd, Char.toNat_inj]

theorem utf8EncodeChar_of_lt {c : Char} (h : c.toNat < 128) : String.utf8EncodeChar c = [c.toUInt8] := by
  have hsmall : c.val.toNat ≤ 0x7f := Nat.le_of_lt_succ h
  unfold String.utf8EncodeChar
  rw [if_pos hsmall]
  rfl

theorem utf8Chars_of_lt {cs : List Char} (h : ∀ c ∈ cs, c.toNat < 128) :
    utf8Chars cs = cs.map Char.toUInt8 := by
  induction cs with
  | nil => rfl
  | cons c cs ih =>
    rw [utf8Chars_cons, utf8EncodeChar_of_lt (h c (List.mem_cons_self ..)),
      ih fun d hd => h d (List.mem_cons_of_mem _ hd)]
    rfl

theorem utf8_of_isAscii {s : String} (h : IsAscii s) : utf8 s = s.toList.map Char.toUInt8 :=
  utf8Chars_of_lt h

/-! ## other characters -/

theorem length_utf8EncodeChar_of_le {c : Char} (h : 128 ≤ c.toNat) :
    2 ≤ (String.utf8EncodeChar c).length := by
  have hlarge : ¬ c.val.toNat ≤ 0x7f := Nat.not_le.mpr h
  unfold String.utf8EncodeChar
  rw [if_neg hlarge]
  split_ifs <;> simp only [List.length_cons, List.length_nil] <;> omega

theorem le_of_mem_utf8EncodeChar {c : Char} (h : 128 ≤ c.toNat) {b : UInt8}
    (hb : b ∈ String.utf8EncodeChar c) : 128 ≤ b.toNat := by
  have hlarge : ¬ c.val.toNat ≤ 0x7f := Nat.not_le.mpr h
  have hbyte : ∀ n, 128 ≤ n → n < 256 → 128 ≤ (UInt8.ofNat n).toNat := by
    intro n hn hlt
    rwa [UInt8.toNat_ofNat_of_lt' hlt]
  unfold String.utf8EncodeChar at hb
  rw [if_neg hlarge] at hb
  split_ifs at hb <;> simp only [List.mem_cons, List.not_mem_nil, or_false] at hb
  · rcases hb with rfl | rfl <;> apply hbyte <;> omega
  · rcases hb with rfl | rfl | rfl <;> apply hbyte <;> omega
  · rcases hb with rfl | rfl | rfl | rfl <;> apply hbyte <;> omega

end RpcAdapters.Text
