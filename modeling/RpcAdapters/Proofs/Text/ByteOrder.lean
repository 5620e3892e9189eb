import Mathlib.Tactic.SplitIfs
import RpcAdapters.Text.Utf8

/-!
# The order of texts and of their bytes

Texts are ordered character by character.  UTF-8 is made so that bytes give the same order: the bytes
of a smaller character are smaller at the first place where they differ.

* `cons_ofNat_lt_cons_ofNat_iff`   two lists of bytes that start with given numbers;
* `utf8EncodeChar_append_lt`       a smaller character comes first, whatever follows the two;
* `utf8Chars_lt_utf8Chars`, `utf8_lt_utf8_iff`   the same for texts.
-/

namespace RpcAdapters.Text

/-! ## bytes -/

theorem cons_ofNat_lt_cons_ofNat_iff {a b : Nat} (ha : a < 256) (hb : b < 256)
    (xs ys : List UInt8) :
    UInt8.ofNat a :: xs < UInt8.ofNat b :: ys ↔ a < b ∨ a = b ∧ xs < ys := by
  have hlt : UInt8.ofNat a < UInt8.ofNat b ↔ a < b := by
    rw [UInt8.lt_iff_toNat_lt, UInt8.toNat_ofNat_of_lt' ha, UInt8.toNat_ofNat_of_lt' hb]
  have heq : UInt8.ofNat a = UInt8.ofNat b ↔ a = b := by
    rw [← UInt8.toNat_inj, UInt8.toNat_ofNat_of_lt' ha, UInt8.toNat_ofNat_of_lt' hb]
  rw [List.cons_lt_cons_iff, hlt, heq]

theorem toNat_val_lt (c : Char) : c.val.toNat < 0x110000 := by
  have hvalid : c.val.toNat < 0xd800 ∨ 0xdfff < c.val.toNat ∧ c.val.toNat < 0x110000 := c.valid
  omega

/-! ## characters -/

theorem utf8EncodeChar_append_lt {c d : Char} (h : c < d) (xs ys : List UInt8) :
    String.utf8EncodeChar c ++ xs < String.utf8EncodeChar d ++ ys := by
  have hcd : c.val.toNat < d.val.toNat := UInt32.lt_iff_toNat_lt.mp h
  have hd : d.val.toNat < 0x110000 := toNat_val_lt d
  -- all bytes but the first are digits to the base 64, so the divisions are taken one by one
  have htwo : ∀ k, k / 4096 = k / 64 / 64 := fun k => (Nat.div_div_eq_div_mul k 64 64).symm
  have hthree : ∀ k, k / 262144 = k / 64 / 64 / 64 := fun k => by
    rw [Nat.div_div_eq_div_mul, Nat.div_div_eq_div_mul]
  simp only [String.utf8EncodeChar, htwo, hthree]
  generalize c.val.toNat = m at *
  generalize d.val.toNat = n at *
  -- one case for each pair of lengths; more bytes mean a larger first byte
  split_ifs <;>
    simp (disch := omega) only [List.cons_append, List.nil_append, cons_ofNat_lt_cons_ofNat_iff] <;>
    omega

/-! ## texts -/

theorem utf8Chars_lt_utf8Chars {cs ds : List Char} (h : cs < ds) : utf8Chars cs < utf8Chars ds := by
  induction cs generalizing ds with
  | nil =>
    cases ds with
    | nil => exact absurd h (List.lt_irrefl _)
    | cons d ds =>
      have hne : utf8Chars (d :: ds) ≠ [] := by
        rw [utf8Chars_cons]
        exact List.append_ne_nil_of_left_ne_nil String.utf8EncodeChar_ne_nil _
      obtain ⟨b, bs, hbytes⟩ := List.exists_cons_of_ne_nil hne
      rw [utf8Chars_nil, hbytes]
      exact List.nil_lt_cons b bs
  | cons c cs ih =>
    cases ds with
    | nil => exact absurd h (List.not_lt_nil _)
    | cons d ds =>
      rw [utf8Chars_cons, utf8Chars_cons]
      rcases List.cons_lt_cons_iff.mp h with hcd | ⟨rfl, hrest⟩
      · exact utf8EncodeChar_append_lt hcd _ _
      · exact List.append_left_lt (ih hrest)

theorem utf8_lt_utf8_iff {s t : String} : utf8 s < utf8 t ↔ s < t := by
  have hbytes : ∀ {a b : String}, a < b → utf8 a < utf8 b := fun hab =>
    utf8Chars_lt_utf8Chars (String.lt_iff.mp hab)
  constructor
  · intro h
    rcases Std.lt_trichotomy s t with hlt | rfl | hgt
    · exact hlt
    · exact absurd h (List.lt_irrefl _)
    · exact absurd h (List.lt_asymm (hbytes hgt))
  · exact hbytes

end RpcAdapters.Text
