import RpcAdapters.Naming.Legal
import RpcAdapters.Text.Decimal

/-!
# Sanitized names are identifiers

* `codeBits`, `isDecimalDigit_of_isLetter`   no letter is a decimal digit;
* `IsIdentifier.isIdentifierChar`  the alphabet of identifiers;
* `isIdentifier_sanitized`         whatever a name is, its sanitized form is an identifier;
* `sanitized_eq_underscore_iff`    which is `_` for the empty name alone;
* `IsIdentifier.append_decimal`    a number may follow an identifier.
-/

namespace RpcAdapters

/-! ## letters and digits -/

namespace Text

/-- a table as one number, with a bit for each code point -/
def codeBits : CodeRanges → Nat
  | [] => 0
  | r :: rs => ((1 <<< (r.2 + 1 - r.1) - 1) <<< r.1) ||| codeBits rs

theorem testBit_codeBits (rs : CodeRanges) (c : Char) :
    (codeBits rs).testBit c.toNat = inRanges rs c := by
  induction rs with
  | nil => simp [codeBits, inRanges_nil]
  | cons r rs ih =>
    have hrange : ((1 <<< (r.2 + 1 - r.1) - 1) <<< r.1).testBit c.toNat
        = (decide (r.1 ≤ c.toNat) && decide (c.toNat ≤ r.2)) := by
      rw [Nat.testBit_shiftLeft, Nat.one_shiftLeft, Nat.testBit_two_pow_sub_one]
      by_cases hlo : r.1 ≤ c.toNat
      · have hsub : c.toNat - r.1 < r.2 + 1 - r.1 ↔ c.toNat ≤ r.2 := by omega
        simp only [hlo, hsub]
      · simp only [hlo, decide_false, Bool.false_and]
    rw [codeBits, Nat.testBit_or, hrange, ih]
    exact (inRanges_cons r.1 r.2 rs c).symm

theorem isDecimalDigit_of_isLetter {c : Char} (h : isLetter c = true) : isDecimalDigit c = false := by
  have hnone : codeBits letters &&& codeBits decimalDigits = 0 := by decide +kernel
  have hboth : (isLetter c && isDecimalDigit c) = false := by
    rw [isLetter, isDecimalDigit, ← testBit_codeBits, ← testBit_codeBits, ← Nat.testBit_and, hnone,
      Nat.zero_testBit]
  simpa [h] using hboth

theorem isDigit_of_mem_decimal {n : Nat} {c : Char} (h : c ∈ (decimal n).toList) :
    c.isDigit = true := by
  rw [decimal, String.toList_ofList] at h
  exact Nat.isDigit_of_mem_toDigits (by omega) (by omega) h

end Text

namespace Naming

/-! ## the alphabet of identifiers -/

def isIdentifierChar (c : Char) : Bool := isLetterOrDigit c || c == '_'

theorem isIdentifierChar_space : isIdentifierChar ' ' = false := by decide +kernel

theorem isIdentifierChar_dot : isIdentifierChar '.' = false := by decide +kernel

theorem isIdentifierChar_lineBreak : isIdentifierChar '\n' = false := by decide +kernel

theorem isIdentifierChar_tab : isIdentifierChar '\t' = false := by decide +kernel

namespace IsIdentifier

variable {name : String}

theorem isIdentifierChar (h : IsIdentifier name) {c : Char} (hc : c ∈ name.toList) :
    Naming.isIdentifierChar c = true := by
  rcases h.chars c hc with hc | hc <;> simp [Naming.isIdentifierChar, hc]

theorem not_mem (h : IsIdentifier name) {c : Char} (hc : Naming.isIdentifierChar c = false) :
    c ∉ name.toList := by
  intro hmem
  exact Bool.false_ne_true (hc.symm.trans (h.isIdentifierChar hmem))

end IsIdentifier

/-! ## keywords -/

theorem underscore_not_mem_keyword {word : String} (h : word ∈ keywords) : '_' ∉ word.toList := by
  have hall : (keywords.all fun w => !w.toList.contains '_') = true := by decide +kernel
  simpa using List.all_eq_true.mp hall word h

theorem isDigit_of_mem_keyword {word : String} (h : word ∈ keywords) {c : Char}
    (hc : c ∈ word.toList) : c.isDigit = false := by
  have hall : (keywords.all fun w => w.toList.all fun d => !d.isDigit) = true := by decide +kernel
  simpa using List.all_eq_true.mp (List.all_eq_true.mp hall word h) c hc

/-! ## identifiers -/

theorem isIdentifier_underscore_cons {cs : List Char}
    (h : ∀ c ∈ cs, isLetterOrDigit c = true ∨ c = '_') :
    IsIdentifier (String.ofList ('_' :: cs)) where
  nonempty := by simp
  chars c hc := by
    rw [String.toList_ofList] at hc
    rcases List.mem_cons.mp hc with rfl | hc
    · exact .inr rfl
    · exact h c hc
  start c hc := by
    obtain rfl : '_' = c := by simpa using hc
    decide +kernel
  not_keyword hmem := by
    have hnone := underscore_not_mem_keyword hmem
    rw [String.toList_ofList] at hnone
    exact hnone (List.mem_cons_self ..)

theorem isIdentifier_of_startsWithLetter {cs : List Char} (hstart : startsWithLetter cs = true)
    (h : ∀ c ∈ cs, isLetterOrDigit c = true ∨ c = '_') (hword : String.ofList cs ∉ keywords) :
    IsIdentifier (String.ofList cs) where
  nonempty := by
    rw [String.toList_ofList]
    rintro rfl
    exact Bool.false_ne_true hstart
  chars c hc := h c (by rwa [String.toList_ofList] at hc)
  start c hc := by
    rw [String.toList_ofList] at hc
    cases cs with
    | nil => exact nomatch hc
    | cons d ds =>
      obtain rfl : d = c := by simpa using hc
      exact Text.isDecimalDigit_of_isLetter hstart
  not_keyword := hword

theorem isIdentifier_sanitized (name : String) : IsIdentifier (sanitized name) := by
  have hkept : ∀ c ∈ replaceIllegal name.toList, isLetterOrDigit c = true ∨ c = '_' :=
    fun c hc => mem_replaceIllegal hc
  rw [sanitized]
  by_cases h : String.ofList (replaceIllegal name.toList) ∈ keywords ∨
      startsWithLetter (replaceIllegal name.toList) = false
  · rw [if_pos h]
    exact isIdentifier_underscore_cons hkept
  · rw [if_neg h]
    rw [not_or, Bool.not_eq_false] at h
    exact isIdentifier_of_startsWithLetter h.2 hkept h.1

/-- nothing but the empty name turns into the blank identifier -/
theorem sanitized_eq_underscore_iff {name : String} : sanitized name = "_" ↔ name = "" := by
  have hblank : startsWithLetter ['_'] = false := by decide +kernel
  constructor
  · intro h
    have hkept : replaceIllegal name.toList = [] := by
      rw [sanitized] at h
      by_cases hillegal : String.ofList (replaceIllegal name.toList) ∈ keywords ∨
          startsWithLetter (replaceIllegal name.toList) = false
      · rw [if_pos hillegal] at h
        exact (List.cons.inj (String.ofList_injective h)).2
      · -- `_` itself would have been given another `_`
        rw [if_neg hillegal] at h
        rw [String.ofList_injective h] at hillegal
        exact absurd (.inr hblank) hillegal
    have hlength := length_replaceIllegal name.toList
    rw [hkept, List.length_nil] at hlength
    exact String.toList_eq_nil_iff.mp (List.length_eq_zero_iff.mp hlength.symm)
  · rintro rfl
    rfl

theorem isIdentifier_packageName (importPath : String) : IsIdentifier (packageName importPath) :=
  isIdentifier_sanitized _

/-- a number may follow: it starts no name, and no keyword has a digit -/
theorem IsIdentifier.append_decimal {name : String} (h : IsIdentifier name) (n : Nat) :
    IsIdentifier (name ++ Text.decimal n) := by
  have hlist : (name ++ Text.decimal n).toList = name.toList ++ (Text.decimal n).toList :=
    String.toList_append
  constructor
  case nonempty =>
    rw [hlist]
    exact List.append_ne_nil_of_left_ne_nil h.nonempty _
  case chars =>
    intro c hc
    rw [hlist, List.mem_append] at hc
    rcases hc with hc | hc
    · exact h.chars c hc
    · have hdigit := Text.isDecimalDigit_of_isDigit c (Text.isDigit_of_mem_decimal hc)
      exact .inl (by rw [isLetterOrDigit, hdigit, Bool.or_true])
  case start =>
    intro c hc
    obtain ⟨d, ds, hname⟩ := List.exists_cons_of_ne_nil h.nonempty
    rw [hlist, hname] at hc
    exact h.start c (hname ▸ hc)
  case not_keyword =>
    intro hmem
    obtain ⟨c, cs, hdigits⟩ := List.exists_cons_of_ne_nil
      (show (Text.decimal n).toList ≠ [] by simp [Text.decimal, Nat.toDigits_ne_nil])
    have hc : c ∈ (Text.decimal n).toList := hdigits ▸ List.mem_cons_self ..
    have hno := isDigit_of_mem_keyword hmem (hlist ▸ List.mem_append_right _ hc)
    exact Bool.false_ne_true (hno.symm.trans (Text.isDigit_of_mem_decimal hc))

end Naming

end RpcAdapters
