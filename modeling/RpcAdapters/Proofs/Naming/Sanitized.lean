import Mathlib.Data.List.Forall2
import RpcAdapters.Proofs.Naming.Identifiers

/-!
# What sanitizing does to a name

Every character of a name is kept or becomes an underscore, and one more underscore may go in front.
Letters and digits are looked for before the replacement, letters in front after it.  By then only letters,
digits and underscores are left, so the second look may be wider: it must not differ on these.

* `StandsFor c d`             `d` is written for the character `c`;
* `TellsLetters alphabetic`   the classification tells letters from digits and underscores;
* `NeedsUnderscore`           an underscore has to go in front;
* `SanitizedAs name result`   all that there is to say about the sanitized form of a name;
* `sanitized_exact`           there is one such form, and `sanitized` gives it.
-/

namespace RpcAdapters.Naming

/-! ## characters, one for one -/

inductive StandsFor : Char → Char → Prop
  | kept {c : Char} (h : isLetterOrDigit c = true) : StandsFor c c
  | replaced {c : Char} (h : isLetterOrDigit c = false) : StandsFor c '_'

theorem standsFor_replaced (c : Char) : StandsFor c (if isLetterOrDigit c = true then c else '_') := by
  by_cases h : isLetterOrDigit c = true
  · rw [if_pos h]
    exact .kept h
  · rw [if_neg h]
    exact .replaced (Bool.eq_false_iff.mpr h)

theorem StandsFor.unique {c d e : Char} (hd : StandsFor c d) (he : StandsFor c e) : d = e := by
  cases hd with
  | kept h =>
    cases he with
    | kept => rfl
    | replaced hno => exact absurd (h.symm.trans hno) (by decide)
  | replaced hno =>
    cases he with
    | kept h => exact absurd (h.symm.trans hno) (by decide)
    | replaced => rfl

theorem forall₂_replaceIllegal (cs : List Char) : List.Forall₂ StandsFor cs (replaceIllegal cs) := by
  unfold replaceIllegal
  rw [List.forall₂_map_right_iff, List.forall₂_same]
  exact fun c _ => standsFor_replaced c

/-! ## the underscore in front -/

/-- what the classification says of other characters does not matter -/
def TellsLetters (alphabetic : Char → Bool) : Prop :=
  ∀ c, isIdentifierChar c = true → alphabetic c = Text.isLetter c

theorem tellsLetters_isLetter : TellsLetters Text.isLetter := fun _ _ => rfl

def NeedsUnderscore (alphabetic : Char → Bool) (kept : String) : Prop :=
  kept ∈ keywords ∨ ∀ c ∈ kept.toList.head?, alphabetic c = false

theorem startsWithLetter_eq_false_iff {alphabetic : Char → Bool} (h : TellsLetters alphabetic)
    {cs : List Char} (hcs : ∀ c ∈ cs, isLetterOrDigit c = true ∨ c = '_') :
    startsWithLetter cs = false ↔ ∀ c ∈ cs.head?, alphabetic c = false := by
  cases cs with
  | nil =>
    refine iff_of_true rfl fun c hc => ?_
    cases hc
  | cons c cs =>
    have hchar : isIdentifierChar c = true := by
      unfold isIdentifierChar
      rw [Bool.or_eq_true, beq_iff_eq]
      exact hcs c (List.mem_cons_self ..)
    show Text.isLetter c = false ↔ ∀ d ∈ some c, alphabetic d = false
    rw [← h c hchar]
    simp only [Option.mem_some_iff, forall_eq']

/-- the characters that were kept, with the underscore in front that they need -/
structure Fronted (alphabetic : Char → Bool) (kept result : String) : Prop where
  needed : NeedsUnderscore alphabetic kept → result = "_" ++ kept
  spared : ¬ NeedsUnderscore alphabetic kept → result = kept

theorem Fronted.unique {alphabetic : Char → Bool} {kept result other : String}
    (h : Fronted alphabetic kept result) (h' : Fronted alphabetic kept other) : result = other := by
  by_cases hneeded : NeedsUnderscore alphabetic kept
  · rw [h.needed hneeded, h'.needed hneeded]
  · rw [h.spared hneeded, h'.spared hneeded]

theorem fronted_sanitized (name : String) {alphabetic : Char → Bool} (h : TellsLetters alphabetic) :
    Fronted alphabetic (String.ofList (replaceIllegal name.toList)) (sanitized name) := by
  have hlegal : ∀ c ∈ replaceIllegal name.toList, isLetterOrDigit c = true ∨ c = '_' :=
    fun c hc => mem_replaceIllegal hc
  have hneeds : NeedsUnderscore alphabetic (String.ofList (replaceIllegal name.toList)) ↔
      String.ofList (replaceIllegal name.toList) ∈ keywords ∨
        startsWithLetter (replaceIllegal name.toList) = false := by
    unfold NeedsUnderscore
    rw [String.toList_ofList, startsWithLetter_eq_false_iff h hlegal]
  unfold sanitized
  constructor
  case needed =>
    intro hneeded
    exact (if_pos (hneeds.mp hneeded)).trans String.ofList_cons
  case spared =>
    intro hspared
    exact if_neg (hneeds.not.mp hspared)

/-! ## names that stay as they are -/

theorem sanitized_eq_self_iff {name : String} :
    sanitized name = name ↔ IsIdentifier name ∧ startsWithLetter name.toList = true := by
  constructor
  · intro h
    have hidentifier : IsIdentifier name := by
      rw [← h]
      exact isIdentifier_sanitized name
    have hkept := replaceIllegal_of_legal hidentifier.chars
    have hfronted := fronted_sanitized name tellsLetters_isLetter
    rw [hkept, String.ofList_toList] at hfronted
    refine ⟨hidentifier, ?_⟩
    by_contra hstart
    rw [Bool.not_eq_true] at hstart
    -- an underscore in front would make the name longer
    have hneeds : NeedsUnderscore Text.isLetter name :=
      Or.inr ((startsWithLetter_eq_false_iff tellsLetters_isLetter hidentifier.chars).mp hstart)
    have hlength := congrArg String.length (h.symm.trans (hfronted.needed hneeds))
    rw [String.length_append] at hlength
    have hone : "_".length = 1 := rfl
    omega
  · rintro ⟨hidentifier, hstart⟩
    have hkept := replaceIllegal_of_legal hidentifier.chars
    have hfronted := fronted_sanitized name tellsLetters_isLetter
    rw [hkept, String.ofList_toList] at hfronted
    apply hfronted.spared
    unfold NeedsUnderscore
    rw [← startsWithLetter_eq_false_iff tellsLetters_isLetter hidentifier.chars, hstart]
    exact not_or.mpr ⟨hidentifier.not_keyword, by decide⟩

/-! ## sanitized names -/

/-- what there is to know of a sanitized name; nothing is assumed of the second look but that it tells
letters -/
structure SanitizedAs (name result : String) : Prop where
  identifier : IsIdentifier result
  spelled : ∃ kept : String, List.Forall₂ StandsFor name.toList kept.toList ∧
    ∀ alphabetic, TellsLetters alphabetic → Fronted alphabetic kept result
  unchanged_iff : result = name ↔ IsIdentifier name ∧ startsWithLetter name.toList = true
  unchanged : startsWithLetter name.toList = true → (∀ c ∈ name.toList, isLetterOrDigit c = true) →
    name ∉ keywords → result = name

theorem sanitizedAs_sanitized (name : String) : SanitizedAs name (sanitized name) where
  identifier := isIdentifier_sanitized name
  spelled := by
    refine ⟨String.ofList (replaceIllegal name.toList), ?_, fun _ h => fronted_sanitized name h⟩
    rw [String.toList_ofList]
    exact forall₂_replaceIllegal name.toList
  unchanged_iff := sanitized_eq_self_iff
  unchanged hstart hchars hword := by
    apply sanitized_eq_self_iff.mpr
    rw [← String.ofList_toList (s := name)] at hword
    have hidentifier := isIdentifier_of_startsWithLetter hstart (fun c hc => .inl (hchars c hc)) hword
    rw [String.ofList_toList] at hidentifier
    exact ⟨hidentifier, hstart⟩

theorem SanitizedAs.unique {name result other : String} (h : SanitizedAs name result)
    (h' : SanitizedAs name other) : result = other := by
  obtain ⟨kept, hkept, hfronted⟩ := h.spelled
  obtain ⟨kept', hkept', hfronted'⟩ := h'.spelled
  have hone : Relator.RightUnique StandsFor := fun _ _ _ hd he => hd.unique he
  obtain rfl := String.toList_injective (hone.forall₂ hkept hkept')
  exact (hfronted _ tellsLetters_isLetter).unique (hfronted' _ tellsLetters_isLetter)

/-- **Sanitizing makes identifiers**: the result is one, its characters stand one for one for those of the
name after at most one more underscore, and a name that was one with a letter in front stays as it is.
There is one such result. -/
theorem sanitized_exact (name : String) :
    SanitizedAs name (sanitized name) ∧ ∀ result, SanitizedAs name result → result = sanitized name :=
  ⟨sanitizedAs_sanitized name, fun _ h => h.unique (sanitizedAs_sanitized name)⟩

/-- a letter number is no letter, and the hyphen may leave a start without one -/
example : sanitized "\u2167api" = "__api" ∧ sanitized "-v1" = "__v1" ∧ sanitized "type" = "_type" := by
  decide +kernel

end RpcAdapters.Naming
