import RpcAdapters.Proofs.Naming.CamelCase
import RpcAdapters.Proofs.Naming.Identifiers
import RpcAdapters.SourceUnit.Basic

/-!
# Go names of schema names

A schema compiler lets only letters of ASCII, digits and underscores into a name, with no digit in front.
What such names are exported to starts with an uppercase letter, and nothing that means something in Go
or in the body of an adapter does.

* `IsSchemaName name`                    a schema compiler takes the name for that of a declaration;
* `IsExportedName name`                  an identifier of ASCII that is visible outside its package;
* `isExportedName_exported_dotted`       a path of schema names has such a name in Go;
* `IsExportedName.append`                which may be followed by a suffix;
* `IsExportedName.isUntaken`             and has no other meaning.
-/

namespace RpcAdapters.Naming

/-! ## names on both sides -/

def IsNameChar (c : Char) : Prop := c.isAlphanum = true ∨ c = '_'

instance (c : Char) : Decidable (IsNameChar c) :=
  inferInstanceAs (Decidable (c.isAlphanum = true ∨ c = '_'))

structure IsSchemaName (name : String) : Prop where
  start : ∃ c ∈ name.toList.head?, c.isAlpha = true ∨ c = '_'
  chars : ∀ c ∈ name.toList, IsNameChar c

theorem isSchemaName_iff {name : String} : IsSchemaName name ↔
    ((name.toList.head?.any fun c => c.isAlpha || c == '_') &&
      name.toList.all fun c => IsNameChar c) = true := by
  rw [Bool.and_eq_true, Option.any_eq_true, List.all_eq_true]
  simp only [Bool.or_eq_true, beq_iff_eq, decide_eq_true_iff]
  exact ⟨fun h => ⟨h.start, h.chars⟩, fun h => ⟨h.1, h.2⟩⟩

instance (name : String) : Decidable (IsSchemaName name) := decidable_of_iff _ isSchemaName_iff.symm

structure IsExportedName (name : String) : Prop where
  start : ∃ c ∈ name.toList.head?, c.isUpper = true
  chars : ∀ c ∈ name.toList, IsNameChar c

theorem isNameChar_of_isUpper {c : Char} (h : c.isUpper = true) : IsNameChar c :=
  Or.inl (Text.isAlphanum_iff.mpr (Or.inl h))

theorem IsNameChar.toNat_lt {c : Char} (h : IsNameChar c) : c.toNat < 128 := by
  rcases h with h | rfl
  · rw [Text.isAlphanum_iff, Text.isUpper_iff, Text.isLower_iff, Char.isDigit_iff_toNat] at h
    have hdigit : '9'.toNat = 57 := rfl
    omega
  · decide

theorem IsNameChar.ne_dot {c : Char} (h : IsNameChar c) : c ≠ '.' := by
  rintro rfl
  rcases h with h | h <;> exact absurd h (by decide)

/-! ## one name -/

section
variable {c : Char}

theorem isNameChar_raised (h : IsNameChar c) : IsNameChar (raised c) := by
  by_cases hlower : c.isLower = true
  · exact isNameChar_of_isUpper (isUpper_raised h.toNat_lt hlower)
  · rwa [raised_of_not_isLower h.toNat_lt hlower]

theorem isNameChar_of_mem_spelled {p : Place} {followed : Bool} (h : IsNameChar c) {e : Char}
    (he : e ∈ p.spelled c followed) : IsNameChar e := by
  unfold Place.spelled at he
  rw [if_neg h.ne_dot] at he
  by_cases hunderscore : c = '_'
  · rw [if_pos hunderscore] at he
    have hcases : e = 'X' ∨ e = '_' := by
      split at he
      · exact Or.inl (List.mem_singleton.mp he)
      · split at he
        · exact absurd he List.not_mem_nil
        · exact Or.inr (List.mem_singleton.mp he)
    rcases hcases with rfl | rfl
    · exact isNameChar_of_isUpper (by decide)
    · exact Or.inr rfl
  · rw [if_neg hunderscore, List.mem_singleton] at he
    rw [he]
    split
    · exact h
    · exact isNameChar_raised h

theorem isNameChar_of_mem_spelledFrom {p : Place} {cs : List Char} (h : ∀ c ∈ cs, IsNameChar c)
    {e : Char} (he : e ∈ spelledFrom p cs) : IsNameChar e := by
  obtain ⟨q, c, hc, followed, he⟩ := exists_of_mem_spelledFrom he
  exact isNameChar_of_mem_spelled (h c hc) he

/-- a letter in front is raised, an underscore becomes `X` -/
theorem exists_spelled_start (h : c.isAlpha = true ∨ c = '_') (followed : Bool) :
    ∃ e, Place.start.spelled c followed = [e] ∧ e.isUpper = true := by
  unfold Place.spelled
  by_cases hunderscore : c = '_'
  · rw [hunderscore]
    exact ⟨'X', rfl, by decide⟩
  have halpha : c.isUpper = true ∨ c.isLower = true :=
    Text.isAlpha_iff.mp (h.resolve_right hunderscore)
  have hname : IsNameChar c := Or.inl (Text.isAlphanum_iff.mpr (or_assoc.mp (Or.inl halpha)))
  rw [if_neg hname.ne_dot, if_neg hunderscore]
  refine ⟨raised c, rfl, ?_⟩
  by_cases hlower : c.isLower = true
  · exact isUpper_raised hname.toNat_lt hlower
  · rw [raised_of_not_isLower hname.toNat_lt hlower]
    exact halpha.resolve_right hlower

end

theorem IsSchemaName.isAscii {name : String} (h : IsSchemaName name) : Text.IsAscii name :=
  fun c hc => (h.chars c hc).toNat_lt

theorem IsSchemaName.ne_empty {name : String} (h : IsSchemaName name) : name ≠ "" := by
  rintro rfl
  obtain ⟨c, hc, -⟩ := h.start
  cases hc

theorem isExportedName_exported {name : String} (h : IsSchemaName name) :
    IsExportedName (exported name) := by
  constructor
  case start =>
    obtain ⟨c, hc, hstart⟩ := h.start
    obtain ⟨cs, hname⟩ : ∃ cs, name.toList = c :: cs := List.head?_eq_some_iff.mp hc
    obtain ⟨e, he, hupper⟩ := exists_spelled_start hstart (startsLower cs)
    refine ⟨e, ?_, hupper⟩
    rw [toList_exported h.isAscii, hname, spelledFrom, he]
    rfl
  case chars =>
    intro e he
    rw [toList_exported h.isAscii] at he
    exact isNameChar_of_mem_spelledFrom h.chars he

/-! ## paths and suffixes -/

namespace IsExportedName

variable {name : String}

theorem append (h : IsExportedName name) {suffix : String}
    (hsuffix : ∀ c ∈ suffix.toList, IsNameChar c) : IsExportedName (name ++ suffix) := by
  constructor
  case start =>
    obtain ⟨c, hc, hupper⟩ := h.start
    refine ⟨c, ?_, hupper⟩
    rw [String.toList_append]
    exact List.mem_head?_append_of_mem_head? hc
  case chars =>
    intro c hc
    rw [String.toList_append, List.mem_append] at hc
    exact hc.elim (h.chars c) (hsuffix c)

end IsExportedName

theorem isNameChar_of_mem_joint {name : String} {c : Char} (hc : c ∈ (joint name).toList) :
    IsNameChar c := by
  unfold joint at hc
  split at hc
  · exact absurd hc List.not_mem_nil
  · exact Or.inr (List.mem_singleton.mp hc)

/-- the induction is on the parts: a part is followed by the underscore of the next one, if any, and by
the rest -/
theorem isExportedName_composed {path : List String} (hne : path ≠ [])
    (h : ∀ name ∈ path, IsSchemaName name) : IsExportedName (composed path) := by
  induction path with
  | nil => exact absurd rfl hne
  | cons outer path ih =>
    have houter := isExportedName_exported (h outer (List.mem_cons_self ..))
    cases path with
    | nil => exact houter
    | cons inner path =>
      have hrest := ih (List.cons_ne_nil _ _) fun name hname => h name (List.mem_cons_of_mem _ hname)
      rw [composed]
      exact (houter.append fun _ => isNameChar_of_mem_joint).append hrest.chars

theorem isExportedName_exported_dotted {path : List String} (hne : path ≠ [])
    (h : ∀ name ∈ path, IsSchemaName name) : IsExportedName (exported (dotted path)) := by
  rw [exported_dotted]
  exact isExportedName_composed hne h

/-! ## names that mean something already -/

/-- the name is free for a declaration: it is no word of Go, and no name of the bodies of adapters -/
structure IsUntaken (name : String) : Prop where
  not_keyword : name ∉ keywords
  not_predeclared : name ∉ predeclared
  not_bound : name ∉ Bound.all

namespace IsExportedName

variable {name : String}

theorem not_mem (h : IsExportedName name) {words : List String}
    (hwords : (words.all fun w => w.toList.head?.all fun c => !c.isUpper) = true) : name ∉ words := by
  intro hmem
  obtain ⟨c, hc, hupper⟩ := h.start
  have hall := List.all_eq_true.mp hwords name hmem
  rw [Option.mem_def.mp hc, Option.all_some, hupper] at hall
  exact absurd hall (by decide)

theorem isUntaken (h : IsExportedName name) : IsUntaken name where
  not_keyword := h.not_mem (by decide +kernel)
  not_predeclared := h.not_mem (by decide +kernel)
  not_bound := h.not_mem (by decide +kernel)

theorem isIdentifier_chars (h : IsExportedName name) :
    ∀ c ∈ name.toList, isLetterOrDigit c = true ∨ c = '_' := by
  intro c hc
  apply (h.chars c hc).imp_left
  intro halphanum
  unfold isLetterOrDigit
  unfold Char.isAlphanum at halphanum
  rw [Bool.or_eq_true_iff] at halphanum ⊢
  exact halphanum.imp (Text.isLetter_of_isAlpha c) (Text.isDecimalDigit_of_isDigit c)

theorem isIdentifier (h : IsExportedName name) : IsIdentifier name := by
  obtain ⟨c, hc, hupper⟩ := h.start
  obtain ⟨cs, hname⟩ : ∃ cs, name.toList = c :: cs := List.head?_eq_some_iff.mp hc
  have hletter : startsWithLetter name.toList = true := by
    rw [hname]
    exact Text.isLetter_of_isAlpha c (Text.isAlpha_iff.mpr (Or.inl hupper))
  have hword : String.ofList name.toList ∉ keywords := by
    rw [String.ofList_toList]
    exact h.isUntaken.not_keyword
  rw [← String.ofList_toList (s := name)]
  exact isIdentifier_of_startsWithLetter hletter h.isIdentifier_chars hword

end IsExportedName

end RpcAdapters.Naming
