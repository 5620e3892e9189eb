import RpcAdapters.Proofs.Source.Imports

/-!
# Units that have no text

Writing a unit stops at the first identifier whose package the unit does not import: `looksUp` lists
the identifiers in the order in which writing asks for them.

* `u.Records i`                    the package of `i` is the unit's own or that of a reference;
* `u.FirstUnrecorded ids i`        `i` is the first of `ids` that is not recorded;
* `firstUnrecorded_append`, `firstUnrecorded_flatMap`
                                   which part of a list the first one is in;
* `SourceUnit.render_exact`        a unit has its text, or fails at the first unrecorded identifier.
-/

namespace RpcAdapters

open Source

namespace SourceUnit

variable {u : SourceUnit}

def Records (u : SourceUnit) (i : Ident) : Prop :=
  i.importPath = u.importPath ∨ ∃ j ∈ u.references, j.importPath = i.importPath

def FirstUnrecorded (u : SourceUnit) (ids : List Ident) (i : Ident) : Prop :=
  ∃ before after, ids = before ++ i :: after ∧ (∀ j ∈ before, u.Records j) ∧ ¬u.Records i

/-! ## aliases and records -/

theorem knows_iff_records {i : Ident} : (Aliases.allocate u).knows i = true ↔ u.Records i := by
  rw [Aliases.knows_allocate, mem_importedPaths]
  unfold Records
  by_cases hown : i.importPath = u.importPath
  · exact iff_of_true (.inl hown) (.inl hown)
  · exact or_congr_right (and_iff_right hown)

theorem firstUnknown_eq_some_iff {ids : List Ident} {i : Ident} :
    (Aliases.allocate u).firstUnknown ids = some i ↔ u.FirstUnrecorded ids i := by
  rw [Aliases.firstUnknown, List.find?_eq_some_iff_append]
  unfold FirstUnrecorded
  simp only [Bool.not_eq_true', ← Bool.not_eq_true, knows_iff_records, Bool.not_not]
  constructor
  · rintro ⟨hi, before, after, hids, hbefore⟩
    exact ⟨before, after, hids, hbefore, hi⟩
  · rintro ⟨before, after, hids, hbefore, hi⟩
    exact ⟨hi, before, after, hids, hbefore⟩

theorem firstUnknown_eq_none_iff {ids : List Ident} :
    (Aliases.allocate u).firstUnknown ids = none ↔ ∀ i ∈ ids, u.Records i := by
  rw [Aliases.firstUnknown_eq_none]
  exact forall₂_congr fun _ _ => knows_iff_records

/-! ## parts of a list -/

theorem firstUnrecorded_append {ids ids' : List Ident} {i : Ident} :
    u.FirstUnrecorded (ids ++ ids') i ↔
      u.FirstUnrecorded ids i ∨ (∀ j ∈ ids, u.Records j) ∧ u.FirstUnrecorded ids' i := by
  simp only [← firstUnknown_eq_some_iff, ← firstUnknown_eq_none_iff, Aliases.firstUnknown_append,
    Option.or_eq_some_iff]

/-- the first one of a unit is the first one of the first part that has any -/
theorem firstUnrecorded_flatMap {α : Type} {part : α → List Ident} {xs : List α} {i : Ident} :
    u.FirstUnrecorded (xs.flatMap part) i ↔ ∃ before x after, xs = before ++ x :: after ∧
      (∀ y ∈ before, ∀ j ∈ part y, u.Records j) ∧ u.FirstUnrecorded (part x) i := by
  induction xs with
  | nil => simp [FirstUnrecorded]
  | cons x xs ih =>
    rw [List.flatMap_cons, firstUnrecorded_append, ih]
    constructor
    · rintro (hx | ⟨hx, before, y, after, rfl, hbefore, hy⟩)
      · exact ⟨[], x, xs, rfl, fun _ h => (List.not_mem_nil h).elim, hx⟩
      · exact ⟨x :: before, y, after, rfl, List.forall_mem_cons.mpr ⟨hx, hbefore⟩, hy⟩
    · rintro ⟨_ | ⟨_, before⟩, y, after, hxs, hbefore, hy⟩
      · cases hxs
        exact .inl hy
      · cases hxs
        obtain ⟨hx, hbefore⟩ := List.forall_mem_cons.mp hbefore
        exact .inr ⟨hx, before, y, after, rfl, hbefore, hy⟩

/-! ## the outcome -/

structure RendersExactly (u : SourceUnit) : Prop where
  ok_iff : ∀ text, u.render = .ok text ↔
    (∀ i ∈ u.looksUp, u.Records i) ∧ text = linesText u.lines
  error_iff : ∀ e, u.render = .error e ↔ ∃ i, u.FirstUnrecorded u.looksUp i ∧ e = .unrecorded i
  fails_iff : (∃ e, u.render = .error e) ↔ ∃ i ∈ u.looksUp, ¬u.Records i
  /-- the declaration that writing stops in -/
  stops_iff : ∀ i, u.render = .error (.unrecorded i) ↔
    ∃ before d after, u.declarations = before ++ d :: after ∧
      (∀ d' ∈ before, ∀ j ∈ d'.looksUp, u.Records j) ∧ u.FirstUnrecorded d.looksUp i
  /-- no identifier is asked for without use, and none is written without being asked for -/
  shown : ∀ i, i ∈ u.looksUp ↔ i ∈ u.shown

theorem render_eq_ok_iff {text : String} :
    u.render = .ok text ↔ (∀ i ∈ u.looksUp, u.Records i) ∧ text = linesText u.lines := by
  rw [← firstUnknown_eq_none_iff, render_eq]
  cases (Aliases.allocate u).firstUnknown u.looksUp with
  | none => simp [eq_comm]
  | some i => simp

theorem render_eq_error_iff {e : RenderError} :
    u.render = .error e ↔ ∃ i, u.FirstUnrecorded u.looksUp i ∧ e = .unrecorded i := by
  simp only [← firstUnknown_eq_some_iff]
  rw [render_eq]
  cases (Aliases.allocate u).firstUnknown u.looksUp with
  | none => simp
  | some i => simp [eq_comm]

/-- **A unit has its text unless it leaves an identifier unrecorded**, and then the first such
identifier in the order of writing is the one it fails at.  Nothing is assumed about the unit. -/
theorem render_exact (u : SourceUnit) : u.RendersExactly where
  ok_iff _ := render_eq_ok_iff
  error_iff _ := render_eq_error_iff
  fails_iff := by
    have herror : (∃ e, u.render = .error e) ↔ ¬∃ text, u.render = .ok text := by
      cases u.render <;> simp
    rw [herror]
    simp [render_eq_ok_iff]
  stops_iff i := by
    rw [render_eq_error_iff, ← firstUnrecorded_flatMap]
    constructor
    · rintro ⟨j, hj, h⟩
      cases h
      exact hj
    · intro h
      exact ⟨i, h, rfl⟩
  shown i := by
    rw [shown, mem_idents_outlineAll, looksUp, List.mem_flatMap]

end SourceUnit

end RpcAdapters
