/-!
# Import path overrides

An override gives a schema file the Go import path that its own options do not say.  Overrides are
kept in ascending order of file names, one per file, so equal contents are equal values.

* `find? file`       the override of a file;
* `set file path`    with the override of one file added or changed;
* `find?_set`        the last override of a file counts;
* `ext_find?`        two values that answer every `find?` alike are the same.
-/

namespace RpcAdapters

structure Overrides where
  entries : List (String × String) := []
  ascending : entries.Pairwise (fun a b => a.1 < b.1) := by exact .nil

namespace Overrides

/-! ## entries -/

def setEntry (file path : String) : List (String × String) → List (String × String)
  | [] => [(file, path)]
  | (f, p) :: rest =>
    if file < f then (file, path) :: (f, p) :: rest
    else if file = f then (file, path) :: rest
    else (f, p) :: setEntry file path rest

theorem fst_mem_setEntry {file path : String} {es : List (String × String)} {e : String × String}
    (h : e ∈ setEntry file path es) : e = (file, path) ∨ e ∈ es := by
  induction es with
  | nil => simpa [setEntry] using h
  | cons e' es ih =>
    obtain ⟨f, p⟩ := e'
    rw [setEntry] at h
    split at h
    · simpa using h
    · split at h
      · rcases List.mem_cons.mp h with h | h
        · exact .inl h
        · exact .inr (List.mem_cons_of_mem _ h)
      · rcases List.mem_cons.mp h with h | h
        · exact .inr (h ▸ List.mem_cons_self ..)
        · exact (ih h).imp id (List.mem_cons_of_mem _)

theorem ascending_setEntry (file path : String) {es : List (String × String)}
    (h : es.Pairwise fun a b => a.1 < b.1) :
    (setEntry file path es).Pairwise fun a b => a.1 < b.1 := by
  induction es with
  | nil => exact List.pairwise_singleton ..
  | cons e es ih =>
    obtain ⟨f, p⟩ := e
    obtain ⟨hf, hes⟩ := List.pairwise_cons.mp h
    rw [setEntry]
    split
    · rename_i hlt
      refine List.pairwise_cons.mpr ⟨fun a ha => ?_, h⟩
      rcases List.mem_cons.mp ha with rfl | ha
      · exact hlt
      · exact String.lt_trans hlt (hf a ha)
    · split
      · rename_i heq
        subst heq
        exact List.pairwise_cons.mpr ⟨hf, hes⟩
      · rename_i hlt hne
        refine List.pairwise_cons.mpr ⟨fun a ha => ?_, ih hes⟩
        rcases fst_mem_setEntry ha with rfl | ha
        · exact Std.lt_of_le_of_ne (String.not_lt.mp hlt) (Ne.symm hne)
        · exact hf a ha

theorem lookup_cons_eq (file f p : String) (es : List (String × String)) :
    ((f, p) :: es).lookup file = if file = f then some p else es.lookup file := by
  rw [List.lookup_cons]
  by_cases h : file = f
  · rw [if_pos h, h, beq_self_eq_true]
  · rw [if_neg h, beq_false_of_ne h]

theorem lookup_setEntry (file path file' : String) (es : List (String × String)) :
    (setEntry file path es).lookup file' = if file' = file then some path else es.lookup file' := by
  induction es with
  | nil => rw [setEntry, lookup_cons_eq]
  | cons e es ih =>
    obtain ⟨f, p⟩ := e
    rw [setEntry]
    split
    · rw [lookup_cons_eq]
    · split
      · rename_i heq
        subst heq
        rw [lookup_cons_eq, lookup_cons_eq]
        split <;> rfl
      · rename_i hne
        rw [lookup_cons_eq, ih, lookup_cons_eq]
        by_cases h : file' = f
        · rw [if_pos h, if_neg (h ▸ Ne.symm hne), if_pos h]
        · rw [if_neg h, if_neg h]

theorem lookup_eq_none_of_lt {es : List (String × String)} {f : String}
    (h : ∀ e ∈ es, f < e.1) : es.lookup f = none := by
  induction es with
  | nil => rfl
  | cons e es ih =>
    obtain ⟨f', p'⟩ := e
    have hlt := h _ (List.mem_cons_self ..)
    have hne : f ≠ f' := fun e => String.lt_irrefl f (e ▸ hlt)
    rw [lookup_cons_eq, if_neg hne]
    exact ih fun e he => h e (List.mem_cons_of_mem _ he)

/-- a file name before all others of a list that starts with another one is not there -/
theorem lookup_of_lt_head {es : List (String × String)} {f m q : String} (hlt : f < m)
    (h : ∀ e ∈ es, m < e.1) : ((m, q) :: es).lookup f = none :=
  lookup_eq_none_of_lt fun e he => by
    rcases List.mem_cons.mp he with rfl | he
    · exact hlt
    · exact String.lt_trans hlt (h e he)

theorem entries_eq_of_lookup {es fs : List (String × String)}
    (hes : es.Pairwise fun a b => a.1 < b.1) (hfs : fs.Pairwise fun a b => a.1 < b.1)
    (h : ∀ file, es.lookup file = fs.lookup file) : es = fs := by
  induction es generalizing fs with
  | nil =>
    cases fs with
    | nil => rfl
    | cons f fs =>
      have := h f.1
      rw [lookup_cons_eq, if_pos rfl] at this
      exact absurd this (by simp)
  | cons e es ih =>
    obtain ⟨n, p⟩ := e
    cases fs with
    | nil =>
      have := h n
      rw [lookup_cons_eq, if_pos rfl] at this
      exact absurd this (by simp)
    | cons f fs =>
      obtain ⟨m, q⟩ := f
      obtain ⟨he, hes'⟩ := List.pairwise_cons.mp hes
      obtain ⟨hf, hfs'⟩ := List.pairwise_cons.mp hfs
      have hnm : n = m := by
        rcases Std.lt_trichotomy n m with hlt | heq | hlt
        · have := h n
          rw [lookup_of_lt_head hlt hf, lookup_cons_eq, if_pos rfl] at this
          exact absurd this (by simp)
        · exact heq
        · have := h m
          rw [lookup_of_lt_head hlt he, lookup_cons_eq, if_pos rfl] at this
          exact absurd this (by simp)
      subst hnm
      have hpq := h n
      rw [lookup_cons_eq, if_pos rfl, lookup_cons_eq, if_pos rfl] at hpq
      have htail : es = fs := ih hes' hfs' fun file => ?_
      · rw [Option.some.inj hpq, htail]
      by_cases hfile : file = n
      · rw [hfile, lookup_eq_none_of_lt he, lookup_eq_none_of_lt hf]
      · have := h file
        rwa [lookup_cons_eq, if_neg hfile, lookup_cons_eq, if_neg hfile] at this

/-! ## overrides -/

def empty : Overrides := {}

def find? (o : Overrides) (file : String) : Option String := o.entries.lookup file

def set (o : Overrides) (file path : String) : Overrides :=
  ⟨setEntry file path o.entries, ascending_setEntry file path o.ascending⟩

theorem find?_empty (file : String) : empty.find? file = none := rfl

theorem find?_set (o : Overrides) (file path file' : String) :
    (o.set file path).find? file' = if file' = file then some path else o.find? file' :=
  lookup_setEntry ..

theorem ext_find? {o o' : Overrides} (h : ∀ file, o.find? file = o'.find? file) : o = o' := by
  obtain ⟨es, hes⟩ := o
  obtain ⟨fs, hfs⟩ := o'
  obtain rfl : es = fs := entries_eq_of_lookup hes hfs h
  rfl

/-- later pairs win -/
def ofList (pairs : List (String × String)) : Overrides :=
  pairs.foldl (fun o p => o.set p.1 p.2) empty

end Overrides

end RpcAdapters
