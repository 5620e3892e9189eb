import Mathlib.Data.List.Nodup
import Mathlib.Data.List.Perm.Subperm
import RpcAdapters.Proofs.Naming.Identifiers
import RpcAdapters.Proofs.Source.Writing
import RpcAdapters.Proofs.Text.ByteOrder

/-!
# Aliases tell packages apart

Every imported package of a file gets one alias, and no other name of the file can be mistaken for it.

* `Tries taken base s n r`          trying `s`, then `base` with `n`, `n + 1`, … ends with the free `r`;
* `Chosen taken base r`             `r` is `base`, or `base` with the least number that makes it free;
* `tries_freeAlias`, `chosen_freeAlias`   a free alias is found so;
* `Aliases.assign_append`           what one path adds to the aliases handed out before it;
* `Aliases.eq_of_qualify_eq`        what is written for an identifier says which one it is;
* `SourceUnit.aliases_exact`        the aliases of any unit.
-/

namespace RpcAdapters

/-! ## trying names -/

/-- the search for a free name as it goes on: a name that is taken makes it try the next number -/
inductive Tries (taken : List String) (base : String) : String → Nat → String → Prop where
  | free {s : String} {n : Nat} (h : s ∉ taken) : Tries taken base s n s
  | next {s r : String} {n : Nat} (h : s ∈ taken)
      (rest : Tries taken base (base ++ Text.decimal n) (n + 1) r) : Tries taken base s n r

inductive Chosen (taken : List String) (base : String) : String → Prop where
  | plain (h : base ∉ taken) : Chosen taken base base
  | numbered {n : Nat} (h : base ∈ taken) (hpos : 1 ≤ n) (hfree : base ++ Text.decimal n ∉ taken)
      (hleast : ∀ k, 1 ≤ k → k < n → base ++ Text.decimal k ∈ taken) :
      Chosen taken base (base ++ Text.decimal n)

theorem numbered_of_pos (base : String) {n : Nat} (h : 1 ≤ n) :
    numbered base n = base ++ Text.decimal n := by
  rw [numbered, if_neg (by omega)]

section
variable (taken : List String) (base : String)

/-- there are more numbers than names that are taken -/
theorem exists_numbered_not_mem : ∃ n, n < taken.length + 1 ∧ numbered base n ∉ taken := by
  by_contra hnone
  have hall : ∀ n, n < taken.length + 1 → numbered base n ∈ taken := by
    intro n hn
    by_contra hfree
    exact hnone ⟨n, hn, hfree⟩
  have hnodup : ((List.range (taken.length + 1)).map (numbered base)).Nodup :=
    List.nodup_range.map fun _ _ h => numbered_injective h
  have hsubset : (List.range (taken.length + 1)).map (numbered base) ⊆ taken := by
    intro s hs
    obtain ⟨n, hn, rfl⟩ := List.mem_map.mp hs
    exact hall n (List.mem_range.mp hn)
  have hlength := (List.subperm_of_subset hnodup hsubset).length_le
  rw [List.length_map, List.length_range] at hlength
  omega

theorem freeNumber_spec : numbered base (freeNumber taken base) ∉ taken ∧
    ∀ k, k < freeNumber taken base → numbered base k ∈ taken := by
  unfold freeNumber
  cases hfind : (List.range (taken.length + 1)).find? fun n => !taken.contains (numbered base n) with
  | none =>
    obtain ⟨n, hn, hfree⟩ := exists_numbered_not_mem taken base
    have htaken := List.find?_eq_none.mp hfind n (List.mem_range.mpr hn)
    exact absurd (by simpa using htaken) hfree
  | some n =>
    obtain ⟨hfree, -, hbelow⟩ := List.find?_range_eq_some.mp hfind
    rw [Option.getD_some]
    exact ⟨by simpa using hfree, fun k hk => by simpa using hbelow k hk⟩

theorem freeAlias_not_mem : freeAlias taken base ∉ taken := (freeNumber_spec taken base).1

/-- trying ends, at the name that is chosen -/
theorem tries_freeAlias : Tries taken base base 1 (freeAlias taken base) := by
  obtain ⟨hfree, hbelow⟩ := freeNumber_spec taken base
  -- backwards from the number that ends the search
  have hfrom : ∀ left k, k + left = freeNumber taken base →
      Tries taken base (numbered base k) (k + 1) (freeAlias taken base) := by
    intro left
    induction left with
    | zero =>
      rintro k rfl
      exact .free hfree
    | succ left ih =>
      intro k hk
      refine .next (hbelow k (by omega)) ?_
      rw [← numbered_of_pos base (by omega)]
      exact ih (k + 1) (by omega)
  exact hfrom (freeNumber taken base) 0 (Nat.zero_add _)

theorem chosen_freeAlias : Chosen taken base (freeAlias taken base) := by
  obtain ⟨hfree, hbelow⟩ := freeNumber_spec taken base
  unfold freeAlias
  cases hn : freeNumber taken base with
  | zero =>
    rw [hn] at hfree
    exact .plain hfree
  | succ n =>
    rw [hn] at hfree hbelow
    rw [numbered_of_pos base (by omega)] at hfree ⊢
    refine .numbered (hbelow 0 (by omega)) (by omega) hfree fun k hpos hk => ?_
    rw [← numbered_of_pos base hpos]
    exact hbelow k hk

example : freeAlias ["model", "err", "model1"] "model" = "model2" := by decide +kernel

end

theorem isIdentifier_numbered {base : String} (h : Naming.IsIdentifier base) (n : Nat) :
    Naming.IsIdentifier (numbered base n) := by
  unfold numbered
  split
  · exact h
  · exact h.append_decimal n

/-! ## one alias for each path -/

theorem nodup_eraseDups (xs : List String) : xs.eraseDups.Nodup := by
  induction hn : xs.length using Nat.strongRecOn generalizing xs with
  | ind n ih =>
    cases xs with
    | nil => exact .nil
    | cons x xs =>
      rw [List.eraseDups_cons, List.nodup_cons]
      refine ⟨by simp, ih _ ?_ _ rfl⟩
      rw [← hn, List.length_cons]
      exact Nat.lt_succ_of_le (List.length_filter_le ..)

theorem SourceUnit.nodup_importedPaths (u : SourceUnit) : u.importedPaths.Nodup := nodup_eraseDups _

namespace Aliases

/-- the names that are not free any more, the latest first -/
def takenBy (entries : List (String × String)) (used : List String) : List String :=
  (entries.map Prod.snd).reverse ++ used

theorem takenBy_cons (e : String × String) (entries : List (String × String)) (used : List String) :
    takenBy (e :: entries) used = takenBy entries (e.2 :: used) := by
  rw [takenBy, takenBy, List.map_cons, List.reverse_cons, List.append_assoc]
  rfl

theorem assign_append (used before after : List String) :
    assign used (before ++ after)
      = assign used before ++ assign (takenBy (assign used before) used) after := by
  induction before generalizing used with
  | nil => rfl
  | cons p before ih =>
    rw [List.cons_append, assign, assign, ih, takenBy_cons]
    rfl

theorem alias_of_assign_eq {used paths : List String} {before after : List (String × String)}
    {e : String × String} (h : assign used paths = before ++ e :: after) :
    e.2 = freeAlias (takenBy before used) (Naming.packageName e.1) := by
  have hpaths : paths = before.map Prod.fst ++ e.1 :: after.map Prod.fst := by
    rw [← map_fst_assign used paths, h, List.map_append, List.map_cons]
  have hassign := assign_append used (before.map Prod.fst) (e.1 :: after.map Prod.fst)
  rw [← hpaths, h] at hassign
  have hlength : before.length = (assign used (before.map Prod.fst)).length := by
    have hfst := congrArg List.length (map_fst_assign used (before.map Prod.fst))
    rw [List.length_map, List.length_map] at hfst
    exact hfst.symm
  obtain ⟨hbefore, hrest⟩ := List.append_inj hassign hlength
  rw [← hbefore, assign] at hrest
  exact congrArg Prod.snd (List.cons.inj hrest).1

theorem nodup_aliases_assign (used paths : List String) :
    ((assign used paths).map Prod.snd).Nodup ∧ ∀ e ∈ assign used paths, e.2 ∉ used := by
  induction paths generalizing used with
  | nil => exact ⟨.nil, fun e he => absurd he List.not_mem_nil⟩
  | cons p ps ih =>
    obtain ⟨hnodup, hfresh⟩ := ih (freeAlias used (Naming.packageName p) :: used)
    have hhead := freeAlias_not_mem used (Naming.packageName p)
    rw [assign]
    constructor
    · rw [List.map_cons, List.nodup_cons]
      refine ⟨fun hmem => ?_, hnodup⟩
      obtain ⟨e, he, heq⟩ := List.mem_map.mp hmem
      exact hfresh e he (heq ▸ List.mem_cons_self ..)
    · intro e he
      rcases List.mem_cons.mp he with rfl | he
      · exact hhead
      · exact fun hused => hfresh e he (List.mem_cons_of_mem _ hused)

theorem isIdentifier_of_mem_assign {used paths : List String} {e : String × String}
    (he : e ∈ assign used paths) : Naming.IsIdentifier e.2 := by
  induction paths generalizing used with
  | nil => exact absurd he List.not_mem_nil
  | cons p ps ih =>
    rcases List.mem_cons.mp he with rfl | he
    · exact isIdentifier_numbered (Naming.isIdentifier_packageName p) _
    · exact ih he

variable {u : SourceUnit}

theorem paths_allocate : (allocate u).entries.map Prod.fst = u.importedPaths := map_fst_assign _ _

theorem isIdentifier_of_mem_allocate {e : String × String} (he : e ∈ (allocate u).entries) :
    Naming.IsIdentifier e.2 := isIdentifier_of_mem_assign he

theorem existsUnique_alias {path : String} (h : path ∈ u.importedPaths) :
    ∃! short, (path, short) ∈ (allocate u).entries := by
  rw [← paths_allocate] at h
  obtain ⟨⟨_, short⟩, hmem, rfl⟩ := List.mem_map.mp h
  have hnodup : ((allocate u).entries.map Prod.fst).Nodup := paths_allocate ▸ u.nodup_importedPaths
  refine ⟨short, hmem, fun short' hmem' => ?_⟩
  exact (Prod.mk.inj (List.inj_on_of_nodup_map hnodup hmem' hmem rfl)).2

theorem path_eq_of_alias_eq {e e' : String × String} (he : e ∈ (allocate u).entries)
    (he' : e' ∈ (allocate u).entries) (h : e.2 = e'.2) : e = e' :=
  List.inj_on_of_nodup_map (nodup_aliases_assign reserved u.importedPaths).1 he he' h

/-! ## the listing -/

theorem perm_specs (a : Aliases) : a.specs.Perm a.entries := List.mergeSort_perm ..

theorem paths_specs_allocate (u : SourceUnit) :
    ((allocate u).specs.map Prod.fst).Perm u.importedPaths := by
  have h := (allocate u).perm_specs.map Prod.fst
  rwa [allocate, map_fst_assign] at h

theorem pairwise_specs_le (a : Aliases) : a.specs.Pairwise fun x y => x.1 ≤ y.1 := by
  have h := @List.pairwise_mergeSort (String × String) (fun x y => decide (x.1 ≤ y.1))
    (fun x y z hxy hyz => by
      simp only [decide_eq_true_eq] at hxy hyz ⊢
      exact String.le_trans hxy hyz)
    (fun x y => by simpa using String.le_total x.1 y.1) a.entries
  simp only [decide_eq_true_eq] at h
  exact h

/-- strictly, because no path is listed twice -/
theorem pairwise_specs_lt (u : SourceUnit) :
    ((allocate u).specs.map Prod.fst).Pairwise fun x y => Text.utf8 x < Text.utf8 y := by
  have hle : ((allocate u).specs.map Prod.fst).Pairwise (· ≤ ·) :=
    List.pairwise_map.mpr (allocate u).pairwise_specs_le
  have hnodup : ((allocate u).specs.map Prod.fst).Nodup :=
    (paths_specs_allocate u).nodup_iff.mpr u.nodup_importedPaths
  refine hle.imp₂ (fun x y hxy hne => ?_) hnodup
  exact Text.utf8_lt_utf8_iff.mpr (Std.lt_of_le_of_ne hxy hne)

/-! ## identifiers as they are written -/

/-- a known identifier is written bare in its own package, and else behind an alias of the block -/
theorem written_of_knows {a : Aliases} {i : Ident} (h : a.knows i = true) :
    (i.importPath = a.ownPath ∧ a.written i = i.name) ∨
      ∃ short, (i.importPath, short) ∈ a.specs ∧ a.written i = short ++ "." ++ i.name := by
  unfold written
  by_cases hown : i.importPath = a.ownPath
  · exact .inl ⟨hown, if_pos hown⟩
  · rw [if_neg hown]
    cases hl : a.entries.lookup i.importPath with
    | none => simp [knows, hown, hl] at h
    | some short =>
      obtain ⟨before, after, he, -⟩ := List.lookup_eq_some_iff.mp hl
      have hmem : (i.importPath, short) ∈ a.entries := he ▸ by simp
      exact .inr ⟨short, a.perm_specs.mem_iff.mpr hmem, rfl⟩

theorem knows_of_mem_references {i : Ident} (h : i ∈ u.references) : (allocate u).knows i = true := by
  rw [knows_allocate]
  by_cases hown : i.importPath = u.importPath
  · exact .inl hown
  · exact .inr (SourceUnit.mem_importedPaths.mpr ⟨hown, i, h, rfl⟩)

theorem toList_qualified (short name : String) :
    (short ++ "." ++ name).toList = short.toList ++ '.' :: name.toList := by
  rw [String.toList_append, String.toList_append, List.append_assoc]
  rfl

/-- the first dot ends the alias, since no alias has one -/
theorem append_dot_inj {short short' name name' : String} (h : Naming.IsIdentifier short)
    (h' : Naming.IsIdentifier short') (heq : short ++ "." ++ name = short' ++ "." ++ name') :
    short = short' ∧ name = name' := by
  have hdot := h.not_mem Naming.isIdentifierChar_dot
  have hdot' := h'.not_mem Naming.isIdentifierChar_dot
  have hsplit := congrArg (fun s : String => Text.splitFirst '.' s.toList) heq
  simp only [toList_qualified, Text.splitFirst_append _ hdot, Text.splitFirst_append _ hdot',
    Option.some.injEq, Prod.mk.injEq] at hsplit
  exact ⟨String.toList_inj.mp hsplit.1, String.toList_inj.mp hsplit.2⟩

theorem eq_of_written_eq {i j : Ident} (hi : (allocate u).knows i = true)
    (hj : (allocate u).knows j = true) (hidot : '.' ∉ i.name.toList) (hjdot : '.' ∉ j.name.toList)
    (h : (allocate u).written i = (allocate u).written j) : i = j := by
  have hdot : ∀ short name : String, '.' ∈ (short ++ "." ++ name).toList := fun short name => by
    rw [toList_qualified]
    simp
  obtain ⟨iname, ipath⟩ := i
  obtain ⟨jname, jpath⟩ := j
  rcases written_of_knows hi with ⟨hiown, hiw⟩ | ⟨short, hshort, hiw⟩ <;>
    rcases written_of_knows hj with ⟨hjown, hjw⟩ | ⟨short', hshort', hjw⟩ <;>
    rw [hiw, hjw] at h
  · exact (Ident.mk.injEq ..).mpr ⟨h, hiown.trans hjown.symm⟩
  · exact absurd (h ▸ hdot short' jname) hidot
  · exact absurd (h ▸ hdot short iname) hjdot
  · have hmem := (perm_specs _).mem_iff.mp hshort
    have hmem' := (perm_specs _).mem_iff.mp hshort'
    obtain ⟨rfl, hname⟩ := append_dot_inj (isIdentifier_of_mem_allocate hmem)
      (isIdentifier_of_mem_allocate hmem') h
    have hpath := path_eq_of_alias_eq hmem hmem' rfl
    exact (Ident.mk.injEq ..).mpr ⟨hname, (Prod.mk.inj hpath).1⟩

theorem eq_of_qualify_eq {i j : Ident} (hi : i ∈ u.references) (hj : j ∈ u.references)
    (hidot : '.' ∉ i.name.toList) (hjdot : '.' ∉ j.name.toList)
    (h : (allocate u).qualify i = (allocate u).qualify j) : i = j := by
  have hiknown := knows_of_mem_references hi
  have hjknown := knows_of_mem_references hj
  rw [qualify_of_knows hiknown, qualify_of_knows hjknown] at h
  exact eq_of_written_eq hiknown hjknown hidot hjdot (Except.ok.inj h)

end Aliases

/-! ## units -/

open Aliases

/-- what the aliases of a unit have to be -/
structure SourceUnit.AliasesExact (u : SourceUnit) : Prop where
  paths : (allocate u).entries.map Prod.fst = u.importedPaths
  once : ∀ path ∈ u.importedPaths, ∃! short, (path, short) ∈ (allocate u).entries
  distinct : ∀ e ∈ (allocate u).entries, ∀ e' ∈ (allocate u).entries, e.2 = e'.2 → e = e'
  unreserved : ∀ e ∈ (allocate u).entries, e.2 ∉ Bound.all ∧ e.2 ≠ "_" ∧
    e.2 ∉ Naming.predeclared ∧ e.2 ∉ Naming.keywords
  identifier : ∀ e ∈ (allocate u).entries, Naming.IsIdentifier e.2
  /-- path by path, with the aliases before it taken -/
  inOrder : ∀ before path short after,
    (allocate u).entries = before ++ (path, short) :: after →
      Tries (takenBy before reserved) (Naming.packageName path) (Naming.packageName path) 1 short ∧
      Chosen (takenBy before reserved) (Naming.packageName path) short
  qualified : ∀ i ∈ u.references, ∃ text, (allocate u).qualify i = .ok text
  readable : ∀ i ∈ u.references, ∀ j ∈ u.references, '.' ∉ i.name.toList → '.' ∉ j.name.toList →
    (allocate u).qualify i = (allocate u).qualify j → i.importPath = j.importPath ∧ i.name = j.name
  listed : (allocate u).specs.Perm (allocate u).entries
  ascending : ((allocate u).specs.map Prod.fst).Pairwise fun x y => Text.utf8 x < Text.utf8 y

/-- **Aliases tell packages apart**: in any unit each imported path has exactly one alias, an
identifier that nothing else in the file is called, found by trying the package name and then its
numbers. -/
theorem SourceUnit.aliases_exact (u : SourceUnit) : u.AliasesExact where
  paths := paths_allocate
  once _ h := existsUnique_alias h
  distinct _ he _ he' h := path_eq_of_alias_eq he he' h
  unreserved e he := by
    have hfresh : e.2 ∉ Bound.all ++ Naming.predeclared :=
      (nodup_aliases_assign reserved u.importedPaths).2 e he
    rw [List.mem_append, not_or] at hfresh
    refine ⟨hfresh.1, fun hblank => hfresh.1 ?_, hfresh.2,
      (isIdentifier_of_mem_allocate he).not_keyword⟩
    rw [hblank]
    decide
  identifier _ he := isIdentifier_of_mem_allocate he
  inOrder before path short after h := by
    have hshort : short = freeAlias (takenBy before reserved) (Naming.packageName path) :=
      alias_of_assign_eq h
    rw [hshort]
    exact ⟨tries_freeAlias _ _, chosen_freeAlias _ _⟩
  qualified _ hi := ⟨_, qualify_of_knows (knows_of_mem_references hi)⟩
  readable i hi j hj hidot hjdot h := by
    obtain rfl := eq_of_qualify_eq hi hj hidot hjdot h
    exact ⟨rfl, rfl⟩
  listed := perm_specs _
  ascending := pairwise_specs_lt u

end RpcAdapters
