import Mathlib.Data.List.Nodup

/-!
# Looking up keys

What is found under a key in a list of pairs is the value of the first pair with that key, and in the
list turned round that of the last one.

* `mem_of_lookup`, `lookup_of_mem`   a pair that is found is there; so is the other way round, if no key
                                     comes twice;
* `lookup_eq_of_mem_iff`             what is found, for the pairs of a function;
* `lookup_reverse_eq_some_iff`       in the list turned round, the last pair with the key is found;
* `lookup_reverse_of_perm`           the order of the pairs does not matter then;
* `lookup_reverse_insert`            pairs with other keys do not matter, wherever they are.
-/

namespace RpcAdapters

variable {κ α : Type} [BEq κ] [LawfulBEq κ] {xs ys zs : List (κ × α)} {k : κ} {v : α}

theorem mem_of_lookup (h : xs.lookup k = some v) : (k, v) ∈ xs := by
  obtain ⟨before, after, rfl, -⟩ := List.lookup_eq_some_iff.mp h
  simp

theorem mem_keys_of_lookup (h : xs.lookup k = some v) : k ∈ xs.map Prod.fst :=
  List.mem_map.mpr ⟨(k, v), mem_of_lookup h, rfl⟩

theorem lookup_of_mem (hnodup : (xs.map Prod.fst).Nodup) (h : (k, v) ∈ xs) :
    xs.lookup k = some v := by
  induction xs with
  | nil => exact absurd h List.not_mem_nil
  | cons head xs ih =>
    rw [List.map_cons, List.nodup_cons] at hnodup
    rw [List.lookup_cons]
    rcases List.mem_cons.mp h with rfl | h
    · simp
    · have hne : k ≠ head.1 := fun hk => hnodup.1 (hk ▸ List.mem_map_of_mem h)
      rw [beq_false_of_ne hne]
      exact ih hnodup.2 h

/-- a function, given by the pairs of its keys and values -/
theorem lookup_eq_of_mem_iff {f : κ → Option α} (h : ∀ k v, (k, v) ∈ xs ↔ f k = some v) (k : κ) :
    xs.lookup k = f k := by
  cases hlookup : xs.lookup k with
  | some v => exact ((h k v).mp (mem_of_lookup hlookup)).symm
  | none =>
    symm
    rw [Option.eq_none_iff_forall_ne_some]
    intro v hv
    have hne := List.lookup_eq_none_iff.mp hlookup (k, v) ((h k v).mpr hv)
    simp at hne

theorem lookup_reverse_eq_some_iff : xs.reverse.lookup k = some v ↔
    ∃ before after, xs = before ++ (k, v) :: after ∧ ∀ p ∈ after, p.1 ≠ k := by
  rw [List.lookup_eq_some_iff]
  constructor
  · rintro ⟨after, before, hxs, hafter⟩
    refine ⟨before.reverse, after.reverse, ?_, fun p hp => ?_⟩
    · rw [← List.reverse_reverse xs, hxs]
      simp
    · exact (bne_iff_ne.mp (hafter p (List.mem_reverse.mp hp))).symm
  · rintro ⟨before, after, rfl, hafter⟩
    refine ⟨after.reverse, before.reverse, by simp, fun p hp => ?_⟩
    exact bne_iff_ne.mpr (hafter p (List.mem_reverse.mp hp)).symm

theorem lookup_reverse_of_perm (hperm : xs.Perm ys) (hnodup : (xs.map Prod.fst).Nodup)
    (h : xs.reverse.lookup k = some v) : ys.reverse.lookup k = some v := by
  have hkeys : (ys.reverse.map Prod.fst).Nodup := by
    rw [List.map_reverse]
    exact List.nodup_reverse.mpr ((hperm.map Prod.fst).nodup_iff.mp hnodup)
  have hmem : (k, v) ∈ ys.reverse := by
    rw [List.mem_reverse, ← hperm.mem_iff, ← List.mem_reverse]
    exact mem_of_lookup h
  exact lookup_of_mem hkeys hmem

theorem lookup_reverse_insert (hkeys : ∀ j ∈ ys.map Prod.fst, j ∉ (xs ++ zs).map Prod.fst)
    (h : (xs ++ zs).reverse.lookup k = some v) :
    (xs ++ (ys ++ zs)).reverse.lookup k = some v := by
  have hnone : ys.reverse.lookup k = none := by
    cases hys : ys.reverse.lookup k with
    | none => rfl
    | some w =>
      have hk := mem_keys_of_lookup h
      have hj := mem_keys_of_lookup hys
      rw [List.map_reverse, List.mem_reverse] at hk hj
      exact absurd hk (hkeys k hj)
  rw [List.reverse_append, List.lookup_append] at h
  rw [List.reverse_append, List.reverse_append, List.lookup_append, List.lookup_append, hnone,
    Option.or_none]
  exact h

end RpcAdapters
