import Mathlib.Data.List.Forall2

/-!
# Steps taken in order

A step is taken for every element of a list, one after the other, up to the first that fails.

* `bind_eq_ok_iff`, `mapError_eq_ok_iff`   one step after another;
* `eq_ok_iff_of_total`, `eq_error_iff_of_total`   what a step gives, from descriptions of results and errors;
* `mapM_eq_ok_iff`      all steps succeed: results and elements go together one by one;
* `mapM_eq_error_iff`   a step fails, and those before it succeed;
* `failure?`            what steps fail with; `failure?_bind`, `failure?_mapM` say how it is put together.
-/

namespace RpcAdapters

theorem bind_eq_ok_iff {ε α β : Type} {x : Except ε α} {f : α → Except ε β} {b : β} :
    x >>= f = .ok b ↔ ∃ a, x = .ok a ∧ f a = .ok b := by
  cases x with
  | error e => simp [bind, Except.bind]
  | ok a => simp [bind, Except.bind]

theorem bind_eq_error_iff {ε α β : Type} {x : Except ε α} {f : α → Except ε β} {e : ε} :
    x >>= f = .error e ↔ x = .error e ∨ ∃ a, x = .ok a ∧ f a = .error e := by
  cases x with
  | error e' => simp [bind, Except.bind]
  | ok a => simp [bind, Except.bind]

theorem mapError_eq_ok_iff {ε ε' α : Type} {x : Except ε α} {g : ε → ε'} {a : α} :
    x.mapError g = .ok a ↔ x = .ok a := by
  cases x <;> simp [Except.mapError]

theorem mapError_eq_error_iff {ε ε' α : Type} {x : Except ε α} {g : ε → ε'} {e : ε'} :
    x.mapError g = .error e ↔ ∃ cause, x = .error cause ∧ g cause = e := by
  cases x <;> simp [Except.mapError]

section
variable {ε α : Type} {x : Except ε α} {P : α → Prop} {Q : ε → Prop}

/-- if results and errors are described, and one of the descriptions always fits, they are exact -/
theorem eq_ok_iff_of_total (hok : ∀ a, P a → x = .ok a) (herror : ∀ e, Q e → x = .error e)
    (htotal : (∃ a, P a) ∨ ∃ e, Q e) {a : α} : x = .ok a ↔ P a := by
  constructor
  · intro h
    obtain ⟨b, hb⟩ | ⟨e, he⟩ := htotal
    · obtain rfl : b = a := Except.ok.inj ((hok b hb).symm.trans h)
      exact hb
    · rw [herror e he] at h
      cases h
  · exact hok a

theorem eq_error_iff_of_total (hok : ∀ a, P a → x = .ok a) (herror : ∀ e, Q e → x = .error e)
    (htotal : (∃ a, P a) ∨ ∃ e, Q e) {e : ε} : x = .error e ↔ Q e := by
  constructor
  · intro h
    obtain ⟨b, hb⟩ | ⟨e', he⟩ := htotal
    · rw [hok b hb] at h
      cases h
    · obtain rfl : e' = e := Except.error.inj ((herror e' he).symm.trans h)
      exact he
  · exact herror e

end

theorem pure_eq_ok_iff {ε α : Type} {a b : α} : (pure a : Except ε α) = .ok b ↔ a = b := by
  simp [pure, Except.pure]

theorem pure_ne_error {ε α : Type} {a : α} {e : ε} : (pure a : Except ε α) ≠ .error e := by
  simp [pure, Except.pure]

theorem exists_right_of_mem {α β : Type} {R : α → β → Prop} {xs : List α} {ys : List β} {x : α}
    (h : List.Forall₂ R xs ys) (hx : x ∈ xs) : ∃ y ∈ ys, R x y := by
  induction h with
  | nil => exact absurd hx List.not_mem_nil
  | cons hab _ ih =>
    rcases List.mem_cons.mp hx with rfl | hx
    · exact ⟨_, List.mem_cons_self .., hab⟩
    · obtain ⟨y, hy, hxy⟩ := ih hx
      exact ⟨y, List.mem_cons_of_mem _ hy, hxy⟩

theorem map_eq_map_of_forall₂ {α β γ : Type} {R : α → β → Prop} {xs : List α} {ys : List β}
    {g : β → γ} {h : α → γ} (hxy : List.Forall₂ R xs ys) (heq : ∀ x y, R x y → g y = h x) :
    ys.map g = xs.map h := by
  induction hxy with
  | nil => rfl
  | cons hab _ ih => rw [List.map_cons, List.map_cons, heq _ _ hab, ih]

theorem flatMap_eq_flatMap_of_forall₂ {α β γ : Type} {R : α → β → Prop} {xs : List α} {ys : List β}
    {g : β → List γ} {h : α → List γ} (hxy : List.Forall₂ R xs ys)
    (heq : ∀ x y, R x y → g y = h x) : ys.flatMap g = xs.flatMap h := by
  rw [List.flatMap_def, map_eq_map_of_forall₂ hxy heq, ← List.flatMap_def]

theorem forall₂_zipWith_left {α β γ : Type} {R : α → β → Prop} {xs : List α} {ys : List β}
    (f : α → β → γ) (hxy : List.Forall₂ R xs ys) :
    List.Forall₂ (fun x z => ∃ y, R x y ∧ f x y = z) xs (List.zipWith f xs ys) := by
  induction hxy with
  | nil => exact .nil
  | cons hab _ ih => exact .cons ⟨_, hab, rfl⟩ ih

theorem forall₂_zipWith_right {α β γ : Type} {R : α → β → Prop} {xs : List α} {ys : List β}
    (f : α → β → γ) (hxy : List.Forall₂ R xs ys) :
    List.Forall₂ (fun z y => ∃ x, R x y ∧ f x y = z) (List.zipWith f xs ys) ys := by
  induction hxy with
  | nil => exact .nil
  | cons hab _ ih => exact .cons ⟨_, hab, rfl⟩ ih

theorem forall₂_trans {α β γ : Type} {R : α → β → Prop} {S : β → γ → Prop} {xs : List α}
    {ys : List β} {zs : List γ} (hxy : List.Forall₂ R xs ys) (hyz : List.Forall₂ S ys zs) :
    List.Forall₂ (fun x z => ∃ y, R x y ∧ S y z) xs zs := by
  induction hxy generalizing zs with
  | nil =>
    obtain rfl := List.forall₂_nil_left_iff.mp hyz
    exact .nil
  | cons hab _ ih =>
    obtain ⟨z, zs, hbz, hrest, rfl⟩ := List.forall₂_cons_left_iff.mp hyz
    exact .cons ⟨_, hab, hbz⟩ (ih hrest)

/-- if only an element itself goes with its image, only the list itself goes with its images -/
theorem forall₂_map_left_iff_eq {α β : Type} {f : α → β} {R : β → α → Prop} {xs : List α}
    (h : ∀ x ∈ xs, ∀ y, R (f x) y ↔ y = x) {ys : List α} :
    List.Forall₂ R (xs.map f) ys ↔ ys = xs := by
  induction xs generalizing ys with
  | nil => rw [List.map_nil, List.forall₂_nil_left_iff]
  | cons x xs ih =>
    rw [List.forall_mem_cons] at h
    rw [List.map_cons, List.forall₂_cons_left_iff]
    constructor
    · rintro ⟨y, ys, hy, hys, rfl⟩
      rw [(h.1 y).mp hy, (ih h.2).mp hys]
    · rintro rfl
      exact ⟨x, xs, (h.1 x).mpr rfl, (ih h.2).mpr rfl, rfl⟩

/-- keeping some of the elements keeps what goes with them -/
theorem forall₂_filter_zip {α β : Type} {R : α → β → Prop} {xs : List α} {ys : List β}
    (keep : α → Bool) (hxy : List.Forall₂ R xs ys) :
    List.Forall₂ R (xs.filter keep) (((xs.zip ys).filter fun pair => keep pair.1).map Prod.snd) := by
  induction hxy with
  | nil => exact .nil
  | @cons x y xs ys hab _ ih =>
    rw [List.zip_cons_cons, List.filter_cons, List.filter_cons]
    by_cases hx : keep x = true
    · rw [if_pos hx, if_pos hx, List.map_cons]
      exact .cons hab ih
    · rw [if_neg hx, if_neg hx]
      exact ih

/-- where one thing goes with each element, two lists are mapped in the same way -/
theorem exists_map_of_rightUnique {α β : Type} [Inhabited β] {R : α → β → Prop}
    (hR : Relator.RightUnique R) : ∃ f : α → β, ∀ {xs ys}, List.Forall₂ R xs ys → ys = xs.map f := by
  classical
  let f (x : α) : β := if h : ∃ y, R x y then h.choose else default
  refine ⟨f, fun {xs ys} h => ?_⟩
  induction h with
  | nil => rfl
  | @cons x y xs ys hxy _ ih =>
    have hx : ∃ y, R x y := ⟨y, hxy⟩
    have hf : f x = y := (dif_pos hx).trans (hR hx.choose_spec hxy)
    rw [List.map_cons, hf, ih]

theorem nodup_map_iff_of_forall₂ {α β γ δ : Type} {R : α → β → Prop} {xs : List α} {ys : List β}
    {f : α → γ} {g : β → δ} (h : List.Forall₂ R xs ys)
    (heq : ∀ x y x' y', R x y → R x' y' → (g y = g y' ↔ f x = f x')) :
    (ys.map g).Nodup ↔ (xs.map f).Nodup := by
  induction h with
  | nil => exact iff_of_true .nil .nil
  | @cons x y xs ys hxy hrest ih =>
    have hmem : g y ∈ ys.map g ↔ f x ∈ xs.map f := by
      rw [List.mem_map, List.mem_map]
      constructor
      · rintro ⟨y', hy', hg⟩
        obtain ⟨x', hx', hxy'⟩ := exists_right_of_mem hrest.flip hy'
        exact ⟨x', hx', (heq x' y' x y hxy' hxy).mp hg⟩
      · rintro ⟨x', hx', hf⟩
        obtain ⟨y', hy', hxy'⟩ := exists_right_of_mem hrest hx'
        exact ⟨y', hy', (heq x' y' x y hxy' hxy).mpr hf⟩
    rw [List.map_cons, List.map_cons, List.nodup_cons, List.nodup_cons, hmem, ih]

theorem length_flatMap_of_forall₂ {α β γ δ : Type} {R : α → β → Prop} {xs : List α} {ys : List β}
    {g : β → List γ} {h : α → List δ} (hxy : List.Forall₂ R xs ys)
    (hlength : ∀ x y, R x y → (g y).length = (h x).length) :
    (ys.flatMap g).length = (xs.flatMap h).length := by
  induction hxy with
  | nil => rfl
  | cons hab _ ih =>
    rw [List.flatMap_cons, List.flatMap_cons, List.length_append, List.length_append, ih,
      hlength _ _ hab]

section
variable {ε α β : Type} {step : α → Except ε β}

theorem mapM_cons_of_ok {x : α} {y : β} (xs : List α) (h : step x = .ok y) :
    (x :: xs).mapM step = (xs.mapM step).map (y :: ·) := by
  rw [List.mapM_cons, h]
  cases xs.mapM step <;> rfl

theorem mapM_cons_of_error {x : α} {e : ε} (xs : List α) (h : step x = .error e) :
    (x :: xs).mapM step = .error e := by
  rw [List.mapM_cons, h]
  rfl

theorem mapM_eq_ok_iff {xs : List α} {ys : List β} :
    xs.mapM step = .ok ys ↔ List.Forall₂ (fun x y => step x = .ok y) xs ys := by
  induction xs generalizing ys with
  | nil =>
    rw [List.forall₂_nil_left_iff, List.mapM_nil]
    show Except.ok [] = Except.ok ys ↔ ys = []
    rw [Except.ok.injEq, eq_comm]
  | cons x xs ih =>
    rw [List.forall₂_cons_left_iff]
    cases hx : step x with
    | error e =>
      rw [mapM_cons_of_error xs hx]
      simp
    | ok y =>
      rw [mapM_cons_of_ok xs hx]
      cases hxs : xs.mapM step with
      | error e => simp [← ih, hxs, Except.map]
      | ok zs => simp [← ih, hxs, Except.map, eq_comm]

theorem mapM_eq_error_iff {xs : List α} {e : ε} :
    xs.mapM step = .error e ↔ ∃ before x after, xs = before ++ x :: after ∧
      (∀ y ∈ before, ∃ z, step y = .ok z) ∧ step x = .error e := by
  constructor
  · intro h
    induction xs with
    | nil => exact nomatch h
    | cons x xs ih =>
      cases hx : step x with
      | error e' =>
        rw [mapM_cons_of_error xs hx] at h
        obtain rfl : e' = e := Except.error.inj h
        exact ⟨[], x, xs, rfl, by simp, hx⟩
      | ok y =>
        rw [mapM_cons_of_ok xs hx] at h
        cases hxs : xs.mapM step with
        | ok ys => rw [hxs] at h; exact nomatch h
        | error e' =>
          rw [hxs] at h
          obtain ⟨before, z, after, rfl, hbefore, hz⟩ := ih (hxs.trans h)
          refine ⟨x :: before, z, after, rfl, fun w hw => ?_, hz⟩
          rcases List.mem_cons.mp hw with rfl | hw
          · exact ⟨y, hx⟩
          · exact hbefore w hw
  · rintro ⟨before, x, after, rfl, hbefore, hx⟩
    induction before with
    | nil => exact mapM_cons_of_error after hx
    | cons y before ih =>
      obtain ⟨z, hz⟩ := hbefore y (List.mem_cons_self ..)
      rw [List.cons_append, mapM_cons_of_ok _ hz, ih fun w hw => hbefore w (List.mem_cons_of_mem _ hw)]
      rfl

theorem exists_mapM_eq_ok_iff {xs : List α} :
    (∃ ys, xs.mapM step = .ok ys) ↔ ∀ x ∈ xs, ∃ y, step x = .ok y := by
  constructor
  · rintro ⟨ys, h⟩ x hx
    obtain ⟨y, -, hy⟩ := exists_right_of_mem (mapM_eq_ok_iff.mp h) hx
    exact ⟨y, hy⟩
  · intro h
    cases hxs : xs.mapM step with
    | ok ys => exact ⟨ys, rfl⟩
    | error e =>
      obtain ⟨before, x, after, rfl, -, hx⟩ := mapM_eq_error_iff.mp hxs
      obtain ⟨y, hy⟩ := h x (by simp)
      exact nomatch hx.symm.trans hy

end

/-! ## the first failure -/

def failure? {ε α : Type} : Except ε α → Option ε
  | .error e => some e
  | .ok _ => none

section
variable {ε ε' α β : Type}

theorem failure?_eq_some_iff {x : Except ε α} {e : ε} : failure? x = some e ↔ x = .error e := by
  cases x <;> simp [failure?]

theorem failure?_eq_none_iff {x : Except ε α} : failure? x = none ↔ ∃ a, x = .ok a := by
  cases x <;> simp [failure?]

theorem failure?_mapError (x : Except ε α) (g : ε → ε') :
    failure? (x.mapError g) = (failure? x).map g := by
  cases x <;> rfl

/-- what comes second counts if the first step does not fail -/
theorem failure?_bind {x : Except ε α} {f : α → Except ε β} {second : Option ε}
    (h : ∀ a, x = .ok a → failure? (f a) = second) : failure? (x >>= f) = (failure? x).or second := by
  cases x with
  | error e => rfl
  | ok a => exact h a rfl

theorem failure?_bind_pure (x : Except ε α) (g : α → β) :
    failure? (x >>= fun a => pure (g a)) = failure? x := by
  cases x <;> rfl

theorem failure?_mapM (step : α → Except ε β) (xs : List α) :
    failure? (xs.mapM step) = xs.findSome? fun x => failure? (step x) := by
  induction xs with
  | nil => rfl
  | cons x xs ih =>
    rw [List.findSome?_cons, ← ih]
    cases hx : step x with
    | error e => rw [mapM_cons_of_error xs hx]; rfl
    | ok y =>
      rw [mapM_cons_of_ok xs hx]
      cases xs.mapM step <;> rfl

end

/-- looking through parts one after the other is looking through all that they are made of -/
theorem findSome?_flatMap {α β γ : Type} (xs : List α) (parts : α → List β) (f : β → Option γ) :
    (xs.flatMap parts).findSome? f = xs.findSome? fun x => (parts x).findSome? f := by
  induction xs with
  | nil => rfl
  | cons x xs ih =>
    rw [List.flatMap_cons, List.findSome?_append, ih, List.findSome?_cons]
    cases (parts x).findSome? f <;> rfl

end RpcAdapters
