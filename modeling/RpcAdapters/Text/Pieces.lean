/-!
# Cutting texts apart

Texts are lists of characters here.

* `splitAll sep`     the pieces between all separators, one more than there are separators;
* `joinAll sep`      pieces put together, with separators between them;
* `splitFirst sep`   before and after the first separator;
* `lastPiece sep`    after the last separator;
* `dropPrefix?`, `dropSuffix?`   what is left when a given text is cut off;
* `dropTrailing c`   without the `c`s at the end;
* `contains pat`, `replaceFirst pat new`   a text inside another, and its first occurrence changed.
-/

namespace RpcAdapters.Text

/-! ## separators -/

def splitAll (sep : Char) : List Char → List (List Char)
  | [] => [[]]
  | c :: cs =>
    if c = sep then [] :: splitAll sep cs
    else
      match splitAll sep cs with
      | [] => [[c]]
      | p :: ps => (c :: p) :: ps

theorem splitAll_ne_nil (sep : Char) (cs : List Char) : splitAll sep cs ≠ [] := by
  cases cs with
  | nil => simp [splitAll]
  | cons c cs =>
    unfold splitAll
    split
    · simp
    · split <;> simp

theorem splitAll_of_not_mem {sep : Char} {cs : List Char} (h : sep ∉ cs) :
    splitAll sep cs = [cs] := by
  induction cs with
  | nil => rfl
  | cons c cs ih =>
    simp only [List.mem_cons, not_or] at h
    rw [splitAll, if_neg (Ne.symm h.1), ih h.2]

theorem splitAll_append {sep : Char} {p : List Char} (rest : List Char) (h : sep ∉ p) :
    splitAll sep (p ++ sep :: rest) = p :: splitAll sep rest := by
  induction p with
  | nil => simp [splitAll]
  | cons c cs ih =>
    simp only [List.mem_cons, not_or] at h
    rw [List.cons_append, splitAll, if_neg (Ne.symm h.1), ih h.2]

/-- a separator anywhere cuts the pieces before it from those after it -/
theorem splitAll_append_sep (sep : Char) (a b : List Char) :
    splitAll sep (a ++ sep :: b) = splitAll sep a ++ splitAll sep b := by
  induction a with
  | nil => simp [splitAll]
  | cons c cs ih =>
    rw [List.cons_append, splitAll, splitAll, ih]
    split
    · rfl
    · cases h : splitAll sep cs with
      | nil => exact absurd h (splitAll_ne_nil sep cs)
      | cons p ps => rfl

theorem not_mem_of_mem_splitAll {sep : Char} {cs p : List Char} (h : p ∈ splitAll sep cs) :
    sep ∉ p := by
  induction cs generalizing p with
  | nil =>
    rw [splitAll, List.mem_singleton] at h
    simp [h]
  | cons c cs ih =>
    rw [splitAll] at h
    split at h
    · rcases List.mem_cons.mp h with rfl | h
      · exact List.not_mem_nil
      · exact ih h
    · rename_i hc
      split at h
      · rw [List.mem_singleton] at h
        simp [h, Ne.symm hc]
      · rename_i q qs hq
        rcases List.mem_cons.mp h with rfl | h
        · exact List.not_mem_cons_of_ne_of_not_mem (Ne.symm hc) (ih (hq ▸ List.mem_cons_self ..))
        · exact ih (hq ▸ List.mem_cons_of_mem _ h)

def joinAll (sep : Char) : List (List Char) → List Char
  | [] => []
  | [p] => p
  | p :: q :: ps => p ++ sep :: joinAll sep (q :: ps)

theorem splitAll_joinAll {sep : Char} {ps : List (List Char)} (h : ∀ p ∈ ps, sep ∉ p)
    (hne : ps ≠ []) : splitAll sep (joinAll sep ps) = ps := by
  induction ps with
  | nil => exact absurd rfl hne
  | cons p ps ih =>
    have hp := h p (List.mem_cons_self ..)
    cases ps with
    | nil => exact splitAll_of_not_mem hp
    | cons q ps =>
      rw [joinAll, splitAll_append _ hp,
        ih (fun r hr => h r (List.mem_cons_of_mem _ hr)) (List.cons_ne_nil _ _)]

theorem joinAll_splitAll (sep : Char) (cs : List Char) : joinAll sep (splitAll sep cs) = cs := by
  induction cs with
  | nil => rfl
  | cons c cs ih =>
    rw [splitAll]
    cases h : splitAll sep cs with
    | nil => exact absurd h (splitAll_ne_nil sep cs)
    | cons p ps =>
      rw [h] at ih
      split
      · rename_i hc; rw [joinAll, ih, hc]; rfl
      · cases ps with
        | nil => rw [joinAll] at ih ⊢; rw [ih]
        | cons q qs => rw [joinAll] at ih ⊢; rw [← ih]; rfl

def splitFirst (sep : Char) : List Char → Option (List Char × List Char)
  | [] => none
  | c :: cs =>
    if c = sep then some ([], cs) else (splitFirst sep cs).map fun p => (c :: p.1, p.2)

theorem splitFirst_append {sep : Char} {a : List Char} (b : List Char) (h : sep ∉ a) :
    splitFirst sep (a ++ sep :: b) = some (a, b) := by
  induction a with
  | nil => simp [splitFirst]
  | cons c cs ih =>
    simp only [List.mem_cons, not_or] at h
    rw [List.cons_append, splitFirst, if_neg (Ne.symm h.1), ih h.2]; rfl

theorem splitFirst_eq_some {sep : Char} {cs a b : List Char}
    (h : splitFirst sep cs = some (a, b)) : cs = a ++ sep :: b ∧ sep ∉ a := by
  induction cs generalizing a b with
  | nil => simp [splitFirst] at h
  | cons c cs ih =>
    rw [splitFirst] at h
    split at h
    · rename_i hc
      obtain ⟨rfl, rfl⟩ : [] = a ∧ cs = b := by simpa using h
      exact ⟨by rw [hc]; rfl, by simp⟩
    · rename_i hc
      obtain ⟨⟨a', b'⟩, hs, he⟩ := Option.map_eq_some_iff.mp h
      obtain ⟨rfl, rfl⟩ : c :: a' = a ∧ b' = b := by simpa using he
      obtain ⟨rfl, hn⟩ := ih hs
      exact ⟨rfl, by simp [hn, Ne.symm hc]⟩

theorem splitFirst_eq_none {sep : Char} {cs : List Char} :
    splitFirst sep cs = none ↔ sep ∉ cs := by
  induction cs with
  | nil => simp [splitFirst]
  | cons c cs ih =>
    rw [splitFirst]
    split
    · rename_i hc; simp [hc]
    · rename_i hc; simp [ih, Ne.symm hc]

def lastPiece (sep : Char) (cs : List Char) : List Char :=
  (cs.reverse.takeWhile (· != sep)).reverse

theorem lastPiece_append_of_not_mem {sep : Char} (a : List Char) {b : List Char} (h : sep ∉ b) :
    lastPiece sep (a ++ b) = lastPiece sep a ++ b := by
  have hp : ∀ c ∈ b.reverse, (c != sep) = true := fun c hc => by
    simpa using fun e : c = sep => h (e ▸ List.mem_reverse.mp hc)
  rw [lastPiece, lastPiece, List.reverse_append, List.takeWhile_append_of_pos hp,
    List.reverse_append, List.reverse_reverse]

theorem lastPiece_of_not_mem {sep : Char} {cs : List Char} (h : sep ∉ cs) :
    lastPiece sep cs = cs :=
  lastPiece_append_of_not_mem [] h

theorem lastPiece_append {sep : Char} (a : List Char) {b : List Char} (h : sep ∉ b) :
    lastPiece sep (a ++ sep :: b) = b := by
  have hsep : lastPiece sep (a ++ [sep]) = [] := by simp [lastPiece]
  rw [List.append_cons, lastPiece_append_of_not_mem (a ++ [sep]) h, hsep, List.nil_append]

theorem lastPiece_eq_nil_iff {sep : Char} {cs : List Char} :
    lastPiece sep cs = [] ↔ cs = [] ∨ ∃ p, cs = p ++ [sep] := by
  rcases List.eq_nil_or_concat cs with rfl | ⟨p, c, rfl⟩
  · exact iff_of_true rfl (.inl rfl)
  · rw [List.concat_eq_append, lastPiece, List.reverse_append, List.reverse_singleton,
      List.singleton_append, List.takeWhile_cons]
    by_cases hc : c = sep <;> simp [hc]

theorem not_mem_lastPiece (sep : Char) (cs : List Char) : sep ∉ lastPiece sep cs := by
  intro h
  have hall := List.all_takeWhile (p := (· != sep)) (l := cs.reverse)
  simpa using List.all_eq_true.mp hall sep (List.mem_reverse.mp h)

/-! ## ends -/

def dropPrefix? : List Char → List Char → Option (List Char)
  | [], cs => some cs
  | _ :: _, [] => none
  | p :: ps, c :: cs => if p = c then dropPrefix? ps cs else none

theorem dropPrefix?_eq_some_iff {p cs rest : List Char} :
    dropPrefix? p cs = some rest ↔ cs = p ++ rest := by
  induction p generalizing cs with
  | nil => simp [dropPrefix?]
  | cons x p ih =>
    cases cs with
    | nil => simp [dropPrefix?]
    | cons c cs =>
      rw [dropPrefix?]
      split
      · rename_i h; simp [ih, h]
      · rename_i h
        simp only [List.cons_append, List.cons.injEq, reduceCtorEq, false_iff, not_and]
        exact fun e => absurd e.symm h

/-- what stands before the given end of a text -/
def dropSuffix? (suffix cs : List Char) : Option (List Char) :=
  (dropPrefix? suffix.reverse cs.reverse).map List.reverse

theorem dropSuffix?_eq_some_iff {suffix cs stem : List Char} :
    dropSuffix? suffix cs = some stem ↔ cs = stem ++ suffix := by
  unfold dropSuffix?
  rw [Option.map_eq_some_iff]
  constructor
  · rintro ⟨r, h, rfl⟩
    have := congrArg List.reverse (dropPrefix?_eq_some_iff.mp h)
    simpa using this
  · rintro rfl
    exact ⟨stem.reverse, dropPrefix?_eq_some_iff.mpr (by simp), by simp⟩

def startsWith (p cs : List Char) : Bool := (dropPrefix? p cs).isSome

def endsWith (suffix cs : List Char) : Bool := (dropSuffix? suffix cs).isSome

theorem startsWith_iff {p cs : List Char} : startsWith p cs = true ↔ ∃ rest, cs = p ++ rest := by
  simp [startsWith, Option.isSome_iff_exists, dropPrefix?_eq_some_iff]

theorem startsWith_singleton (x c : Char) (cs : List Char) :
    startsWith [x] (c :: cs) = decide (x = c) := by
  rw [startsWith, dropPrefix?]
  by_cases h : x = c
  · rw [if_pos h, decide_eq_true h]
    rfl
  · rw [if_neg h, decide_eq_false h]
    rfl

theorem endsWith_iff {suffix cs : List Char} :
    endsWith suffix cs = true ↔ ∃ stem, cs = stem ++ suffix := by
  simp [endsWith, Option.isSome_iff_exists, dropSuffix?_eq_some_iff]

theorem endsWith_eq_decide (suffix cs : List Char) : endsWith suffix cs = decide (suffix <:+ cs) := by
  rw [Bool.eq_iff_iff, endsWith_iff, decide_eq_true_iff]
  exact exists_congr fun stem => eq_comm

def dropTrailing (c : Char) (cs : List Char) : List Char :=
  (cs.reverse.dropWhile (· == c)).reverse

/-! ## occurrences -/

def contains (pat : List Char) : List Char → Bool
  | [] => startsWith pat []
  | c :: cs => startsWith pat (c :: cs) || contains pat cs

def replaceFirst (pat new : List Char) : List Char → List Char
  | [] => if pat = [] then new else []
  | c :: cs =>
    match dropPrefix? pat (c :: cs) with
    | some rest => new ++ rest
    | none => c :: replaceFirst pat new cs

end RpcAdapters.Text
