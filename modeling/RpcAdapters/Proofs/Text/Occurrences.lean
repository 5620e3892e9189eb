import Mathlib.Data.List.Infix
import RpcAdapters.Text.Pieces

/-!
# Occurrences of a text in another

Searching goes from left to right.  Over a stretch in which no occurrence begins it just passes on, and
so do replacing and counting; the first occurrence is the one after such a stretch.

* `PassesOver pat before rest`   no occurrence of `pat` begins in `before`, when `rest` comes after it;
* `FirstIn pat cs before after`  what stands around the first occurrence;
* `contains_iff`, `replaceFirst_of_firstIn`, `replaceFirst_of_not_isInfix`   the two functions on texts;
* `count pat cs`                 the occurrences met from left to right, none overlapping another;
* `apart_iff_le_count`           no text has more of them apart from each other than are counted.
-/

namespace RpcAdapters.Text

variable {pat new before after rest cs : List Char}

theorem startsWith_iff_isPrefix : startsWith pat cs = true ↔ pat <+: cs := by
  rw [startsWith_iff]
  exact exists_congr fun _ => eq_comm

theorem contains_iff : contains pat cs = true ↔ pat <:+: cs := by
  induction cs with
  | nil =>
    rw [contains, startsWith_iff_isPrefix, List.prefix_nil, List.infix_nil]
  | cons c cs ih =>
    rw [contains, Bool.or_eq_true, startsWith_iff_isPrefix, List.infix_cons_iff]
    exact or_congr_right ih

/-! ## passing on -/

/-- no occurrence of `pat` begins in `before`, when `rest` comes after it -/
def PassesOver (pat : List Char) : List Char → List Char → Prop
  | [], _ => True
  | c :: cs, rest => ¬ pat <+: c :: (cs ++ rest) ∧ PassesOver pat cs rest

theorem dropPrefix?_of_not_isPrefix (h : ¬ pat <+: cs) : dropPrefix? pat cs = none := by
  rw [Option.eq_none_iff_forall_ne_some]
  intro rest hrest
  exact h ⟨rest, (dropPrefix?_eq_some_iff.mp hrest).symm⟩

theorem replaceFirst_append (h : PassesOver pat before rest) :
    replaceFirst pat new (before ++ rest) = before ++ replaceFirst pat new rest := by
  induction before with
  | nil => rfl
  | cons c cs ih =>
    rw [List.cons_append, replaceFirst, dropPrefix?_of_not_isPrefix h.1]
    exact congrArg _ (ih h.2)

theorem passesOver_of_not_isInfix (h : ¬ pat <:+: cs) : PassesOver pat cs [] := by
  induction cs with
  | nil => trivial
  | cons c cs ih =>
    rw [List.infix_cons_iff, not_or] at h
    refine ⟨?_, ih h.2⟩
    rw [List.append_nil]
    exact h.1

/-- no occurrence begins where none of the characters is its first one -/
theorem passesOver_of_head {x : Char} {xs : List Char} (h : x ∉ before) (rest : List Char) :
    PassesOver (x :: xs) before rest := by
  induction before with
  | nil => trivial
  | cons c cs ih =>
    rw [List.mem_cons, not_or] at h
    refine ⟨?_, ih h.2⟩
    intro hprefix
    exact h.1 (List.cons_prefix_cons.mp hprefix).1

/-! ## the first occurrence -/

structure FirstIn (pat cs before after : List Char) : Prop where
  eq : cs = before ++ (pat ++ after)
  first : ¬ pat <:+: before ++ pat.dropLast

theorem append_dropLast_isPrefix (before pat after : List Char) :
    before ++ pat.dropLast <+: before ++ (pat ++ after) := by
  rw [List.prefix_append_right_inj]
  exact (List.dropLast_prefix pat).trans (List.prefix_append pat after)

/-- What begins in `before` and does not end there covers `rest` at least in part, so that it is there
already when `rest` is one character short of `pat`. -/
theorem passesOver_of_first (h : ¬ pat <:+: before ++ pat.dropLast) (after : List Char) :
    PassesOver pat before (pat ++ after) := by
  induction before with
  | nil => trivial
  | cons c cs ih =>
    rw [List.cons_append, List.infix_cons_iff, not_or] at h
    refine ⟨?_, ih h.2⟩
    intro hprefix
    have hshort : c :: (cs ++ pat.dropLast) <+: c :: (cs ++ (pat ++ after)) :=
      append_dropLast_isPrefix (c :: cs) pat after
    refine h.1 (List.prefix_of_prefix_length_le hprefix hshort ?_)
    rw [List.length_cons, List.length_append, List.length_dropLast]
    omega

/-- the same for another text in the place of `pat`, if that begins with a character foreign to `pat` -/
theorem passesOver_of_foreign {x : Char} {xs : List Char}
    (h : ¬ pat <:+: before ++ pat.dropLast) (hx : x ∉ pat) (after : List Char) :
    PassesOver pat before (x :: xs ++ after) := by
  induction before with
  | nil => trivial
  | cons c cs ih =>
    rw [List.cons_append, List.infix_cons_iff, not_or] at h
    refine ⟨?_, ih h.2⟩
    intro hprefix
    have hend : c :: (cs ++ (x :: xs ++ after)) = (c :: cs) ++ (x :: (xs ++ after)) := rfl
    rw [hend] at hprefix
    rcases List.prefix_or_prefix_of_prefix hprefix (List.prefix_append (c :: cs) _) with hin | hout
    · exact h.1 (hin.trans (List.prefix_append (c :: cs) pat.dropLast))
    · obtain ⟨more, rfl⟩ := hout
      rw [List.prefix_append_right_inj] at hprefix
      cases more with
      | nil =>
        refine h.1 ?_
        rw [List.append_nil]
        exact List.prefix_append (c :: cs) _
      | cons y ys =>
        obtain rfl : y = x := (List.cons_prefix_cons.mp hprefix).1
        exact hx (List.mem_append_right _ (List.mem_cons_self ..))

theorem exists_firstIn (hne : pat ≠ []) (h : pat <:+: cs) :
    ∃ before after, FirstIn pat cs before after := by
  induction cs with
  | nil =>
    rw [List.infix_nil] at h
    exact absurd h hne
  | cons c cs ih =>
    by_cases hprefix : pat <+: c :: cs
    · obtain ⟨after, hafter⟩ := hprefix
      refine ⟨[], after, hafter.symm, ?_⟩
      intro hinfix
      have hlength := hinfix.length_le
      have hpos := List.length_pos_iff.mpr hne
      rw [List.nil_append, List.length_dropLast] at hlength
      omega
    · obtain ⟨before, after, rfl, hfirst⟩ := ih ((List.infix_cons_iff.mp h).resolve_left hprefix)
      refine ⟨c :: before, after, rfl, ?_⟩
      rw [List.cons_append, List.infix_cons_iff, not_or]
      refine ⟨?_, hfirst⟩
      intro hshort
      exact hprefix (hshort.trans (append_dropLast_isPrefix (c :: before) pat after))

theorem replaceFirst_of_firstIn (hne : pat ≠ []) (h : FirstIn pat cs before after) :
    replaceFirst pat new cs = before ++ (new ++ after) := by
  have hpat : replaceFirst pat new (pat ++ after) = new ++ after := by
    have hdrop : dropPrefix? pat (pat ++ after) = some after := dropPrefix?_eq_some_iff.mpr rfl
    cases pat with
    | nil => exact absurd rfl hne
    | cons c cs =>
      rw [List.cons_append] at hdrop ⊢
      rw [replaceFirst, hdrop]
  rw [h.eq, replaceFirst_append (passesOver_of_first h.first after), hpat]

theorem replaceFirst_of_not_isInfix (hne : pat ≠ []) (h : ¬ pat <:+: cs) :
    replaceFirst pat new cs = cs := by
  have hcs : replaceFirst pat new (cs ++ []) = cs ++ replaceFirst pat new [] :=
    replaceFirst_append (passesOver_of_not_isInfix h)
  rw [List.append_nil, replaceFirst, if_neg hne, List.append_nil] at hcs
  exact hcs

/-! ## counting -/

/-- the occurrences met from left to right, after the given number of characters -/
def countAfter (pat : List Char) : Nat → List Char → Nat
  | _, [] => 0
  | skipped + 1, _ :: cs => countAfter pat skipped cs
  | 0, c :: cs =>
    if startsWith pat (c :: cs) then countAfter pat (pat.length - 1) cs + 1 else countAfter pat 0 cs

/-- the occurrences met from left to right; the search goes on after each of them -/
def count (pat cs : List Char) : Nat := countAfter pat 0 cs

theorem countAfter_append (pat skipped cs : List Char) :
    countAfter pat skipped.length (skipped ++ cs) = count pat cs := by
  induction skipped with
  | nil => rfl
  | cons c skipped ih => exact ih

theorem count_append (h : PassesOver pat before rest) :
    count pat (before ++ rest) = count pat rest := by
  induction before with
  | nil => rfl
  | cons c cs ih =>
    rw [← ih h.2]
    show countAfter pat 0 (c :: (cs ++ rest)) = _
    rw [countAfter, if_neg (startsWith_iff_isPrefix.not.mpr h.1)]
    rfl

theorem count_pat_append (hne : pat ≠ []) (after : List Char) :
    count pat (pat ++ after) = count pat after + 1 := by
  cases pat with
  | nil => exact absurd rfl hne
  | cons c cs =>
    have hprefix : c :: cs <+: c :: (cs ++ after) := List.prefix_append (c :: cs) after
    show countAfter (c :: cs) 0 (c :: (cs ++ after)) = _
    rw [countAfter, if_pos (startsWith_iff_isPrefix.mpr hprefix)]
    exact congrArg (· + 1) (countAfter_append (c :: cs) cs after)

theorem count_of_firstIn (hne : pat ≠ []) (h : FirstIn pat cs before after) :
    count pat cs = count pat after + 1 := by
  rw [h.eq, count_append (passesOver_of_first h.first after), count_pat_append hne]

/-- `new` neither begins nor ends an occurrence of `pat`: its first character is foreign to `pat`, and the
first one of `pat` is foreign to it -/
structure Foreign (pat new : List Char) : Prop where
  head : ∃ x xs, new = x :: xs ∧ x ∉ pat
  begins : ∃ x xs, pat = x :: xs ∧ x ∉ new

/-- an occurrence less, and no new one where the texts meet -/
theorem count_replaceFirst (hforeign : Foreign pat new) (h : pat <:+: cs) :
    count pat cs = count pat (replaceFirst pat new cs) + 1 := by
  obtain ⟨x, xs, rfl, hx⟩ := hforeign.head
  obtain ⟨y, ys, rfl, hy⟩ := hforeign.begins
  have hne : y :: ys ≠ [] := List.cons_ne_nil y ys
  obtain ⟨before, after, hfirst⟩ := exists_firstIn hne h
  rw [count_of_firstIn hne hfirst, replaceFirst_of_firstIn hne hfirst,
    count_append (passesOver_of_foreign hfirst.first hx after),
    count_append (passesOver_of_head hy after)]

/-! ## occurrences apart from each other -/

/-- there are that many occurrences, none overlapping another -/
inductive Apart (pat : List Char) : Nat → List Char → Prop
  | none (cs : List Char) : Apart pat 0 cs
  | next (before : List Char) {n : Nat} {after : List Char} (h : Apart pat n after) :
    Apart pat (n + 1) (before ++ (pat ++ after))

theorem Apart.cons {n : Nat} (c : Char) (h : Apart pat n cs) : Apart pat n (c :: cs) := by
  cases h with
  | none => exact .none (c :: cs)
  | next before h => exact .next (c :: before) h

theorem Apart.of_succ {n : Nat} (h : Apart pat (n + 1) cs) : Apart pat n cs := by
  induction n generalizing cs with
  | zero => exact .none cs
  | succ n ih =>
    cases h with
    | next before h => exact .next before (ih h)

theorem Apart.of_le {m n : Nat} (hle : m ≤ n) (h : Apart pat n cs) : Apart pat m cs := by
  induction hle with
  | refl => exact h
  | step _ ih => exact ih h.of_succ

/-- The search after fewer characters meets no less, and at most one more as long as no whole occurrence
is passed over. -/
theorem countAfter_bounds (pat cs : List Char) :
    (∀ m n, m ≤ n → countAfter pat n cs ≤ countAfter pat m cs) ∧
    ∀ n < pat.length, countAfter pat 0 cs ≤ countAfter pat n cs + 1 := by
  induction cs with
  | nil => simp [countAfter]
  | cons c cs ih =>
    obtain ⟨hmono, hnear⟩ := ih
    have hskipped : countAfter pat 0 cs ≤ countAfter pat (pat.length - 1) cs + 1 := by
      by_cases hpos : pat.length = 0
      · rw [hpos]
        exact Nat.le_succ _
      · apply hnear
        omega
    have hstep (n : Nat) : countAfter pat n cs ≤ countAfter pat 0 (c :: cs) := by
      have hzero := hmono 0 n (Nat.zero_le n)
      rw [countAfter]
      split
      · omega
      · exact hzero
    constructor
    · intro m n hle
      cases n with
      | zero =>
        obtain rfl := Nat.le_zero.mp hle
        exact Nat.le_refl _
      | succ n =>
        cases m with
        | zero => exact hstep n
        | succ m => exact hmono m n (Nat.le_of_succ_le_succ hle)
    · intro n hn
      cases n with
      | zero => exact Nat.le_succ _
      | succ n =>
        show countAfter pat 0 (c :: cs) ≤ countAfter pat n cs + 1
        rw [countAfter]
        split
        · exact Nat.succ_le_succ (hmono n (pat.length - 1) (by omega))
        · exact hnear n (by omega)

theorem count_le_append (pat before cs : List Char) : count pat cs ≤ count pat (before ++ cs) := by
  induction before with
  | nil => exact Nat.le_refl _
  | cons c before ih =>
    exact ih.trans ((countAfter_bounds pat (c :: (before ++ cs))).1 0 1 (Nat.zero_le 1))

theorem Apart.le_count (hne : pat ≠ []) {n : Nat} (h : Apart pat n cs) : n ≤ count pat cs := by
  induction h with
  | none cs => exact Nat.zero_le _
  | next before h ih =>
    refine le_trans ?_ (count_le_append pat before _)
    rw [count_pat_append hne]
    exact Nat.succ_le_succ ih

theorem apart_countAfter (hne : pat ≠ []) (n : Nat) (cs : List Char) :
    Apart pat (countAfter pat n cs) (cs.drop n) := by
  induction cs generalizing n with
  | nil =>
    rw [countAfter]
    exact .none _
  | cons c cs ih =>
    cases n with
    | succ n => exact ih n
    | zero =>
      rw [countAfter]
      split
      · rename_i hstarts
        obtain ⟨after, hafter⟩ := startsWith_iff.mp hstarts
        cases pat with
        | nil => exact absurd rfl hne
        | cons x xs =>
          rw [List.cons_append] at hafter
          obtain ⟨rfl, rfl⟩ := List.cons_eq_cons.mp hafter
          have hrest := ih xs.length
          rw [List.drop_left] at hrest
          exact .next [] hrest
      · exact (ih 0).cons c

/-- counting from left to right finds as many occurrences apart from each other as there can be -/
theorem apart_iff_le_count (hne : pat ≠ []) {n : Nat} : Apart pat n cs ↔ n ≤ count pat cs := by
  constructor
  · intro h
    exact h.le_count hne
  · intro hle
    exact .of_le hle (apart_countAfter hne 0 cs)

end RpcAdapters.Text
