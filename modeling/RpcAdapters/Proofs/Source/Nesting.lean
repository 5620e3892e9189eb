import RpcAdapters.Proofs.Source.Literals

/-!
# Nested lines

A line inside of blocks stands behind as many tabs as there are blocks around it.

* `Inline s`                  no line break and no tab;
* `Nested depth ls`           lines inside of that many blocks, with the blocks between them;
* `IsBlock header ls`         a block that is inside of no other, with its header;
* `nested_intercalate`        such blocks with empty lines between them;
* `outlineLines name depth o` the lines of an outline inside of that many blocks;
* `Nests name o`              they are nested, however many these are;
* `isBlock_outlineLines`      so the outline of a block is one.
-/

namespace RpcAdapters

namespace Source

/-! ## texts on one line -/

/-- no line break and no tab -/
def Inline (s : String) : Prop := '\n' ∉ s.toList ∧ '\t' ∉ s.toList

instance (s : String) : Decidable (Inline s) := inferInstanceAs (Decidable (_ ∧ _))

@[simp] theorem inline_append {s t : String} : Inline (s ++ t) ↔ Inline s ∧ Inline t := by
  simp only [Inline, String.toList_append, List.mem_append, not_or]
  exact and_and_and_comm

theorem inline_literal (s : String) : Inline (literal s) :=
  ⟨not_mem_literal (.inl rfl) s, not_mem_literal (.inr rfl) s⟩

/-! ## nested lines -/

open Writer (tabs indented)

/-- lines inside of `depth` blocks; a closing brace is never a line of its own -/
inductive Nested : Nat → List String → Prop
  | nil (depth : Nat) : Nested depth []
  | empty {depth : Nat} {ls : List String} (rest : Nested depth ls) : Nested depth ("" :: ls)
  | line {depth : Nat} {t : String} {ls : List String} (hempty : t ≠ "") (hbrace : t ≠ "\x7d")
    (ht : Inline t) (rest : Nested depth ls) : Nested depth ((tabs depth ++ t) :: ls)
  | block {depth : Nat} {header : String} {body ls : List String} (hheader : Inline header)
    (inside : Nested (depth + 1) body) (rest : Nested depth ls) :
    Nested depth ((tabs depth ++ (header ++ " \x7b")) :: (body ++ (tabs depth ++ "\x7d") :: ls))

theorem Nested.append {depth : Nat} {ls ms : List String} (h : Nested depth ls)
    (h' : Nested depth ms) : Nested depth (ls ++ ms) := by
  induction h with
  | nil depth => exact h'
  | empty _ ih => exact .empty (ih h')
  | line hempty hbrace ht _ ih => exact .line hempty hbrace ht (ih h')
  | block hheader inside _ _ ih =>
    rw [List.cons_append, List.append_assoc]
    exact .block hheader inside (ih h')

theorem not_mem_tabs_append {depth : Nat} {t : String} (h : '\n' ∉ t.toList) :
    '\n' ∉ (tabs depth ++ t).toList := by
  rw [String.toList_append, List.mem_append, not_or, tabs, String.toList_ofList]
  exact ⟨fun hmem => absurd (List.eq_of_mem_replicate hmem) (by decide), h⟩

theorem Nested.not_mem {depth : Nat} {ls : List String} (h : Nested depth ls) :
    ∀ l ∈ ls, '\n' ∉ l.toList := by
  induction h with
  | nil depth => exact fun l hl => absurd hl List.not_mem_nil
  | empty _ ih => exact List.forall_mem_cons.mpr ⟨by decide, ih⟩
  | line _ _ ht _ ih => exact List.forall_mem_cons.mpr ⟨not_mem_tabs_append ht.1, ih⟩
  | @block depth header _ _ hheader _ _ ih ih' =>
    have hopen : Inline (header ++ " \x7b") := inline_append.mpr ⟨hheader, by decide⟩
    rw [List.forall_mem_cons, List.forall_mem_append, List.forall_mem_cons]
    exact ⟨not_mem_tabs_append hopen.1, ih, not_mem_tabs_append (by decide), ih'⟩

/-- a block at the top of a text -/
def IsBlock (header : String) (ls : List String) : Prop :=
  Inline header ∧ ∃ body, ls = (header ++ " \x7b") :: (body ++ ["\x7d"]) ∧ Nested 1 body

theorem IsBlock.nested {header : String} {ls : List String} (h : IsBlock header ls) : Nested 0 ls := by
  obtain ⟨hheader, body, rfl, hbody⟩ := h
  have hblock : Nested 0 _ := .block hheader hbody (.nil 0)
  rwa [Writer.tabs_zero, String.empty_append, String.empty_append] at hblock

theorem nested_intercalate {bs : List (List String)} (h : ∀ b ∈ bs, Nested 0 b) :
    Nested 0 ([""].intercalate bs) := by
  induction bs with
  | nil => exact .nil 0
  | cons b bs ih =>
    rw [List.forall_mem_cons] at h
    cases bs with
    | nil =>
      rw [List.intercalate_singleton]
      exact h.1
    | cons b' bs =>
      rw [List.intercalate_cons_cons, List.append_assoc]
      exact h.1.append (.empty (ih h.2))

/-! ## lines of outlines -/

/-- the lines of an outline inside of `depth` blocks -/
def outlineLines (name : Ident → String) (depth : Nat) (o : List OpenLine) : List String :=
  (fill name o).map fun l => indented (depth + l.1) l.2

section
variable (name : Ident → String) (depth : Nat)

theorem outlineLines_append (o p : List OpenLine) : outlineLines name depth (o ++ p)
    = outlineLines name depth o ++ outlineLines name depth p := by
  rw [outlineLines, fill_append, List.map_append]
  rfl

theorem indented_of_ne {t : String} (h : t ≠ "") : indented depth t = tabs depth ++ t := if_neg h

theorem outlineLines_blockOutline (header : List Piece) (body : List OpenLine) :
    outlineLines name depth (blockOutline header body) =
      (tabs depth ++ (joined name header ++ " \x7b")) ::
        (outlineLines name (depth + 1) body ++ [tabs depth ++ "\x7d"]) := by
  -- with its brace the opening line is never empty
  have hopen : joined name header ++ " \x7b" ≠ "" := by
    rw [Ne, String.append_eq_empty_iff, not_and_or]
    exact .inr (by decide)
  have hbody : ((fill name body).map fun l => (l.1 + 1, l.2)).map
      (fun l => indented (depth + l.1) l.2) = outlineLines name (depth + 1) body := by
    rw [outlineLines, List.map_map]
    refine List.map_congr_left fun l _ => ?_
    rw [Function.comp_apply, Nat.add_assoc, Nat.add_comm 1]
  rw [outlineLines, fill_blockOutline, List.map_cons, List.map_append, hbody, List.map_singleton,
    Nat.add_zero, indented_of_ne depth hopen, indented_of_ne depth (by decide)]

end

/-- the lines of the outline are nested, whatever blocks they are inside of -/
def Nests (name : Ident → String) (o : List OpenLine) : Prop :=
  ∀ depth, Nested depth (outlineLines name depth o)

namespace Nests

variable {name : Ident → String} {o p : List OpenLine}

theorem nil : Nests name [] := fun depth => .nil depth

theorem append (h : Nests name o) (h' : Nests name p) : Nests name (o ++ p) := by
  intro depth
  rw [outlineLines_append]
  exact (h depth).append (h' depth)

theorem flatMap {α : Type} {xs : List α} {f : α → List OpenLine} (h : ∀ x ∈ xs, Nests name (f x)) :
    Nests name (xs.flatMap f) := by
  induction xs with
  | nil => exact nil
  | cons x xs ih =>
    rw [List.forall_mem_cons] at h
    rw [List.flatMap_cons]
    exact h.1.append (ih h.2)

theorem empty : Nests name [emptyLine] := fun depth => .empty (.nil depth)

/-- a line with a space in it is neither empty nor a closing brace -/
theorem line {ps : List Piece} (hspace : ' ' ∈ (joined name ps).toList)
    (h : Inline (joined name ps)) : Nests name [{ pieces := ps }] := by
  intro depth
  have hne {t : String} (ht : ' ' ∉ t.toList) : joined name ps ≠ t := by
    rintro rfl
    exact ht hspace
  show Nested depth [indented depth (joined name ps)]
  rw [indented_of_ne depth (hne (by decide))]
  exact .line (hne (by decide)) (hne (by decide)) h (.nil depth)

theorem block {header : List Piece} (hheader : Inline (joined name header)) (h : Nests name o) :
    Nests name (blockOutline header o) := by
  intro depth
  rw [outlineLines_blockOutline]
  exact .block hheader (h (depth + 1)) (.nil depth)

end Nests

theorem isBlock_outlineLines {name : Ident → String} {header : String} {ps : List Piece}
    {o : List OpenLine} (hjoined : joined name ps = header) (hheader : Inline header)
    (h : Nests name o) : IsBlock header (outlineLines name 0 (blockOutline ps o)) := by
  refine ⟨hheader, outlineLines name 1 o, ?_, h 1⟩
  rw [outlineLines_blockOutline, hjoined, Writer.tabs_zero, String.empty_append, String.empty_append]

end Source

end RpcAdapters
