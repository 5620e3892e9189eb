import RpcAdapters.Text.Pieces

/-!
# Paths

A path is a text with `/` between its components; one that starts with `/` is absolute.

* `join base path`      `path` seen from `base`; an absolute path stays what it is;
* `components path`     the components; empty ones and `.` lead nowhere and are left out;
* `components_join`     joining paths joins their components;
* `parent path`         the path of the directory that `path` stands in, as `path` writes it;
* `components_parent`   a parent has all components but the last;
* `namesDirectory`      whether a path ends as only the path of a directory does.
-/

namespace RpcAdapters.Path

def isAbsolute (path : String) : Bool := Text.startsWith ['/'] path.toList

def join (base path : String) : String :=
  if isAbsolute path then path
  else if base = "" ∨ Text.endsWith ['/'] base.toList then base ++ path
  else base ++ "/" ++ path

def leadsOn (piece : List Char) : Bool := piece ≠ [] ∧ piece ≠ ['.']

def components (path : String) : List String :=
  ((Text.splitAll '/' path.toList).filter leadsOn).map String.ofList

/-- the pieces of a path without the last one that leads on, and without what is then at the end and
does not -/
def parentPieces (pieces : List (List Char)) : List (List Char) :=
  ((pieces.reverse.dropWhile (!leadsOn ·)).tail.dropWhile (!leadsOn ·)).reverse

def parent (path : String) : String :=
  match parentPieces (Text.splitAll '/' path.toList) with
  | [] => if isAbsolute path then "/" else ""
  | pieces => String.ofList (Text.joinAll '/' pieces)

/-- a path that ends in `/`, `.` or `..` leads to no file -/
def namesDirectory (path : String) : Bool :=
  let last := Text.lastPiece '/' path.toList
  !leadsOn last || last = ['.', '.']

theorem isAbsolute_iff {path : String} :
    isAbsolute path = true ↔ ∃ rest, path.toList = '/' :: rest :=
  Text.startsWith_iff

/-! ## components -/

theorem components_empty : components "" = [] := rfl

theorem components_append_slash (a b : String) :
    components (a ++ "/" ++ b) = components a ++ components b := by
  have h : (a ++ "/" ++ b).toList = a.toList ++ '/' :: b.toList := by
    rw [String.toList_append, String.toList_append, List.append_assoc]; rfl
  rw [components, h, Text.splitAll_append_sep, List.filter_append, List.map_append]; rfl

/-- a joined path goes through the components of its base first -/
theorem components_join {path : String} (base : String) (h : isAbsolute path = false) :
    components (join base path) = components base ++ components path := by
  rw [join, if_neg (by simp [h])]
  split
  · rename_i hb
    rcases hb with rfl | hb
    · rw [String.empty_append, components_empty, List.nil_append]
    · obtain ⟨stem, hs⟩ := Text.endsWith_iff.mp hb
      have hbase : base = String.ofList stem ++ "/" := by
        apply String.toList_inj.mp
        rw [hs, String.toList_append, String.toList_ofList]; rfl
      have hstem : components base = components (String.ofList stem) := by
        have := components_append_slash (String.ofList stem) ""
        rwa [String.append_empty, ← hbase, components_empty, List.append_nil] at this
      rw [hstem, hbase, components_append_slash]
  · exact components_append_slash base path

theorem filter_dropWhile_not {α : Type} (p : α → Bool) (xs : List α) :
    (xs.dropWhile (!p ·)).filter p = xs.filter p := by
  induction xs with
  | nil => rfl
  | cons x xs ih =>
    cases h : p x with
    | true => simp [h]
    | false => simpa [h] using ih

theorem filter_tail_dropWhile_not {α : Type} (p : α → Bool) (xs : List α) :
    (xs.dropWhile (!p ·)).tail.filter p = (xs.filter p).tail := by
  induction xs with
  | nil => rfl
  | cons x xs ih =>
    cases h : p x with
    | true => simp [h]
    | false => simpa [h] using ih

theorem filter_parentPieces (pieces : List (List Char)) :
    (parentPieces pieces).filter leadsOn = (pieces.filter leadsOn).dropLast := by
  rw [parentPieces, List.filter_reverse, filter_dropWhile_not, filter_tail_dropWhile_not,
    List.filter_reverse, List.tail_reverse, List.reverse_reverse]

theorem not_mem_of_mem_parentPieces {path : String} {piece : List Char}
    (h : piece ∈ parentPieces (Text.splitAll '/' path.toList)) : '/' ∉ piece := by
  have hup := (List.dropWhile_sublist _).mem (List.mem_reverse.mp h)
  exact Text.not_mem_of_mem_splitAll
    (List.mem_reverse.mp ((List.dropWhile_sublist _).mem (List.mem_of_mem_tail hup)))

theorem components_parent (path : String) :
    components (parent path) = (components path).dropLast := by
  have h := filter_parentPieces (Text.splitAll '/' path.toList)
  rw [components, components, ← List.map_dropLast, ← h, parent]
  split
  · rename_i hp
    rw [hp]
    split <;> rfl
  · rename_i hne
    rw [String.toList_ofList, Text.splitAll_joinAll (fun _ => not_mem_of_mem_parentPieces) hne]

end RpcAdapters.Path
