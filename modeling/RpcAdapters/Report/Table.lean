import RpcAdapters.Text.Pieces

/-!
# Tables

A table of texts that fits itself into the width of a terminal.  Every cell has a space on both sides, and
the cells of a line are joined by one more.  There is a rule above and below the table, with gaps between
the columns, and one without gaps below the header.

* `wrap w words`      the lines of a text that is wider than `w`: it breaks at spaces if it can;
* `columnWidths w cs` the width of each column when all together may take `w`: narrow columns get what
                      they need, the others share the rest;
* `render w rows`     the lines of a table; the first row is its header.
-/

namespace RpcAdapters.Report

namespace Table

/-! ## breaking texts -/

/-- one more word on a line -/
def joinWord (line word : List Char) : List Char := if line = [] then word else line ++ ' ' :: word

/-- what is left on a line of width `w` for the next word -/
def room (w : Nat) (line : List Char) : Nat :=
  if line = [] then w else w - line.length - 1

/-- a line with less than two columns left is full -/
def isFull (w : Nat) (line : List Char) : Bool := w - 2 < line.length

/-- how much there is to set: every word counts for one more than its characters -/
def load : List (List Char) → Nat
  | [] => 0
  | word :: words => word.length + 1 + load words

theorem load_lt_cons (word : List Char) (words : List (List Char)) :
    load words < load (word :: words) := by
  rw [load]; omega

theorem load_drop_lt {word : List Char} {n : Nat} (words : List (List Char)) (hn : 0 < n)
    (hw : 0 < word.length) : load (word.drop n :: words) < load (word :: words) := by
  rw [load, load, List.length_drop]; omega

/-- `line` is what the current line holds already -/
def wrapFrom (w : Nat) (line : List Char) : List (List Char) → List (List Char)
  | [] => if line = [] then [] else [line]
  | word :: words =>
    if (joinWord line word).length ≤ w then
      if isFull w (joinWord line word) then joinWord line word :: wrapFrom w [] words
      else wrapFrom w (joinWord line word) words
    else if h : line ≠ [] ∧ room w line ≤ 2 then
      line :: wrapFrom w [] (word :: words)
    else if hw : w < word.length then
      let taken := max 1 (room w line)
      joinWord line (word.take taken) :: wrapFrom w [] (word.drop taken :: words)
    else if isFull w word then line :: word :: wrapFrom w [] words
    else line :: wrapFrom w word words
termination_by words => (load words, line.length)
decreasing_by
  · exact Prod.Lex.left _ _ (load_lt_cons word words)
  · exact Prod.Lex.left _ _ (load_lt_cons word words)
  · exact Prod.Lex.right _ (List.length_pos_iff.mpr h.1)
  · exact Prod.Lex.left _ _
      (load_drop_lt words (Nat.le_max_left 1 _) (Nat.lt_of_le_of_lt (Nat.zero_le w) hw))
  · exact Prod.Lex.left _ _ (load_lt_cons word words)
  · exact Prod.Lex.left _ _ (load_lt_cons word words)

def wrap (w : Nat) (line : List Char) : List (List Char) :=
  if line.length ≤ w then [line] else wrapFrom w [] (Text.splitAll ' ' line)

/-! ## widths of columns -/

/-- the lines of a cell before they are broken -/
abbrev Cell := List (List Char)

def Cell.ofString (s : String) : Cell := Text.splitAll '\n' s.toList

def widest (lines : List (List Char)) : Nat := (lines.map List.length).foldl max 0

structure Column where
  cells : List Cell
  /-- decided, or still to be shared out -/
  width? : Option Nat := none

/-- what a column needs to show all of its cells unbroken -/
def Column.fullWidth (c : Column) : Nat := max 1 (widest c.cells.flatten)

/-- what a column needs when its cells are broken to a width of `w` -/
def Column.brokenWidth (c : Column) (w : Nat) : Nat := widest (c.cells.flatten.flatMap (wrap w))

/-- what is there to share out, and among how many columns -/
structure Share where
  left : Nat
  columns : Nat

def Share.average (s : Share) : Nat := s.left / s.columns

def Share.without (s : Share) (width : Nat) : Share := ⟨s.left - width, s.columns - 1⟩

/-- lets `rule` decide about the undecided columns, from left to right -/
def pass (rule : Nat → Column → Option Nat) : Share → List Column → Share × List Column
  | s, [] => (s, [])
  | s, c :: cs =>
    match c.width?, rule s.average c with
    | none, some w =>
      let (s', cs') := pass rule (s.without w) cs
      (s', { c with width? := some w } :: cs')
    | _, _ =>
      let (s', cs') := pass rule s cs
      (s', c :: cs')

/-- a pass for each column: after that no pass decides anything more -/
def passes (rule : Nat → Column → Option Nat) : Nat → Share × List Column → Share × List Column
  | 0, p => p
  | n + 1, p => passes rule n (pass rule p.1 p.2)

/-- a column that needs no more than its share gets what it needs -/
def narrow (average : Nat) (c : Column) : Option Nat :=
  if c.fullWidth ≤ average then some c.fullWidth else none

/-- a column whose broken cells leave much of its share unused gives that back -/
def loose (average : Nat) (c : Column) : Option Nat :=
  if 3 ≤ average - c.brokenWidth average then some (c.brokenWidth average) else none

/-- the undecided columns get equal widths, the first `extra` of them one more -/
def shareOut (average : Nat) : (extra : Nat) → List Column → List Nat
  | _, [] => []
  | extra, c :: cs =>
    match c.width? with
    | some w => w :: shareOut average extra cs
    | none => (if extra = 0 then average else average + 1) :: shareOut average (extra - 1) cs

def columnWidths (w : Nat) (cs : List Column) : List Nat :=
  let n := cs.length
  let (share, cs) := passes narrow n (⟨w - (n - 1) - 2 * n, n⟩, cs)
  let (share, cs) := passes loose n (share, cs)
  let left := max share.left share.columns
  shareOut (left / share.columns) (left % share.columns) cs

/-! ## lines -/

def padded (w : Nat) (line : List Char) : List Char :=
  ' ' :: (line ++ List.replicate (w - line.length) ' ' ++ [' '])

def joinCells (cells : List (List Char)) : List Char := List.intercalate [' '] cells

/-- the lines of a row; a cell with fewer lines than the others ends in empty ones -/
def rowLines (widths : List Nat) (cells : List Cell) : List (List Char) :=
  let broken := List.zipWith (fun w (cell : Cell) => cell.flatMap (wrap w)) widths cells
  let height := (broken.map List.length).foldl max 0
  (List.range height).map fun i =>
    joinCells (List.zipWith (fun w (lines : List (List Char)) => padded w (lines[i]?.getD []))
      widths broken)

def ruleChar : Char := '─'

def gappedRule (widths : List Nat) : List Char :=
  joinCells (widths.map fun w => List.replicate (w + 2) ruleChar)

def fullRule (widths : List Nat) : List Char :=
  List.replicate (gappedRule widths).length ruleChar

/-- the columns of a table with `n` columns -/
def columnsOf (n : Nat) (rows : List (List Cell)) : List Column :=
  (List.range n).map fun i => { cells := rows.filterMap (·[i]?) }

def lines (w : Nat) (header : List Cell) (rows : List (List Cell)) : List (List Char) :=
  let widths := columnWidths w (columnsOf header.length (header :: rows))
  [gappedRule widths] ++ rowLines widths header ++ [fullRule widths]
    ++ rows.flatMap (rowLines widths) ++ [gappedRule widths]

end Table

/-- the text of a table, without a line break after its last line -/
def table (w : Nat) (header : List String) (rows : List (List String)) : String :=
  String.ofList (List.intercalate ['\n']
    (Table.lines w (header.map Table.Cell.ofString)
      (rows.map fun row => row.map Table.Cell.ofString)))

end RpcAdapters.Report
