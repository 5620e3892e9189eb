import RpcAdapters.Source.Aliases

/-!
# Writing indented source text

A writer collects lines at a depth of indentation; blocks in braces are one level deeper.  Writing may
stop at an error, and what was written up to there stays written.

* `Writer.line`, `Writer.text`   a line at the current depth, and all lines with their line breaks;
* `line`, `blank`, `block`       the same as steps of `Writing`; a block gets its closing brace, and the
                                 writer its depth back, also when the body stops.
-/

namespace RpcAdapters.Source

/-! ## writers -/

structure Writer where
  lines : Array String := #[]
  depth : Nat := 0

namespace Writer

def tabs (n : Nat) : String := String.ofList (List.replicate n '\t')

/-- an empty line has no indentation -/
def indented (depth : Nat) (line : String) : String := if line = "" then "" else tabs depth ++ line

def line (w : Writer) (line : String) : Writer :=
  { w with lines := w.lines.push (indented w.depth line) }

def deeper (w : Writer) : Writer := { w with depth := w.depth + 1 }

def shallower (w : Writer) : Writer := { w with depth := w.depth - 1 }

def text (w : Writer) : String := String.join (w.lines.toList.map (· ++ "\n"))

theorem tabs_zero : tabs 0 = "" := rfl

end Writer

/-! ## steps of writing -/

abbrev Writing := ExceptT RenderError (StateM Writer)

def line (text : String) : Writing Unit := modify fun w => w.line text

def blank : Writing Unit := line ""

def block (header : String) (body : Writing Unit) : Writing Unit := ExceptT.mk do
  modify fun w => (w.line (header ++ " \x7b")).deeper
  let result ← body.run
  modify fun w => w.shallower.line "\x7d"
  return result

theorem run_block (header : String) (body : Writing Unit) (w : Writer) :
    (block header body).run w =
      ((body.run (w.line (header ++ " \x7b")).deeper).1,
        (body.run (w.line (header ++ " \x7b")).deeper).2.shallower.line "\x7d") := rfl

/-- a block gives the writer its depth back, also when its body stops at an error -/
theorem depth_block (header : String) (body : Writing Unit) (w : Writer)
    (h : ∀ v : Writer, (body.run v).2.depth = v.depth) :
    ((block header body).run w).2.depth = w.depth := by
  rw [run_block]
  show (body.run _).2.depth - 1 = w.depth
  rw [h]; rfl

end RpcAdapters.Source
