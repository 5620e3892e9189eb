import RpcAdapters.Generation.Stats
import RpcAdapters.Report.Colors

/-!
# Reports

What is said to the user about a run, as entries that are turned into text one by one when they are
printed; an entry that carries the time of day gets it at that moment.

* `Verbosity`           how much is said; `atLeast` compares two of them;
* `Entry.text c time`   the lines of an entry;
* `Verbosity.info`, `success`, `statistics`, `warningEntries`, `report`   the entries that each verbosity
                        lets through.
-/

namespace RpcAdapters

/-! ## verbosity -/

inductive Verbosity where
  | quiet
  /-- warnings only -/
  | warnings
  | normal
  | verbose
  deriving DecidableEq, Repr, Inhabited

namespace Verbosity

def rank : Verbosity → Nat
  | quiet => 0
  | warnings => 1
  | normal => 2
  | verbose => 3

def atLeast (v least : Verbosity) : Bool := least.rank ≤ v.rank

/-- quiet wins over verbose -/
def ofFlags (verbose quiet : Bool) : Verbosity :=
  if quiet then .quiet else if verbose then .verbose else .normal

end Verbosity

/-! ## entries -/

namespace Report

inductive Entry where
  | info (message : String)
  | success (message : String)
  | statistic (label value : String)
  | warning (text : String)
  | note (text : String)
  deriving DecidableEq, Repr

def indentation : String := String.ofList (List.replicate 12 ' ')

namespace Entry

/-- `time` is the time of day as it is printed -/
def text (c : Colors) (time : String) : Entry → String
  | info message => c.paint .timestamp time ++ " " ++ c.paint .primary message ++ "\n"
  | success message => "\n" ++ c.paint .timestamp time ++ " " ++ c.paint .success message ++ "\n"
  | statistic label value =>
    indentation ++ c.paint .label label ++ " " ++ c.paint .value value ++ "\n"
  | warning text => c.paint .accent "Warning:" ++ " " ++ c.paint .primary text ++ "\n"
  | note text => c.paint .info "Note:" ++ " " ++ c.paint .primary text ++ "\n"

end Entry

end Report

/-! ## what each verbosity lets through -/

namespace Verbosity

open Report

def info (v : Verbosity) (message : String) : List Entry :=
  if v.atLeast .normal then [.info message] else []

def success (v : Verbosity) (message : String) : List Entry :=
  if v.atLeast .normal then [.success message] else []

def count (label : String) (n : Nat) : Entry := .statistic label (Text.decimal n)

def statistics (v : Verbosity) (s : Stats) : List Entry :=
  if v.atLeast .normal then
    [count "Schema files:" s.filesScanned, count "Files generated:" s.filesSelected,
      count "Services wrapped:" s.servicesGenerated,
      count "Adapters generated:" s.adaptersGenerated]
      ++ if s.problems = [] then [] else [count "Warnings:" s.problems.length]
  else []

def problems (v : Verbosity) (s : Stats) : List Entry :=
  if v.atLeast .warnings then s.problems.map fun w => .warning w.text else []

def notes (v : Verbosity) (s : Stats) : List Entry :=
  if v.atLeast .verbose then s.notes.map fun w => .note w.text else []

def warningEntries (v : Verbosity) (s : Stats) : List Entry := v.problems s ++ v.notes s

/-- all there is to say about a finished generation -/
def report (v : Verbosity) (s : Stats) : List Entry := v.statistics s ++ v.warningEntries s

end Verbosity

end RpcAdapters
