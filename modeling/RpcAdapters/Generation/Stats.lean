import RpcAdapters.SourceUnit.Basic
import RpcAdapters.Warning

/-!
# Statistics of a generation

* `Stats.scan`, `addUnit`, `addWarnings`   count schema files, a generated unit, its warnings;
* `Stats.notes`, `Stats.problems`          the two kinds of warnings, in order.
-/

namespace RpcAdapters

structure Stats where
  filesScanned : Nat := 0
  filesSelected : Nat := 0
  servicesGenerated : Nat := 0
  adaptersGenerated : Nat := 0
  warnings : List Warning := []
  deriving DecidableEq, Repr, Inhabited

namespace Stats

def scan (s : Stats) (files : Nat) : Stats := { s with filesScanned := s.filesScanned + files }

def addUnit (s : Stats) (u : SourceUnit) : Stats :=
  { s with
    filesSelected := s.filesSelected + 1
    servicesGenerated := s.servicesGenerated + u.wrappers.length
    adaptersGenerated := s.adaptersGenerated + u.adapters.length }

def addWarnings (s : Stats) (ws : List Warning) : Stats := { s with warnings := s.warnings ++ ws }

def notes (s : Stats) : List Warning := s.warnings.filter Warning.isNote

def problems (s : Stats) : List Warning := s.warnings.filter fun w => !w.isNote

end Stats

end RpcAdapters
