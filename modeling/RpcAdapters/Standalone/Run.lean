import RpcAdapters.CommandLine.Read
import RpcAdapters.Standalone.Basic

/-!
# Runs of the program

* `Surroundings`     what a run finds: files, standard input, the width of the terminal;
* `Outcome`          what it leaves: output, report, files, and what went wrong;
* `Command.run`      the outcome of a command;
* `Invocation.run`   the same with the settings of an invocation.
-/

namespace RpcAdapters

structure Surroundings where
  tree : FileTree := {}
  input : List UInt8 := []
  width : Nat := 80

structure Outcome where
  output : List UInt8 := []
  report : List Report.Entry := []
  tree : FileTree
  failure? : Option RunError := none

namespace Outcome

def ofExchange (s : Surroundings) : Outcome :=
  match exchange s.input with
  | .ok reply => { output := reply.output, report := reply.report, tree := s.tree }
  | .error e => { tree := s.tree, failure? := some (.undecodable e) }

def ofGenerate (v : Verbosity) (path param : String) (files : List String) (output : String)
    (s : Surroundings) : Outcome :=
  let plan := Standalone.generate v path param files output (s.tree.readFile path)
  match plan.result with
  | .error e => { report := plan.report, tree := s.tree, failure? := some e }
  | .ok w =>
    match s.tree.writeAll w.writes with
    | (tree, none) => { report := plan.report ++ w.closing, tree }
    | (tree, some e) => { report := plan.report, tree, failure? := some (.unwritable e) }

def ofListServices (path param : String) (s : Surroundings) : Outcome :=
  match Standalone.listServices s.width path param (s.tree.readFile path) with
  | .ok text => { output := Text.utf8 text, tree := s.tree }
  | .error e => { tree := s.tree, failure? := some e }

end Outcome

def Command.run (c : Command) (v : Verbosity) (s : Surroundings) : Outcome :=
  match c with
  | .exchange => .ofExchange s
  | .generate path param files output => .ofGenerate v path param files output s
  | .listServices path param => .ofListServices path param s

namespace Invocation

def verbosity (i : Invocation) : Verbosity := .ofFlags i.verbose i.quiet

/-- the colours of the report: `terminal` says whether it goes to one, and `terminalColors?` what that
terminal says about its colours -/
def colors (i : Invocation) (terminal : Bool) (terminalColors? : Option String) : Colors where
  enabled := i.color.enabled terminal
  theme := i.theme.theme terminalColors?

def run (i : Invocation) (s : Surroundings) : Outcome := i.command.run i.verbosity s

end Invocation

end RpcAdapters
