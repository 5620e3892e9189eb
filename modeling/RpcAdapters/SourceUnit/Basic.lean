import RpcAdapters.Ident

/-!
# Go source files, before they are text

A `SourceUnit` is what one generated Go file declares, with every name from another package still bound
to that package.

* `Declaration`              a service wrapper, an adapter method of a wrapper, or the routine that
                             translates errors;
* `Step`                     one step of an adapter's body;
* `SourceUnit.references`    the identifiers that the file is known to use, in the order of first use;
* `SourceUnit.importedPaths` the import paths that they need.
-/

namespace RpcAdapters

/-! ## names inside bodies -/

namespace Bound

def error : String := "err"

def transportInput : String := "pbIn"

def transportOutput : String := "pbOut"

def useCaseInput : String := "ucIn"

def useCaseOutput : String := "ucOut"

def receiver : String := "service"

def transportError : String := "twerr"

def domainError : String := "domainErr"

/-- the names that bodies use for themselves, and `_` -/
def all : List String :=
  [error, transportInput, transportOutput, useCaseInput, useCaseOutput, receiver, transportError,
  domainError, "_"]

end Bound

/-- the field of a wrapper that holds the use case -/
def useCaseField : String := "UseCase"

/-! ## types and steps -/

inductive TypeName where
  | imported (ident : Ident)
  /-- a bare name: predeclared, or declared in the package of the generated file -/
  | bare (name : String)
  deriving DecidableEq, Repr

structure TypeExpr where
  name : TypeName
  pointer : Bool := false
  deriving DecidableEq, Repr

structure Local where
  name : String
  type : TypeExpr
  deriving DecidableEq, Repr

/-- what a failed call makes the adapter return, next to `nil` -/
inductive OnError where
  | propagate
  /-- the error goes through the named routine first -/
  | translate (routine : String)
  deriving DecidableEq, Repr

structure TransformCall where
  function : Ident
  source : String
  target : String
  onError : OnError
  deriving DecidableEq, Repr

structure UseCaseCall where
  receiver : String
  field : String
  method : String
  input : String
  output : String
  onError : OnError
  deriving DecidableEq, Repr

inductive Step where
  | declareLocals (locals : List Local)
  | transformInput (call : TransformCall)
  | invokeUseCase (call : UseCaseCall)
  | transformOutput (call : TransformCall)
  | returnOutput (output : String)
  deriving DecidableEq, Repr

/-! ## declarations -/

structure Wrapper where
  name : String
  field : String := useCaseField
  useCase : Ident
  deriving DecidableEq, Repr

structure Adapter where
  receiver : String := Bound.receiver
  receiverType : String
  name : String
  context : Ident
  input : TypeExpr
  output : TypeExpr
  steps : List Step := []
  deriving DecidableEq, Repr

structure Translation where
  name : String
  transportError : Ident
  newError : Ident
  internalCode : Ident
  wrapError : Ident
  errorsAs : Ident
  sprintf : Ident
  domainError : Ident
  codeField : String
  metaKey : String
  deriving DecidableEq, Repr

inductive Declaration where
  | wrapper (w : Wrapper)
  | adapter (a : Adapter)
  | translation (t : Translation)
  deriving DecidableEq, Repr

structure SourceUnit where
  fileName : String
  /-- the name of the schema file -/
  source : String
  packageName : String
  importPath : String
  declarations : List Declaration := []
  references : List Ident := []
  deriving DecidableEq, Repr

/-! ## views -/

def Declaration.wrapper? : Declaration → Option Wrapper
  | .wrapper w => some w
  | _ => none

def Declaration.adapter? : Declaration → Option Adapter
  | .adapter a => some a
  | _ => none

def Declaration.translation? : Declaration → Option Translation
  | .translation t => some t
  | _ => none

namespace SourceUnit

def wrappers (u : SourceUnit) : List Wrapper := u.declarations.filterMap Declaration.wrapper?

def adapters (u : SourceUnit) : List Adapter := u.declarations.filterMap Declaration.adapter?

def translation? (u : SourceUnit) : Option Translation :=
  u.declarations.findSome? Declaration.translation?

/-- each path once, in the order of first reference; the file's own path is not imported -/
def importedPaths (u : SourceUnit) : List String :=
  ((u.references.map Ident.importPath).filter (· ≠ u.importPath)).eraseDups

theorem mem_importedPaths {u : SourceUnit} {path : String} :
    path ∈ u.importedPaths ↔ path ≠ u.importPath ∧ ∃ i ∈ u.references, i.importPath = path := by
  simp [importedPaths, List.mem_eraseDups, and_comm]

end SourceUnit

end RpcAdapters
