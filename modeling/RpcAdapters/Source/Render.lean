import RpcAdapters.Source.Literal
import RpcAdapters.Source.Writer

/-!
# The Go text of a source unit

* `writeWrapper`, `writeAdapter`, `writeTranslation`   one declaration, a top-level block each;
* `importLines`       the import block; none if nothing is imported;
* `SourceUnit.render` the text of a unit.  It fails if a declaration uses an identifier of a package
                      that no reference of the unit names.
-/

namespace RpcAdapters.Source

def generatedMarker : String := "// Code generated by protoc-gen-go-pprpc. DO NOT EDIT."

/-! ## types and calls -/

def qualify (a : Aliases) (i : Ident) : Writing String := ExceptT.mk (pure (a.qualify i))

def typeText (a : Aliases) (t : TypeExpr) : Writing String := do
  let name ← match t.name with
    | .imported i => qualify a i
    | .bare name => pure name
  return if t.pointer then "*" ++ name else name

def returnedError : OnError → String
  | .propagate => Bound.error
  | .translate routine => routine ++ "(" ++ Bound.error ++ ")"

/-- a call in the condition of an `if`, whose body returns the error -/
def writeGuarded (assigned call : String) (onError : OnError) : Writing Unit :=
  block ("if " ++ assigned ++ " = " ++ call ++ "; " ++ Bound.error ++ " != nil")
    (line ("return nil, " ++ returnedError onError))

def writeTransform (a : Aliases) (c : TransformCall) : Writing Unit := do
  let function ← qualify a c.function
  writeGuarded Bound.error (function ++ "(" ++ c.source ++ ", &" ++ c.target ++ ")") c.onError

def writeUseCaseCall (c : UseCaseCall) : Writing Unit :=
  writeGuarded (c.output ++ ", " ++ Bound.error)
    (c.receiver ++ "." ++ c.field ++ "." ++ c.method ++ "(" ++ c.input ++ ")") c.onError

def writeLocal (a : Aliases) (l : Local) : Writing Unit := do
  let type ← typeText a l.type
  line ("var " ++ l.name ++ " " ++ type)

def writeLocals (a : Aliases) : List Local → Writing Unit
  | [] => pure ()
  | l :: ls => do
    writeLocal a l
    writeLocals a ls

/-! ## declarations -/

def writeStep (a : Aliases) : Step → Writing Unit
  | .declareLocals locals => do
    writeLocals a locals
    blank
  | .transformInput call | .transformOutput call => do
    writeTransform a call
    blank
  | .invokeUseCase call => do
    writeUseCaseCall call
    blank
  | .returnOutput output => line ("return &" ++ output ++ ", nil")

def writeSteps (a : Aliases) : List Step → Writing Unit
  | [] => pure ()
  | s :: ss => do
    writeStep a s
    writeSteps a ss

def writeWrapper (a : Aliases) (w : Wrapper) : Writing Unit := do
  let useCase ← qualify a w.useCase
  block ("type " ++ w.name ++ " struct") (line (w.field ++ " " ++ useCase))

def writeAdapter (a : Aliases) (f : Adapter) : Writing Unit := do
  let context ← qualify a f.context
  let input ← typeText a f.input
  let output ← typeText a f.output
  block
    ("func (" ++ f.receiver ++ " " ++ f.receiverType ++ ") " ++ f.name ++ "(_ " ++ context ++ ", " ++
      Bound.transportInput ++ " " ++ input ++ ") (" ++ output ++ ", error)")
    (writeSteps a f.steps)

def writeTranslation (a : Aliases) (t : Translation) : Writing Unit := do
  let transportError ← qualify a t.transportError
  let newError ← qualify a t.newError
  let internalCode ← qualify a t.internalCode
  let wrapError ← qualify a t.wrapError
  let errorsAs ← qualify a t.errorsAs
  let sprintf ← qualify a t.sprintf
  let domainError ← qualify a t.domainError
  block ("func " ++ t.name ++ "(" ++ Bound.error ++ " error) " ++ transportError) do
    line (Bound.transportError ++ " := " ++ newError ++ "(" ++ internalCode ++ ", " ++ Bound.error ++
      ".Error())")
    line ("var " ++ Bound.domainError ++ " " ++ domainError)
    block ("if " ++ errorsAs ++ "(" ++ Bound.error ++ ", &" ++ Bound.domainError ++ ")")
      (line (Bound.transportError ++ " = " ++ Bound.transportError ++ ".WithMeta(" ++
        literal t.metaKey ++ ", " ++ sprintf ++ "(\"%d\", " ++ Bound.domainError ++ "." ++ t.codeField
        ++ "))"))
    line ("return " ++ wrapError ++ "(" ++ Bound.transportError ++ ", " ++ Bound.error ++ ")")

def writeDeclaration (a : Aliases) : Declaration → Writing Unit
  | .wrapper w => writeWrapper a w
  | .adapter f => writeAdapter a f
  | .translation t => writeTranslation a t

/-- the declarations after the first, each with an empty line before it -/
def writeFollowing (a : Aliases) : List Declaration → Writing Unit
  | [] => pure ()
  | d :: ds => do
    blank
    writeDeclaration a d
    writeFollowing a ds

def writeDeclarations (a : Aliases) : List Declaration → Writing Unit
  | [] => pure ()
  | d :: ds => do
    writeDeclaration a d
    writeFollowing a ds

/-! ## units -/

def headerLines (u : SourceUnit) : List String :=
  [generatedMarker, "// source: " ++ u.source, "", "package " ++ u.packageName, ""]

def specLine (spec : String × String) : String := "\t" ++ spec.2 ++ " " ++ literal spec.1

def importLines (a : Aliases) : List String :=
  if a.specs = [] then [] else ["import ("] ++ a.specs.map specLine ++ [")", ""]

def writeLines : List String → Writing Unit
  | [] => pure ()
  | l :: ls => do
    line l
    writeLines ls

def writeUnit (u : SourceUnit) : Writing Unit := do
  let a := Aliases.allocate u
  writeLines (headerLines u ++ importLines a)
  writeDeclarations a u.declarations

end RpcAdapters.Source

namespace RpcAdapters

def SourceUnit.render (u : SourceUnit) : Except RenderError String :=
  match (Source.writeUnit u).run {} with
  | (.ok (), w) => .ok w.text
  | (.error e, _) => .error e

end RpcAdapters
