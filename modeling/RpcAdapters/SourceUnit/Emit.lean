import RpcAdapters.Roots
import RpcAdapters.Schema.Basic
import RpcAdapters.SourceUnit.Basic
import RpcAdapters.Warning

/-!
# The source unit of a schema file

Every service gets a wrapper around its use case and, for each method, an adapter: it turns the
transport message into the use case's input, calls the use case and turns the output back.  The routine
that translates the use case's errors comes last.

* `Service.declarations`, `Service.references`   what one service adds;
* `SchemaFile.unit`       the whole unit, for the given roots and file name;
* `SchemaFile.warnings`   the warnings about the file, service by service.
-/

namespace RpcAdapters

open Naming

def wrapperSuffix : String := "Rpc"

def translationName : String := "transformTwirpError"

def Service.wrapperName (s : Service) : String := s.goName ++ wrapperSuffix

/-! ## adapters -/

namespace Method

def requestIdent (m : Method) (r : Roots) : Ident := r.resolve .requestParam m.input.name

def responseIdent (m : Method) (r : Roots) : Ident := r.resolve .responsePayload m.output.name

def locals (m : Method) (r : Roots) : List Local :=
  [⟨Bound.error, { name := .bare "error" }⟩,
  ⟨Bound.useCaseInput, { name := .imported (m.requestIdent r) }⟩,
  ⟨Bound.useCaseOutput, { name := .imported (m.responseIdent r), pointer := true }⟩,
  ⟨Bound.transportOutput, { name := .bare m.output.name }⟩]

def transformInput (r : Roots) : TransformCall where
  function := r.transformIdent
  source := Bound.transportInput
  target := Bound.useCaseInput
  onError := .propagate

def invocation (m : Method) : UseCaseCall where
  receiver := Bound.receiver
  field := useCaseField
  method := m.goName
  input := Bound.useCaseInput
  output := Bound.useCaseOutput
  onError := .translate translationName

def transformOutput (r : Roots) : TransformCall where
  function := r.transformIdent
  source := Bound.useCaseOutput
  target := Bound.transportOutput
  onError := .propagate

def adapter (m : Method) (r : Roots) (receiverType : String) : Adapter where
  receiverType := receiverType
  name := m.goName
  context := contextIdent
  input := { name := .bare m.input.name, pointer := true }
  output := { name := .bare m.output.name, pointer := true }
  steps :=
    [.declareLocals (m.locals r), .transformInput (transformInput r), .invokeUseCase m.invocation,
    .transformOutput (transformOutput r), .returnOutput Bound.transportOutput]

def references (m : Method) (r : Roots) : List Ident :=
  [contextIdent, m.requestIdent r, m.responseIdent r, r.transformIdent]

end Method

/-! ## services -/

namespace Service

def useCaseIdent (s : Service) (r : Roots) : Ident := r.resolve .useCaseType (useCaseName s.goName)

def wrapper (s : Service) (r : Roots) : Wrapper where
  name := s.wrapperName
  useCase := s.useCaseIdent r

def declarations (s : Service) (r : Roots) : List Declaration :=
  .wrapper (s.wrapper r) :: s.methods.map fun m => .adapter (m.adapter r s.wrapperName)

def references (s : Service) (r : Roots) : List Ident :=
  s.useCaseIdent r :: s.methods.flatMap fun m => m.references r

end Service

/-! ## the translation of errors -/

def Roots.domainErrorIdent (r : Roots) : Ident := r.resolve .domainType "Error"

def Roots.translation (r : Roots) : Translation where
  name := translationName
  transportError := twirp "Error"
  newError := twirp "NewError"
  internalCode := twirp "Internal"
  wrapError := twirp "WrapError"
  errorsAs := errors "As"
  sprintf := fmt "Sprintf"
  domainError := r.domainErrorIdent
  codeField := "Code"
  metaKey := "domainCode"

def Roots.translationReferences (r : Roots) : List Ident :=
  [twirp "Error", twirp "NewError", twirp "Internal", errors "As", r.domainErrorIdent,
  fmt "Sprintf", twirp "WrapError"]

/-! ## units -/

namespace SchemaFile

def declarations (f : SchemaFile) (r : Roots) : List Declaration :=
  (f.services.flatMap fun s => s.declarations r) ++ [.translation r.translation]

def references (f : SchemaFile) (r : Roots) : List Ident :=
  (f.services.flatMap fun s => s.references r) ++ r.translationReferences

def unit (f : SchemaFile) (r : Roots) (fileName : String) : SourceUnit where
  fileName := fileName
  source := f.name
  packageName := f.packageName
  importPath := f.importPath
  declarations := f.declarations r
  references := (f.references r).eraseDups

end SchemaFile

/-! ## warnings -/

namespace Method

def streamingWarnings (m : Method) (s : Service) : List Warning :=
  if m.streaming then [.streamingMethod s.name m.name] else []

/-- a bare type name is only right if the type is declared in the generated file's own package -/
def foreignWarnings (m : Method) (s : Service) (ownPath : String) (message : Ident) :
    List Warning :=
  if message.importPath = ownPath then []
  else [.foreignTransportMessage s.name m.name message.name message.importPath]

def fallbackWarnings (m : Method) (s : Service) (role : Role) (message : Ident) : List Warning :=
  if role.layer? message.name = some .domain then
    [.domainFallback s.name m.name role.text message.name]
  else []

def warnings (m : Method) (s : Service) (ownPath : String) : List Warning :=
  m.streamingWarnings s ++ m.foreignWarnings s ownPath m.input ++ m.foreignWarnings s ownPath m.output
    ++ m.fallbackWarnings s .requestParam m.input ++ m.fallbackWarnings s .responsePayload m.output

end Method

def Service.markerWarnings (s : Service) (file : String) : List Warning :=
  if hasServiceMarker s.goName then [] else [.serviceWithoutMarker file s.goName]

def Service.warnings (s : Service) (file ownPath : String) : List Warning :=
  s.markerWarnings file ++ s.methods.flatMap fun m => m.warnings s ownPath

def SchemaFile.warnings (f : SchemaFile) : List Warning :=
  f.services.flatMap fun s => s.warnings f.name f.importPath

end RpcAdapters
