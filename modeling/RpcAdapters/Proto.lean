/-!
# Schema descriptors

What a schema compiler hands over: the parsed schema files, as far as adapters need them.  A text or
flag that was not written is `none`; the reading functions without `?` give the empty text or `false`
for it.
-/

namespace RpcAdapters

structure ProtoMessage where
  name? : Option String := none
  nested : List ProtoMessage := []
  deriving Repr, Inhabited

structure ProtoMethod where
  name? : Option String := none
  inputType? : Option String := none
  outputType? : Option String := none
  clientStreaming? : Option Bool := none
  serverStreaming? : Option Bool := none
  deriving DecidableEq, Repr, Inhabited

structure ProtoService where
  name? : Option String := none
  methods : List ProtoMethod := []
  deriving DecidableEq, Repr, Inhabited

structure ProtoOptions where
  goPackage? : Option String := none
  deriving DecidableEq, Repr, Inhabited

structure ProtoFile where
  name? : Option String := none
  package? : Option String := none
  messages : List ProtoMessage := []
  services : List ProtoService := []
  options? : Option ProtoOptions := none
  deriving Repr, Inhabited

/-- what a schema compiler asks for: adapters for the named files, out of all files supplied -/
structure Request where
  filesToGenerate : List String := []
  parameter? : Option String := none
  files : List ProtoFile := []
  deriving Repr, Inhabited

/-- the parsed files alone, as a schema compiler writes them to disk -/
structure DescriptorSet where
  files : List ProtoFile := []
  deriving Repr, Inhabited

def ProtoMessage.name (m : ProtoMessage) : String := m.name?.getD ""

def ProtoMethod.name (m : ProtoMethod) : String := m.name?.getD ""

def ProtoMethod.inputType (m : ProtoMethod) : String := m.inputType?.getD ""

def ProtoMethod.outputType (m : ProtoMethod) : String := m.outputType?.getD ""

def ProtoMethod.clientStreaming (m : ProtoMethod) : Bool := m.clientStreaming?.getD false

def ProtoMethod.serverStreaming (m : ProtoMethod) : Bool := m.serverStreaming?.getD false

def ProtoService.name (s : ProtoService) : String := s.name?.getD ""

def ProtoFile.name (f : ProtoFile) : String := f.name?.getD ""

def ProtoFile.package (f : ProtoFile) : String := f.package?.getD ""

def ProtoFile.goPackage? (f : ProtoFile) : Option String := f.options?.bind (·.goPackage?)

def Request.parameter (r : Request) : String := r.parameter?.getD ""

/-- The request a schema compiler would send for a set; no file names stand for all files. -/
def DescriptorSet.request (set : DescriptorSet) (files : List String) (parameter? : Option String) :
    Request where
  filesToGenerate := if files = [] then set.files.map ProtoFile.name else files
  parameter? := parameter?
  files := set.files

end RpcAdapters
