import RpcAdapters.Ident
import RpcAdapters.Text.Pieces

/-!
# Schema files

The part of a schema that adapters are made from, with all message names resolved to identifiers.

* `SchemaFile.stem`, `baseStem`   the file name without `.proto`, and its last path component;
* `SchemaFile.eligible`           whether adapters are made for the file.
-/

namespace RpcAdapters

structure Method where
  name : String
  goName : String
  input : Ident
  output : Ident
  clientStreaming : Bool := false
  serverStreaming : Bool := false
  deriving DecidableEq, Repr, Inhabited

structure Service where
  name : String
  goName : String
  methods : List Method := []
  deriving DecidableEq, Repr, Inhabited

structure SchemaFile where
  name : String
  /-- whether the schema compiler asked for this file -/
  requested : Bool := true
  importPath : String
  packageName : String
  services : List Service := []
  deriving DecidableEq, Repr, Inhabited

def Method.streaming (m : Method) : Bool := m.clientStreaming || m.serverStreaming

namespace SchemaFile

def extension : String := ".proto"

/-- adapters are made for the files that hold services by their name -/
def serviceSuffix : String := "services.proto"

def stem (f : SchemaFile) : String :=
  match Text.dropSuffix? extension.toList f.name.toList with
  | some cs => String.ofList cs
  | none => f.name

def baseStem (f : SchemaFile) : String := String.ofList (Text.lastPiece '/' f.stem.toList)

def eligible (f : SchemaFile) : Bool :=
  f.requested && Text.endsWith serviceSuffix.toList f.name.toList

end SchemaFile

end RpcAdapters
