import RpcAdapters.Schema.Basic
import RpcAdapters.Schema.Messages
import RpcAdapters.Schema.Package

/-!
# From descriptors to schema files

* `SchemaError`      why descriptors make no schema, with its wording `message`;
* `Supplied`         what is known of all files supplied: their packages and their messages;
* `Supplied.schemaFile`, `service`, `method`, `messageIdent`   one descriptor at a time;
* `buildSchema`      all files of a request, in their order.

Only a requested file has to have an import path and has its services read; any other file needs one
as soon as one of its messages is used.
-/

namespace RpcAdapters

/-! ## errors -/

/-- why a message name stands for no identifier -/
inductive MessageError where
  | undefined (fullName : String)
  | fileNotSupplied (file : String)
  | noImportPath (file : String)
  deriving DecidableEq, Repr

inductive SchemaError where
  | noImportPath (file : String)
  | inMethod (file service method : String) (cause : MessageError)
  deriving DecidableEq, Repr

def noImportPathMessage (file : String) : String :=
  "unable to determine Go import path for \"" ++ file ++ "\": set option go_package or pass M" ++
    file ++ "=<import path>"

def MessageError.message : MessageError → String
  | .undefined n => "message type \"" ++ n ++ "\" is not defined in any supplied file"
  | .fileNotSupplied f => "file \"" ++ f ++ "\" is not part of the request"
  | .noImportPath f => noImportPathMessage f

def SchemaError.message : SchemaError → String
  | .noImportPath f => noImportPathMessage f
  | .inMethod f s m cause => f ++ ": method " ++ s ++ "." ++ m ++ ": " ++ cause.message

/-! ## descriptors, one at a time -/

structure Supplied where
  packages : PackageTable
  messages : MessageIndex

namespace Supplied

def ofFiles (overrides : Overrides) (files : List ProtoFile) : Supplied where
  packages := PackageTable.ofFiles overrides files
  messages := MessageIndex.ofFiles files

def messageIdent (s : Supplied) (fullName : String) : Except MessageError Ident :=
  match s.messages.find? fullName with
  | none => .error (.undefined fullName)
  | some entry =>
    match s.packages.find? entry.file with
    | none => .error (.fileNotSupplied entry.file)
    | some package =>
      match package.importPath? with
      | none => .error (.noImportPath entry.file)
      | some path => .ok ⟨entry.goName, path⟩

def method (s : Supplied) (file service : String) (m : ProtoMethod) : Except SchemaError Method := do
  let ident (fullName : String) :=
    (s.messageIdent fullName).mapError (SchemaError.inMethod file service m.name)
  let input ← ident m.inputType
  let output ← ident m.outputType
  return {
    name := m.name
    goName := Naming.exported m.name
    input, output
    clientStreaming := m.clientStreaming
    serverStreaming := m.serverStreaming }

def service (s : Supplied) (file : String) (d : ProtoService) : Except SchemaError Service := do
  let methods ← d.methods.mapM (s.method file d.name)
  return { name := d.name, goName := Naming.exported d.name, methods }

def package (s : Supplied) (file : String) : PackageInfo := (s.packages.find? file).getD {}

def requestedFile (s : Supplied) (f : ProtoFile) : Except SchemaError SchemaFile := do
  let package := s.package f.name
  match package.importPath? with
  | none => throw (.noImportPath f.name)
  | some importPath =>
    let services ← f.services.mapM (s.service f.name)
    return { name := f.name, importPath, packageName := package.clauseName importPath, services }

/-- a file that was not asked for: its services are not read -/
def otherFile (s : Supplied) (f : ProtoFile) : SchemaFile :=
  let package := s.package f.name
  let importPath := package.importPath?.getD ""
  { name := f.name, requested := false, importPath, packageName := package.clauseName importPath }

def schemaFile (s : Supplied) (requested : Bool) (f : ProtoFile) : Except SchemaError SchemaFile :=
  if requested then s.requestedFile f else .ok (s.otherFile f)

end Supplied

/-! ## whole requests -/

def buildSchema (files : List ProtoFile) (filesToGenerate : List String) (overrides : Overrides) :
    Except SchemaError (List SchemaFile) :=
  let supplied := Supplied.ofFiles overrides files
  files.mapM fun f => supplied.schemaFile (filesToGenerate.contains f.name) f

end RpcAdapters
