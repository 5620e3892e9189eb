import RpcAdapters.Generation.Basic
import RpcAdapters.Proofs.InOrder

/-!
# Accepted descriptors

What it takes for descriptors to make a schema, one descriptor at a time, and what they then make.

* `Supplied.messageIdent_eq_ok_iff`, `method_eq_ok_iff`, `service_eq_ok_iff`, `requestedFile_eq_ok_iff`;
* `buildSchema_eq_ok_iff`   all files in order;
* `Request.plan_eq_ok_iff`  a whole request, with its options.
-/

namespace RpcAdapters

open Naming

/-! ## what descriptors make -/

def ProtoMethod.resolved (d : ProtoMethod) (input output : Ident) : Method where
  name := d.name
  goName := exported d.name
  input := input
  output := output
  clientStreaming := d.clientStreaming
  serverStreaming := d.serverStreaming

def ProtoService.resolved (d : ProtoService) (methods : List Method) : Service where
  name := d.name
  goName := exported d.name
  methods := methods

def ProtoFile.resolved (d : ProtoFile) (package : PackageInfo) (importPath : String)
    (services : List Service) : SchemaFile where
  name := d.name
  importPath := importPath
  packageName := package.clauseName importPath
  services := services

namespace Supplied

variable (s : Supplied)

theorem messageIdent_eq_ok_iff {n : String} {i : Ident} : s.messageIdent n = .ok i ↔
    ∃ entry package, s.messages.find? n = some entry ∧ s.packages.find? entry.file = some package ∧
      package.importPath? = some i.importPath ∧ entry.goName = i.name := by
  obtain ⟨name, path⟩ := i
  rw [messageIdent]
  cases s.messages.find? n with
  | none => simp
  | some entry =>
    cases hpackage : s.packages.find? entry.file with
    | none => simp [hpackage]
    | some package =>
      cases hpath : package.importPath? with
      | none => simp [hpackage, hpath]
      | some path' => simp [hpackage, hpath, and_comm]

theorem method_eq_ok_iff {file service : String} {d : ProtoMethod} {m : Method} :
    s.method file service d = .ok m ↔ ∃ input, s.messageIdent d.inputType = .ok input ∧
      ∃ output, s.messageIdent d.outputType = .ok output ∧ d.resolved input output = m := by
  simp only [method, bind_eq_ok_iff, mapError_eq_ok_iff, pure_eq_ok_iff, ProtoMethod.resolved]

theorem service_eq_ok_iff {file : String} {d : ProtoService} {service : Service} :
    s.service file d = .ok service ↔ ∃ methods,
      List.Forall₂ (fun e m => s.method file d.name e = .ok m) d.methods methods ∧
      d.resolved methods = service := by
  simp only [Supplied.service, bind_eq_ok_iff, mapM_eq_ok_iff, pure_eq_ok_iff,
    ProtoService.resolved]

theorem requestedFile_eq_ok_iff {d : ProtoFile} {f : SchemaFile} :
    s.requestedFile d = .ok f ↔ ∃ importPath, (s.package d.name).importPath? = some importPath ∧
      ∃ services, List.Forall₂ (fun e service => s.service d.name e = .ok service) d.services services ∧
      d.resolved (s.package d.name) importPath services = f := by
  rw [requestedFile]
  cases (s.package d.name).importPath? with
  | none => simp [throw, throwThe, MonadExceptOf.throw]
  | some importPath =>
    simp only [bind_eq_ok_iff, mapM_eq_ok_iff, pure_eq_ok_iff, Option.some.injEq, exists_eq_left',
      ProtoFile.resolved]

end Supplied

theorem buildSchema_eq_ok_iff {files : List ProtoFile} {filesToGenerate : List String}
    {overrides : Overrides} {schema : List SchemaFile} :
    buildSchema files filesToGenerate overrides = .ok schema ↔
      List.Forall₂ (fun d f => (Supplied.ofFiles overrides files).schemaFile
        (filesToGenerate.contains d.name) d = .ok f) files schema :=
  mapM_eq_ok_iff

theorem Request.plan_eq_ok_iff {r : Request} {p : Plan} :
    r.plan = .ok p ↔ ∃ o, Options.parse r.parameter = .ok o ∧
      ∃ files, buildSchema r.files r.filesToGenerate o.overrides = .ok files ∧
      { files, roots := o.roots, layout := o.layout, verbose := o.verbose } = p := by
  simp only [Request.plan, bind_eq_ok_iff, mapError_eq_ok_iff, pure_eq_ok_iff]

end RpcAdapters
