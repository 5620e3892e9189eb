import RpcAdapters.Proofs.Schema.Accepted
import RpcAdapters.Proofs.Schema.Paths

/-!
# What a generated file declares

The declarations of an emitted unit are read off the descriptors of its schema file alone, once every
message has its Go name.

* `ProtoService.declarations r goName`   a wrapper, then an adapter for each method;
* `Supplied.goName_qualified`            the Go name of a message is that of its path;
* `Request.declarations_exact`           the declarations of every unit of a request.
-/

namespace RpcAdapters

open Naming

/-! ## what is to be declared -/

namespace Roots

variable (r : Roots)

def requestRoot (typeName : String) : String :=
  if "Param".toList <:+ typeName.toList ∨ "Params".toList <:+ typeName.toList then r.useCase
  else r.domain

def responseRoot (typeName : String) : String :=
  if "Response".toList <:+ typeName.toList then r.useCase else r.domain

theorem root_requestLayer (typeName : String) :
    r.root (requestLayer typeName) = r.requestRoot typeName := by
  rw [requestRoot, requestLayer]
  simp only [requestSuffixes, List.any_cons, List.any_nil, Bool.or_false, Bool.or_eq_true,
    Text.endsWith_eq_decide, decide_eq_true_eq]
  split <;> rfl

theorem root_responseLayer (typeName : String) :
    r.root (responseLayer typeName) = r.responseRoot typeName := by
  rw [responseRoot, responseLayer]
  simp only [responseSuffix, Text.endsWith_eq_decide, decide_eq_true_eq]
  split <;> rfl

end Roots

/-- the adapter of a method: declare, turn the input, call the use case, turn the output, return -/
def ProtoMethod.adapter (d : ProtoMethod) (r : Roots) (goName : String → String)
    (wrapper : String) : Adapter where
  receiver := "service"
  receiverType := wrapper
  name := exported d.name
  context := ⟨"Context", "context"⟩
  input := ⟨.bare (goName d.inputType), true⟩
  output := ⟨.bare (goName d.outputType), true⟩
  steps := [
    .declareLocals [
      ⟨"err", ⟨.bare "error", false⟩⟩,
      ⟨"ucIn", ⟨.imported ⟨goName d.inputType, r.requestRoot (goName d.inputType)⟩, false⟩⟩,
      ⟨"ucOut", ⟨.imported ⟨goName d.outputType, r.responseRoot (goName d.outputType)⟩, true⟩⟩,
      ⟨"pbOut", ⟨.bare (goName d.outputType), false⟩⟩],
    .transformInput ⟨⟨"Transform", r.transform⟩, "pbIn", "ucIn", .propagate⟩,
    .invokeUseCase ⟨"service", "UseCase", exported d.name, "ucIn", "ucOut",
      .translate "transformTwirpError"⟩,
    .transformOutput ⟨⟨"Transform", r.transform⟩, "ucOut", "pbOut", .propagate⟩,
    .returnOutput "pbOut"]

namespace ProtoService

def wrapperName (d : ProtoService) : String := exported d.name ++ "Rpc"

def declarations (d : ProtoService) (r : Roots) (goName : String → String) : List Declaration :=
  .wrapper ⟨d.wrapperName, "UseCase", ⟨useCaseName (exported d.name), r.useCase⟩⟩ ::
    d.methods.map fun m => .adapter (m.adapter r goName d.wrapperName)

end ProtoService

/-! ## Go names of messages -/

namespace Supplied

variable (s : Supplied)

/-- the Go name of a message by its full name -/
def goName (n : String) : String := ((s.messages.find? n).map MessageEntry.goName).getD ""

variable {s}

theorem goName_of_messageIdent {n : String} {i : Ident} (h : s.messageIdent n = .ok i) :
    s.goName n = i.name := by
  obtain ⟨entry, _, hentry, _, _, hname⟩ := s.messageIdent_eq_ok_iff.mp h
  rw [goName, hentry]
  exact hname

section
variable {overrides : Overrides} {files : List ProtoFile}
  (hnames : ∀ f ∈ files, ∀ path ∈ f.paths, "" ∉ path)
include hnames

theorem goName_qualified (hnodup : (qualifiedNames files).Nodup) {f : ProtoFile} (hf : f ∈ files)
    {path : List String} (hpath : path ∈ f.paths) :
    (ofFiles overrides files).goName (f.qualified path) = exported (dotted path) := by
  have hfind : (MessageIndex.ofFiles files).find? (f.qualified path)
      = some ⟨exported (dotted path), f.name⟩ :=
    (MessageIndex.find?_eq_some_iff hnames hnodup).mpr ⟨f, hf, path, hpath, rfl, rfl⟩
  show (((MessageIndex.ofFiles files).find? (f.qualified path)).map MessageEntry.goName).getD "" = _
  rw [hfind]
  rfl

theorem mem_qualifiedNames_of_messageIdent {n : String} {i : Ident}
    (h : (ofFiles overrides files).messageIdent n = .ok i) : n ∈ qualifiedNames files := by
  obtain ⟨entry, _, hentry, _⟩ := (ofFiles overrides files).messageIdent_eq_ok_iff.mp h
  have hkey : n ∈ (MessageIndex.ofFiles files).map Prod.fst :=
    mem_keys_of_lookup hentry
  rwa [MessageIndex.keys_ofFiles hnames, List.mem_reverse] at hkey

end

/-! ## descriptors and what is emitted for them -/

theorem adapter_of_method {file service : String} {d : ProtoMethod} {m : Method}
    (h : s.method file service d = .ok m) (r : Roots) (wrapper : String) :
    m.adapter r wrapper = d.adapter r s.goName wrapper := by
  obtain ⟨input, hinput, output, houtput, rfl⟩ := s.method_eq_ok_iff.mp h
  rw [ProtoMethod.adapter, goName_of_messageIdent hinput, goName_of_messageIdent houtput,
    ← r.root_requestLayer, ← r.root_responseLayer]
  rfl

theorem declarations_of_service {file : String} {d : ProtoService} {service : Service}
    (h : s.service file d = .ok service) (r : Roots) :
    service.declarations r = d.declarations r s.goName := by
  obtain ⟨methods, hmethods, rfl⟩ := s.service_eq_ok_iff.mp h
  have hadapters : (methods.map fun m => Declaration.adapter (m.adapter r d.wrapperName))
      = d.methods.map fun e => .adapter (e.adapter r s.goName d.wrapperName) :=
    map_eq_map_of_forall₂ hmethods fun _ _ hm => congrArg _ (adapter_of_method hm r d.wrapperName)
  rw [ProtoService.declarations, ← hadapters]
  rfl

theorem declarations_of_requestedFile {d : ProtoFile} {f : SchemaFile}
    (h : s.requestedFile d = .ok f) (r : Roots) (fileName : String) :
    (f.unit r fileName).declarations
      = (d.services.flatMap fun e => e.declarations r s.goName) ++ [.translation r.translation] := by
  obtain ⟨importPath, _, services, hservices, rfl⟩ := s.requestedFile_eq_ok_iff.mp h
  have hall : (services.map fun service => service.declarations r)
      = d.services.map fun e => e.declarations r s.goName :=
    map_eq_map_of_forall₂ hservices fun _ _ hs => declarations_of_service hs r
  rw [List.flatMap_def, ← hall, ← List.flatMap_def]
  rfl

theorem mem_qualifiedNames_of_requestedFile {overrides : Overrides} {files : List ProtoFile}
    (hnames : ∀ f ∈ files, ∀ path ∈ f.paths, "" ∉ path) {d : ProtoFile} {f : SchemaFile}
    (h : (ofFiles overrides files).requestedFile d = .ok f) {e : ProtoService} (he : e ∈ d.services)
    {m : ProtoMethod} (hm : m ∈ e.methods) :
    m.inputType ∈ qualifiedNames files ∧ m.outputType ∈ qualifiedNames files := by
  obtain ⟨_, _, services, hservices, _⟩ := (ofFiles overrides files).requestedFile_eq_ok_iff.mp h
  obtain ⟨service, _, hservice⟩ := exists_right_of_mem hservices he
  obtain ⟨methods, hmethods, _⟩ := (ofFiles overrides files).service_eq_ok_iff.mp hservice
  obtain ⟨method, _, hmethod⟩ := exists_right_of_mem hmethods hm
  obtain ⟨_, hinput, _, houtput, _⟩ := (ofFiles overrides files).method_eq_ok_iff.mp hmethod
  exact ⟨mem_qualifiedNames_of_messageIdent hnames hinput,
    mem_qualifiedNames_of_messageIdent hnames houtput⟩

end Supplied

/-! ## whole requests -/

/-- whether adapters are to be made for the file -/
def ProtoFile.selected (d : ProtoFile) (filesToGenerate : List String) : Bool :=
  filesToGenerate.contains d.name && decide ("services.proto".toList <:+ d.name.toList)

/-- what a schema file has in common with the descriptor it is made from -/
structure Corresponds (files : List ProtoFile) (r : Roots) (goName : String → String)
    (d : ProtoFile) (f : SchemaFile) : Prop where
  name : f.name = d.name
  declared : ∀ e ∈ d.services, ∀ m ∈ e.methods,
    m.inputType ∈ qualifiedNames files ∧ m.outputType ∈ qualifiedNames files
  declarations : ∀ fileName, (f.unit r fileName).declarations
    = (d.services.flatMap fun e => e.declarations r goName) ++ [.translation r.translation]

namespace Supplied

variable {s : Supplied}

theorem eligible_of_schemaFile {filesToGenerate : List String} {d : ProtoFile} {f : SchemaFile}
    (h : s.schemaFile (filesToGenerate.contains d.name) d = .ok f) :
    d.selected filesToGenerate = f.eligible := by
  have hf : f.requested = filesToGenerate.contains d.name ∧ f.name = d.name := by
    rw [schemaFile] at h
    split at h
    case isTrue hd =>
      obtain ⟨_, _, _, _, rfl⟩ := s.requestedFile_eq_ok_iff.mp h
      exact ⟨hd.symm, rfl⟩
    case isFalse hd =>
      obtain rfl := Except.ok.inj h
      exact ⟨(Bool.eq_false_iff.mpr hd).symm, rfl⟩
  rw [ProtoFile.selected, SchemaFile.eligible, Text.endsWith_eq_decide, hf.1, hf.2]
  rfl

/-- the eligible files are made from the selected descriptors -/
theorem forall₂_requestedFile {filesToGenerate : List String} {files : List ProtoFile}
    {schema : List SchemaFile}
    (h : List.Forall₂ (fun d f => s.schemaFile (filesToGenerate.contains d.name) d = .ok f)
      files schema) :
    List.Forall₂ (fun d f => s.requestedFile d = .ok f)
      (files.filter fun d => d.selected filesToGenerate) (schema.filter SchemaFile.eligible) := by
  have hfiltered := List.rel_filter
    (fun d f hf => Bool.eq_iff_iff.mp (eligible_of_schemaFile hf)) h
  have hselected : ∀ d ∈ files.filter fun d => d.selected filesToGenerate,
      filesToGenerate.contains d.name = true := by
    intro d hd
    exact (Bool.and_eq_true_iff.mp (List.mem_filter.mp hd).2).1
  refine ((List.forall₂_and_left _ _).mpr ⟨hselected, hfiltered⟩).imp fun d f hdf => ?_
  have hf := hdf.2
  rwa [schemaFile, hdf.1, if_pos rfl] at hf

theorem corresponds_of_schemaFile {overrides : Overrides} {files : List ProtoFile}
    (hnames : ∀ f ∈ files, ∀ path ∈ f.paths, "" ∉ path) (r : Roots) {filesToGenerate : List String}
    {d : ProtoFile} {f : SchemaFile} (hd : d.selected filesToGenerate = true)
    (h : (ofFiles overrides files).schemaFile (filesToGenerate.contains d.name) d = .ok f) :
    Corresponds files r (ofFiles overrides files).goName d f := by
  have hrequested : filesToGenerate.contains d.name = true := (Bool.and_eq_true_iff.mp hd).1
  rw [schemaFile, hrequested, if_pos rfl] at h
  constructor
  case name =>
    obtain ⟨_, _, _, _, rfl⟩ := (ofFiles overrides files).requestedFile_eq_ok_iff.mp h
    rfl
  case declared =>
    intro e he m hm
    exact mem_qualifiedNames_of_requestedFile hnames h he hm
  case declarations =>
    intro fileName
    exact declarations_of_requestedFile h r fileName

end Supplied

/-- **Files declare what their services say**: for a request that is accepted, the eligible files are
the selected ones in order, and each of their units has a wrapper for every service, right after it an
adapter for every method, and at last the one translation of errors. -/
theorem Request.declarations_exact {r : Request} {p : Plan} (hplan : r.plan = .ok p)
    (hnames : ∀ f ∈ r.files, ∀ path ∈ f.paths, "" ∉ path) (hnodup : (qualifiedNames r.files).Nodup) :
    ∃ goName : String → String,
      (∀ f ∈ r.files, ∀ path ∈ f.paths, goName (f.qualified path) = exported (dotted path)) ∧
      List.Forall₂ (Corresponds r.files p.roots goName)
        (r.files.filter fun d => d.selected r.filesToGenerate) p.eligibleFiles := by
  obtain ⟨o, _, files, hfiles, rfl⟩ := Request.plan_eq_ok_iff.mp hplan
  refine ⟨(Supplied.ofFiles o.overrides r.files).goName,
    fun f hf path hpath => Supplied.goName_qualified hnames hnodup hf hpath, ?_⟩
  -- what is said of a selected file uses that it is selected, so that goes along with each pair
  have hfiltered := List.rel_filter
    (fun d f h => Bool.eq_iff_iff.mp (Supplied.eligible_of_schemaFile h))
    (buildSchema_eq_ok_iff.mp hfiles)
  have hselected : ∀ d ∈ r.files.filter fun d => d.selected r.filesToGenerate,
      d.selected r.filesToGenerate = true := by
    intro d hd
    exact (List.mem_filter.mp hd).2
  have hboth := (List.forall₂_and_left _ _).mpr ⟨hselected, hfiltered⟩
  exact hboth.imp fun d f h => Supplied.corresponds_of_schemaFile hnames o.roots h.1 h.2

/-! ### a shop -/

/-- a nested message in the file itself, and one from a file without a package -/
def shopRequest : Request where
  filesToGenerate := ["shop/services.proto"]
  parameter? := some "domainPath=shop/domain,useCasePath=shop/app,dtsPath=shop/dts"
  files := [
    { name? := some "common.proto"
      messages := [{ name? := some "Empty" }]
      options? := some { goPackage? := some "shop/common" } },
    { name? := some "shop/services.proto"
      package? := some "shop"
      messages := [{ name? := some "Order", nested := [{ name? := some "line_params" }] }]
      services := [{
        name? := some "order_service"
        methods := [
          { name? := some "create", inputType? := some ".shop.Order.line_params",
            outputType? := some ".shop.Order" },
          { name? := some "Check", inputType? := some ".Empty", outputType? := some ".shop.Order" }] }]
      options? := some { goPackage? := some "shop/rpc" } }]

theorem Request.declarations_exact_shopRequest :
    ∃ p, shopRequest.plan = .ok p ∧ (∀ f ∈ shopRequest.files, ∀ path ∈ f.paths, "" ∉ path) ∧
      (qualifiedNames shopRequest.files).Nodup ∧
      ∃ goName : String → String,
        goName ".shop.Order.line_params" = "OrderLineParams" ∧ goName ".Empty" = "Empty" ∧
        List.Forall₂ (Corresponds shopRequest.files p.roots goName)
          (shopRequest.files.filter fun d => d.selected shopRequest.filesToGenerate)
          p.eligibleFiles := by
  have haccepted : shopRequest.plan.isOk = true := by decide +kernel
  have hnames : ∀ f ∈ shopRequest.files, ∀ path ∈ f.paths, "" ∉ path := by decide
  have hnodup : (qualifiedNames shopRequest.files).Nodup := by decide +kernel
  cases hplan : shopRequest.plan with
  | error e => rw [hplan] at haccepted; exact nomatch haccepted
  | ok p =>
    obtain ⟨goName, hgoName, hall⟩ := Request.declarations_exact hplan hnames hnodup
    have hline := hgoName shopRequest.files[1] (by simp [shopRequest])
      ["Order", "line_params"] (by decide)
    have hempty := hgoName shopRequest.files[0] (by simp [shopRequest]) ["Empty"] (by decide)
    exact ⟨p, rfl, hnames, hnodup, goName, hline.trans (by decide +kernel),
      hempty.trans (by decide +kernel), hall⟩

end RpcAdapters
