import RpcAdapters.Proofs.Generation.Correspondence
import RpcAdapters.Proofs.Generation.Warnings
import RpcAdapters.Proofs.Naming.SchemaNames

/-!
# The Go names of an emitted unit

A schema compiler hands over schema names only, and they are exported on their way into a unit.  So
whatever a unit calls a wrapper, an adapter or a message is an exported name with no other meaning.

* `SourceUnit.goNames`          the names of wrappers, adapters and messages that a unit writes;
* `Request.HasSchemaNames`      all messages, services and methods of a request have schema names;
* `Method.HasGoNames`, `Service.HasGoNames`    what is made of them has exported names;
* `SchemaFile.isExportedName_of_mem_goNames`   and so has the unit;
* `Request.goNames_exported`    the names of all indices and units.
-/

namespace RpcAdapters

open Naming

/-! ## the names that are written -/

def TypeName.name : TypeName → String
  | .imported ident => ident.name
  | .bare name => name

/-- the names of its wrapper, its own name, and those of the messages that it takes, makes and returns -/
def Adapter.goNames (a : Adapter) : List String :=
  a.receiverType :: a.name :: a.transportTypes.map TypeName.name

def SourceUnit.goNames (u : SourceUnit) : List String :=
  u.wrappers.map Wrapper.name ++ u.adapters.flatMap Adapter.goNames

theorem Method.goNames_adapter (m : Method) (r : Roots) (wrapper : String) :
    (m.adapter r wrapper).goNames = [wrapper, m.goName, m.input.name, m.output.name, m.input.name,
      m.output.name, m.output.name] := by
  have htypes := m.types_adapter r wrapper
  unfold Adapter.goNames Adapter.transportTypes
  rw [htypes.input, htypes.output, htypes.locals]
  rfl

/-! ## schema files -/

structure Method.HasGoNames (m : Method) : Prop where
  name : IsExportedName m.goName
  input : IsExportedName m.input.name
  output : IsExportedName m.output.name

structure Service.HasGoNames (s : Service) : Prop where
  name : IsExportedName s.goName
  methods : ∀ m ∈ s.methods, m.HasGoNames

theorem Service.HasGoNames.wrapperName {s : Service} (h : s.HasGoNames) :
    IsExportedName s.wrapperName := by
  have hsuffix : (wrapperSuffix.toList.all fun c => IsNameChar c) = true := by decide
  apply h.name.append
  intro c hc
  exact of_decide_eq_true (List.all_eq_true.mp hsuffix c hc)

theorem Method.HasGoNames.adapter {m : Method} (h : m.HasGoNames) (r : Roots) {wrapper : String}
    (hwrapper : IsExportedName wrapper) :
    ∀ name ∈ (m.adapter r wrapper).goNames, IsExportedName name := by
  intro name hname
  simp only [m.goNames_adapter, List.mem_cons, List.not_mem_nil, or_false] at hname
  rcases hname with rfl | rfl | rfl | rfl | rfl | rfl | rfl
  · exact hwrapper
  · exact h.name
  · exact h.input
  · exact h.output
  · exact h.input
  · exact h.output
  · exact h.output

theorem SchemaFile.isExportedName_of_mem_goNames {f : SchemaFile} (h : ∀ s ∈ f.services, s.HasGoNames)
    (r : Roots) (fileName : String) :
    ∀ name ∈ (f.unit r fileName).goNames, IsExportedName name := by
  intro name hname
  rw [SourceUnit.goNames, f.wrappers_unit, f.adapters_unit, List.mem_append] at hname
  rcases hname with hname | hname
  · obtain ⟨w, hw, rfl⟩ := List.mem_map.mp hname
    obtain ⟨s, hs, rfl⟩ := List.mem_map.mp hw
    exact (h s hs).wrapperName
  · obtain ⟨a, ha, hname⟩ := List.mem_flatMap.mp hname
    obtain ⟨s, hs, ha⟩ := List.mem_flatMap.mp ha
    obtain ⟨m, hm, rfl⟩ := List.mem_map.mp ha
    exact ((h s hs).methods m hm).adapter r (h s hs).wrapperName name hname

/-! ## descriptors -/

theorem isExportedName_of_find? {files : List ProtoFile}
    (h : ∀ f ∈ files, ∀ path ∈ f.paths, ∀ name ∈ path, IsSchemaName name) {n : String}
    {entry : MessageEntry} (hentry : (MessageIndex.ofFiles files).find? n = some entry) :
    IsExportedName entry.goName := by
  have hgaps : ∀ f ∈ files, ∀ path ∈ f.paths, "" ∉ path :=
    fun f hf path hpath hempty => (h f hf path hpath "" hempty).ne_empty rfl
  obtain ⟨f, hf, path, hpath, heq⟩ :=
    (MessageIndex.mem_ofFiles_iff hgaps).mp (mem_of_lookup hentry)
  obtain ⟨-, rfl⟩ := Prod.mk.inj heq
  exact isExportedName_exported_dotted (ne_nil_of_mem_messagePaths hpath) (h f hf path hpath)

namespace Supplied

variable {s : Supplied} (hmessages : ∀ n entry, s.messages.find? n = some entry →
  IsExportedName entry.goName)
include hmessages

theorem isExportedName_of_messageIdent {n : String} {i : Ident} (h : s.messageIdent n = .ok i) :
    IsExportedName i.name := by
  obtain ⟨entry, -, hentry, -, -, hname⟩ := s.messageIdent_eq_ok_iff.mp h
  rw [← hname]
  exact hmessages n entry hentry

theorem hasGoNames_of_method {file service : String} {d : ProtoMethod} {m : Method}
    (hname : IsSchemaName d.name) (h : s.method file service d = .ok m) : m.HasGoNames := by
  obtain ⟨input, hinput, output, houtput, rfl⟩ := s.method_eq_ok_iff.mp h
  constructor
  case name => exact isExportedName_exported hname
  case input => exact isExportedName_of_messageIdent hmessages hinput
  case output => exact isExportedName_of_messageIdent hmessages houtput

theorem hasGoNames_of_service {file : String} {d : ProtoService} {service : Service}
    (hname : IsSchemaName d.name) (hmethods : ∀ m ∈ d.methods, IsSchemaName m.name)
    (h : s.service file d = .ok service) : service.HasGoNames := by
  obtain ⟨methods, hall, rfl⟩ := s.service_eq_ok_iff.mp h
  constructor
  case name => exact isExportedName_exported hname
  case methods =>
    intro m hm
    obtain ⟨e, he, hmethod⟩ := exists_right_of_mem hall.flip hm
    exact hasGoNames_of_method hmessages (hmethods e he) hmethod

theorem hasGoNames_of_requestedFile {d : ProtoFile} {f : SchemaFile}
    (hservices : ∀ e ∈ d.services, IsSchemaName e.name)
    (hmethods : ∀ e ∈ d.services, ∀ m ∈ e.methods, IsSchemaName m.name)
    (h : s.requestedFile d = .ok f) : ∀ service ∈ f.services, service.HasGoNames := by
  obtain ⟨_, -, services, hall, rfl⟩ := s.requestedFile_eq_ok_iff.mp h
  intro service hservice
  obtain ⟨e, he, hmade⟩ := exists_right_of_mem hall.flip hservice
  exact hasGoNames_of_service hmessages (hservices e he) (hmethods e he) hmade

end Supplied

/-! ## requests -/

/-- what a schema compiler makes sure of: it takes no other names for declarations -/
structure Request.HasSchemaNames (r : Request) : Prop where
  messages : ∀ f ∈ r.files, ∀ path ∈ f.paths, ∀ name ∈ path, IsSchemaName name
  services : ∀ f ∈ r.files, ∀ s ∈ f.services, IsSchemaName s.name
  methods : ∀ f ∈ r.files, ∀ s ∈ f.services, ∀ m ∈ s.methods, IsSchemaName m.name

theorem Request.hasGoNames_of_mem_eligibleFiles {r : Request} (h : r.HasSchemaNames) {p : Plan}
    (hplan : r.plan = .ok p) {f : SchemaFile} (hf : f ∈ p.eligibleFiles) :
    ∀ s ∈ f.services, s.HasGoNames := by
  obtain ⟨o, -, files, hfiles, rfl⟩ := Request.plan_eq_ok_iff.mp hplan
  have hall := Supplied.forall₂_requestedFile (buildSchema_eq_ok_iff.mp hfiles)
  obtain ⟨d, hd, hmade⟩ := exists_right_of_mem hall.flip hf
  have hmem : d ∈ r.files := (List.mem_filter.mp hd).1
  exact Supplied.hasGoNames_of_requestedFile (fun _ _ => isExportedName_of_find? h.messages)
    (h.services d hmem) (h.methods d hmem) hmade

/-- **Go names are exported and mean nothing else**: a path of schema names has an exported identifier of
ASCII for its Go name.  So have all messages of an index, and so is every name of a wrapper, an adapter
or a message in a unit; it is no keyword of Go, not predeclared, and no name of the bodies. -/
theorem Request.goNames_exported :
    (∀ path : List String, path ≠ [] → (∀ name ∈ path, IsSchemaName name) →
      IsExportedName (exported (dotted path)) ∧ IsIdentifier (exported (dotted path))) ∧
    ∀ r : Request, r.HasSchemaNames →
      (∀ n entry, (MessageIndex.ofFiles r.files).find? n = some entry →
        IsExportedName entry.goName ∧ IsUntaken entry.goName) ∧
      ∀ p, r.plan = .ok p → ∀ f ∈ p.eligibleFiles, ∀ fileName,
        ∀ name ∈ (f.unit p.roots fileName).goNames, IsExportedName name ∧ IsUntaken name := by
  refine ⟨fun path hne hpath => ?_, fun r h => ⟨fun n entry hentry => ?_,
    fun p hplan f hf fileName name hname => ?_⟩⟩
  · have hexported := isExportedName_exported_dotted hne hpath
    exact ⟨hexported, hexported.isIdentifier⟩
  · have hexported := isExportedName_of_find? h.messages hentry
    exact ⟨hexported, hexported.isUntaken⟩
  · have hservices := r.hasGoNames_of_mem_eligibleFiles h hplan hf
    have hexported := f.isExportedName_of_mem_goNames hservices p.roots fileName name hname
    exact ⟨hexported, hexported.isUntaken⟩

/-- the shop -/
theorem Request.goNames_exported_shopRequest :
    shopRequest.HasSchemaNames ∧
    ∃ p, shopRequest.plan = .ok p ∧
      (p.eligibleFiles.map fun f => (f.unit p.roots "shop.go").goNames) =
        [["OrderServiceRpc",
          "OrderServiceRpc", "Create", "OrderLineParams", "Order", "OrderLineParams", "Order", "Order",
          "OrderServiceRpc", "Check", "Empty", "Order", "Empty", "Order", "Order"]] ∧
      ∀ f ∈ p.eligibleFiles, ∀ name ∈ (f.unit p.roots "shop.go").goNames,
        IsExportedName name ∧ IsUntaken name := by
  have hschema : shopRequest.HasSchemaNames := ⟨by decide +kernel, by decide +kernel, by decide +kernel⟩
  have hnames : (shopRequest.plan.toOption.map fun p =>
      p.eligibleFiles.map fun f => (f.unit p.roots "shop.go").goNames) = some
        [["OrderServiceRpc",
          "OrderServiceRpc", "Create", "OrderLineParams", "Order", "OrderLineParams", "Order", "Order",
          "OrderServiceRpc", "Check", "Empty", "Order", "Empty", "Order", "Order"]] := by
    decide +kernel
  cases hplan : shopRequest.plan with
  | error e =>
    rw [hplan] at hnames
    cases hnames
  | ok p =>
    rw [hplan] at hnames
    refine ⟨hschema, p, rfl, Option.some.inj hnames, fun f hf => ?_⟩
    exact (goNames_exported.2 shopRequest hschema).2 p hplan f hf "shop.go"

end RpcAdapters
