import Mathlib.Data.List.Nodup
import RpcAdapters.Exchange
import RpcAdapters.Proofs.Generation.Outcome
import RpcAdapters.Proofs.Schema.Accepted

/-!
# Names declared in a Go package

Go takes all files of a package together, so what one file declares may clash with what another one
does.  The names of types and functions are looked at over all files with one import path, and the
methods of a wrapper next to its field.

* `SourceUnit.packageLevel`        the names that a file declares in its package, with repeats;
* `Plan.packageUnits g path`       the units of the generated files of a package;
* `Plan.DistinctNames`             what a schema has to keep apart;
* `count_packageLevel`             how often the files of a package declare a name;
* `Plan.declared_once`             nothing but the translation of errors is declared twice;
* `Plan.declared_twice_depot`      two files with one import path both declare that.
-/

namespace RpcAdapters

/-! ## names of a file -/

def Declaration.packageLevel : Declaration → List String
  | .wrapper w => [w.name]
  | .adapter _ => []
  | .translation t => [t.name]

namespace SourceUnit

def packageLevel (u : SourceUnit) : List String := u.declarations.flatMap Declaration.packageLevel

/-- the methods that a file declares, each with the type it belongs to -/
def methods (u : SourceUnit) : List (String × String) :=
  u.adapters.map fun a => (a.receiverType, a.name)

end SourceUnit

def SchemaFile.packageLevel (f : SchemaFile) : List String :=
  f.services.map Service.wrapperName ++ [translationName]

def Service.methodNames (s : Service) : List (String × String) :=
  s.methods.map fun m => (s.wrapperName, m.goName)

theorem Service.packageLevel_declarations (s : Service) (r : Roots) :
    (s.declarations r).flatMap Declaration.packageLevel = [s.wrapperName] := by
  have hadapters : (s.methods.map fun m => Declaration.adapter (m.adapter r s.wrapperName)).flatMap
      Declaration.packageLevel = [] := by
    rw [List.flatMap_map]
    exact List.flatMap_eq_nil_iff.mpr fun _ _ => rfl
  rw [Service.declarations, List.flatMap_cons, hadapters]
  rfl

theorem SchemaFile.packageLevel_unit (f : SchemaFile) (r : Roots) (fileName : String) :
    (f.unit r fileName).packageLevel = f.packageLevel := by
  show (f.declarations r).flatMap Declaration.packageLevel = _
  rw [SchemaFile.declarations, List.flatMap_append, List.flatMap_assoc]
  simp only [Service.packageLevel_declarations]
  rw [← List.map_eq_flatMap]
  rfl

theorem SchemaFile.methods_unit (f : SchemaFile) (r : Roots) (fileName : String) :
    (f.unit r fileName).methods = f.services.flatMap Service.methodNames := by
  rw [SourceUnit.methods, f.adapters_unit, List.map_flatMap]
  simp only [List.map_map]
  rfl

/-! ## wrapper names -/

theorem Service.wrapperName_inj {s s' : Service} (h : s.wrapperName = s'.wrapperName) :
    s.goName = s'.goName := (String.append_left_inj wrapperSuffix).mp h

theorem Service.getLast?_wrapperName (s : Service) : s.wrapperName.toList.getLast? = some 'c' := by
  rw [wrapperName, String.toList_append, List.getLast?_append]
  rfl

theorem getLast?_translationName : translationName.toList.getLast? = some 'r' := by decide

theorem Service.wrapperName_ne_translationName (s : Service) : s.wrapperName ≠ translationName := by
  intro h
  have hlast := congrArg (fun name => name.toList.getLast?) h
  rw [s.getLast?_wrapperName, getLast?_translationName] at hlast
  exact absurd hlast (by decide)

section
variable {services : List Service} (hnames : (services.map Service.goName).Nodup)
include hnames

theorem nodup_wrapperNames : (services.map Service.wrapperName).Nodup := by
  have hpairs : services.Pairwise fun s s' => s.goName ≠ s'.goName := List.pairwise_map.mp hnames
  exact List.pairwise_map.mpr (hpairs.imp fun hne heq => hne (Service.wrapperName_inj heq))

theorem nodup_methodNames
    (hmethods : ∀ s ∈ services, (s.methods.map Method.goName).Nodup) :
    (services.flatMap Service.methodNames).Nodup := by
  have hpairs : services.Pairwise fun s s' => s.goName ≠ s'.goName := List.pairwise_map.mp hnames
  refine List.nodup_flatMap.mpr ⟨fun s hs => ?_, hpairs.imp fun {s s'} hne => ?_⟩
  · have hinner : s.methods.Pairwise fun m m' => m.goName ≠ m'.goName :=
      List.pairwise_map.mp (hmethods s hs)
    exact List.pairwise_map.mpr (hinner.imp fun hmm heq => hmm (Prod.mk.inj heq).2)
  · -- methods of two services belong to two types
    intro pair hpair hpair'
    obtain ⟨m, _, rfl⟩ := List.mem_map.mp hpair
    obtain ⟨m', _, heq⟩ := List.mem_map.mp hpair'
    exact hne (Service.wrapperName_inj (Prod.mk.inj heq).1).symm

end

/-! ## names of several files -/

theorem count_packageLevel (files : List SchemaFile) (name : String) :
    (files.flatMap SchemaFile.packageLevel).count name
      = ((files.flatMap SchemaFile.services).map Service.wrapperName).count name
        + if name = translationName then files.length else 0 := by
  induction files with
  | nil => simp
  | cons f files ih =>
    rw [List.flatMap_cons, List.flatMap_cons, List.count_append, ih, List.map_append,
      List.count_append, SchemaFile.packageLevel, List.count_append, List.count_singleton,
      List.length_cons]
    by_cases h : name = translationName
    · have hbeq : (translationName == name) = true := by rw [h, beq_self_eq_true]
      rw [if_pos h, if_pos h, hbeq, if_pos rfl]
      omega
    · have hbeq : (translationName == name) = false := by
        rw [beq_eq_false_iff_ne]
        exact Ne.symm h
      rw [if_neg h, if_neg h, hbeq, if_neg Bool.false_ne_true]
      omega

theorem count_translationName (files : List SchemaFile) :
    (files.flatMap SchemaFile.packageLevel).count translationName = files.length := by
  have hnone : ((files.flatMap SchemaFile.services).map Service.wrapperName).count translationName
      = 0 := by
    refine List.count_eq_zero.mpr fun hmem => ?_
    obtain ⟨s, _, hs⟩ := List.mem_map.mp hmem
    exact s.wrapperName_ne_translationName hs
  rw [count_packageLevel, hnone, if_pos rfl, Nat.zero_add]

theorem count_le_one_of_ne {files : List SchemaFile}
    (hnames : ((files.flatMap SchemaFile.services).map Service.goName).Nodup) {name : String}
    (h : name ≠ translationName) : (files.flatMap SchemaFile.packageLevel).count name ≤ 1 := by
  rw [count_packageLevel, if_neg h, Nat.add_zero]
  exact List.nodup_iff_count_le_one.mp (nodup_wrapperNames hnames) name

/-! ## packages of a plan -/

namespace Plan

variable (p : Plan)

def packageFiles (path : String) : List SchemaFile :=
  p.eligibleFiles.filter fun f => f.importPath = path

def packageServices (path : String) : List Service :=
  (p.packageFiles path).flatMap SchemaFile.services

/-- the units of the generated files, in order -/
def unitsOf (g : Generation) : List SourceUnit :=
  List.zipWith (fun f file => f.unit p.roots file.name) p.eligibleFiles g.files

/-- the units are emitted for the eligible files, in order; their file names are left open -/
def Emits (units : List SourceUnit) : Prop :=
  List.Forall₂ (fun f u => ∃ name, f.unit p.roots name = u) p.eligibleFiles units

def packageUnits (g : Generation) (path : String) : List SourceUnit :=
  (p.unitsOf g).filter fun u => u.importPath = path

/-- services of one package have different Go names, and so have methods of one service -/
structure DistinctNames : Prop where
  services : ∀ path, ((p.packageServices path).map Service.goName).Nodup
  methods : ∀ f ∈ p.eligibleFiles, ∀ s ∈ f.services, (s.methods.map Method.goName).Nodup

variable {p} {g : Generation}

theorem emits_unitsOf (h : p.Yields g) : p.Emits (p.unitsOf g) :=
  (forall₂_zipWith_left _ h.files).imp fun _ _ ⟨file, _, hu⟩ => ⟨file.name, hu⟩

theorem forall₂_packageUnits (h : p.Yields g) (path : String) :
    List.Forall₂ (fun f u => ∃ name, f.unit p.roots name = u) (p.packageFiles path)
      (p.packageUnits g path) := by
  refine List.rel_filter (fun f u ⟨name, hu⟩ => ?_) (emits_unitsOf h)
  subst hu
  exact Iff.rfl

section
variable {α : Type} {view : SourceUnit → List α} {given : SchemaFile → List α}

/-- what can be seen of emitted units without their file names can be seen of the schema files -/
theorem flatMap_packageUnits (h : p.Yields g) (path : String)
    (hview : ∀ f name, view (f.unit p.roots name) = given f) :
    (p.packageUnits g path).flatMap view = (p.packageFiles path).flatMap given :=
  flatMap_eq_flatMap_of_forall₂ (forall₂_packageUnits h path) fun f _ ⟨name, hu⟩ => hu ▸ hview f name

end

theorem packageLevel_packageUnits (h : p.Yields g) (path : String) :
    (p.packageUnits g path).flatMap SourceUnit.packageLevel
      = (p.packageFiles path).flatMap SchemaFile.packageLevel :=
  flatMap_packageUnits h path fun f name => f.packageLevel_unit p.roots name

theorem methods_packageUnits (h : p.Yields g) (path : String) :
    (p.packageUnits g path).flatMap SourceUnit.methods
      = (p.packageServices path).flatMap Service.methodNames := by
  rw [packageServices, List.flatMap_assoc]
  exact flatMap_packageUnits h path fun f name => f.methods_unit p.roots name

theorem wrappers_packageUnits (h : p.Yields g) (path : String) :
    (p.packageUnits g path).flatMap SourceUnit.wrappers
      = (p.packageServices path).map fun s => s.wrapper p.roots := by
  rw [packageServices, List.map_flatMap]
  exact flatMap_packageUnits h path fun f name => f.wrappers_unit p.roots name

theorem adapters_packageUnits (h : p.Yields g) (path : String) :
    (p.packageUnits g path).flatMap SourceUnit.adapters
      = (p.packageServices path).flatMap fun s => s.methods.map fun m =>
          m.adapter p.roots s.wrapperName := by
  rw [packageServices, List.flatMap_assoc]
  exact flatMap_packageUnits h path fun f name => f.adapters_unit p.roots name

/-- the units are those that the generated files are the texts of -/
theorem forall₂_unitsOf (h : p.Yields g) :
    List.Forall₂ (fun u file => u.fileName = file.name ∧ u.render = .ok file.content)
      (p.unitsOf g) g.files :=
  (forall₂_zipWith_right _ h.files).imp fun _ _ ⟨_, ⟨_, hrender⟩, hu⟩ => hu ▸ ⟨rfl, hrender⟩

end Plan

/-! ## what is declared once -/

/-- what the files of a package declare between them -/
structure DeclaresOnce (units : List SourceUnit) : Prop where
  inFile : ∀ u ∈ units, u.packageLevel.Nodup
  routine : (units.flatMap SourceUnit.packageLevel).count "transformTwirpError" = units.length
  others : ∀ name, name ≠ "transformTwirpError" →
    (units.flatMap SourceUnit.packageLevel).count name ≤ 1
  methods : (units.flatMap SourceUnit.methods).Nodup
  fields : ∀ w ∈ units.flatMap SourceUnit.wrappers, ∀ a ∈ units.flatMap SourceUnit.adapters,
    a.receiverType = w.name → (a.name = w.field ↔ a.name = "UseCase")

namespace Plan

variable {p : Plan} {g : Generation}

theorem nodup_packageLevel_of_mem (hnames : p.DistinctNames) {f : SchemaFile}
    (hf : f ∈ p.eligibleFiles) : f.packageLevel.Nodup := by
  have hmem : f ∈ p.packageFiles f.importPath := List.mem_filter.mpr ⟨hf, decide_eq_true rfl⟩
  have hservices : (f.services.map Service.goName).Nodup := by
    have hall := hnames.services f.importPath
    rw [packageServices, List.map_flatMap] at hall
    exact (List.nodup_flatMap.mp hall).1 f hmem
  refine List.nodup_append.mpr ⟨nodup_wrapperNames hservices, List.nodup_singleton _, ?_⟩
  intro name hname other hother
  obtain ⟨s, _, rfl⟩ := List.mem_map.mp hname
  rw [List.mem_singleton.mp hother]
  exact s.wrapperName_ne_translationName

/-- **Only the translation of errors is declared twice**: over the files of a package no other name is,
each file declares it once, no method of a type is declared twice, and a method has the name of its
type's field exactly if it is called `UseCase`. -/
theorem declared_once (hg : p.generate = .ok g) (hnames : p.DistinctNames) :
    List.Forall₂ (fun u file => u.fileName = file.name ∧ u.render = .ok file.content)
      (p.unitsOf g) g.files ∧
    ∀ path, DeclaresOnce (p.packageUnits g path) := by
  have hyields := p.generate_eq_ok_iff.mp hg
  refine ⟨forall₂_unitsOf hyields, fun path => ?_⟩
  have hunits := forall₂_packageUnits hyields path
  constructor
  case inFile =>
    intro u hu
    obtain ⟨f, hf, name, rfl⟩ := exists_right_of_mem hunits.flip hu
    rw [f.packageLevel_unit]
    exact nodup_packageLevel_of_mem hnames (List.mem_filter.mp hf).1
  case routine =>
    rw [packageLevel_packageUnits hyields, ← hunits.length_eq]
    exact count_translationName _
  case others =>
    intro name hname
    rw [packageLevel_packageUnits hyields]
    exact count_le_one_of_ne (hnames.services path) hname
  case methods =>
    rw [methods_packageUnits hyields]
    refine nodup_methodNames (hnames.services path) fun s hs => ?_
    obtain ⟨f, hf, hsf⟩ := List.mem_flatMap.mp hs
    exact hnames.methods f (List.mem_filter.mp hf).1 s hsf
  case fields =>
    intro w hw a _ _
    rw [wrappers_packageUnits hyields] at hw
    obtain ⟨s, _, rfl⟩ := List.mem_map.mp hw
    exact Iff.rfl

/-! ### a depot -/

/-- two files with services for one Go package, and a method that is called like the field -/
def depotRequest : Request where
  filesToGenerate := ["order.services.proto", "stock.services.proto"]
  parameter? := some "domainPath=shop/domain,useCasePath=shop/app,dtsPath=shop/dts"
  files := [
    { name? := some "order.services.proto"
      package? := some "shop"
      messages := [{ name? := some "Order" }]
      services := [{
        name? := some "OrderService"
        methods := [
          { name? := some "use_case", inputType? := some ".shop.Order",
            outputType? := some ".shop.Order" }] }]
      options? := some { goPackage? := some "shop/rpc" } },
    { name? := some "stock.services.proto"
      package? := some "shop"
      services := [{ name? := some "StockService" }]
      options? := some { goPackage? := some "shop/rpc" } }]

def depotFiles : List SchemaFile := [
  { name := "order.services.proto"
    importPath := "shop/rpc"
    packageName := "rpc"
    services := [{
      name := "OrderService"
      goName := "OrderService"
      methods := [
        { name := "use_case", goName := "UseCase", input := ⟨"Order", "shop/rpc"⟩,
          output := ⟨"Order", "shop/rpc"⟩ }] }] },
  { name := "stock.services.proto"
    importPath := "shop/rpc"
    packageName := "rpc"
    services := [{ name := "StockService", goName := "StockService" }] }]

theorem exists_generate_depot : ∃ p g, depotRequest.plan = .ok p ∧ p.generate = .ok g ∧
    p.eligibleFiles = depotFiles := by
  have hread : (depotRequest.plan.toOption.map fun p => (p.files, p.layout.placement))
      = some (depotFiles, .sourceRelative) := by decide +kernel
  obtain ⟨p, g, hplan, hg, hfiles⟩ := Request.exists_generate hread
  refine ⟨p, g, hplan, hg, ?_⟩
  rw [eligibleFiles, hfiles]
  decide +kernel

theorem distinctNames_of_depot (h : p.eligibleFiles = depotFiles) : p.DistinctNames := by
  constructor
  case services =>
    intro path
    rw [packageServices, packageFiles, h]
    by_cases hpath : "shop/rpc" = path
    · subst hpath
      decide +kernel
    · have hnone : depotFiles.filter (fun f => f.importPath = path) = [] := by
        simp [depotFiles, hpath]
      rw [hnone]
      exact .nil
  case methods =>
    rw [h]
    decide +kernel

theorem declared_once_depot : ∃ p g, depotRequest.plan = .ok p ∧ p.generate = .ok g ∧
    p.DistinctNames ∧ ∀ path, DeclaresOnce (p.packageUnits g path) := by
  obtain ⟨p, g, hplan, hg, hfiles⟩ := exists_generate_depot
  have hnames := distinctNames_of_depot hfiles
  exact ⟨p, g, hplan, hg, hnames, (declared_once hg hnames).2⟩

/-- names that are kept apart in the schema meet in the package: both files declare the translation of
errors, and a wrapper has a field and a method of one name -/
theorem declared_twice_depot : ∃ p g, depotRequest.plan = .ok p ∧ p.generate = .ok g ∧
    p.DistinctNames ∧
    ¬ ((p.packageUnits g "shop/rpc").flatMap SourceUnit.packageLevel).Nodup ∧
    ∃ w ∈ (p.packageUnits g "shop/rpc").flatMap SourceUnit.wrappers,
      ∃ a ∈ (p.packageUnits g "shop/rpc").flatMap SourceUnit.adapters,
        a.receiverType = w.name ∧ a.name = w.field := by
  obtain ⟨p, g, hplan, hg, hfiles⟩ := exists_generate_depot
  have hyields := p.generate_eq_ok_iff.mp hg
  have hpackage : p.packageFiles "shop/rpc" = depotFiles := by
    rw [packageFiles, hfiles]
    decide +kernel
  refine ⟨p, g, hplan, hg, distinctNames_of_depot hfiles, ?_, ?_⟩
  · rw [packageLevel_packageUnits hyields, hpackage]
    decide +kernel
  · rw [wrappers_packageUnits hyields, adapters_packageUnits hyields, packageServices, hpackage]
    refine ⟨_, List.mem_map.mpr ⟨_, List.mem_cons_self .., rfl⟩, _,
      List.mem_flatMap.mpr ⟨_, List.mem_cons_self .., List.mem_cons_self ..⟩, rfl, rfl⟩

end Plan

end RpcAdapters
