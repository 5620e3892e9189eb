import RpcAdapters.Proofs.Schema.Supplied

/-!
# What requested files have to meet

A requested file has to have an import path, and every type of its methods has to be known.  These
demands come one after the other; the first that is not met is the error.

* `ProtoFile.importPath overrides f`   the import path that is said of a file, empty if none is;
* `Names overrides files n i`          the type name `n` stands for the identifier `i`;
* `Demand`, `demands`                  what has to be met, in the order in which it is asked;
* `Demand.Met`, `Demand.Fails`         whether it is, and the error if it is not;
* `ProtoFile.ReadAs`                   what a file becomes when all is met;
* `exists_buildSchema_iff_met`, `buildSchema_eq_error_iff`   the first demand that is not met decides;
* `buildSchema_exact`                  when files make a schema, which one, and else why not.
-/

namespace RpcAdapters

open Naming

/-! ## packages of files -/

/-- what stands before the first `;` of the override of the file, or of its own option without one -/
def ProtoFile.importPath (overrides : Overrides) (f : ProtoFile) : String :=
  String.ofList ((((overrides.find? f.name).or f.goPackage?).getD "").toList.takeWhile (· != ';'))

theorem takeWhile_of_splitFirst {sep : Char} {cs a b : List Char}
    (h : Text.splitFirst sep cs = some (a, b)) : cs.takeWhile (· != sep) = a := by
  obtain ⟨rfl, hsep⟩ := Text.splitFirst_eq_some h
  have ha : ∀ c ∈ a, (c != sep) = true := by
    intro c hc
    rw [bne_iff_ne]
    intro hcsep
    exact hsep (hcsep ▸ hc)
  rw [List.takeWhile_append_of_pos ha, List.takeWhile_cons_of_neg (by simp), List.append_nil]

theorem takeWhile_of_splitFirst_eq_none {sep : Char} {cs : List Char}
    (h : Text.splitFirst sep cs = none) : cs.takeWhile (· != sep) = cs := by
  have hcs : ∀ c ∈ cs, (c != sep) = true := by
    intro c hc
    rw [bne_iff_ne]
    intro hcsep
    exact Text.splitFirst_eq_none.mp h (hcsep ▸ hc)
  have hall : (cs ++ []).takeWhile (· != sep) = cs ++ [].takeWhile (· != sep) :=
    List.takeWhile_append_of_pos hcs
  rwa [List.append_nil, List.takeWhile_nil, List.append_nil] at hall

theorem PackageInfo.importPath?_ofGoPackage (text : String) : (ofGoPackage text).importPath? =
    if String.ofList (text.toList.takeWhile (· != ';')) = "" then none
    else some (String.ofList (text.toList.takeWhile (· != ';'))) := by
  unfold ofGoPackage
  by_cases htext : text = ""
  · subst htext
    rfl
  · rw [if_neg htext]
    cases hsplit : Text.splitFirst ';' text.toList with
    | none =>
      rw [takeWhile_of_splitFirst_eq_none hsplit, String.ofList_toList, if_neg htext]
    | some parts =>
      obtain ⟨path, name⟩ := parts
      rw [takeWhile_of_splitFirst hsplit]
      by_cases hpath : path = []
      · subst hpath
        rfl
      · have hne : String.ofList path ≠ "" := by
          intro h
          exact hpath (String.ofList_injective h)
        rw [if_neg hne]
        exact if_neg hpath

theorem ProtoFile.importPath?_packageInfo (overrides : Overrides) (f : ProtoFile) :
    (f.packageInfo overrides).importPath?
      = if f.importPath overrides = "" then none else some (f.importPath overrides) := by
  unfold ProtoFile.packageInfo ProtoFile.importPath
  cases (overrides.find? f.name).or f.goPackage? with
  | none => rfl
  | some text => exact PackageInfo.importPath?_ofGoPackage text

/-! ## demands -/

/-- `i` is what the type name `n` stands for: the last message of that name, in a file with an import
path -/
def Names (overrides : Overrides) (files : List ProtoFile) (n : String) (i : Ident) : Prop :=
  ∃ entry, (MessageIndex.ofFiles files).find? n = some entry ∧ entry.goName = i.name ∧
    ∃ f ∈ files, f.name = entry.file ∧ f.importPath overrides = i.importPath ∧ i.importPath ≠ ""

inductive Demand where
  /-- the file has an import path -/
  | ownPath (file : ProtoFile)
  /-- a type of the method is known -/
  | type (file : ProtoFile) (service : ProtoService) (method : ProtoMethod) (n : String)

namespace Demand

variable (overrides : Overrides) (files : List ProtoFile)

def Met : Demand → Prop
  | ownPath f => f.importPath overrides ≠ ""
  | type _ _ _ n => ∃ i, Names overrides files n i

inductive Fails : Demand → SchemaError → Prop
  | ownPath {f : ProtoFile} (h : f.importPath overrides = "") : Fails (.ownPath f) (.noImportPath f.name)
  | undefined {f : ProtoFile} {s : ProtoService} {m : ProtoMethod} {n : String}
    (hindex : (MessageIndex.ofFiles files).find? n = none) :
    Fails (.type f s m n) (.inMethod f.name s.name m.name (.undefined n))
  | noImportPath {f : ProtoFile} {s : ProtoService} {m : ProtoMethod} {n : String} {entry : MessageEntry}
    {g : ProtoFile} (hindex : (MessageIndex.ofFiles files).find? n = some entry) (hg : g ∈ files)
    (hname : g.name = entry.file) (hpath : g.importPath overrides = "") :
    Fails (.type f s m n) (.inMethod f.name s.name m.name (.noImportPath g.name))

/-- the error names the method, and the type or the file that is in the way -/
theorem Fails.message {f : ProtoFile} {s : ProtoService} {m : ProtoMethod} {n : String} {e : SchemaError}
    (h : (type f s m n).Fails overrides files e) :
    e.message = f.name ++ ": method " ++ s.name ++ "." ++ m.name ++ ": " ++
        ("message type \"" ++ n ++ "\" is not defined in any supplied file") ∨
      ∃ g ∈ files, g.importPath overrides = "" ∧ e.message =
        f.name ++ ": method " ++ s.name ++ "." ++ m.name ++ ": " ++ noImportPathMessage g.name := by
  cases h with
  | undefined hindex => exact .inl rfl
  | noImportPath hindex hg hname hpath => exact .inr ⟨_, hg, hpath, rfl⟩

end Demand

def ProtoMethod.demands (f : ProtoFile) (s : ProtoService) (m : ProtoMethod) : List Demand :=
  [.type f s m m.inputType, .type f s m m.outputType]

def ProtoService.demands (f : ProtoFile) (s : ProtoService) : List Demand :=
  s.methods.flatMap fun m => m.demands f s

def ProtoFile.demands (f : ProtoFile) : List Demand :=
  .ownPath f :: f.services.flatMap fun s => s.demands f

/-- the demands of all requested files, in the order of the files -/
def demands (files : List ProtoFile) (filesToGenerate : List String) : List Demand :=
  (files.filter fun f => filesToGenerate.contains f.name).flatMap ProtoFile.demands

/-! ## what is found out about them -/

namespace Supplied

variable (s : Supplied)

/-- the error that is raised where the demand stands -/
def fault? : Demand → Option SchemaError
  | .ownPath f => if (s.package f.name).importPath? = none then some (.noImportPath f.name) else none
  | .type f d m n => (failure? (s.messageIdent n)).map (.inMethod f.name d.name m.name)

theorem method_eq (file service : String) (m : ProtoMethod) : s.method file service m =
    ((s.messageIdent m.inputType).mapError (.inMethod file service m.name) >>= fun input =>
      (s.messageIdent m.outputType).mapError (.inMethod file service m.name) >>= fun output =>
        pure (m.resolved input output)) := rfl

theorem failure?_method (f : ProtoFile) (d : ProtoService) (m : ProtoMethod) :
    failure? (s.method f.name d.name m) = (m.demands f d).findSome? s.fault? := by
  have hmethod : failure? (s.method f.name d.name m)
      = (s.fault? (.type f d m m.inputType)).or (s.fault? (.type f d m m.outputType)) := by
    rw [method_eq, failure?_bind fun input _ => failure?_bind_pure _ (m.resolved input),
      failure?_mapError, failure?_mapError]
    rfl
  rw [hmethod, ProtoMethod.demands, List.findSome?_cons, List.findSome?_cons, List.findSome?_nil]
  cases s.fault? (.type f d m m.inputType) <;> cases s.fault? (.type f d m m.outputType) <;> rfl

theorem failure?_service (f : ProtoFile) (d : ProtoService) :
    failure? (s.service f.name d) = (d.demands f).findSome? s.fault? := by
  unfold service
  rw [failure?_bind_pure, failure?_mapM, ProtoService.demands, findSome?_flatMap]
  simp only [failure?_method]

theorem failure?_requestedFile (f : ProtoFile) :
    failure? (s.requestedFile f) = f.demands.findSome? s.fault? := by
  rw [requestedFile, ProtoFile.demands, List.findSome?_cons]
  cases hpath : (s.package f.name).importPath? with
  | none =>
    have hfault : s.fault? (.ownPath f) = some (.noImportPath f.name) := if_pos hpath
    rw [hfault]
    rfl
  | some path =>
    have hfault : s.fault? (.ownPath f) = none := if_neg (by rw [hpath]; exact Option.some_ne_none path)
    have hservices : failure? (f.services.mapM (s.service f.name))
        = (f.services.flatMap fun d => d.demands f).findSome? s.fault? := by
      rw [failure?_mapM, findSome?_flatMap]
      simp only [failure?_service]
    rw [hfault, ← hservices]
    exact failure?_bind_pure _ _

end Supplied

theorem failure?_buildSchema (files : List ProtoFile) (filesToGenerate : List String)
    (overrides : Overrides) : failure? (buildSchema files filesToGenerate overrides)
      = (demands files filesToGenerate).findSome? (Supplied.ofFiles overrides files).fault? := by
  have hfilter : ∀ fs : List ProtoFile,
      (fs.findSome? fun f => failure?
        ((Supplied.ofFiles overrides files).schemaFile (filesToGenerate.contains f.name) f))
      = (demands fs filesToGenerate).findSome? (Supplied.ofFiles overrides files).fault? := by
    intro fs
    induction fs with
    | nil => rfl
    | cons f fs ih =>
      rw [List.findSome?_cons, ih, demands, demands, List.filter_cons]
      by_cases hasked : filesToGenerate.contains f.name = true
      · rw [if_pos hasked, List.flatMap_cons, List.findSome?_append, Supplied.schemaFile, if_pos hasked,
          Supplied.failure?_requestedFile]
        cases f.demands.findSome? (Supplied.ofFiles overrides files).fault? <;> rfl
      · rw [if_neg hasked, Supplied.schemaFile, if_neg hasked]
        rfl
  unfold buildSchema
  rw [failure?_mapM]
  exact hfilter files

/-! ## files with names of their own -/

theorem exists_file_of_find? {files : List ProtoFile} {n : String} {entry : MessageEntry}
    (h : (MessageIndex.ofFiles files).find? n = some entry) : ∃ f ∈ files, f.name = entry.file := by
  have hmem : (n, entry) ∈ (files.flatMap ProtoFile.entries).reverse := mem_of_lookup h
  obtain ⟨f, hf, hentry⟩ := List.mem_flatMap.mp (List.mem_reverse.mp hmem)
  rw [f.entries_eq] at hentry
  obtain ⟨path, -, hpath⟩ := List.mem_map.mp hentry
  exact ⟨f, hf, congrArg (fun e => e.2.file) hpath⟩

namespace Supplied

section
variable {overrides : Overrides} {files : List ProtoFile} (hnames : (files.map ProtoFile.name).Nodup)
include hnames

theorem find?_packages {f : ProtoFile} (hf : f ∈ files) :
    (ofFiles overrides files).packages.find? f.name = some (f.packageInfo overrides) := by
  have hkeys : ((PackageTable.ofFiles overrides files).map Prod.fst).Nodup := by
    rw [PackageTable.ofFiles, List.map_reverse, map_fst_packages]
    exact List.nodup_reverse.mpr hnames
  apply lookup_of_mem hkeys
  exact List.mem_reverse.mpr (List.mem_map.mpr ⟨f, hf, rfl⟩)

theorem package_eq {f : ProtoFile} (hf : f ∈ files) :
    (ofFiles overrides files).package f.name = f.packageInfo overrides := by
  unfold package
  rw [find?_packages hnames hf]
  rfl

theorem messageIdent_of_find? {n : String} {entry : MessageEntry} {f : ProtoFile}
    (hindex : (MessageIndex.ofFiles files).find? n = some entry) (hf : f ∈ files)
    (hfile : f.name = entry.file) : (ofFiles overrides files).messageIdent n =
      if f.importPath overrides = "" then .error (.noImportPath f.name)
      else .ok ⟨entry.goName, f.importPath overrides⟩ := by
  obtain ⟨goName, file⟩ := entry
  obtain rfl : f.name = file := hfile
  have hmessages : (ofFiles overrides files).messages.find? n = some ⟨goName, f.name⟩ := hindex
  unfold messageIdent
  rw [hmessages]
  simp only [find?_packages hnames hf, f.importPath?_packageInfo]
  by_cases hpath : f.importPath overrides = ""
  · rw [if_pos hpath, if_pos hpath]
  · rw [if_neg hpath, if_neg hpath]

theorem messageIdent_eq_ok_iff_names {n : String} {i : Ident} :
    (ofFiles overrides files).messageIdent n = .ok i ↔ Names overrides files n i := by
  constructor
  · intro h
    obtain ⟨entry, _, hindex, _⟩ := (ofFiles overrides files).messageIdent_eq_ok_iff.mp h
    obtain ⟨f, hf, hfile⟩ := exists_file_of_find? hindex
    rw [messageIdent_of_find? hnames hindex hf hfile] at h
    split at h
    · cases h
    · rename_i hpath
      obtain rfl := Except.ok.inj h
      exact ⟨entry, hindex, rfl, f, hf, hfile, rfl, hpath⟩
  · rintro ⟨entry, hindex, hname, f, hf, hfile, hpath, hne⟩
    rw [messageIdent_of_find? hnames hindex hf hfile, hpath, if_neg hne, hname]

theorem fault?_type_eq_some_iff {f : ProtoFile} {d : ProtoService} {m : ProtoMethod} {n : String}
    {e : SchemaError} : (ofFiles overrides files).fault? (.type f d m n) = some e ↔
      (Demand.type f d m n).Fails overrides files e := by
  have hfault : (ofFiles overrides files).fault? (.type f d m n) = some e ↔
      ∃ cause, (ofFiles overrides files).messageIdent n = .error cause ∧
        .inMethod f.name d.name m.name cause = e := by
    rw [fault?, Option.map_eq_some_iff]
    simp only [failure?_eq_some_iff]
  rw [hfault]
  constructor
  · rintro ⟨cause, hcause, rfl⟩
    cases hindex : (MessageIndex.ofFiles files).find? n with
    | none =>
      have hmessages : (ofFiles overrides files).messages.find? n = none := hindex
      unfold messageIdent at hcause
      rw [hmessages] at hcause
      obtain rfl := Except.error.inj hcause
      exact .undefined hindex
    | some entry =>
      obtain ⟨g, hg, hfile⟩ := exists_file_of_find? hindex
      rw [messageIdent_of_find? hnames hindex hg hfile] at hcause
      split at hcause
      · rename_i hpath
        obtain rfl := Except.error.inj hcause
        exact .noImportPath hindex hg hfile hpath
      · cases hcause
  · intro h
    cases h with
    | undefined hindex =>
      have hmessages : (ofFiles overrides files).messages.find? n = none := hindex
      refine ⟨_, ?_, rfl⟩
      unfold messageIdent
      rw [hmessages]
    | noImportPath hindex hg hfile hpath =>
      refine ⟨_, ?_, rfl⟩
      rw [messageIdent_of_find? hnames hindex hg hfile, if_pos hpath]

theorem fault?_ownPath {f : ProtoFile} (hf : f ∈ files) :
    (ofFiles overrides files).fault? (.ownPath f) =
      if f.importPath overrides = "" then some (.noImportPath f.name) else none := by
  rw [fault?, package_eq hnames hf, f.importPath?_packageInfo]
  by_cases hpath : f.importPath overrides = ""
  · rw [if_pos hpath, if_pos hpath, if_pos rfl]
  · rw [if_neg hpath, if_neg hpath, if_neg (Option.some_ne_none _)]

theorem fault?_eq_some_iff {d : Demand} (hd : ∀ f, d = .ownPath f → f ∈ files) {e : SchemaError} :
    (ofFiles overrides files).fault? d = some e ↔ d.Fails overrides files e := by
  cases d with
  | type f d m n => exact fault?_type_eq_some_iff hnames
  | ownPath f =>
    rw [fault?_ownPath hnames (hd f rfl)]
    constructor
    · intro h
      split at h
      · rename_i hpath
        obtain rfl := Option.some.inj h
        exact .ownPath hpath
      · cases h
    · intro h
      cases h with
      | ownPath hpath => exact if_pos hpath

theorem fault?_eq_none_iff {d : Demand} (hd : ∀ f, d = .ownPath f → f ∈ files) :
    (ofFiles overrides files).fault? d = none ↔ d.Met overrides files := by
  cases d with
  | type f d m n =>
    rw [fault?, Option.map_eq_none_iff, failure?_eq_none_iff]
    exact exists_congr fun i => messageIdent_eq_ok_iff_names hnames
  | ownPath f =>
    rw [fault?_ownPath hnames (hd f rfl)]
    show _ ↔ f.importPath overrides ≠ ""
    by_cases hpath : f.importPath overrides = ""
    · rw [if_pos hpath]
      exact iff_of_false (Option.some_ne_none _) fun hne => hne hpath
    · rw [if_neg hpath]
      exact iff_of_true rfl hpath

end

end Supplied

/-! ## what files are read as -/

structure ProtoMethod.ReadAs (names : String → Ident → Prop) (d : ProtoMethod) (m : Method) : Prop where
  name : m.name = d.name
  goName : m.goName = exported d.name
  input : names d.inputType m.input
  output : names d.outputType m.output
  clientStreaming : m.clientStreaming = d.clientStreaming
  serverStreaming : m.serverStreaming = d.serverStreaming

structure ProtoService.ReadAs (names : String → Ident → Prop) (d : ProtoService) (s : Service) :
    Prop where
  name : s.name = d.name
  goName : s.goName = exported d.name
  methods : List.Forall₂ (ProtoMethod.ReadAs names) d.methods s.methods

structure ProtoFile.ReadAs (overrides : Overrides) (files : List ProtoFile)
    (filesToGenerate : List String) (d : ProtoFile) (f : SchemaFile) : Prop where
  name : f.name = d.name
  requested : f.requested = true ↔ d.name ∈ filesToGenerate
  importPath : f.importPath = d.importPath overrides
  packageName : f.packageName = (d.packageInfo overrides).clauseName f.importPath
  /-- the services of a requested file, all of them -/
  services : d.name ∈ filesToGenerate →
    List.Forall₂ (ProtoService.ReadAs (Names overrides files)) d.services f.services
  /-- those of another file are not read -/
  others : d.name ∉ filesToGenerate → f.services = []

namespace Supplied

section
variable {overrides : Overrides} {files : List ProtoFile} (hnames : (files.map ProtoFile.name).Nodup)
include hnames

theorem readAs_of_method {file service : String} {d : ProtoMethod} {m : Method}
    (h : (ofFiles overrides files).method file service d = .ok m) :
    d.ReadAs (Names overrides files) m := by
  obtain ⟨input, hinput, output, houtput, rfl⟩ := (ofFiles overrides files).method_eq_ok_iff.mp h
  exact ⟨rfl, rfl, (messageIdent_eq_ok_iff_names hnames).mp hinput,
    (messageIdent_eq_ok_iff_names hnames).mp houtput, rfl, rfl⟩

theorem readAs_of_service {file : String} {d : ProtoService} {service : Service}
    (h : (ofFiles overrides files).service file d = .ok service) :
    d.ReadAs (Names overrides files) service := by
  obtain ⟨methods, hmethods, rfl⟩ := (ofFiles overrides files).service_eq_ok_iff.mp h
  exact ⟨rfl, rfl, hmethods.imp fun _ _ => readAs_of_method hnames⟩

theorem readAs_of_schemaFile {filesToGenerate : List String} {d : ProtoFile} (hd : d ∈ files)
    {f : SchemaFile}
    (h : (ofFiles overrides files).schemaFile (filesToGenerate.contains d.name) d = .ok f) :
    d.ReadAs overrides files filesToGenerate f := by
  have hpackage : (ofFiles overrides files).package d.name = d.packageInfo overrides :=
    package_eq hnames hd
  unfold schemaFile at h
  by_cases hasked : d.name ∈ filesToGenerate
  · rw [if_pos (List.contains_iff_mem.mpr hasked)] at h
    obtain ⟨path, hpath, services, hservices, rfl⟩ :=
      (ofFiles overrides files).requestedFile_eq_ok_iff.mp h
    rw [hpackage, d.importPath?_packageInfo] at hpath
    rw [hpackage]
    split at hpath
    · cases hpath
    · refine ⟨rfl, iff_of_true rfl hasked, (Option.some.inj hpath).symm, rfl, fun _ => ?_, ?_⟩
      · exact hservices.imp fun _ _ => readAs_of_service hnames
      · intro hnot
        exact absurd hasked hnot
  · rw [if_neg (mt List.contains_iff_mem.mp hasked)] at h
    obtain rfl := Except.ok.inj h
    have hpath : (d.packageInfo overrides).importPath?.getD "" = d.importPath overrides := by
      rw [d.importPath?_packageInfo]
      split
      · rename_i hempty
        exact hempty.symm
      · rfl
    unfold otherFile
    rw [hpackage]
    exact ⟨rfl, iff_of_false Bool.false_ne_true hasked, hpath, rfl, fun h => absurd h hasked,
      fun _ => rfl⟩

end

end Supplied

/-! ## whole requests -/

theorem mem_files_of_ownPath_mem {files : List ProtoFile} {filesToGenerate : List String} {d : Demand}
    (hd : d ∈ demands files filesToGenerate) : ∀ f, d = .ownPath f → f ∈ files := by
  rintro f rfl
  obtain ⟨g, hg, hmem⟩ := List.mem_flatMap.mp hd
  rcases List.mem_cons.mp hmem with h | h
  · cases h
    exact (List.mem_filter.mp hg).1
  · simp [ProtoService.demands, ProtoMethod.demands] at h

/-- the demands, said of one file, service and method at a time -/
theorem met_demands_iff (overrides : Overrides) (files : List ProtoFile) (filesToGenerate : List String) :
    (∀ d ∈ demands files filesToGenerate, d.Met overrides files) ↔
      ∀ f ∈ files, f.name ∈ filesToGenerate → f.importPath overrides ≠ "" ∧
        ∀ s ∈ f.services, ∀ m ∈ s.methods, (∃ i, Names overrides files m.inputType i) ∧
          ∃ i, Names overrides files m.outputType i := by
  have hmethod : ∀ (f : ProtoFile) (s : ProtoService) (m : ProtoMethod),
      (∀ d ∈ m.demands f s, d.Met overrides files) ↔
        (∃ i, Names overrides files m.inputType i) ∧ ∃ i, Names overrides files m.outputType i := by
    intro f s m
    simp [ProtoMethod.demands, Demand.Met]
  simp only [demands, List.forall_mem_flatMap, List.mem_filter, List.contains_iff_mem, and_imp,
    ProtoFile.demands, List.forall_mem_cons, ProtoService.demands, hmethod]
  rfl

structure BuildsExactly (files : List ProtoFile) (filesToGenerate : List String)
    (overrides : Overrides) : Prop where
  succeeds_iff : (∃ schema, buildSchema files filesToGenerate overrides = .ok schema) ↔
    ∀ f ∈ files, f.name ∈ filesToGenerate → f.importPath overrides ≠ "" ∧
      ∀ s ∈ f.services, ∀ m ∈ s.methods, (∃ i, Names overrides files m.inputType i) ∧
        ∃ i, Names overrides files m.outputType i
  error_iff : ∀ e, buildSchema files filesToGenerate overrides = .error e ↔ ∃ before d after,
    demands files filesToGenerate = before ++ d :: after ∧
    (∀ x ∈ before, x.Met overrides files) ∧ d.Fails overrides files e
  message : ∀ f s m n e, (Demand.type f s m n).Fails overrides files e →
    e.message = f.name ++ ": method " ++ s.name ++ "." ++ m.name ++ ": " ++
        ("message type \"" ++ n ++ "\" is not defined in any supplied file") ∨
      ∃ g ∈ files, g.importPath overrides = "" ∧ e.message =
        f.name ++ ": method " ++ s.name ++ "." ++ m.name ++ ": " ++ noImportPathMessage g.name
  /-- the file of a known message is always there -/
  supplied : ∀ file service method g, buildSchema files filesToGenerate overrides ≠
    .error (.inMethod file service method (.fileNotSupplied g))
  read : ∀ schema, buildSchema files filesToGenerate overrides = .ok schema →
    List.Forall₂ (ProtoFile.ReadAs overrides files filesToGenerate) files schema

section
variable {files : List ProtoFile} (hnames : (files.map ProtoFile.name).Nodup)
  (filesToGenerate : List String) (overrides : Overrides)
include hnames

theorem exists_buildSchema_iff_met : (∃ schema, buildSchema files filesToGenerate overrides = .ok schema) ↔
    ∀ d ∈ demands files filesToGenerate, d.Met overrides files := by
  rw [← failure?_eq_none_iff, failure?_buildSchema, List.findSome?_eq_none_iff]
  exact forall₂_congr fun d hd => Supplied.fault?_eq_none_iff hnames (mem_files_of_ownPath_mem hd)

theorem buildSchema_eq_error_iff {e : SchemaError} :
    buildSchema files filesToGenerate overrides = .error e ↔ ∃ before d after,
      demands files filesToGenerate = before ++ d :: after ∧
      (∀ x ∈ before, x.Met overrides files) ∧ d.Fails overrides files e := by
  rw [← failure?_eq_some_iff, failure?_buildSchema, List.findSome?_eq_some_iff]
  refine exists_congr fun before => exists_congr fun d => exists_congr fun after => ?_
  refine and_congr_right fun hsplit => ?_
  have hbefore : ∀ x ∈ before,
      (Supplied.ofFiles overrides files).fault? x = none ↔ x.Met overrides files := by
    intro x hx
    apply Supplied.fault?_eq_none_iff hnames
    have hx : x ∈ demands files filesToGenerate := by
      rw [hsplit]
      exact List.mem_append_left _ hx
    exact mem_files_of_ownPath_mem hx
  have hd : d ∈ demands files filesToGenerate := by
    rw [hsplit]
    exact List.mem_append_right _ (List.mem_cons_self ..)
  rw [and_comm, Supplied.fault?_eq_some_iff hnames (mem_files_of_ownPath_mem hd)]
  exact and_congr_left fun _ => forall₂_congr hbefore

theorem forall₂_readAs {schema : List SchemaFile}
    (h : buildSchema files filesToGenerate overrides = .ok schema) :
    List.Forall₂ (ProtoFile.ReadAs overrides files filesToGenerate) files schema := by
  have hsupplied : ∀ d ∈ files, d ∈ files := fun _ hd => hd
  have hall := (List.forall₂_and_left _ _).mpr ⟨hsupplied, buildSchema_eq_ok_iff.mp h⟩
  exact hall.imp fun d f hdf => Supplied.readAs_of_schemaFile hnames hdf.1 hdf.2

end

/-- **Files make a schema exactly if every demand is met.**  The first that is not is the error, in the
order of the files, first the file's own path, then its services, methods, inputs and outputs; a schema
has one file for each descriptor, in order, with all services of the requested ones and no others. -/
theorem buildSchema_exact {files : List ProtoFile} (hnames : (files.map ProtoFile.name).Nodup)
    (filesToGenerate : List String) (overrides : Overrides) :
    BuildsExactly files filesToGenerate overrides where
  succeeds_iff :=
    (exists_buildSchema_iff_met hnames filesToGenerate overrides).trans (met_demands_iff ..)
  error_iff _ := buildSchema_eq_error_iff hnames filesToGenerate overrides
  message _ _ _ _ _ := Demand.Fails.message overrides files
  supplied file service method g h := by
    obtain ⟨_, d, _, _, _, hfails⟩ :=
      (buildSchema_eq_error_iff hnames filesToGenerate overrides).mp h
    cases hfails
  read _ := forall₂_readAs hnames filesToGenerate overrides

/-- a service whose second method uses a message of a file without an import path -/
def parcelFiles : List ProtoFile :=
  [{ name? := some "box.proto"
     package? := some "box"
     messages := [{ name? := some "Box" }] },
   { name? := some "parcel.services.proto"
     messages := [{ name? := some "Parcel" }]
     services := [{
       name? := some "ParcelService"
       methods := [
         { name? := some "Send", inputType? := some ".Parcel", outputType? := some ".Parcel" },
         { name? := some "Pack", inputType? := some ".box.Box", outputType? := some ".Parcel" }] }]
     options? := some { goPackage? := some "parcel/rpc;rpc" } }]

def boxOverride : Overrides := .ofList [("box.proto", "box/rpc")]

theorem buildSchema_exact_parcel :
    (parcelFiles.map ProtoFile.name).Nodup ∧
    buildSchema parcelFiles ["parcel.services.proto"] .empty
      = .error (.inMethod "parcel.services.proto" "ParcelService" "Pack" (.noImportPath "box.proto")) ∧
    ∃ schema, buildSchema parcelFiles ["parcel.services.proto"] boxOverride = .ok schema ∧
      List.Forall₂ (ProtoFile.ReadAs boxOverride parcelFiles ["parcel.services.proto"])
        parcelFiles schema := by
  have hnames : (parcelFiles.map ProtoFile.name).Nodup := by decide
  have hparcel : ∀ o, (parcelFiles[1].importPath o = "parcel/rpc") →
      ∃ i, Names o parcelFiles ".Parcel" i := fun o ho =>
    ⟨⟨"Parcel", "parcel/rpc"⟩, ⟨"Parcel", "parcel.services.proto"⟩, by decide +kernel, rfl,
      parcelFiles[1], by simp [parcelFiles], rfl, ho, by simp⟩
  have hindex : (MessageIndex.ofFiles parcelFiles).find? ".box.Box" = some ⟨"Box", "box.proto"⟩ := by
    decide +kernel
  have hempty := buildSchema_exact hnames ["parcel.services.proto"] .empty
  have hover := buildSchema_exact hnames ["parcel.services.proto"] boxOverride
  refine ⟨hnames, ?_, ?_⟩
  · have hpath : parcelFiles[1].importPath .empty = "parcel/rpc" := by decide +kernel
    have hown : parcelFiles[1].importPath .empty ≠ "" := by decide +kernel
    refine (hempty.error_iff _).mpr ⟨[.ownPath _, .type _ _ _ _, .type _ _ _ _], .type _ _ _ _, [_], rfl, ?_, ?_⟩
    · simp only [List.forall_mem_cons]
      exact ⟨hown, hparcel _ hpath, hparcel _ hpath, by simp⟩
    · exact .noImportPath hindex (List.mem_cons_self ..) rfl (by decide +kernel)
  · have hpath : parcelFiles[1].importPath boxOverride = "parcel/rpc" := by decide +kernel
    have hown : parcelFiles[1].importPath boxOverride ≠ "" := by decide +kernel
    have hbox : ∃ i, Names boxOverride parcelFiles ".box.Box" i :=
      ⟨⟨"Box", "box/rpc"⟩, _, hindex, rfl, parcelFiles[0], by simp [parcelFiles], rfl,
        by decide +kernel, by simp⟩
    have hmet : ∀ d ∈ demands parcelFiles ["parcel.services.proto"], d.Met boxOverride parcelFiles := by
      show ∀ d ∈ [Demand.ownPath _, .type _ _ _ _, .type _ _ _ _, .type _ _ _ _, .type _ _ _ _], _
      simp only [List.forall_mem_cons]
      exact ⟨hown, hparcel _ hpath, hparcel _ hpath, hbox, hparcel _ hpath, by simp⟩
    obtain ⟨schema, hschema⟩ := hover.succeeds_iff.mpr ((met_demands_iff _ _ _).mp hmet)
    exact ⟨schema, hschema, hover.read schema hschema⟩

end RpcAdapters
