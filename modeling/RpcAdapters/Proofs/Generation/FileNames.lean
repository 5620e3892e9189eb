import RpcAdapters.Exchange
import RpcAdapters.Proofs.Exchange.Answers
import RpcAdapters.Proofs.Generation.Correspondence
import RpcAdapters.Proofs.Generation.Outcome

/-!
# Names of generated files

What is cut off the names of generated files is the same for all of them, so two of them are equal only
if they are before that.

* `Layout.fileName_eq_ok_iff`     a name is what is left when `Layout.cut` is cut off;
* `unstrippedName_sourceRelative_inj`, `unstrippedName_importPath_inj`   what a name depends on;
* `Plan.nodup_names_sourceRelative_iff`, `nodup_names_importPath_iff`    when no two names are equal;
* `Layout.fileName_endsWith`      all names end in the same way.
-/

namespace RpcAdapters

/-! ## parts of the name of a schema file -/

namespace SchemaFile

/-- the name without the directories before it -/
def baseName (f : SchemaFile) : String := String.ofList (Text.lastPiece '/' f.name.toList)

theorem not_mem_baseStem (f : SchemaFile) : '/' ∉ f.baseStem.toList := by
  rw [baseStem, String.toList_ofList]
  exact Text.not_mem_lastPiece '/' f.stem.toList

theorem stem_append_extension {f : SchemaFile} (h : f.eligible = true) :
    f.stem ++ extension = f.name := by
  obtain ⟨before, hname⟩ := Text.endsWith_iff.mp (Bool.and_eq_true_iff.mp h).2
  have hsuffix : serviceSuffix.toList = "services".toList ++ extension.toList := by decide
  rw [hsuffix, ← List.append_assoc] at hname
  have hstem : f.stem = String.ofList (before ++ "services".toList) := by
    rw [stem, Text.dropSuffix?_eq_some_iff.mpr hname]
  rw [hstem, ← String.toList_inj, String.toList_append, String.toList_ofList, hname]

theorem baseStem_append_extension {f : SchemaFile} (h : f.eligible = true) :
    f.baseStem ++ extension = f.baseName := by
  have hslash : '/' ∉ extension.toList := by decide
  rw [← String.toList_inj, baseName, baseStem, String.toList_append, String.toList_ofList,
    String.toList_ofList, ← Text.lastPiece_append_of_not_mem _ hslash, ← String.toList_append,
    stem_append_extension h]

section
variable {f f' : SchemaFile} (h : f.eligible = true) (h' : f'.eligible = true)
include h h'

theorem stem_eq_iff : f.stem = f'.stem ↔ f.name = f'.name := by
  rw [← stem_append_extension h, ← stem_append_extension h', String.append_left_inj]

theorem baseStem_eq_iff : f.baseStem = f'.baseStem ↔ f.baseName = f'.baseName := by
  rw [← baseStem_append_extension h, ← baseStem_append_extension h', String.append_left_inj]

end

end SchemaFile

/-! ## names before the module is cut off -/

namespace Layout

theorem unstrippedName_sourceRelative_inj {f f' : SchemaFile} :
    unstrippedName .sourceRelative f = unstrippedName .sourceRelative f' ↔ f.stem = f'.stem := by
  show f.stem ++ fileSuffix = f'.stem ++ fileSuffix ↔ _
  rw [String.append_left_inj]

/-- a base stem has no `/`, so it is what comes after the last one -/
theorem unstrippedName_importPath_inj {f f' : SchemaFile} :
    unstrippedName .importPath f = unstrippedName .importPath f' ↔
      f.importPath = f'.importPath ∧ f.baseStem = f'.baseStem := by
  have hlast (f : SchemaFile) :
      Text.lastPiece '/' (f.importPath ++ "/" ++ f.baseStem).toList = f.baseStem.toList := by
    have hsep : "/".toList = ['/'] := by decide
    rw [String.toList_append, String.toList_append, List.append_assoc, hsep, List.singleton_append]
    exact Text.lastPiece_append f.importPath.toList f.not_mem_baseStem
  show f.importPath ++ "/" ++ f.baseStem ++ fileSuffix
    = f'.importPath ++ "/" ++ f'.baseStem ++ fileSuffix ↔ _
  rw [String.append_left_inj]
  constructor
  · intro h
    have hbase : f.baseStem = f'.baseStem := by
      rw [← String.toList_inj, ← hlast f, h, hlast f']
    rw [hbase, String.append_left_inj, String.append_left_inj] at h
    exact ⟨h, hbase⟩
  · rintro ⟨hpath, hbase⟩
    rw [hpath, hbase]

theorem exists_unstrippedName_eq (placement : Placement) (f : SchemaFile) :
    ∃ before, unstrippedName placement f = before ++ fileSuffix := by
  cases placement with
  | sourceRelative => exact ⟨_, rfl⟩
  | importPath => exact ⟨_, rfl⟩

/-! ## names -/

/-- what is cut off the names of all files -/
def cut (l : Layout) : String :=
  match l.placement, l.modulePrefix? with
  | .importPath, some module_ => directoryPrefix module_
  | _, _ => ""

theorem stripModule_eq_ok_iff {module_ name rest : String} :
    stripModule module_ name = .ok rest ↔ name = directoryPrefix module_ ++ rest := by
  rw [stripModule, ← String.toList_inj, String.toList_append]
  cases hdrop : Text.dropPrefix? (directoryPrefix module_).toList name.toList with
  | some cs =>
    rw [Text.dropPrefix?_eq_some_iff.mp hdrop, List.append_cancel_left_eq, Except.ok.injEq,
      ← String.toList_inj, String.toList_ofList]
  | none =>
    simp only [reduceCtorEq, false_iff]
    intro hname
    rw [Text.dropPrefix?_eq_some_iff.mpr hname] at hdrop
    exact nomatch hdrop

theorem fileName_eq_ok_iff {l : Layout} {f : SchemaFile} {name : String} :
    l.fileName f = .ok name ↔ unstrippedName l.placement f = l.cut ++ name := by
  obtain ⟨placement, modulePrefix?⟩ := l
  have hplain (placement : Placement) : (Except.ok (unstrippedName placement f) :
      Except LayoutError String) = .ok name ↔ unstrippedName placement f = "" ++ name := by
    rw [String.empty_append, Except.ok.injEq]
  cases placement with
  | sourceRelative => exact hplain .sourceRelative
  | importPath =>
    cases modulePrefix? with
    | none => exact hplain .importPath
    | some module_ =>
      show stripModule module_ (unstrippedName .importPath f) = .ok name ↔
        unstrippedName .importPath f = directoryPrefix module_ ++ name
      exact stripModule_eq_ok_iff

theorem fileName_of_modulePrefix?_eq_none {l : Layout} (h : l.modulePrefix? = none) (f : SchemaFile) :
    l.fileName f = .ok (unstrippedName l.placement f) := by
  obtain ⟨placement, modulePrefix?⟩ := l
  obtain rfl : modulePrefix? = none := h
  cases placement with
  | sourceRelative => rfl
  | importPath => rfl

theorem cut_cases (l : Layout) : l.cut = "" ∨ ∃ dir, l.cut = dir ++ "/" := by
  obtain ⟨placement, modulePrefix?⟩ := l
  cases placement with
  | sourceRelative => exact .inl rfl
  | importPath =>
    cases modulePrefix? with
    | none => exact .inl rfl
    | some module_ => exact .inr ⟨_, rfl⟩

theorem fileName_eq_iff {l : Layout} {f f' : SchemaFile} {name name' : String}
    (h : l.fileName f = .ok name) (h' : l.fileName f' = .ok name') :
    name = name' ↔ unstrippedName l.placement f = unstrippedName l.placement f' := by
  rw [fileName_eq_ok_iff.mp h, fileName_eq_ok_iff.mp h', String.append_right_inj]

/-- what is cut off ends with a `/`, so that nothing is cut off from what comes after the last one -/
theorem exists_append_of_cut {l : Layout} {before base name : String} (hslash : '/' ∉ base.toList)
    (h : before ++ base = l.cut ++ name) : ∃ rest, before = l.cut ++ rest ∧ name = rest ++ base := by
  rcases l.cut_cases with hcut | ⟨dir, hcut⟩
  · rw [hcut, String.empty_append] at h
    exact ⟨before, by rw [hcut, String.empty_append], h.symm⟩
  · have hcut' : l.cut.toList = dir.toList ++ ['/'] := by
      have hsep : "/".toList = ['/'] := by decide
      rw [hcut, String.toList_append, hsep]
    have hchars : (dir.toList ++ ['/']) ++ name.toList = before.toList ++ base.toList := by
      rw [← hcut', ← String.toList_append, ← String.toList_append, h]
    rcases List.append_eq_append_iff.mp hchars with ⟨rest, hbefore, hname⟩ | ⟨middle, hmiddle, hbase⟩
    · refine ⟨String.ofList rest, ?_, ?_⟩
      · rw [← String.toList_inj, hbefore, String.toList_append, hcut', String.toList_ofList]
      · rw [← String.toList_inj, String.toList_append, String.toList_ofList, hname]
    · rcases middle.eq_nil_or_concat with rfl | ⟨init, c, rfl⟩
      · refine ⟨"", ?_, ?_⟩
        · rw [String.append_empty, ← String.toList_inj, hcut', hmiddle, List.append_nil]
        · rw [String.empty_append, ← String.toList_inj, hbase, List.nil_append]
      · rw [List.concat_eq_append, ← List.append_assoc] at hmiddle
        have hc : '/' = c := (List.append_inj' hmiddle rfl).2 |> List.singleton_inj.mp
        rw [hbase, hc] at hslash
        exact absurd (by simp) hslash

theorem fileName_endsWith {l : Layout} {f : SchemaFile} {name : String} (h : l.fileName f = .ok name) :
    ∃ before, name = before ++ fileSuffix := by
  obtain ⟨unstripped, hunstripped⟩ := exists_unstrippedName_eq l.placement f
  have hslash : '/' ∉ fileSuffix.toList := by decide
  rw [fileName_eq_ok_iff.mp h] at hunstripped
  obtain ⟨before, _, hname⟩ := exists_append_of_cut hslash hunstripped.symm
  exact ⟨before, hname⟩

end Layout

/-! ## names of a generation -/

namespace Plan

variable {p : Plan} {g : Generation}

theorem forall₂_fileName (h : p.generate = .ok g) :
    List.Forall₂ (fun f file => f.eligible = true ∧ p.layout.fileName f = .ok file.name)
      p.eligibleFiles g.files := by
  have heligible : ∀ f ∈ p.eligibleFiles, f.eligible = true := by
    intro f hf
    exact (List.mem_filter.mp hf).2
  have hnames := (p.yields_of_generate h).files.imp fun f file hfile => hfile.1
  exact (List.forall₂_and_left _ _).mpr ⟨heligible, hnames⟩

/-- without a module prefix nothing can go wrong -/
theorem exists_generate_of_modulePrefix?_eq_none (h : p.layout.modulePrefix? = none) :
    ∃ g, p.generate = .ok g ∧ g.files.map GeneratedFile.name
      = p.eligibleFiles.map (Layout.unstrippedName p.layout.placement) := by
  have hname := Layout.fileName_of_modulePrefix?_eq_none h
  obtain ⟨g, hg⟩ := p.exists_generate_eq_ok_iff.mpr fun f _ => ⟨_, hname f⟩
  refine ⟨g, hg, map_eq_map_of_forall₂ (forall₂_fileName hg) fun f file hf => ?_⟩
  exact Except.ok.inj (hf.2.symm.trans (hname f))

theorem nodup_names_sourceRelative_iff (h : p.generate = .ok g)
    (hplacement : p.layout.placement = .sourceRelative) :
    (g.files.map GeneratedFile.name).Nodup ↔ (p.eligibleFiles.map SchemaFile.name).Nodup := by
  refine nodup_map_iff_of_forall₂ (forall₂_fileName h) fun f file f' file' hf hf' => ?_
  rw [Layout.fileName_eq_iff hf.2 hf'.2, hplacement, Layout.unstrippedName_sourceRelative_inj,
    SchemaFile.stem_eq_iff hf.1 hf'.1]

theorem nodup_names_importPath_iff (h : p.generate = .ok g)
    (hplacement : p.layout.placement = .importPath) :
    (g.files.map GeneratedFile.name).Nodup ↔
      (p.eligibleFiles.map fun f => (f.importPath, f.baseName)).Nodup := by
  refine nodup_map_iff_of_forall₂ (forall₂_fileName h) fun f file f' file' hf hf' => ?_
  rw [Layout.fileName_eq_iff hf.2 hf'.2, hplacement, Layout.unstrippedName_importPath_inj,
    SchemaFile.baseStem_eq_iff hf.1 hf'.1, Prod.mk.injEq]

end Plan

namespace Request

variable {r : Request} {p : Plan}

theorem names_eligibleFiles (h : r.plan = .ok p) : p.eligibleFiles.map SchemaFile.name
    = (r.files.filter fun d => d.selected r.filesToGenerate).map ProtoFile.name := by
  obtain ⟨o, _, schema, hschema, rfl⟩ := plan_eq_ok_iff.mp h
  have hread := Supplied.forall₂_requestedFile (buildSchema_eq_ok_iff.mp hschema)
  refine map_eq_map_of_forall₂ hread fun d f hf => ?_
  obtain ⟨_, _, _, _, rfl⟩ := Supplied.requestedFile_eq_ok_iff _ |>.mp hf
  rfl

theorem nodup_names_eligibleFiles (h : r.plan = .ok p)
    (hnames : (r.files.map ProtoFile.name).Nodup) : (p.eligibleFiles.map SchemaFile.name).Nodup := by
  rw [names_eligibleFiles h]
  exact hnames.sublist (List.filter_sublist.map ProtoFile.name)

end Request

end RpcAdapters
