import RpcAdapters.Proofs.Generation.Packages
import RpcAdapters.Proofs.Options.Parameters

/-!
# Import blocks of generated files

Which packages a generated file imports depends on little: whether its schema file has services, whether
it has methods, and the roots.

* `Roots.basePaths`             what the translation of errors takes every file to;
* `f.Needs r path`              a package that something in the file of `f` is from;
* `exists_mem_references_iff`   those are the packages of the identifiers that the file refers to;
* `f.ListsImports r file`       the import block in the text of a file lists them, without its own;
* `Request.imports_of_generate` this for all generated files; seven paths at most, none of them empty.

Empty paths are kept out where the parameter text is read: the roots have to be there.
-/

namespace RpcAdapters

open Source

/-! ## needed packages -/

def Roots.basePaths (r : Roots) : List String := ["github.com/twitchtv/twirp", "errors", "fmt", r.domain]

inductive SchemaFile.Needs (f : SchemaFile) (r : Roots) : String → Prop where
  | base {path : String} (h : path ∈ r.basePaths) : f.Needs r path
  | useCase (h : f.services ≠ []) : f.Needs r r.useCase
  | context (h : f.methods ≠ []) : f.Needs r "context"
  | transform (h : f.methods ≠ []) : f.Needs r r.transform

/-- the paths that there are at all -/
def Roots.allPaths (r : Roots) : List String := r.basePaths ++ [r.useCase, "context", r.transform]

theorem Roots.mem_basePaths_iff (r : Roots) {path : String} :
    (∃ i ∈ r.translationReferences, i.importPath = path) ↔ path ∈ r.basePaths := by
  have hpaths : r.translationReferences.map Ident.importPath = ["github.com/twitchtv/twirp",
    "github.com/twitchtv/twirp", "github.com/twitchtv/twirp", "errors", r.domain, "fmt",
    "github.com/twitchtv/twirp"] := rfl
  rw [← List.mem_map, hpaths]
  unfold basePaths
  simp only [List.mem_cons, List.not_mem_nil, or_false]
  tauto

namespace SchemaFile

variable {f : SchemaFile} {r : Roots}

/-- messages belong to one of two layers, and a file with methods needs both -/
theorem needs_root (h : f.services ≠ []) (l : Naming.Layer) : f.Needs r (r.root l) := by
  cases l with
  | useCase => exact .useCase h
  | domain => exact .base (by simp [Roots.basePaths, Roots.root])

theorem needs_of_mem_methods {m : Method} (hm : m ∈ f.methods) {i : Ident} (hi : i ∈ m.references r) :
    f.Needs r i.importPath := by
  have hmethods : f.methods ≠ [] := List.ne_nil_of_mem hm
  obtain ⟨s, hs, -⟩ := List.mem_flatMap.mp hm
  have hservices : f.services ≠ [] := List.ne_nil_of_mem hs
  simp only [Method.references, List.mem_cons, List.not_mem_nil, or_false] at hi
  obtain rfl | rfl | rfl | rfl := hi
  · exact .context hmethods
  · exact needs_root hservices _
  · exact needs_root hservices _
  · exact .transform hmethods

theorem needs_of_mem_references {i : Ident} (h : i ∈ f.references r) : f.Needs r i.importPath := by
  rw [references, List.mem_append] at h
  obtain hservice | htranslation := h
  · obtain ⟨s, hs, hi⟩ := List.mem_flatMap.mp hservice
    rw [Service.references, List.mem_cons, List.mem_flatMap] at hi
    obtain rfl | ⟨m, hm, hi⟩ := hi
    · exact .useCase (List.ne_nil_of_mem hs)
    · exact needs_of_mem_methods (List.mem_flatMap.mpr ⟨s, hs, hm⟩) hi
  · exact .base (r.mem_basePaths_iff.mp ⟨i, htranslation, rfl⟩)

theorem mem_references_of_method {s : Service} (hs : s ∈ f.services) {m : Method} (hm : m ∈ s.methods)
    {i : Ident} (hi : i ∈ m.references r) : i ∈ f.references r := by
  apply List.mem_append_left
  refine List.mem_flatMap.mpr ⟨s, hs, List.mem_cons_of_mem _ ?_⟩
  exact List.mem_flatMap.mpr ⟨m, hm, hi⟩

theorem exists_mem_references_of_needs {path : String} (h : f.Needs r path) :
    ∃ i ∈ f.references r, i.importPath = path := by
  cases h with
  | base h =>
    obtain ⟨i, hi, hpath⟩ := r.mem_basePaths_iff.mpr h
    exact ⟨i, List.mem_append_right _ hi, hpath⟩
  | useCase h =>
    obtain ⟨s, hs⟩ := List.exists_mem_of_ne_nil _ h
    refine ⟨s.useCaseIdent r, List.mem_append_left _ ?_, rfl⟩
    exact List.mem_flatMap.mpr ⟨s, hs, List.mem_cons_self ..⟩
  | context h =>
    obtain ⟨m, hm⟩ := List.exists_mem_of_ne_nil _ h
    obtain ⟨s, hs, hm⟩ := List.mem_flatMap.mp hm
    exact ⟨contextIdent, mem_references_of_method hs hm (by simp [Method.references]), rfl⟩
  | transform h =>
    obtain ⟨m, hm⟩ := List.exists_mem_of_ne_nil _ h
    obtain ⟨s, hs, hm⟩ := List.mem_flatMap.mp hm
    exact ⟨r.transformIdent, mem_references_of_method hs hm (by simp [Method.references]), rfl⟩

theorem exists_mem_references_iff {path : String} :
    (∃ i ∈ f.references r, i.importPath = path) ↔ f.Needs r path := by
  constructor
  · rintro ⟨i, hi, rfl⟩
    exact needs_of_mem_references hi
  · exact exists_mem_references_of_needs

theorem Needs.mem_allPaths {path : String} (h : f.Needs r path) : path ∈ r.allPaths := by
  cases h with
  | base h => exact List.mem_append_left _ h
  | _ => simp [Roots.allPaths]

theorem Needs.ne_empty {path : String} (hroots : ∀ key, r.path key ≠ "") (h : f.Needs r path) :
    path ≠ "" := by
  cases h with
  | base h =>
    rintro rfl
    simp only [Roots.basePaths, List.mem_cons, List.not_mem_nil, or_false] at h
    obtain h | h | h | h := h
    · exact absurd h (by decide)
    · exact absurd h (by decide)
    · exact absurd h (by decide)
    · exact hroots .domain h.symm
  | useCase => exact hroots .useCase
  | context => decide
  | transform => exact hroots .transform

end SchemaFile

/-! ## import blocks -/

namespace SourceUnit

variable (u : SourceUnit)

theorem mem_listedPaths_iff {path : String} :
    path ∈ u.listedPaths ↔ path ≠ u.importPath ∧ ∃ i ∈ u.references, i.importPath = path := by
  rw [listedPaths, filterMap_listedPath?_importLines, (Aliases.paths_specs_allocate u).mem_iff,
    mem_importedPaths]

theorem nodup_listedPaths : u.listedPaths.Nodup := by
  rw [listedPaths, filterMap_listedPath?_importLines, (Aliases.paths_specs_allocate u).nodup_iff]
  exact u.nodup_importedPaths

end SourceUnit

namespace SchemaFile

section
variable (f : SchemaFile) (r : Roots) (fileName : String)

theorem mem_listedPaths_unit_iff {path : String} :
    path ∈ (f.unit r fileName).listedPaths ↔ path ≠ f.importPath ∧ f.Needs r path := by
  rw [SourceUnit.mem_listedPaths_iff, ← exists_mem_references_iff]
  show _ ∧ (∃ i ∈ (f.references r).eraseDups, i.importPath = path) ↔ _
  simp only [List.mem_eraseDups]
  rfl

theorem length_listedPaths_unit_le : (f.unit r fileName).listedPaths.length ≤ 7 := by
  have hsubset : (f.unit r fileName).listedPaths ⊆ r.allPaths := by
    intro path hpath
    exact ((f.mem_listedPaths_unit_iff r fileName).mp hpath).2.mem_allPaths
  exact (List.subperm_of_subset (f.unit r fileName).nodup_listedPaths hsubset).length_le

/-- what the file made of a schema file imports -/
structure ListsImports (file : GeneratedFile) : Prop where
  content : ∃ body, file.content = linesText (headerLines (f.unit r file.name) ++
    importLines (.allocate (f.unit r file.name)) ++ body)
  /-- the lines of the block read back -/
  specs : (f.unit r file.name).listedPaths = (Aliases.allocate (f.unit r file.name)).specs.map Prod.fst
  listed : ∀ path, path ∈ (f.unit r file.name).listedPaths ↔ path ≠ f.importPath ∧ f.Needs r path
  once : (f.unit r file.name).listedPaths.Nodup
  usable : ∀ path ∈ (f.unit r file.name).listedPaths, path ≠ "" ∧ path ≠ f.importPath
  few : (f.unit r file.name).listedPaths.length ≤ 7

end

theorem listsImports_of_render {f : SchemaFile} {r : Roots} {file : GeneratedFile}
    (hroots : ∀ key, r.path key ≠ "") (h : (f.unit r file.name).render = .ok file.content) :
    f.ListsImports r file := by
  constructor
  case content =>
    rw [render_unit] at h
    exact ⟨_, (Except.ok.inj h).symm⟩
  case specs => exact filterMap_listedPath?_importLines _
  case listed =>
    intro path
    exact f.mem_listedPaths_unit_iff r file.name
  case once => exact SourceUnit.nodup_listedPaths _
  case usable =>
    intro path hpath
    obtain ⟨hown, hneeds⟩ := (f.mem_listedPaths_unit_iff r file.name).mp hpath
    exact ⟨hneeds.ne_empty hroots, hown⟩
  case few => exact f.length_listedPaths_unit_le r file.name

end SchemaFile

/-! ## whole requests -/

theorem Request.roots_ne_empty {r : Request} {p : Plan} (h : r.plan = .ok p) :
    ∀ key, p.roots.path key ≠ "" := by
  obtain ⟨o, ho, files, -, rfl⟩ := plan_eq_ok_iff.mp h
  exact (Options.parse_eq_ok_iff.mp ho).2.1

/-- **The imports of a generated file** are the packages that it needs, each once and without its own;
none has an empty path, and there are seven at most. -/
theorem Request.imports_of_generate {r : Request} {p : Plan} {g : Generation} (hplan : r.plan = .ok p)
    (hg : p.generate = .ok g) :
    List.Forall₂ (fun f file => f.ListsImports p.roots file) p.eligibleFiles g.files := by
  refine (p.yields_of_generate hg).files.imp fun f file hfile => ?_
  exact SchemaFile.listsImports_of_render (roots_ne_empty hplan) hfile.2

theorem Request.imports_of_generate_depot : ∃ p g, Plan.depotRequest.plan = .ok p ∧
    p.generate = .ok g ∧ p.eligibleFiles = Plan.depotFiles ∧
    List.Forall₂ (fun f file => f.ListsImports p.roots file) Plan.depotFiles g.files := by
  obtain ⟨p, g, hplan, hg, hfiles⟩ := Plan.exists_generate_depot
  exact ⟨p, g, hplan, hg, hfiles, hfiles ▸ imports_of_generate hplan hg⟩

-- seven paths for a file with a method, five for one without
example :
    let r : Roots := ⟨"shop/domain", "shop/app", "shop/dts"⟩
    Plan.depotFiles.map (fun f => (f.unit r "order.go").importedPaths.length) = [7, 5] := by
  decide +kernel

end RpcAdapters
