import RpcAdapters.Proofs.InOrder
import RpcAdapters.Proofs.Source.Imports
import RpcAdapters.Generation.Basic

/-!
# Outcomes of a generation

Generation can only fail at the name of a file: whatever is emitted has a text.

* `SchemaFile.wrappers_unit`, `adapters_unit`   what there is to count in an emitted unit;
* `Plan.product_eq`                             the product of a file is its name and all the rest;
* `Plan.Yields p g`                             `g` has one file for each eligible file of `p`, in
                                                order, and counts exactly those;
* `Plan.generate_exact`                         when generation succeeds, with what, and else why not;
* `Request.exists_generate`                     a request for which it does.
-/

namespace RpcAdapters

/-! ## counting -/

theorem Service.wrappers_declarations (s : Service) (r : Roots) :
    (s.declarations r).filterMap Declaration.wrapper? = [s.wrapper r] := by
  show s.wrapper r ::
    (s.methods.map fun m => Declaration.adapter (m.adapter r s.wrapperName)).filterMap _ = _
  simp [Declaration.wrapper?]

theorem Service.adapters_declarations (s : Service) (r : Roots) :
    (s.declarations r).filterMap Declaration.adapter?
      = s.methods.map fun m => m.adapter r s.wrapperName := by
  show (s.methods.map fun m => Declaration.adapter (m.adapter r s.wrapperName)).filterMap _ = _
  rw [List.filterMap_map]
  exact congrFun List.filterMap_eq_map' s.methods

namespace SchemaFile

variable (f : SchemaFile) (r : Roots) (fileName : String)

theorem wrappers_unit : (f.unit r fileName).wrappers = f.services.map fun s => s.wrapper r := by
  show (f.declarations r).filterMap Declaration.wrapper? = _
  rw [SchemaFile.declarations, List.filterMap_append, List.filterMap_flatMap, List.map_eq_flatMap]
  simp only [Service.wrappers_declarations]
  exact List.append_nil _

theorem adapters_unit : (f.unit r fileName).adapters
    = f.services.flatMap fun s => s.methods.map fun m => m.adapter r s.wrapperName := by
  show (f.declarations r).filterMap Declaration.adapter? = _
  rw [SchemaFile.declarations, List.filterMap_append, List.filterMap_flatMap]
  simp only [Service.adapters_declarations]
  exact List.append_nil _

def methods : List Method := f.services.flatMap Service.methods

theorem length_wrappers_unit : (f.unit r fileName).wrappers.length = f.services.length := by
  rw [wrappers_unit, List.length_map]

theorem length_adapters_unit : (f.unit r fileName).adapters.length = f.methods.length := by
  rw [adapters_unit, methods, List.length_flatMap, List.length_flatMap]
  simp only [List.length_map]

end SchemaFile

namespace Stats

theorem foldl_addProduct (s : Stats) (ps : List Product) :
    ps.foldl Stats.addProduct s =
      { filesScanned := s.filesScanned
        filesSelected := s.filesSelected + ps.length
        servicesGenerated := s.servicesGenerated + (ps.flatMap fun p => p.unit.wrappers).length
        adaptersGenerated := s.adaptersGenerated + (ps.flatMap fun p => p.unit.adapters).length
        warnings := s.warnings ++ ps.flatMap Product.warnings } := by
  induction ps generalizing s with
  | nil => simp
  | cons p ps ih =>
    rw [List.foldl_cons, ih]
    simp [Stats.addProduct, addUnit, addWarnings, Nat.add_assoc, Nat.add_comm 1]

/-- every warning is in exactly one of the two kinds, and both kinds keep the order -/
structure Parted (s : Stats) : Prop where
  perm : (s.notes ++ s.problems).Perm s.warnings
  notes : s.notes.Sublist s.warnings ∧ ∀ w ∈ s.notes, w.isNote = true
  problems : s.problems.Sublist s.warnings ∧ ∀ w ∈ s.problems, w.isNote = false

theorem parted (s : Stats) : s.Parted where
  perm := List.filter_append_perm Warning.isNote s.warnings
  notes := ⟨List.filter_sublist, fun _ hw => (List.mem_filter.mp hw).2⟩
  problems := ⟨List.filter_sublist, fun _ hw => by simpa using (List.mem_filter.mp hw).2⟩

end Stats

/-! ## products -/

open Source

namespace Plan

variable (p : Plan)

def productNamed (f : SchemaFile) (name : String) : Product where
  unit := f.unit p.roots name
  warnings := f.warnings
  content := linesText (f.unit p.roots name).lines

theorem product_eq (f : SchemaFile) :
    p.product f = ((p.layout.fileName f).mapError GenerationError.layout).map (p.productNamed f) := by
  rw [product]
  cases p.layout.fileName f with
  | error e => rfl
  | ok name =>
    show ((f.unit p.roots name).render.mapError GenerationError.render >>= fun content => _) = _
    rw [f.render_unit]
    rfl

theorem product_eq_ok_iff {f : SchemaFile} {x : Product} :
    p.product f = .ok x ↔ ∃ name, p.layout.fileName f = .ok name ∧ p.productNamed f name = x := by
  rw [product_eq]
  cases p.layout.fileName f <;> simp [Except.mapError, Except.map]

theorem product_eq_error_iff {f : SchemaFile} {e : GenerationError} :
    p.product f = .error e ↔ ∃ cause, p.layout.fileName f = .error cause ∧ .layout cause = e := by
  rw [product_eq]
  cases p.layout.fileName f <;> simp [Except.mapError, Except.map]

/-! ## whole generations -/

/-- what a generation holds when every eligible file has a name -/
structure Yields (p : Plan) (g : Generation) : Prop where
  files : List.Forall₂ (fun f file => p.layout.fileName f = .ok file.name ∧
    (f.unit p.roots file.name).render = .ok file.content) p.eligibleFiles g.files
  scanned : g.stats.filesScanned = p.files.length
  selected : g.stats.filesSelected = g.files.length
  services : g.stats.servicesGenerated = (p.eligibleFiles.flatMap SchemaFile.services).length
  adapters : g.stats.adaptersGenerated = (p.eligibleFiles.flatMap SchemaFile.methods).length
  warnings : g.stats.warnings = p.eligibleFiles.flatMap SchemaFile.warnings

theorem generate_eq : p.generate = (p.eligibleFiles.mapM p.product).map fun products =>
    { files := products.map Product.file
      stats := products.foldl Stats.addProduct (Stats.scan {} p.files.length) } := by
  rw [generate]
  cases p.eligibleFiles.mapM p.product <;> rfl

theorem generate_eq_error_iff {e : GenerationError} :
    p.generate = .error e ↔ ∃ before f after cause, p.eligibleFiles = before ++ f :: after ∧
      (∀ g ∈ before, ∃ name, p.layout.fileName g = .ok name) ∧
      p.layout.fileName f = .error cause ∧ e = .layout cause := by
  have hmap : p.generate = .error e ↔ p.eligibleFiles.mapM p.product = .error e := by
    rw [generate_eq]
    cases p.eligibleFiles.mapM p.product <;> simp [Except.map]
  rw [hmap, mapM_eq_error_iff]
  simp only [product_eq_ok_iff, product_eq_error_iff]
  constructor
  · rintro ⟨before, f, after, hfiles, hbefore, cause, hcause, rfl⟩
    refine ⟨before, f, after, cause, hfiles, fun g hg => ?_, hcause, rfl⟩
    obtain ⟨_, name, hname, _⟩ := hbefore g hg
    exact ⟨name, hname⟩
  · rintro ⟨before, f, after, cause, hfiles, hbefore, hcause, rfl⟩
    refine ⟨before, f, after, hfiles, fun g hg => ?_, cause, hcause, rfl⟩
    obtain ⟨name, hname⟩ := hbefore g hg
    exact ⟨_, name, hname, rfl⟩

theorem exists_generate_eq_ok_iff :
    (∃ g, p.generate = .ok g) ↔ ∀ f ∈ p.eligibleFiles, ∃ name, p.layout.fileName f = .ok name := by
  have hmap : (∃ g, p.generate = .ok g) ↔ ∃ xs, p.eligibleFiles.mapM p.product = .ok xs := by
    rw [generate_eq]
    cases p.eligibleFiles.mapM p.product <;> simp [Except.map]
  rw [hmap, exists_mapM_eq_ok_iff]
  refine forall₂_congr fun f _ => ?_
  simp only [product_eq_ok_iff]
  constructor
  · rintro ⟨_, name, hname, _⟩
    exact ⟨name, hname⟩
  · rintro ⟨name, hname⟩
    exact ⟨_, name, hname, rfl⟩

theorem yields_of_generate {g : Generation} (h : p.generate = .ok g) : p.Yields g := by
  rw [generate_eq] at h
  cases hxs : p.eligibleFiles.mapM p.product with
  | error e => rw [hxs] at h; exact nomatch h
  | ok xs =>
    rw [hxs] at h
    obtain rfl := Except.ok.inj h
    have hall := mapM_eq_ok_iff.mp hxs
    simp only [product_eq_ok_iff] at hall
    show p.Yields ⟨xs.map Product.file, xs.foldl Stats.addProduct (Stats.scan {} p.files.length)⟩
    rw [Stats.foldl_addProduct]
    constructor
    case files =>
      refine List.forall₂_map_right_iff.mpr (hall.imp fun f x ⟨name, hname, hx⟩ => ?_)
      subst hx
      exact ⟨hname, f.render_unit p.roots name⟩
    case scanned => exact Nat.zero_add _
    case selected => exact (Nat.zero_add _).trans (List.length_map ..).symm
    case services =>
      refine (Nat.zero_add _).trans (length_flatMap_of_forall₂ hall fun f x ⟨name, _, hx⟩ => ?_)
      subst hx
      exact f.length_wrappers_unit p.roots name
    case adapters =>
      refine (Nat.zero_add _).trans (length_flatMap_of_forall₂ hall fun f x ⟨name, _, hx⟩ => ?_)
      subst hx
      exact f.length_adapters_unit p.roots name
    case warnings =>
      have hwarnings : xs.map Product.warnings = p.eligibleFiles.map SchemaFile.warnings :=
        map_eq_map_of_forall₂ hall fun f x ⟨name, _, hx⟩ => hx ▸ rfl
      show xs.flatMap Product.warnings = _
      rw [List.flatMap_def, hwarnings, ← List.flatMap_def]

variable {p}

/-- the outcome of a plan is determined by what it has to yield -/
theorem Yields.unique {g g' : Generation} (h : p.Yields g) (h' : p.Yields g') : g = g' := by
  have hfiles : g.files = g'.files := by
    refine Relator.RightUnique.forall₂ ?_ h.files h'.files
    rintro f ⟨n, c⟩ ⟨n', c'⟩ ⟨hn, hc⟩ ⟨hn', hc'⟩
    obtain rfl : n = n' := Except.ok.inj (hn.symm.trans hn')
    obtain rfl : c = c' := Except.ok.inj (hc.symm.trans hc')
    rfl
  obtain ⟨files, scanned, selected, services, adapters, warnings⟩ := g
  obtain ⟨files', scanned', selected', services', adapters', warnings'⟩ := g'
  obtain rfl : files = files' := hfiles
  simp only [Generation.mk.injEq, Stats.mk.injEq, true_and]
  exact ⟨h.scanned.trans h'.scanned.symm, h.selected.trans h'.selected.symm,
    h.services.trans h'.services.symm, h.adapters.trans h'.adapters.symm,
    h.warnings.trans h'.warnings.symm⟩

variable (p)

theorem generate_eq_ok_iff {g : Generation} : p.generate = .ok g ↔ p.Yields g := by
  refine ⟨p.yields_of_generate, fun h => ?_⟩
  have hnames : ∀ f ∈ p.eligibleFiles, ∃ name, p.layout.fileName f = .ok name := fun f hf => by
    obtain ⟨file, _, hname, _⟩ := exists_right_of_mem h.files hf
    exact ⟨file.name, hname⟩
  obtain ⟨g', hg'⟩ := p.exists_generate_eq_ok_iff.mpr hnames
  rw [hg', h.unique (p.yields_of_generate hg')]

theorem exists_fileName_of_sourceRelative {l : Layout} (h : l.placement = .sourceRelative)
    (f : SchemaFile) : ∃ name, l.fileName f = .ok name := by
  obtain ⟨placement, modulePrefix?⟩ := l
  obtain rfl : placement = .sourceRelative := h
  exact ⟨_, rfl⟩

theorem eligibleFiles_eq : p.eligibleFiles = p.files.filter fun f =>
    f.requested && decide ("services.proto".toList <:+ f.name.toList) := by
  refine List.filter_congr fun f _ => ?_
  rw [SchemaFile.eligible, Text.endsWith_eq_decide]
  rfl

theorem mem_files_of_mem_eligibleFiles {f : SchemaFile} (h : f ∈ p.eligibleFiles) :
    f ∈ p.files ∧ f.requested = true := by
  rw [eligibleFiles_eq, List.mem_filter, Bool.and_eq_true] at h
  exact ⟨h.1, h.2.1⟩

/-- **Generation is exact**: it fails with the error of the first eligible file without a name, and
otherwise gives one file for each eligible file, in order, with the text of its unit, and counts
them. -/
theorem generate_exact :
    (p.eligibleFiles = p.files.filter fun f =>
      f.requested && decide ("services.proto".toList <:+ f.name.toList)) ∧
    (∀ e, p.generate = .error e ↔ ∃ before f after cause,
      p.eligibleFiles = before ++ f :: after ∧
      (∀ g ∈ before, ∃ name, p.layout.fileName g = .ok name) ∧
      p.layout.fileName f = .error cause ∧ e = .layout cause) ∧
    ((∃ g, p.generate = .ok g) ↔
      ∀ f ∈ p.eligibleFiles, ∃ name, p.layout.fileName f = .ok name) ∧
    (p.layout.placement = .sourceRelative → ∃ g, p.generate = .ok g) ∧
    (∀ g, p.generate = .ok g ↔ p.Yields g) ∧
    ∀ g, p.generate = .ok g → g.stats.Parted :=
  ⟨p.eligibleFiles_eq, fun _ => p.generate_eq_error_iff, p.exists_generate_eq_ok_iff,
    fun h => p.exists_generate_eq_ok_iff.mpr fun f _ => exists_fileName_of_sourceRelative h f,
    fun _ => p.generate_eq_ok_iff, fun g _ => g.stats.parted⟩

end Plan

/-- a request is carried out if it is accepted and its files stay beside their sources -/
theorem Request.exists_generate {r : Request} {files : List SchemaFile}
    (h : (r.plan.toOption.map fun p => (p.files, p.layout.placement)) = some (files, .sourceRelative)) :
    ∃ p g, r.plan = .ok p ∧ p.generate = .ok g ∧ p.files = files := by
  cases hplan : r.plan with
  | error e =>
    rw [hplan] at h
    cases h
  | ok p =>
    rw [hplan] at h
    obtain ⟨hfiles, hplacement⟩ := Prod.mk.inj (Option.some.inj h)
    obtain ⟨g, hg⟩ := p.exists_generate_eq_ok_iff.mpr fun f _ =>
      Plan.exists_fileName_of_sourceRelative hplacement f
    exact ⟨p, g, rfl, hg, hfiles⟩

end RpcAdapters
