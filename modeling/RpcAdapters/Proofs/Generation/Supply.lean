import RpcAdapters.Proofs.Generation.Subsets
import RpcAdapters.Proofs.Schema.Supplied

/-!
# Supplying the files otherwise

What is generated does not depend on the order in which files are supplied or asked for, nor on files
that have nothing to do with those asked for.

* `Request.Reads r d f`           the descriptor `d` of the request makes the schema file `f`;
* `Request.Covers r s`            `s` knows all that `r` does, and asks for nothing else;
* `Request.Covers.exists_generate`   then files are generated for `s` if they are for `r`;
* `Request.generate_of_rearranges`   another order of everything;
* `Request.generate_insert`       one file more.
-/

namespace RpcAdapters

/-! ## counts -/

structure Stats.SameCounts (s t : Stats) : Prop where
  scanned : t.filesScanned = s.filesScanned
  selected : t.filesSelected = s.filesSelected
  services : t.servicesGenerated = s.servicesGenerated
  adapters : t.adaptersGenerated = s.adaptersGenerated

theorem Plan.sameCounts_of_perm {p q : Plan} {g h : Generation} (hp : p.Yields g) (hq : q.Yields h)
    (hscanned : q.files.length = p.files.length)
    (heligible : q.eligibleFiles.Perm p.eligibleFiles) : g.stats.SameCounts h.stats where
  scanned := by rw [hq.scanned, hp.scanned, hscanned]
  selected := by
    rw [hq.selected, hp.selected, ← hq.files.length_eq, ← hp.files.length_eq, heligible.length_eq]
  services := by rw [hq.services, hp.services, (heligible.flatMap_right _).length_eq]
  adapters := by rw [hq.adapters, hp.adapters, (heligible.flatMap_right _).length_eq]

/-- only the number of all files is told of those that are not eligible -/
theorem Plan.yields_of_eligibleFiles {p q : Plan} {g : Generation} (h : p.Yields g)
    (heligible : q.eligibleFiles = p.eligibleFiles) (hroots : q.roots = p.roots)
    (hlayout : q.layout = p.layout) :
    q.Yields { g with stats := { g.stats with filesScanned := q.files.length } } where
  files := by
    rw [heligible, hroots, hlayout]
    exact h.files
  scanned := rfl
  selected := h.selected
  services := by rw [heligible]; exact h.services
  adapters := by rw [heligible]; exact h.adapters
  warnings := by rw [heligible]; exact h.warnings

namespace Request

variable {r s : Request}

/-- what a descriptor is read as, whether it is asked for or not -/
def Reads (r : Request) (d : ProtoFile) (f : SchemaFile) : Prop :=
  ∃ o, Options.parse r.parameter = .ok o ∧
    (Supplied.ofFiles o.overrides r.files).requestedFile d = .ok f

theorem rightUnique_reads : Relator.RightUnique r.Reads := by
  rintro d f f' ⟨o, ho, hf⟩ ⟨o', ho', hf'⟩
  obtain rfl := Except.ok.inj (ho.symm.trans ho')
  exact Except.ok.inj (hf.symm.trans hf')

theorem forall₂_reads {p : Plan} (hp : r.plan = .ok p) :
    List.Forall₂ r.Reads r.selectedFiles p.eligibleFiles := by
  obtain ⟨o, ho, schema, hschema, rfl⟩ := plan_eq_ok_iff.mp hp
  have hread := Supplied.forall₂_requestedFile (buildSchema_eq_ok_iff.mp hschema)
  exact hread.imp fun d f hf => ⟨o, ho, hf⟩

/-! ## requests that know more -/

structure Covers (r s : Request) : Prop where
  parameter : s.parameter = r.parameter
  supplied : ∀ overrides,
    (Supplied.ofFiles overrides r.files).Extends (Supplied.ofFiles overrides s.files)
  asked : ∀ d ∈ s.files, d.name ∈ s.filesToGenerate → d ∈ r.files ∧ d.name ∈ r.filesToGenerate

namespace Covers

variable (h : r.Covers s)
include h

theorem reads {d : ProtoFile} {f : SchemaFile} (hd : r.Reads d f) : s.Reads d f := by
  obtain ⟨o, ho, hf⟩ := hd
  exact ⟨o, h.parameter ▸ ho, Supplied.requestedFile_of_extends (h.supplied _) hf⟩

theorem makes {d : ProtoFile} {file : GeneratedFile} (hd : r.Makes d file) : s.Makes d file := by
  obtain ⟨o, f, ho, hf, hname, hcontent⟩ := hd
  exact ⟨o, f, h.parameter ▸ ho, Supplied.requestedFile_of_extends (h.supplied _) hf, hname, hcontent⟩

theorem mem_selectedFiles {d : ProtoFile} (hd : d ∈ s.selectedFiles) : d ∈ r.selectedFiles := by
  obtain ⟨hmem, hselected⟩ := List.mem_filter.mp hd
  obtain ⟨hasked, hservices⟩ := Bool.and_eq_true_iff.mp hselected
  obtain ⟨hmem', hasked'⟩ := h.asked d hmem (List.contains_iff_mem.mp hasked)
  exact List.mem_filter.mpr
    ⟨hmem', Bool.and_eq_true_iff.mpr ⟨List.contains_iff_mem.mpr hasked', hservices⟩⟩

theorem exists_generate (hr : ∃ p g, r.generate = .ok (p, g)) : ∃ p g, s.generate = .ok (p, g) := by
  obtain ⟨o, ho, hasked, hmakes⟩ := exists_generate_iff.mp hr
  refine exists_generate_iff.mpr ⟨o, h.parameter ▸ ho, ?_, ?_⟩
  · intro d hd hname
    obtain ⟨hmem, hname'⟩ := h.asked d hd hname
    obtain ⟨f, hf⟩ := hasked d hmem hname'
    exact ⟨f, Supplied.requestedFile_of_extends (h.supplied _) hf⟩
  · intro d hd
    obtain ⟨file, hfile⟩ := hmakes d (h.mem_selectedFiles hd)
    exact ⟨file, h.makes hfile⟩

end Covers

/-! ## another order -/

/-- the same files and names in another order, where a name may be said more than once -/
structure Rearranges (r s : Request) : Prop where
  parameter : s.parameter? = r.parameter?
  files : s.files.Perm r.files
  asked : ∀ name, name ∈ s.filesToGenerate ↔ name ∈ r.filesToGenerate

namespace Rearranges

theorem symm (h : r.Rearranges s) : s.Rearranges r :=
  ⟨h.parameter.symm, h.files.symm, fun name => (h.asked name).symm⟩

theorem covers (h : r.Rearranges s) (hnames : (r.files.map ProtoFile.name).Nodup)
    (hmessages : (r.files.flatMap ProtoFile.fullNames).Nodup) : r.Covers s where
  parameter := congrArg (Option.getD · "") h.parameter
  supplied := fun overrides => Supplied.extends_of_perm overrides h.files.symm hnames hmessages
  asked := fun _ hd hname => ⟨h.files.mem_iff.mp hd, (h.asked _).mp hname⟩

theorem selectedFiles (h : r.Rearranges s) : s.selectedFiles.Perm r.selectedFiles := by
  have hselected : ∀ d : ProtoFile, d.selected s.filesToGenerate = d.selected r.filesToGenerate := by
    intro d
    have hasked : s.filesToGenerate.contains d.name = r.filesToGenerate.contains d.name := by
      rw [Bool.eq_iff_iff, List.contains_iff_mem, List.contains_iff_mem]
      exact h.asked d.name
    rw [ProtoFile.selected, ProtoFile.selected, hasked]
  rw [Request.selectedFiles, Request.selectedFiles]
  simp only [hselected]
  exact h.files.filter _

end Rearranges

/-- **Order does not matter**: where no two files have a name or a message in common, files are
generated in one order of a request if they are in another, every descriptor leads to the same file in
both, and these are counted alike. -/
theorem generate_of_rearranges (h : r.Rearranges s) (hnames : (r.files.map ProtoFile.name).Nodup)
    (hmessages : (r.files.flatMap ProtoFile.fullNames).Nodup) :
    ((∃ p g, r.generate = .ok (p, g)) ↔ ∃ p g, s.generate = .ok (p, g)) ∧
    ∀ p g p' g', r.generate = .ok (p, g) → s.generate = .ok (p', g') →
      s.selectedFiles.Perm r.selectedFiles ∧
      (∃ made : ProtoFile → GeneratedFile,
        g.files = r.selectedFiles.map made ∧ g'.files = s.selectedFiles.map made) ∧
      g'.files.Perm g.files ∧
      g.stats.SameCounts g'.stats ∧
      g'.stats.warnings.Perm g.stats.warnings := by
  have hcovers : r.Covers s := h.covers hnames hmessages
  have hcovers' : s.Covers r := by
    refine h.symm.covers ?_ ?_
    · exact (h.files.map _).nodup_iff.mpr hnames
    · exact (h.files.flatMap_right _).nodup_iff.mpr hmessages
  refine ⟨⟨hcovers.exists_generate, hcovers'.exists_generate⟩, fun p g p' g' hr hs => ?_⟩
  obtain ⟨made, hmade⟩ := exists_map_of_rightUnique (rightUnique_makes (r := r))
  have hfiles : g.files = r.selectedFiles.map made := hmade (forall₂_makes hr)
  have hfiles' : g'.files = s.selectedFiles.map made :=
    hmade ((forall₂_makes hs).imp fun _ _ => hcovers'.makes)
  obtain ⟨hplan, hg⟩ := generate_eq_ok_iff.mp hr
  obtain ⟨hplan', hg'⟩ := generate_eq_ok_iff.mp hs
  obtain ⟨read, hread⟩ := exists_map_of_rightUnique (rightUnique_reads (r := r))
  have heligible : p'.eligibleFiles.Perm p.eligibleFiles := by
    rw [hread (forall₂_reads hplan), hread ((forall₂_reads hplan').imp fun _ _ => hcovers'.reads)]
    exact h.selectedFiles.map read
  have hyields := p.yields_of_generate hg
  have hyields' := p'.yields_of_generate hg'
  have hscanned : p'.files.length = p.files.length := by
    rw [length_files_of_plan hplan, length_files_of_plan hplan', h.files.length_eq]
  refine ⟨h.selectedFiles, ⟨made, hfiles, hfiles'⟩, ?_,
    Plan.sameCounts_of_perm hyields hyields' hscanned heligible, ?_⟩
  · rw [hfiles, hfiles']
    exact h.selectedFiles.map made
  · rw [hyields.warnings, hyields'.warnings]
    exact heligible.flatMap_right _

/-- the depot with its files turned round, one of them asked for twice -/
def turnedDepot : Request where
  filesToGenerate := ["stock.services.proto", "order.services.proto", "stock.services.proto"]
  parameter? := Plan.depotRequest.parameter?
  files := Plan.depotRequest.files.reverse

theorem rearranges_turnedDepot : Plan.depotRequest.Rearranges turnedDepot where
  parameter := rfl
  files := List.reverse_perm _
  asked := by
    intro name
    simp only [turnedDepot, Plan.depotRequest, List.mem_cons, List.not_mem_nil, or_false]
    constructor
    · rintro (h | h | h)
      · exact .inr h
      · exact .inl h
      · exact .inr h
    · rintro (h | h)
      · exact .inr (.inl h)
      · exact .inl h

theorem generate_of_rearranges_depot : ∃ p g p' g' order stock,
    Plan.depotRequest.Rearranges turnedDepot ∧
    (Plan.depotRequest.files.map ProtoFile.name).Nodup ∧
    (Plan.depotRequest.files.flatMap ProtoFile.fullNames).Nodup ∧
    Plan.depotRequest.generate = .ok (p, g) ∧ g.files = [order, stock] ∧
    turnedDepot.generate = .ok (p', g') ∧ g'.files = [stock, order] ∧
    g.stats.SameCounts g'.stats ∧ g'.stats.warnings.Perm g.stats.warnings := by
  have hnames : (Plan.depotRequest.files.map ProtoFile.name).Nodup := by decide
  have hmessages : (Plan.depotRequest.files.flatMap ProtoFile.fullNames).Nodup := by decide
  obtain ⟨hiff, hall⟩ := generate_of_rearranges rearranges_turnedDepot hnames hmessages
  obtain ⟨p, g, hplan, hg, _⟩ := Plan.exists_generate_depot
  have h : Plan.depotRequest.generate = .ok (p, g) := generate_eq_ok_iff.mpr ⟨hplan, hg⟩
  obtain ⟨p', g', h'⟩ := hiff.mp ⟨p, g, h⟩
  obtain ⟨_, ⟨made, hfiles, hfiles'⟩, _, hcounts, hwarnings⟩ := hall p g p' g' h h'
  have hselected : Plan.depotRequest.selectedFiles = Plan.depotRequest.files :=
    List.filter_eq_self.mpr (by decide +kernel)
  have hselected' : turnedDepot.selectedFiles = Plan.depotRequest.files.reverse :=
    List.filter_eq_self.mpr (by decide +kernel)
  rw [hselected] at hfiles
  rw [hselected'] at hfiles'
  exact ⟨p, g, p', g', _, _, rearranges_turnedDepot, hnames, hmessages, h, hfiles, h', hfiles',
    hcounts, hwarnings⟩

/-! ## one more file -/

/-- the same request with other files -/
def supplying (r : Request) (files : List ProtoFile) : Request := { r with files }

section
variable {before after : List ProtoFile} {d : ProtoFile} (hfiles : r.files = before ++ after)
  (hasked : d.name ∉ r.filesToGenerate)
include hfiles hasked

theorem covers_supplying (hname : d.name ∉ r.files.map ProtoFile.name)
    (hmessages : ∀ n ∈ d.fullNames, n ∉ r.files.flatMap ProtoFile.fullNames) :
    r.Covers (r.supplying (before ++ d :: after)) := by
  constructor
  case parameter => rfl
  case supplied =>
    intro overrides
    rw [hfiles] at hname hmessages ⊢
    exact Supplied.extends_insert overrides hname hmessages
  case asked =>
    intro e he hname
    refine ⟨?_, hname⟩
    rw [hfiles, List.mem_append]
    rcases List.mem_append.mp he with he | he
    · exact .inl he
    · rcases List.mem_cons.mp he with rfl | he
      · exact absurd hname hasked
      · exact .inr he

theorem selectedFiles_supplying :
    (r.supplying (before ++ d :: after)).selectedFiles = r.selectedFiles := by
  have hd : ¬ d.selected r.filesToGenerate = true := by
    intro h
    exact hasked (List.contains_iff_mem.mp (Bool.and_eq_true_iff.mp h).1)
  show (before ++ d :: after).filter (fun e => e.selected r.filesToGenerate)
    = r.files.filter fun e => e.selected r.filesToGenerate
  rw [hfiles, List.filter_append, List.filter_append, List.filter_cons, if_neg hd]

/-- **Unrelated files do not matter**: a file that is not asked for, with a name and messages of its
own, changes nothing wherever it is put, and is only counted. -/
theorem generate_insert (hname : d.name ∉ r.files.map ProtoFile.name)
    (hmessages : ∀ n ∈ d.fullNames, n ∉ r.files.flatMap ProtoFile.fullNames) {p : Plan}
    {g : Generation} (h : r.generate = .ok (p, g)) :
    ∃ p', (r.supplying (before ++ d :: after)).generate = .ok (p',
      { g with stats := { g.stats with filesScanned := g.stats.filesScanned + 1 } }) := by
  have hcovers := covers_supplying hfiles hasked hname hmessages
  obtain ⟨hplan, hg⟩ := generate_eq_ok_iff.mp h
  obtain ⟨p', g', h'⟩ := hcovers.exists_generate ⟨p, g, h⟩
  obtain ⟨hplan', _⟩ := generate_eq_ok_iff.mp h'
  have heligible : p'.eligibleFiles = p.eligibleFiles := by
    have hread' := forall₂_reads hplan'
    rw [selectedFiles_supplying hfiles hasked] at hread'
    exact Relator.RightUnique.forall₂ rightUnique_reads hread'
      ((forall₂_reads hplan).imp fun _ _ => hcovers.reads)
  have hoptions : p'.roots = p.roots ∧ p'.layout = p.layout := by
    obtain ⟨o, ho, _, _, rfl⟩ := plan_eq_ok_iff.mp hplan
    obtain ⟨o', ho', _, _, rfl⟩ := plan_eq_ok_iff.mp hplan'
    obtain rfl := Except.ok.inj (ho.symm.trans ho')
    exact ⟨rfl, rfl⟩
  have hyields := p.yields_of_generate hg
  have hscanned : p'.files.length = g.stats.filesScanned + 1 := by
    rw [hyields.scanned, length_files_of_plan hplan, length_files_of_plan hplan', hfiles]
    show (before ++ d :: after).length = _
    rw [List.length_append, List.length_append, List.length_cons]
    omega
  have hyields' := Plan.yields_of_eligibleFiles hyields heligible hoptions.1 hoptions.2
  rw [hscanned] at hyields'
  exact ⟨p', generate_eq_ok_iff.mpr ⟨hplan', p'.generate_eq_ok_iff.mpr hyields'⟩⟩

end

/-- a file with a message of the same name in another package, and a service that makes no sense -/
def yard : ProtoFile where
  name? := some "yard.services.proto"
  package? := some "yard"
  messages := [{ name? := some "Order" }]
  services := [{
    name? := some "YardService"
    methods := [{ name? := some "Close", inputType? := some ".yard.Gate" }] }]

theorem generate_insert_yard : ∃ p g p',
    yard.name ∉ Plan.depotRequest.filesToGenerate ∧
    yard.name ∉ Plan.depotRequest.files.map ProtoFile.name ∧
    (∀ n ∈ yard.fullNames, n ∉ Plan.depotRequest.files.flatMap ProtoFile.fullNames) ∧
    Plan.depotRequest.generate = .ok (p, g) ∧
    (Plan.depotRequest.supplying (Plan.depotRequest.files.take 1 ++ yard ::
      Plan.depotRequest.files.drop 1)).generate = .ok (p',
        { g with stats := { g.stats with filesScanned := g.stats.filesScanned + 1 } }) := by
  have hasked : yard.name ∉ Plan.depotRequest.filesToGenerate := by decide
  have hname : yard.name ∉ Plan.depotRequest.files.map ProtoFile.name := by decide
  have hmessages : ∀ n ∈ yard.fullNames, n ∉ Plan.depotRequest.files.flatMap ProtoFile.fullNames := by
    decide
  obtain ⟨p, g, hplan, hg, _⟩ := Plan.exists_generate_depot
  have h : Plan.depotRequest.generate = .ok (p, g) := generate_eq_ok_iff.mpr ⟨hplan, hg⟩
  obtain ⟨p', h'⟩ := generate_insert (List.take_append_drop 1 _).symm hasked hname hmessages h
  exact ⟨p, g, p', hasked, hname, hmessages, h, h'⟩

end Request

end RpcAdapters
