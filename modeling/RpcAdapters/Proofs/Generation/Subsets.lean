import RpcAdapters.Exchange
import RpcAdapters.Proofs.Exchange.Answers
import RpcAdapters.Proofs.Generation.Correspondence
import RpcAdapters.Proofs.Generation.Outcome
import RpcAdapters.Proofs.Generation.Packages

/-!
# Asking for fewer files

What is generated for a descriptor depends on the options and on all descriptors of a request, and not
on what else is asked for.

* `Request.Makes r d file`          `file` is what the descriptor `d` leads to in the request;
* `Request.exists_generate_iff`     what it takes for a request to be answered with files;
* `Request.generate_of_subset`      asking for some of the files gives the same text for them.
-/

namespace RpcAdapters

namespace Request

variable (r : Request)

/-- the descriptors that adapters are to be made for -/
def selectedFiles : List ProtoFile := r.files.filter fun d => d.selected r.filesToGenerate

/-- the same request for other files -/
def asking (names : List String) : Request := { r with filesToGenerate := names }

/-- what a descriptor leads to under the options of the request, whether it is asked for or not -/
def Makes (d : ProtoFile) (file : GeneratedFile) : Prop :=
  ∃ o f, Options.parse r.parameter = .ok o ∧
    (Supplied.ofFiles o.overrides r.files).requestedFile d = .ok f ∧
    o.layout.fileName f = .ok file.name ∧ (f.unit o.roots file.name).render = .ok file.content

theorem makes_asking (names : List String) : (r.asking names).Makes = r.Makes := rfl

/-! ## what is asked for -/

variable {r}

theorem selectedFiles_asking {names : List String} (hnames : names ⊆ r.filesToGenerate) :
    (r.asking names).selectedFiles = r.selectedFiles.filter fun d => names.contains d.name := by
  rw [selectedFiles, selectedFiles, List.filter_filter]
  refine List.filter_congr fun d _ => ?_
  show (names.contains d.name && _) = (names.contains d.name && (r.filesToGenerate.contains d.name && _))
  cases hd : names.contains d.name with
  | false => rfl
  | true =>
    have hasked : r.filesToGenerate.contains d.name = true :=
      List.contains_iff_mem.mpr (hnames (List.contains_iff_mem.mp hd))
    rw [hasked, Bool.true_and, Bool.true_and]

/-! ## what is made -/

theorem rightUnique_makes : Relator.RightUnique r.Makes := by
  rintro d ⟨name, content⟩ ⟨name', content'⟩ ⟨o, f, ho, hf, hname, hcontent⟩
    ⟨o', f', ho', hf', hname', hcontent'⟩
  obtain rfl := Except.ok.inj (ho.symm.trans ho')
  obtain rfl := Except.ok.inj (hf.symm.trans hf')
  obtain rfl : name = name' := Except.ok.inj (hname.symm.trans hname')
  obtain rfl : content = content' := Except.ok.inj (hcontent.symm.trans hcontent')
  rfl

theorem forall₂_makes {p : Plan} {g : Generation} (h : r.generate = .ok (p, g)) :
    List.Forall₂ r.Makes r.selectedFiles g.files := by
  obtain ⟨hp, hg⟩ := generate_eq_ok_iff.mp h
  obtain ⟨o, ho, schema, hschema, rfl⟩ := plan_eq_ok_iff.mp hp
  have hread := Supplied.forall₂_requestedFile (buildSchema_eq_ok_iff.mp hschema)
  have hmade := (Plan.yields_of_generate _ hg).files
  exact (forall₂_trans hread hmade).imp fun d file ⟨f, hf, hname, hcontent⟩ =>
    ⟨o, f, ho, hf, hname, hcontent⟩

theorem length_files_of_plan {p : Plan} (hp : r.plan = .ok p) : p.files.length = r.files.length := by
  obtain ⟨o, _, schema, hschema, rfl⟩ := plan_eq_ok_iff.mp hp
  exact (buildSchema_eq_ok_iff.mp hschema).length_eq.symm

theorem filesScanned_of_generate {p : Plan} {g : Generation} (h : r.generate = .ok (p, g)) :
    g.stats.filesScanned = r.files.length := by
  obtain ⟨hp, hg⟩ := generate_eq_ok_iff.mp h
  rw [(p.yields_of_generate hg).scanned, length_files_of_plan hp]

/-- only what is asked for can stand in the way of a schema -/
theorem exists_buildSchema_iff {overrides : Overrides} :
    (∃ schema, buildSchema r.files r.filesToGenerate overrides = .ok schema) ↔
      ∀ d ∈ r.files, d.name ∈ r.filesToGenerate →
        ∃ f, (Supplied.ofFiles overrides r.files).requestedFile d = .ok f := by
  rw [buildSchema, exists_mapM_eq_ok_iff]
  refine forall₂_congr fun d _ => ?_
  by_cases hname : d.name ∈ r.filesToGenerate
  · rw [List.contains_iff_mem.mpr hname, Supplied.schemaFile, if_pos rfl]
    exact ⟨fun h _ => h, fun h => h hname⟩
  · rw [Supplied.schemaFile, if_neg (mt List.contains_iff_mem.mp hname)]
    exact ⟨fun _ hasked => absurd hasked hname, fun _ => ⟨_, rfl⟩⟩

/-- a request leads to files if its options can be read, every descriptor that is asked for has
identifiers for all that it mentions, and every selected one leads to a file -/
theorem exists_generate_iff : (∃ p g, r.generate = .ok (p, g)) ↔
    ∃ o, Options.parse r.parameter = .ok o ∧
      (∀ d ∈ r.files, d.name ∈ r.filesToGenerate →
        ∃ f, (Supplied.ofFiles o.overrides r.files).requestedFile d = .ok f) ∧
      ∀ d ∈ r.selectedFiles, ∃ file, r.Makes d file := by
  constructor
  · rintro ⟨p, g, h⟩
    obtain ⟨o, ho, schema, hschema, _⟩ := plan_eq_ok_iff.mp (generate_eq_ok_iff.mp h).1
    refine ⟨o, ho, exists_buildSchema_iff.mp ⟨schema, hschema⟩, fun d hd => ?_⟩
    obtain ⟨file, _, hfile⟩ := exists_right_of_mem (forall₂_makes h) hd
    exact ⟨file, hfile⟩
  · rintro ⟨o, ho, hasked, hmakes⟩
    obtain ⟨schema, hschema⟩ := exists_buildSchema_iff.mpr hasked
    let p : Plan := ⟨schema, o.roots, o.layout, o.verbose⟩
    have hplan : r.plan = .ok p := plan_eq_ok_iff.mpr ⟨o, ho, schema, hschema, rfl⟩
    have hnames : ∀ f ∈ p.eligibleFiles, ∃ name, p.layout.fileName f = .ok name := by
      intro f hf
      -- the file is made from a selected descriptor, which has a file name
      have hread := Supplied.forall₂_requestedFile (buildSchema_eq_ok_iff.mp hschema)
      obtain ⟨d, hd, hdf⟩ := exists_right_of_mem hread.flip hf
      obtain ⟨file, o', f', ho', hf', hname, _⟩ := hmakes d hd
      obtain rfl := Except.ok.inj (ho.symm.trans ho')
      obtain rfl := Except.ok.inj (hdf.symm.trans hf')
      exact ⟨file.name, hname⟩
    obtain ⟨g, hg⟩ := p.exists_generate_eq_ok_iff.mpr hnames
    exact ⟨p, g, generate_eq_ok_iff.mpr ⟨hplan, hg⟩⟩

/-- **Asking for fewer files changes nothing else**: if a request is answered with files, it is also when
only some of its files are asked for, and then with those of them that come from these. -/
theorem generate_of_subset {names : List String} {p : Plan} {g : Generation}
    (hnames : names ⊆ r.filesToGenerate) (h : r.generate = .ok (p, g)) :
    List.Forall₂ r.Makes r.selectedFiles g.files ∧
    ∃ p' g', (r.asking names).generate = .ok (p', g') ∧
      g'.files = ((r.selectedFiles.zip g.files).filter fun pair =>
        names.contains pair.1.name).map Prod.snd ∧
      g'.stats.filesScanned = g.stats.filesScanned := by
  have hmakes := forall₂_makes h
  have hless : ∃ p' g', (r.asking names).generate = .ok (p', g') := by
    obtain ⟨o, ho, hasked, hmade⟩ := exists_generate_iff.mp ⟨p, g, h⟩
    refine exists_generate_iff.mpr ⟨o, ho, ?_, ?_⟩
    · intro d hd hname
      exact hasked d hd (hnames hname)
    · intro d hd
      rw [selectedFiles_asking hnames] at hd
      exact hmade d (List.mem_filter.mp hd).1
  obtain ⟨p', g', h'⟩ := hless
  have hmakes' := forall₂_makes h'
  rw [selectedFiles_asking hnames, makes_asking] at hmakes'
  refine ⟨hmakes, p', g', h', ?_, ?_⟩
  · exact Relator.RightUnique.forall₂ rightUnique_makes hmakes'
      (forall₂_filter_zip (fun d => names.contains d.name) hmakes)
  · rw [filesScanned_of_generate h, filesScanned_of_generate h']
    rfl

/-- one of the two files of the depot -/
theorem generate_of_subset_depot : ∃ p g p' g' order stock,
    Plan.depotRequest.generate = .ok (p, g) ∧ g.files = [order, stock] ∧
    ["stock.services.proto"] ⊆ Plan.depotRequest.filesToGenerate ∧
    (Plan.depotRequest.asking ["stock.services.proto"]).generate = .ok (p', g') ∧ g'.files = [stock] ∧
    g'.stats.filesScanned = 2 := by
  obtain ⟨p, g, hplan, hg, _⟩ := Plan.exists_generate_depot
  have h : Plan.depotRequest.generate = .ok (p, g) := generate_eq_ok_iff.mpr ⟨hplan, hg⟩
  have hnames : ["stock.services.proto"] ⊆ Plan.depotRequest.filesToGenerate := by decide
  have hselected : Plan.depotRequest.selectedFiles = Plan.depotRequest.files :=
    List.filter_eq_self.mpr (by decide +kernel)
  obtain ⟨hmakes, p', g', h', hfiles, hscanned⟩ := generate_of_subset hnames h
  rw [hselected] at hmakes hfiles
  obtain ⟨order, _, _, hrest, horder⟩ := List.forall₂_cons_left_iff.mp hmakes
  obtain ⟨stock, _, _, hnil, rfl⟩ := List.forall₂_cons_left_iff.mp hrest
  obtain rfl := List.forall₂_nil_left_iff.mp hnil
  rw [horder] at hfiles
  rw [filesScanned_of_generate h] at hscanned
  exact ⟨p, g, p', g', order, stock, h, horder, hnames, h', hfiles, hscanned⟩

end Request

end RpcAdapters
