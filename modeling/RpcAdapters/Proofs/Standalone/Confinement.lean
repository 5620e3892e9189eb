import RpcAdapters.Proofs.Files.Confined
import RpcAdapters.Proofs.Standalone.Agreement

/-!
# Runs that stay in the output directory

The name of a generated file is as confined as the name or the import path of its schema file is.  If all
names are confined, a run changes nothing outside of the output directory; names that are not confined
lead out of it.

* `Layout.Confines l f`           what is confined about `f`, under the layout `l`;
* `Layout.confined_iff_confines`  this is all that a confined name needs;
* `Layout.confines_of_plain`      plain names and import paths are enough;
* `Outcome.confined`              runs with confined names;
* `Outcome.not_confined_stray`    a run that leaves a file next to the output directory.
-/

namespace RpcAdapters

/-! ## confined names -/

namespace Layout

/-- next to schema files their own names are confined; under import paths the import paths are, without
what is cut off -/
def Confines (l : Layout) (f : SchemaFile) : Prop :=
  match l.placement with
  | .sourceRelative => Path.Confined f.name
  | .importPath => ∃ dir, f.importPath ++ "/" = l.cut ++ dir ∧ Path.Confined dir

theorem not_mem_baseStem_append (f : SchemaFile) : '/' ∉ (f.baseStem ++ fileSuffix).toList := by
  rw [String.toList_append, List.mem_append]
  exact not_or.mpr ⟨f.not_mem_baseStem, by decide⟩

theorem confined_stem_append_iff {f : SchemaFile} (h : f.eligible = true) :
    Path.Confined (f.stem ++ fileSuffix) ↔ Path.Confined f.name := by
  obtain ⟨dir, hdir, hstem⟩ := Path.exists_directory f.stem
  have hbase : String.ofList (Text.lastPiece '/' f.stem.toList) = f.baseStem := rfl
  rw [hbase] at hstem
  -- what stands after the directory does not matter, as long as it is the name of a file
  have hending (ending : String) (hslash' : '/' ∉ ending.toList) (hlong : 2 < ending.toList.length) :
      Path.Confined (f.stem ++ ending) ↔ Path.Confined dir := by
    rw [hstem, String.append_assoc]
    refine Path.confined_append_iff hdir ?_ ?_
    · rw [String.toList_append, List.mem_append]
      exact not_or.mpr ⟨f.not_mem_baseStem, hslash'⟩
    · rw [String.toList_append, List.length_append]
      omega
  rw [← SchemaFile.stem_append_extension h, hending fileSuffix (by decide) (by decide),
    hending SchemaFile.extension (by decide) (by decide)]

theorem endsDirectory_of_append {pre dir path : String} (h : path ++ "/" = pre ++ dir) :
    Path.EndsDirectory dir := by
  have hsep : "/".toList = ['/'] := by decide
  have hchars : path.toList ++ ['/'] = pre.toList ++ dir.toList := by
    rw [← hsep, ← String.toList_append, h, String.toList_append]
  rcases dir.toList.eq_nil_or_concat with hempty | ⟨front, c, hfront⟩
  · exact .inl (String.toList_eq_nil_iff.mp hempty)
  · rw [hfront, List.concat_eq_append, ← List.append_assoc] at hchars
    have hc : '/' = c := (List.append_inj' hchars rfl).2 |> List.singleton_inj.mp
    refine .inr ⟨String.ofList front, ?_⟩
    rw [← String.toList_inj, hfront, String.toList_append, String.toList_ofList, hsep, hc,
      List.concat_eq_append]

/-- the name of a generated file is confined exactly if what it is made of is -/
theorem confined_iff_confines {l : Layout} {f : SchemaFile} {name : String} (h : f.eligible = true)
    (hname : l.fileName f = .ok name) : Path.Confined name ↔ l.Confines f := by
  rw [fileName_eq_ok_iff] at hname
  rw [Confines]
  split
  case h_1 hplacement =>
    have hcut : l.cut = "" := by rw [cut, hplacement]
    rw [hcut, String.empty_append, hplacement] at hname
    rw [← hname]
    exact confined_stem_append_iff h
  case h_2 hplacement =>
    have hslash : '/' ∉ (f.baseStem ++ fileSuffix).toList := not_mem_baseStem_append f
    have hlong : 2 < (f.baseStem ++ fileSuffix).toList.length := by
      have hsuffix : 2 < fileSuffix.toList.length := by decide
      rw [String.toList_append, List.length_append]
      omega
    rw [hplacement, unstrippedName, String.append_assoc] at hname
    obtain ⟨dir, hdir, rfl⟩ := exists_append_of_cut hslash hname
    rw [Path.confined_append_iff (endsDirectory_of_append hdir) hslash hlong]
    constructor
    · intro hconfined
      exact ⟨dir, hdir, hconfined⟩
    · rintro ⟨dir', hdir', hconfined⟩
      rw [hdir, String.append_right_inj] at hdir'
      exact hdir' ▸ hconfined

/-- plain names and import paths are confined, whatever is cut off them -/
theorem confines_of_plain {l : Layout} {f : SchemaFile} {name : String} (hplain : Path.Plain f.name)
    (hpath : Path.Plain f.importPath) (hname : l.fileName f = .ok name) : l.Confines f := by
  rw [Confines]
  split
  case h_1 => exact Path.confined_of_plain hplain
  case h_2 hplacement =>
    have hslash : '/' ∉ (f.baseStem ++ fileSuffix).toList := not_mem_baseStem_append f
    rw [fileName_eq_ok_iff, hplacement, unstrippedName, String.append_assoc] at hname
    obtain ⟨dir, hdir, -⟩ := exists_append_of_cut hslash hname
    refine ⟨dir, hdir, ?_⟩
    rcases endsDirectory_of_append hdir with rfl | ⟨d, rfl⟩
    · decide
    · refine Path.confined_directory_of_plain ?_
      rw [← String.append_assoc, String.append_left_inj] at hdir
      rcases l.cut_cases with hcut | ⟨before, hcut⟩
      · rw [hcut, String.empty_append] at hdir
        exact hdir ▸ hpath
      · rw [hcut] at hdir
        exact Path.plain_of_append (hdir ▸ hpath)

end Layout

theorem Plan.confined_iff_confines {p : Plan} {g : Generation} (h : p.generate = .ok g) :
    (∀ file ∈ g.files, Path.Confined file.name) ↔ ∀ f ∈ p.eligibleFiles, p.layout.Confines f := by
  have hnames := forall₂_fileName h
  constructor
  · intro hconfined f hf
    obtain ⟨file, hfile, heligible, hname⟩ := exists_right_of_mem hnames hf
    exact (Layout.confined_iff_confines heligible hname).mp (hconfined file hfile)
  · intro hconfines file hfile
    obtain ⟨f, hf, heligible, hname⟩ := exists_right_of_mem hnames.flip hfile
    exact (Layout.confined_iff_confines heligible hname).mpr (hconfines f hf)

/-! ## runs -/

/-- **Confined runs**: the names of the generated files are confined exactly if all eligible schema files
are in that respect.  Then a run has to do with the output directory only: that is where the files are
put, and nothing else is changed.  A run that does not get as far as that changes nothing. -/
theorem Outcome.confined (v : Verbosity) (path param : String) (files : List String) (output : String)
    (s : Surroundings) (hwf : s.tree.WellFormed) :
    (∀ set p g, Standalone.readSet path (s.tree.readFile path) = .ok set →
      (set.request files (some param)).generate = .ok (p, g) →
      ((∀ file ∈ g.files, Path.Confined file.name) ↔ ∀ f ∈ p.eligibleFiles, p.layout.Confines f) ∧
      ((∀ file ∈ g.files, Path.Confined file.name) →
        s.tree.WrittenBelow (ofGenerate v path param files output s).tree output
          (g.files.map GeneratedFile.name))) ∧
    ((∀ set p g, Standalone.readSet path (s.tree.readFile path) = .ok set →
        (set.request files (some param)).generate ≠ .ok (p, g)) →
      (ofGenerate v path param files output s).tree = s.tree) := by
  constructor
  · intro set p g hset hg
    refine ⟨Plan.confined_iff_confines (Request.generate_eq_ok_iff.mp hg).2, fun hconfined => ?_⟩
    have hresult := Standalone.result_of_readSet v param files output hset
    rw [hg] at hresult
    rw [(of_result_ok hresult).2]
    refine FileTree.writtenBelow_of_writeAll hwf ?_ ?_
    · intro name hname
      obtain ⟨file, hfile, rfl⟩ := List.mem_map.mp hname
      exact hconfined file hfile
    · intro write hwrite
      obtain ⟨file, hfile, rfl⟩ := List.mem_map.mp hwrite
      exact ⟨file.name, List.mem_map_of_mem hfile, rfl⟩
  · intro hnone
    cases hplan : (Standalone.generate v path param files output (s.tree.readFile path)).result with
    | error e => exact (of_result_error hplan).2
    | ok w =>
      obtain ⟨set, p, g, hset, hg, _⟩ := Standalone.exists_of_result_ok hplan
      exact absurd hg (hnone set p g hset)

/-- twins are put into the output directory, and nothing else is changed -/
theorem Outcome.confined_twins : twinTree.WellFormed ∧
    (∃ p g, (twinSet.request [] (some twinOptions)).generate = .ok (p, g) ∧
      (∀ file ∈ g.files, Path.Confined file.name) ∧ (∀ f ∈ p.eligibleFiles, p.layout.Confines f)) ∧
    ∀ l, twinRun.tree.get? l ≠ twinTree.get? l → ["out"] <+: l ∧ l ≠ ["out"] := by
  obtain ⟨p, g, first, second, hg, hfiles, _, hfirst, hsecond, _⟩ := run_twins
  have hconfined : ∀ file ∈ g.files, Path.Confined file.name := by
    intro file hfile
    rw [hfiles] at hfile
    rcases List.mem_pair.mp hfile with rfl | rfl
    · rw [hfirst]
      decide +kernel
    · rw [hsecond]
      decide +kernel
  obtain ⟨hiff, hbelow⟩ := (confined .normal "shop.set" twinOptions [] "out" { tree := twinTree }
    wellFormed_twinTree).1 twinSet p g readSet_twins hg
  exact ⟨wellFormed_twinTree, ⟨p, g, hg, hconfined, hiff.mp hconfined⟩,
    (hbelow hconfined).below ["out"] rfl⟩

/-! ### strays -/

/-- a file whose name leads one directory up -/
def straySet : DescriptorSet where
  files := [{ name? := some "../order.services.proto", options? := some { goPackage? := some "shop/rpc" } }]

def strayTree : FileTree :=
  (({} : FileTree).set ["out"] .directory).set ["shop.set"] (.file straySet.encode)

def strayRun : Outcome :=
  .ofGenerate .normal "shop.set" twinOptions [] "out" { tree := strayTree }

theorem generate_stray : ∃ p g file, (straySet.request [] (some twinOptions)).generate = .ok (p, g) ∧
    g.files = [file] ∧ file.name = "../order.services_pprpc.pb.go" := by
  have hnames : ((straySet.request [] (some twinOptions)).plan.toOption.map fun p =>
      (p.layout.modulePrefix?, p.eligibleFiles.map (Layout.unstrippedName p.layout.placement)))
      = some (none, ["../order.services_pprpc.pb.go"]) := by
    decide +kernel
  cases hplan : (straySet.request [] (some twinOptions)).plan with
  | error e => rw [hplan] at hnames; cases hnames
  | ok p =>
    rw [hplan] at hnames
    obtain ⟨hmodule, hunstripped⟩ := Prod.mk.inj (Option.some.inj hnames)
    obtain ⟨g, hg, hfiles⟩ := Plan.exists_generate_of_modulePrefix?_eq_none hmodule
    obtain ⟨file, hfile, hname⟩ := List.map_eq_singleton_iff.mp (hfiles.trans hunstripped)
    exact ⟨p, g, file, Request.generate_eq_ok_iff.mpr ⟨hplan, hg⟩, hfile, hname⟩

/-- the output directory is there, and the one file of the run is put next to it -/
theorem Outcome.not_confined_stray : strayTree.WellFormed ∧ strayRun.failure? = none ∧
    strayTree.locate (strayTree.start "out") (Path.components "out") = .ok (["out"], .directory) ∧
    ∃ l, strayRun.tree.get? l ≠ strayTree.get? l ∧ ¬ ["out"] <+: l := by
  have hempty : ({} : FileTree).WellFormed := FileTree.wellFormed_empty
  have hout := hempty.set (FileTree.grows_set_of_vacant .directory (l := ["out"]) rfl) rfl
  have hwf := hout.set (FileTree.grows_set_of_vacant (.file straySet.encode) (l := ["shop.set"]) rfl) rfl
  have hset : Standalone.readSet "shop.set" (strayTree.readFile "shop.set") = .ok straySet :=
    Standalone.readSet_of_encode rfl (by decide +kernel) (by decide +kernel)
  obtain ⟨p, g, file, hg, hfiles, hname⟩ := generate_stray
  have hpaths : Standalone.writesOf "out" g = [⟨"out/../order.services_pprpc.pb.go", file.content⟩] := by
    rw [Standalone.writesOf, hfiles, List.map_singleton, hname]
    rfl
  have hchecked : FileTree.checkPath "out/../order.services_pprpc.pb.go" = .ok () := by decide +kernel
  have hparent : FileTree.checkPath (Path.parent "out/../order.services_pprpc.pb.go") = .ok () := by
    decide +kernel
  have habsolute : Path.isAbsolute (Path.parent "out/../order.services_pprpc.pb.go")
      = Path.isAbsolute "out/../order.services_pprpc.pb.go" := Path.isAbsolute_parent _
  have hcomponents : Path.components "out/../order.services_pprpc.pb.go"
      = ["out", ".."] ++ ["order.services_pprpc.pb.go"] := by decide +kernel
  have hdirectory : strayTree.locate (strayTree.start "out/../order.services_pprpc.pb.go") ["out", ".."]
      = .ok ([], .directory) := rfl
  have hup : "order.services_pprpc.pb.go" ≠ ".." := by decide
  have hshort : "order.services_pprpc.pb.go".utf8ByteSize ≤ maxNameLength := by decide +kernel
  have hfree : ∀ n, strayTree.get? ([] ++ ["order.services_pprpc.pb.go"]) = some n →
      ∃ old, n = .file old := fun n hn => nomatch hn
  have hwrite : strayTree.write ⟨"out/../order.services_pprpc.pb.go", file.content⟩
      = .ok (strayTree.set ([] ++ ["order.services_pprpc.pb.go"]) (.file (Text.utf8 file.content))) :=
    FileTree.write_of_directory (w := ⟨"out/../order.services_pprpc.pb.go", file.content⟩) hchecked
      hparent habsolute hcomponents hdirectory hup hshort hfree
  have hall : strayTree.writeAll (Standalone.writesOf "out" g)
      = (strayTree.set ["order.services_pprpc.pb.go"] (.file (Text.utf8 file.content)), none) := by
    rw [hpaths, FileTree.writeAll_cons_of_ok _ hwrite]
    rfl
  obtain ⟨hsuccess, htree⟩ :=
    ofGenerate_of_writeAll (v := .normal) (s := { tree := strayTree }) hset hg hall
  refine ⟨hwf, hsuccess, rfl, ["order.services_pprpc.pb.go"], ?_, by decide⟩
  intro hsame
  have hstray : strayRun.tree.get? ["order.services_pprpc.pb.go"]
      = some (.file (Text.utf8 file.content)) := by
    rw [strayRun, htree, FileTree.get?_set_self _ _ (List.cons_ne_nil _ _)]
  rw [hstray] at hsame
  exact nomatch hsame

end RpcAdapters
