import RpcAdapters.Proofs.Files.Plain
import RpcAdapters.Proofs.Generation.FileNames
import RpcAdapters.Proofs.Wire.Requests
import RpcAdapters.Standalone.Run

/-!
# Files that a run leaves behind

A run on its own writes one file after the other.  What is then at the path of a file is the file itself,
unless the path of a later one leads to the same place.

* `FileTree.Stores t path content`   the content is what there is to read at the path;
* `Outcome.ofGenerate_of_success`    what a run without failure has done;
* `KeepsOutputs`                     which of the generated files are stored in the end;
* `outputs_kept`                     when names are different, and what this means for a run;
* `outputs_overwritten_twins`        names that are the same, and names that lead to the same place.
-/

namespace RpcAdapters

/-! ## stored contents -/

namespace FileTree

/-- reading gives the content back, unless there is a device that keeps none -/
def Stores (t : FileTree) (path content : String) : Prop :=
  t.readFile path = .ok (Text.utf8 content) ∨ ∃ l, t.find path = .ok (l, .device)

theorem stores_of_holds {t : FileTree} {path content : String} {l : Location} {n : Node}
    (hname : Path.namesDirectory path = false) (hfind : t.find path = .ok (l, n))
    (hn : n.Holds (Text.utf8 content)) : t.Stores path content := by
  rcases hn with rfl | rfl
  · left
    rw [readFile, hfind]
    show (if Path.namesDirectory path = true then _ else _) = _
    rw [if_neg (Bool.eq_false_iff.mp hname)]
  · exact .inr ⟨l, hfind⟩

end FileTree

theorem Layout.namesDirectory_join {l : Layout} {f : SchemaFile} {name : String} (output : String)
    (h : l.fileName f = .ok name) : Path.namesDirectory (Path.join output name) = false := by
  obtain ⟨stem, rfl⟩ := fileName_endsWith h
  obtain ⟨before, hjoin⟩ := Path.exists_join_eq output (stem ++ fileSuffix)
  rw [hjoin, ← String.append_assoc]
  exact Path.not_namesDirectory (by decide) (by decide)

/-! ## runs -/

namespace Standalone

theorem result_of_readSet {path : String} {read : Except ReadError (List UInt8)} {set : DescriptorSet}
    (v : Verbosity) (param : String) (files : List String) (output : String)
    (hset : readSet path read = .ok set) :
    (generate v path param files output read).result = (do
      let (_, g) ← (set.request files (some param)).generate.mapError RunError.generation
      return ⟨writesOf output g, closing v (writesOf output g)⟩) := by
  rw [result_generate, hset]
  rfl

theorem readSet_of_encode {path : String} {t : FileTree} {set : DescriptorSet}
    (hread : t.readFile path = .ok set.encode)
    (hnested : ∀ f ∈ set.files, ∀ path ∈ f.paths, path.length < Wire.maxDepth)
    (hsize : set.encode.length < Wire.varintLimit) : readSet path (t.readFile path) = .ok set := by
  rw [hread]
  show (DescriptorSet.decode set.encode).mapError RunError.undecodable = _
  rw [DescriptorSet.decode_encode hnested hsize]
  rfl

theorem exists_of_result_ok {v : Verbosity} {path param output : String} {files : List String}
    {read : Except ReadError (List UInt8)} {w : Writing}
    (h : (generate v path param files output read).result = .ok w) :
    ∃ set p g, readSet path read = .ok set ∧
      (set.request files (some param)).generate = .ok (p, g) ∧ w.writes = writesOf output g := by
  rw [result_generate] at h
  obtain ⟨set, hset, ⟨p, g⟩, hg, hw⟩ := by
    simpa only [bind_eq_ok_iff, mapError_eq_ok_iff] using h
  obtain rfl := pure_eq_ok_iff.mp hw
  exact ⟨set, p, g, hset, hg, rfl⟩

end Standalone

namespace Outcome

variable {v : Verbosity} {path param output : String} {files : List String} {s : Surroundings}

theorem of_result_error {e : RunError}
    (h : (Standalone.generate v path param files output (s.tree.readFile path)).result = .error e) :
    (ofGenerate v path param files output s).failure? = some e ∧
      (ofGenerate v path param files output s).tree = s.tree := by
  rw [ofGenerate]
  simp only [h, and_self]

theorem of_result_ok {w : Standalone.Writing}
    (h : (Standalone.generate v path param files output (s.tree.readFile path)).result = .ok w) :
    (ofGenerate v path param files output s).failure?
        = (s.tree.writeAll w.writes).2.map RunError.unwritable ∧
      (ofGenerate v path param files output s).tree = (s.tree.writeAll w.writes).1 := by
  rw [ofGenerate]
  simp only [h]
  rcases s.tree.writeAll w.writes with ⟨tree, _ | e⟩
  · exact ⟨rfl, rfl⟩
  · exact ⟨rfl, rfl⟩

theorem ofGenerate_of_success (h : (ofGenerate v path param files output s).failure? = none) :
    ∃ set p g, Standalone.readSet path (s.tree.readFile path) = .ok set ∧
      (set.request files (some param)).generate = .ok (p, g) ∧
      s.tree.writeAll (Standalone.writesOf output g)
        = ((ofGenerate v path param files output s).tree, none) := by
  cases hplan : (Standalone.generate v path param files output (s.tree.readFile path)).result with
  | error e =>
    rw [(of_result_error hplan).1] at h
    exact nomatch h
  | ok w =>
    obtain ⟨hfailure, htree⟩ := of_result_ok hplan
    obtain ⟨set, p, g, hset, hg, hw⟩ := Standalone.exists_of_result_ok hplan
    rw [hfailure, Option.map_eq_none_iff] at h
    rw [hw] at h htree
    exact ⟨set, p, g, hset, hg, Prod.ext htree.symm h⟩

theorem ofGenerate_of_writeAll {set : DescriptorSet} {p : Plan} {g : Generation} {tree : FileTree}
    (hset : Standalone.readSet path (s.tree.readFile path) = .ok set)
    (hg : (set.request files (some param)).generate = .ok (p, g))
    (hwrite : s.tree.writeAll (Standalone.writesOf output g) = (tree, none)) :
    (ofGenerate v path param files output s).failure? = none ∧
      (ofGenerate v path param files output s).tree = tree := by
  have hresult := Standalone.result_of_readSet v param files output hset
  rw [hg] at hresult
  obtain ⟨hfailure, htree⟩ := of_result_ok hresult
  rw [hwrite] at hfailure htree
  exact ⟨hfailure, htree⟩

end Outcome

/-- which of the files are stored below a directory, when they were written in this order -/
structure KeepsOutputs (t : FileTree) (output : String) (files : List GeneratedFile) : Prop where
  last : ∀ before file after, files = before ++ file :: after →
    (∀ later ∈ after,
      t.place? (Path.join output later.name) ≠ t.place? (Path.join output file.name)) →
    t.Stores (Path.join output file.name) file.content
  plain : (files.map GeneratedFile.name).Nodup → (∀ file ∈ files, Path.Plain file.name) →
    ∀ file ∈ files, t.Stores (Path.join output file.name) file.content ∧
      ∃ root, t.locate (t.start output) (Path.components output) = .ok (root, .directory) ∧
        t.place? (Path.join output file.name) = some (root ++ Path.components file.name)

section
variable {t t' : FileTree} {output : String} {p : Plan} {g : Generation}

theorem stores_last (hwf : t.WellFormed) (hg : p.generate = .ok g)
    (hwrite : t.writeAll (Standalone.writesOf output g) = (t', none))
    {before after : List GeneratedFile} {file : GeneratedFile}
    (hfiles : g.files = before ++ file :: after)
    (hlater : ∀ later ∈ after,
      t'.place? (Path.join output later.name) ≠ t'.place? (Path.join output file.name)) :
    t'.Stores (Path.join output file.name) file.content := by
  rw [Standalone.writesOf, hfiles, List.map_append, List.map_cons] at hwrite
  obtain ⟨l, n, hfind, hn⟩ := FileTree.find_of_writeAll hwf hwrite
  have hplace := FileTree.place?_of_find hfind
  have hmem : file ∈ g.files := by
    rw [hfiles]
    exact List.mem_append_right _ (List.mem_cons_self ..)
  obtain ⟨f, _, _, hname⟩ := exists_right_of_mem (Plan.forall₂_fileName hg).flip hmem
  refine FileTree.stores_of_holds (Layout.namesDirectory_join output hname) hfind (hn ?_)
  intro w hw
  obtain ⟨later, hmem', rfl⟩ := List.mem_map.mp hw
  rw [← hplace]
  exact hlater later hmem'

theorem place?_of_plain (hwf : t.WellFormed)
    (hwrite : t.writeAll (Standalone.writesOf output g) = (t', none)) {file : GeneratedFile}
    (hfile : file ∈ g.files) (hplain : Path.Plain file.name) :
    ∃ root, t'.locate (t'.start output) (Path.components output) = .ok (root, .directory) ∧
      t'.place? (Path.join output file.name) = some (root ++ Path.components file.name) := by
  obtain ⟨before, after, hfiles⟩ := List.append_of_mem hfile
  obtain ⟨hwf', _⟩ := FileTree.writeAll_of_ok hwf hwrite
  rw [Standalone.writesOf, hfiles, List.map_append, List.map_cons] at hwrite
  obtain ⟨l, n, hfind, _⟩ := FileTree.find_of_writeAll hwf hwrite
  obtain ⟨root, hroot, rfl⟩ := FileTree.find_join_of_plain hwf' hplain hfind
  exact ⟨root, hroot, FileTree.place?_of_find hfind⟩

theorem keepsOutputs_of_writeAll (hwf : t.WellFormed) (hg : p.generate = .ok g)
    (hwrite : t.writeAll (Standalone.writesOf output g) = (t', none)) :
    KeepsOutputs t' output g.files := by
  constructor
  case last =>
    intro before file after hfiles hlater
    exact stores_last hwf hg hwrite hfiles hlater
  case plain =>
    intro hnames hplain file hfile
    obtain ⟨root, hroot, hplace⟩ := place?_of_plain hwf hwrite hfile (hplain file hfile)
    refine ⟨?_, root, hroot, hplace⟩
    obtain ⟨before, after, hfiles⟩ := List.append_of_mem hfile
    refine stores_last hwf hg hwrite hfiles fun later hlater hsame => ?_
    -- a later file at the same place would have the same name
    have hmem : later ∈ g.files := by
      rw [hfiles]
      exact List.mem_append_right _ (List.mem_cons_of_mem _ hlater)
    obtain ⟨root', hroot', hplace'⟩ := place?_of_plain hwf hwrite hmem (hplain later hmem)
    obtain rfl : root' = root := by
      rw [hroot, Except.ok.injEq, Prod.mk.injEq] at hroot'
      exact hroot'.1.symm
    rw [hplace, hplace', Option.some.injEq, List.append_cancel_left_eq] at hsame
    have hname : later.name = file.name :=
      Path.components_inj (hplain later hmem) (hplain file hfile) hsame
    rw [hfiles, List.map_append, List.map_cons, List.nodup_append] at hnames
    have hnotin := (List.nodup_cons.mp hnames.2.1).1
    exact hnotin (hname ▸ List.mem_map_of_mem hlater)

end

/-- **No output is lost that has a place of its own**: next to their schema files generated files have
different names, and under import paths they have if no two schema files have import path and base name
in common.  A run stores every file whose place no later file takes, and so all files, if their names
are plain and different. -/
theorem outputs_kept :
    (∀ (r : Request) p g, (r.files.map ProtoFile.name).Nodup → r.generate = .ok (p, g) →
      (p.layout.placement = .sourceRelative → (g.files.map GeneratedFile.name).Nodup) ∧
      (p.layout.placement = .importPath → ((g.files.map GeneratedFile.name).Nodup ↔
        (p.eligibleFiles.map fun f => (f.importPath, f.baseName)).Nodup))) ∧
    ∀ v path param files output (s : Surroundings), s.tree.WellFormed →
      (Outcome.ofGenerate v path param files output s).failure? = none →
      ∃ set p g, Standalone.readSet path (s.tree.readFile path) = .ok set ∧
        (set.request files (some param)).generate = .ok (p, g) ∧
        KeepsOutputs (Outcome.ofGenerate v path param files output s).tree output g.files := by
  constructor
  · intro r p g hnames h
    obtain ⟨hp, hg⟩ := Request.generate_eq_ok_iff.mp h
    refine ⟨fun hplacement => ?_, Plan.nodup_names_importPath_iff hg⟩
    exact (Plan.nodup_names_sourceRelative_iff hg hplacement).mpr
      (Request.nodup_names_eligibleFiles hp hnames)
  · intro v path param files output s hwf hsuccess
    obtain ⟨set, p, g, hset, hgenerate, hwrite⟩ := Outcome.ofGenerate_of_success hsuccess
    have hg := (Request.generate_eq_ok_iff.mp hgenerate).2
    exact ⟨set, p, g, hset, hgenerate, keepsOutputs_of_writeAll hwf hg hwrite⟩

/-! ### twins -/

/-- two files with one base name for one Go package, which lie in one directory -/
def twinSet : DescriptorSet where
  files := [
    { name? := some "order.services.proto", options? := some { goPackage? := some "shop/rpc" } },
    { name? := some "./order.services.proto", options? := some { goPackage? := some "shop/rpc" } }]

def twinFiles : List SchemaFile := [
  { name := "order.services.proto", importPath := "shop/rpc", packageName := "rpc" },
  { name := "./order.services.proto", importPath := "shop/rpc", packageName := "rpc" }]

def twinOptions : String := "domainPath=shop/domain,useCasePath=shop/app,dtsPath=shop/dts"

def twinTree : FileTree :=
  (({} : FileTree).set ["out"] .directory).set ["shop.set"] (.file twinSet.encode)

/-- what is left of the twins: the second has the place of both -/
def twinTreeAfter (first second : GeneratedFile) : FileTree :=
  (twinTree.set ["out", "order.services_pprpc.pb.go"] (.file (Text.utf8 first.content))).set
    ["out", "order.services_pprpc.pb.go"] (.file (Text.utf8 second.content))

def twinRun : Outcome :=
  .ofGenerate .normal "shop.set" twinOptions [] "out" { tree := twinTree }

theorem wellFormed_twinTree : twinTree.WellFormed := by
  have hempty : ({} : FileTree).WellFormed := FileTree.wellFormed_empty
  have hout := hempty.set (FileTree.grows_set_of_vacant .directory (l := ["out"]) rfl) rfl
  exact hout.set (FileTree.grows_set_of_vacant _ (l := ["shop.set"]) rfl) rfl

theorem readSet_twins : Standalone.readSet "shop.set" (twinTree.readFile "shop.set") = .ok twinSet :=
  Standalone.readSet_of_encode rfl (by decide +kernel) (by decide +kernel)

theorem generate_twins (param : String) (placement : Placement)
    (h : ((twinSet.request [] (some param)).plan.toOption.map fun p => (p.files, p.layout))
      = some (twinFiles, { placement })) :
    ∃ p g first second, (twinSet.request [] (some param)).generate = .ok (p, g) ∧
      g.files = [first, second] ∧ first.content ≠ second.content ∧
      [first.name, second.name] = twinFiles.map (Layout.unstrippedName placement) := by
  cases hplan : (twinSet.request [] (some param)).plan with
  | error e => rw [hplan] at h; exact nomatch h
  | ok p =>
    rw [hplan] at h
    obtain ⟨hfiles, hlayout⟩ := Prod.mk.inj (Option.some.inj h)
    obtain ⟨g, hg, hnames⟩ := Plan.exists_generate_of_modulePrefix?_eq_none (p := p) (by rw [hlayout])
    have heligible : p.eligibleFiles = twinFiles := by
      rw [Plan.eligibleFiles, hfiles]
      decide +kernel
    have hyields := (p.yields_of_generate hg).files
    rw [heligible] at hyields
    obtain ⟨first, _, ⟨_, hrender⟩, hrest, hcons⟩ := List.forall₂_cons_left_iff.mp hyields
    obtain ⟨second, _, ⟨_, hrender'⟩, hnil, rfl⟩ := List.forall₂_cons_left_iff.mp hrest
    obtain rfl := List.forall₂_nil_left_iff.mp hnil
    refine ⟨p, g, first, second, Request.generate_eq_ok_iff.mpr ⟨hplan, hg⟩, hcons, ?_, ?_⟩
    · intro hsame
      rw [← hsame] at hrender'
      have hline : '\n' ∉ "order.services.proto".toList := by decide
      have hline' : '\n' ∉ "./order.services.proto".toList := by decide
      have hsource : "order.services.proto" = "./order.services.proto" :=
        SourceUnit.source_of_render hrender hrender' hline hline'
      exact absurd hsource (by decide)
    · rw [hcons, heligible, hlayout] at hnames
      exact hnames

/-- both paths lead to the one place in the output directory -/
theorem write_twin {t : FileTree} {path : String} (content : String)
    (hpath : path ∈ ["out/order.services_pprpc.pb.go", "out/./order.services_pprpc.pb.go"])
    (hcurrent : t.current = []) (hout : t.locate [] ["out"] = .ok (["out"], .directory))
    (hfree : ∀ n, t.get? ["out", "order.services_pprpc.pb.go"] = some n → ∃ old, n = .file old) :
    t.write ⟨path, content⟩
      = .ok (t.set ["out", "order.services_pprpc.pb.go"] (.file (Text.utf8 content))) := by
  have hall : ∀ path ∈ ["out/order.services_pprpc.pb.go", "out/./order.services_pprpc.pb.go"],
      FileTree.checkPath path = .ok () ∧ FileTree.checkPath (Path.parent path) = .ok () ∧
      Path.isAbsolute (Path.parent path) = Path.isAbsolute path ∧
      Path.components path = ["out"] ++ ["order.services_pprpc.pb.go"] := by decide +kernel
  obtain ⟨hchecked, hparent, habsolute, hcomponents⟩ := hall path hpath
  have hstart : t.start path = [] := by
    rw [FileTree.start, hcurrent, ite_self]
  have hdirectory : t.locate (t.start path) ["out"] = .ok (["out"], .directory) := by
    rw [hstart, hout]
  have hup : "order.services_pprpc.pb.go" ≠ ".." := by decide
  have hshort : "order.services_pprpc.pb.go".utf8ByteSize ≤ maxNameLength := by decide +kernel
  have hwrite := FileTree.write_of_directory (w := ⟨path, content⟩) hchecked hparent habsolute
    hcomponents hdirectory hup hshort hfree
  exact hwrite

theorem writeAll_twins {g : Generation} {first second : GeneratedFile}
    (hfiles : g.files = [first, second]) (hfirst : first.name = "order.services_pprpc.pb.go")
    (hsecond : second.name = "./order.services_pprpc.pb.go") :
    twinTree.writeAll (Standalone.writesOf "out" g) = (twinTreeAfter first second, none) := by
  have hpaths : Standalone.writesOf "out" g = [⟨"out/order.services_pprpc.pb.go", first.content⟩,
      ⟨"out/./order.services_pprpc.pb.go", second.content⟩] := by
    rw [Standalone.writesOf, hfiles, List.map_cons, List.map_cons, List.map_nil, hfirst, hsecond]
    rfl
  have hwrite := write_twin (t := twinTree) first.content (List.mem_cons_self ..) rfl rfl
    fun n hn => nomatch hn
  have hwrite' := write_twin
    (t := twinTree.set ["out", "order.services_pprpc.pb.go"] (.file (Text.utf8 first.content)))
    second.content (List.mem_cons_of_mem _ (List.mem_cons_self ..)) rfl rfl
    fun n hn => ⟨_, (Option.some.inj hn).symm⟩
  rw [hpaths, FileTree.writeAll_cons_of_ok _ hwrite, FileTree.writeAll_cons_of_ok _ hwrite']
  rfl

theorem readFile_twinTreeAfter (first second : GeneratedFile) :
    (twinTreeAfter first second).readFile "out/order.services_pprpc.pb.go"
      = .ok (Text.utf8 second.content) := rfl

/-- a run on twins succeeds, and leaves the second of them alone in their place -/
theorem run_twins : ∃ p g first second,
    (twinSet.request [] (some twinOptions)).generate = .ok (p, g) ∧ g.files = [first, second] ∧
    first.content ≠ second.content ∧ first.name = "order.services_pprpc.pb.go" ∧
    second.name = "./order.services_pprpc.pb.go" ∧ twinRun.failure? = none ∧
    twinRun.tree = twinTreeAfter first second := by
  obtain ⟨p, g, first, second, hg, hfiles, hcontent, hnames⟩ :=
    generate_twins twinOptions .sourceRelative (by decide +kernel)
  obtain ⟨hfirst, hrest⟩ := List.cons.inj hnames
  obtain ⟨hsecond, -⟩ := List.cons.inj hrest
  have hfirst' : first.name = "order.services_pprpc.pb.go" := hfirst.trans (by decide +kernel)
  have hsecond' : second.name = "./order.services_pprpc.pb.go" := hsecond.trans (by decide +kernel)
  have hrun : twinRun.failure? = none ∧ twinRun.tree = twinTreeAfter first second :=
    Outcome.ofGenerate_of_writeAll readSet_twins hg (writeAll_twins hfiles hfirst' hsecond')
  exact ⟨p, g, first, second, hg, hfiles, hcontent, hfirst', hsecond', hrun.1, hrun.2⟩

theorem outputs_kept_twins : (twinSet.files.map ProtoFile.name).Nodup ∧ twinTree.WellFormed ∧
    twinRun.failure? = none ∧
    (∃ p g, (twinSet.request [] (some twinOptions)).generate = .ok (p, g) ∧
      (p.layout.placement = .sourceRelative → (g.files.map GeneratedFile.name).Nodup)) ∧
    ∃ set p g, Standalone.readSet "shop.set" (twinTree.readFile "shop.set") = .ok set ∧
      (set.request [] (some twinOptions)).generate = .ok (p, g) ∧
      KeepsOutputs twinRun.tree "out" g.files := by
  have hnames : (twinSet.files.map ProtoFile.name).Nodup := by decide +kernel
  obtain ⟨p, g, _, _, hg, _, _, _, _, hsuccess, _⟩ := run_twins
  obtain ⟨hdistinct, _⟩ := outputs_kept.1 (twinSet.request [] (some twinOptions)) p g hnames hg
  have hkept := outputs_kept.2 .normal "shop.set" twinOptions [] "out" { tree := twinTree }
    wellFormed_twinTree hsuccess
  exact ⟨hnames, wellFormed_twinTree, hsuccess, ⟨p, g, hg, hdistinct⟩, hkept⟩

/-- under one import path the twins have one name, and next to their schema files they have two names
for one place, so that the first is lost -/
theorem outputs_overwritten_twins : (twinSet.files.map ProtoFile.name).Nodup ∧
    (∃ p g, (twinSet.request [] (some ("paths=import," ++ twinOptions))).generate = .ok (p, g) ∧
      ¬ (g.files.map GeneratedFile.name).Nodup) ∧
    ∃ p g, (twinSet.request [] (some twinOptions)).generate = .ok (p, g) ∧
      (g.files.map GeneratedFile.name).Nodup ∧ twinRun.failure? = none ∧
      ∃ file ∈ g.files, twinRun.tree.readFile (Path.join "out" file.name)
        ≠ .ok (Text.utf8 file.content) := by
  refine ⟨by decide +kernel, ?_, ?_⟩
  · obtain ⟨p, g, first, second, hg, hfiles, _, hnames⟩ :=
      generate_twins ("paths=import," ++ twinOptions) .importPath (by decide +kernel)
    refine ⟨p, g, hg, ?_⟩
    rw [hfiles]
    show ¬ [first.name, second.name].Nodup
    rw [hnames]
    decide +kernel
  · obtain ⟨p, g, first, second, hg, hfiles, hcontent, hfirst, hsecond, hsuccess, htree⟩ := run_twins
    refine ⟨p, g, hg, ?_, hsuccess, first, ?_, ?_⟩
    · rw [hfiles, List.map_cons, List.map_cons, List.map_nil, hfirst, hsecond]
      decide +kernel
    · rw [hfiles]
      exact List.mem_cons_self ..
    · have hpath : Path.join "out" first.name = "out/order.services_pprpc.pb.go" := by
        rw [hfirst]
        rfl
      rw [hpath, htree, readFile_twinTreeAfter]
      intro hsame
      have hread := congrArg Text.ofUtf8? (Except.ok.inj hsame)
      rw [Text.ofUtf8?_utf8, Text.ofUtf8?_utf8, Option.some.injEq] at hread
      exact hcontent hread.symm

end RpcAdapters
