import RpcAdapters.Proofs.Generation.Outcome
import RpcAdapters.Proofs.Lookup
import RpcAdapters.Proofs.Naming.Identifiers
import RpcAdapters.Proofs.Schema.Accepted
import RpcAdapters.Proofs.Source.Appending

/-!
# Package clauses

The name in a package clause is made from the part of a `go_package` text after its first `;`, or from
the last element of its path.  It is always an identifier; it is the blank one, which no package can be
called, exactly if that part is empty.

* `IsPackageName`             what a package can be called;
* `givenName text`            the part of a `go_package` text that the name is made from;
* `NamesPackage text`         that part is not empty;
* `SchemaFile.NamedBy`        what the package name of a file is, and when it is legal;
* `buildSchema_namesPackages` this for all requested files, and the clauses in the generated texts;
* `blank_package_nameless`    a text that ends with `;` leads to `package _`.
-/

namespace RpcAdapters

open Naming Source

/-! ## names of packages -/

/-- what a package can be called -/
structure Naming.IsPackageName (name : String) : Prop extends IsIdentifier name where
  not_blank : name ≠ "_"

theorem Naming.isPackageName_sanitized_iff {name : String} :
    IsPackageName (sanitized name) ↔ name ≠ "" := by
  rw [Ne, ← sanitized_eq_underscore_iff]
  exact ⟨fun h => h.not_blank, fun h => ⟨isIdentifier_sanitized name, h⟩⟩

/-! ## names in `go_package` texts -/

namespace PackageInfo

def givenName (text : String) : String :=
  match Text.splitFirst ';' text.toList with
  | none => importBase text
  | some (_, name) => String.ofList name

/-- neither an explicit name nor the last element of the path is left out -/
def NamesPackage (text : String) : Prop :=
  ∀ path : String, ';' ∉ path.toList → text ≠ path ++ ";" ∧ text ≠ path ++ "/"

variable {text importPath : String}

theorem clauseName_ofGoPackage (h : (ofGoPackage text).importPath? = some importPath) :
    (ofGoPackage text).clauseName importPath = sanitized (givenName text) := by
  unfold ofGoPackage at h ⊢
  unfold givenName
  by_cases hempty : text = ""
  · rw [if_pos hempty] at h
    cases h
  · rw [if_neg hempty] at h ⊢
    cases hsplit : Text.splitFirst ';' text.toList with
    | none =>
      rw [hsplit] at h
      have hpath : some text = some importPath := h
      rw [← Option.some.inj hpath]
      exact Option.getD_none
    | some pieces => exact Option.getD_some

theorem importBase_eq_empty_iff : importBase text = "" ↔ text = "" ∨ ∃ path, text = path ++ "/" := by
  rw [importBase, String.ofList_eq_empty_iff, Text.lastPiece_eq_nil_iff, String.toList_eq_nil_iff]
  refine or_congr_right ⟨?_, ?_⟩
  · intro ⟨path, hpath⟩
    refine ⟨String.ofList path, String.toList_injective ?_⟩
    rw [hpath, String.toList_append, String.toList_ofList]
    rfl
  · intro ⟨path, hpath⟩
    refine ⟨path.toList, ?_⟩
    rw [hpath, String.toList_append]
    rfl

theorem givenName_of_not_mem (h : ';' ∉ text.toList) : givenName text = importBase text := by
  rw [givenName, Text.splitFirst_eq_none.mpr h]

theorem toList_append_semicolon (path name : String) :
    (path ++ ";" ++ name).toList = path.toList ++ ';' :: name.toList := by
  rw [String.toList_append, String.toList_append, List.append_assoc]
  rfl

theorem givenName_append {path : String} (h : ';' ∉ path.toList) (name : String) :
    givenName (path ++ ";" ++ name) = name := by
  rw [givenName, toList_append_semicolon, Text.splitFirst_append name.toList h]
  exact String.ofList_toList

theorem exists_eq_append (h : ';' ∈ text.toList) :
    ∃ path name : String, ';' ∉ path.toList ∧ text = path ++ ";" ++ name := by
  cases hsplit : Text.splitFirst ';' text.toList with
  | none => exact absurd h (Text.splitFirst_eq_none.mp hsplit)
  | some pieces =>
    obtain ⟨hlist, hpath⟩ := Text.splitFirst_eq_some hsplit
    refine ⟨String.ofList pieces.1, String.ofList pieces.2, ?_, String.toList_injective ?_⟩
    · rwa [String.toList_ofList]
    · rw [hlist, toList_append_semicolon, String.toList_ofList, String.toList_ofList]

theorem givenName_ne_empty_iff (hne : text ≠ "") : givenName text ≠ "" ↔ NamesPackage text := by
  by_cases hsep : ';' ∈ text.toList
  · obtain ⟨path, name, hpath, rfl⟩ := exists_eq_append hsep
    rw [givenName_append hpath name]
    constructor
    · intro hname other hother
      refine ⟨fun heq => ?_, fun heq => ?_⟩
      · have hgiven := givenName_append hother ""
        rw [String.append_empty, ← heq, givenName_append hpath name] at hgiven
        exact hname hgiven
      · rw [heq, String.toList_append] at hsep
        exact (List.mem_append.mp hsep).elim hother (by decide)
    · rintro hnames rfl
      exact (hnames path hpath).1 String.append_empty
  · rw [givenName_of_not_mem hsep, Ne, importBase_eq_empty_iff, or_iff_right hne]
    constructor
    · intro hbase path hpath
      refine ⟨fun heq => hsep ?_, fun heq => hbase ⟨path, heq⟩⟩
      rw [heq, String.toList_append]
      exact List.mem_append_right _ (List.mem_cons_self ..)
    · intro hnames ⟨path, heq⟩
      refine (hnames path fun hmem => hsep ?_).2 heq
      rw [heq, String.toList_append]
      exact List.mem_append_left _ hmem

end PackageInfo

/-! ## requested files -/

/-- what is said of the package of the file: its override, otherwise its own option -/
def ProtoFile.goPackageText (overrides : Overrides) (d : ProtoFile) : String :=
  ((overrides.find? d.name).or d.goPackage?).getD ""

/-- of the files with its name, the file is the last one -/
def ProtoFile.IsLast (d : ProtoFile) (files : List ProtoFile) : Prop :=
  ∃ before after, files = before ++ d :: after ∧ ∀ e ∈ after, e.name ≠ d.name

theorem ProtoFile.packageInfo_eq (overrides : Overrides) (d : ProtoFile) :
    d.packageInfo overrides = .ofGoPackage (d.goPackageText overrides) := by
  unfold packageInfo goPackageText
  cases (overrides.find? d.name).or d.goPackage? <;> rfl

namespace Supplied

variable {overrides : Overrides} {files : List ProtoFile} {name importPath : String}

theorem exists_isLast_of_importPath?
    (h : ((ofFiles overrides files).package name).importPath? = some importPath) :
    ∃ d : ProtoFile, d.IsLast files ∧ d.name = name ∧
      (ofFiles overrides files).package name = d.packageInfo overrides := by
  unfold package at h ⊢
  cases hfind : (ofFiles overrides files).packages.find? name with
  | none =>
    rw [hfind] at h
    cases h
  | some info =>
    obtain ⟨before, after, hsplit, hlast⟩ := lookup_reverse_eq_some_iff.mp hfind
    obtain ⟨before, rest, rfl, -, hrest⟩ := List.map_eq_append_iff.mp hsplit
    obtain ⟨d, after, rfl, hd, rfl⟩ := List.map_eq_cons_iff.mp hrest
    obtain ⟨hname, hinfo⟩ := Prod.mk.inj hd
    refine ⟨d, ⟨before, after, rfl, ?_⟩, hname, hinfo.symm⟩
    intro e he
    rw [hname]
    exact hlast _ (List.mem_map_of_mem he)

end Supplied

/-- the package name of a file, by the `go_package` text that counts for it -/
structure SchemaFile.NamedBy (f : SchemaFile) (text : String) : Prop where
  packageName : f.packageName = sanitized (PackageInfo.givenName text)
  identifier : IsIdentifier f.packageName
  legal : IsPackageName f.packageName ↔ PackageInfo.NamesPackage text

theorem PackageInfo.namedBy {text importPath : String} {f : SchemaFile}
    (hpath : (ofGoPackage text).importPath? = some importPath)
    (hname : f.packageName = (ofGoPackage text).clauseName importPath) : f.NamedBy text := by
  have hne : text ≠ "" := by
    rintro rfl
    cases hpath
  rw [clauseName_ofGoPackage hpath] at hname
  constructor
  case packageName => exact hname
  case identifier =>
    rw [hname]
    exact isIdentifier_sanitized _
  case legal =>
    rw [hname, isPackageName_sanitized_iff]
    exact givenName_ne_empty_iff hne

/-! ## generated files -/

/-- the lines that the text of a file starts with, up to the package clause -/
def SchemaFile.openingLines (f : SchemaFile) : List String :=
  [generatedMarker, "// source: " ++ f.name, "", "package " ++ f.packageName]

theorem SchemaFile.exists_render_eq (f : SchemaFile) (r : Roots) (fileName : String) :
    ∃ rest, (f.unit r fileName).render = .ok (linesText f.openingLines ++ rest) := by
  have hheader : headerLines (f.unit r fileName) = f.openingLines ++ [""] := rfl
  rw [render_unit, SourceUnit.lines, hheader, List.append_assoc, List.append_assoc, linesText_append]
  exact ⟨_, rfl⟩

theorem Plan.forall₂_openingLines {p : Plan} {g : Generation} (h : p.generate = .ok g) :
    List.Forall₂ (fun f file => ∃ rest, file.content = linesText f.openingLines ++ rest)
      p.eligibleFiles g.files := by
  refine (p.yields_of_generate h).files.imp fun f file hfile => ?_
  obtain ⟨rest, hrest⟩ := f.exists_render_eq p.roots file.name
  exact ⟨rest, Except.ok.inj (hfile.2.symm.trans hrest)⟩

section
variable {files : List ProtoFile} {filesToGenerate : List String} {overrides : Overrides}
  {schema : List SchemaFile}

theorem exists_namedBy_of_requested (h : buildSchema files filesToGenerate overrides = .ok schema)
    {f : SchemaFile} (hf : f ∈ schema) (hrequested : f.requested = true) :
    ∃ d : ProtoFile, d.IsLast files ∧ d.name = f.name ∧ f.NamedBy (d.goPackageText overrides) := by
  obtain ⟨e, -, he⟩ := exists_right_of_mem (buildSchema_eq_ok_iff.mp h).flip hf
  unfold Supplied.schemaFile at he
  split at he
  · obtain ⟨importPath, hpath, services, -, rfl⟩ := (Supplied.requestedFile_eq_ok_iff _).mp he
    obtain ⟨d, hlast, hname, hpackage⟩ := Supplied.exists_isLast_of_importPath? hpath
    rw [hpackage, d.packageInfo_eq] at hpath
    refine ⟨d, hlast, hname, PackageInfo.namedBy hpath ?_⟩
    show ((Supplied.ofFiles overrides files).package e.name).clauseName importPath = _
    rw [hpackage, d.packageInfo_eq]
  · obtain rfl := Except.ok.inj he
    cases hrequested

/-- **The name in a package clause** is an identifier, made from the `go_package` text that counts for
the file, and a legal one exactly if that text names a package; it stands in the clause of the generated
file. -/
theorem buildSchema_namesPackages (h : buildSchema files filesToGenerate overrides = .ok schema) :
    (∀ f ∈ schema, f.requested = true →
      ∃ d : ProtoFile, d.IsLast files ∧ d.name = f.name ∧ f.NamedBy (d.goPackageText overrides)) ∧
    ∀ (p : Plan) (g : Generation), p.files = schema → p.generate = .ok g →
      List.Forall₂ (fun f file => (f ∈ schema ∧ f.requested = true) ∧
        ∃ rest, file.content = linesText f.openingLines ++ rest) p.eligibleFiles g.files := by
  constructor
  · intro f hf hrequested
    exact exists_namedBy_of_requested h hf hrequested
  · intro p g hfiles hg
    rw [List.forall₂_and_left, ← hfiles]
    exact ⟨fun f hf => p.mem_files_of_mem_eligibleFiles hf, Plan.forall₂_openingLines hg⟩

end

/-! ### a package without a name -/

/-- the option ends where the name should stand -/
def namelessFile : ProtoFile where
  name? := some "order.services.proto"
  options? := some { goPackage? := some "shop/rpc;" }

def namelessRequest : Request where
  filesToGenerate := ["order.services.proto"]
  parameter? := some "domainPath=shop/domain,useCasePath=shop/app,dtsPath=shop/dts"
  files := [namelessFile]

def acceptedFile (packageName : String) : SchemaFile :=
  ⟨"order.services.proto", true, "shop/rpc", packageName, []⟩

def namingOverride : Overrides := .ofList [("order.services.proto", "shop/rpc;type")]

/-- an override can give the name; `type` is a keyword, so a `_` is put in front of it -/
theorem buildSchema_namesPackages_override :
    buildSchema [namelessFile] ["order.services.proto"] namingOverride = .ok [acceptedFile "_type"] ∧
      IsPackageName "_type" := by
  have h : buildSchema [namelessFile] ["order.services.proto"] namingOverride
    = .ok [acceptedFile "_type"] := rfl
  obtain ⟨d, ⟨before, after, hfiles, -⟩, -, hnamed⟩ :=
    (buildSchema_namesPackages h).1 _ (List.mem_singleton_self _) rfl
  obtain rfl : namelessFile = d := by
    have hd : d ∈ [namelessFile] := hfiles ▸ List.mem_append_right _ (List.mem_cons_self ..)
    exact (List.mem_singleton.mp hd).symm
  refine ⟨h, hnamed.legal.mpr ((PackageInfo.givenName_ne_empty_iff ?_).mp ?_)⟩ <;> decide

/-- a text that ends with `;` is accepted all the same, and leads to `package _` -/
theorem blank_package_nameless : ∃ p g f file rest, namelessRequest.plan = .ok p ∧
    p.generate = .ok g ∧ f ∈ p.files ∧ f.requested = true ∧ ¬ IsPackageName f.packageName ∧
    file ∈ g.files ∧ file.content =
      linesText [generatedMarker, "// source: order.services.proto", "", "package _"] ++ rest := by
  have hread : (namelessRequest.plan.toOption.map fun p => (p.files, p.layout.placement))
      = some ([acceptedFile "_"], .sourceRelative) := by decide +kernel
  obtain ⟨p, g, hplan, hg, hfiles⟩ := Request.exists_generate hread
  have heligible : p.eligibleFiles = [acceptedFile "_"] := by
    rw [Plan.eligibleFiles, hfiles]
    decide +kernel
  have htexts := Plan.forall₂_openingLines hg
  rw [heligible] at htexts
  obtain ⟨file, hfile, rest, hcontent⟩ := exists_right_of_mem htexts (List.mem_singleton_self _)
  refine ⟨p, g, acceptedFile "_", file, rest, hplan, hg, ?_, rfl, ?_, hfile, hcontent⟩
  · rw [hfiles]
    exact List.mem_singleton_self _
  · intro hname
    exact hname.not_blank rfl

end RpcAdapters
