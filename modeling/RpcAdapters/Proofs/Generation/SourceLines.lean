import RpcAdapters.Proofs.Generation.PackageClauses

/-!
# The source line of a generated text

The name of the schema file is written as it is, after `// source: `.  Its first line is a comment then.
If it has more lines, these become lines of the text, above the package clause.

* `linesOf text`                  the lines of a text, one more than there are line breaks;
* `linesOf_linesText_append_iff`  lines that are written are lines of the text if none has a line break;
* `sourceText name rest`          a text with the given name in its source line, and what comes after it;
* `SchemaFile.NameWritten`        where the lines of the name are in the text;
* `SchemaFile.sourceLine_exact`   the texts of all files that differ in nothing but their names;
* `sourceLine_stray`              a name with a line break leads to a line above the package clause.
-/

namespace RpcAdapters

/-! ## lines -/

namespace Text

theorem splitAll_append_left {sep : Char} {p : List Char} (h : sep ∉ p) {cs q : List Char}
    {qs : List (List Char)} (hcs : splitAll sep cs = q :: qs) :
    splitAll sep (p ++ cs) = (p ++ q) :: qs := by
  induction p with
  | nil => exact hcs
  | cons c p ih =>
    rw [List.mem_cons, not_or] at h
    rw [List.cons_append, splitAll, if_neg (Ne.symm h.1), ih h.2]
    rfl

end Text

namespace Source

def linesOf (text : String) : List String := (Text.splitAll '\n' text.toList).map String.ofList

theorem linesOf_of_not_mem {line : String} (h : '\n' ∉ line.toList) : linesOf line = [line] := by
  rw [linesOf, Text.splitAll_of_not_mem h, List.map_singleton, String.ofList_toList]

theorem not_mem_of_mem_linesOf {text line : String} (h : line ∈ linesOf text) :
    '\n' ∉ line.toList := by
  obtain ⟨piece, hpiece, rfl⟩ := List.mem_map.mp h
  rw [String.toList_ofList]
  exact Text.not_mem_of_mem_splitAll hpiece

theorem linesOf_append_left {before : String} (h : '\n' ∉ before.toList) {text first : String}
    {later : List String} (htext : linesOf text = first :: later) :
    linesOf (before ++ text) = (before ++ first) :: later := by
  obtain ⟨q, qs, hsplit, rfl, rfl⟩ := List.map_eq_cons_iff.mp htext
  rw [linesOf, String.toList_append, Text.splitAll_append_left h hsplit, List.map_cons,
    String.ofList_append, String.ofList_toList]

theorem exists_linesOf_eq (text : String) : ∃ first later, linesOf text = first :: later := by
  apply List.exists_cons_of_ne_nil
  rw [linesOf, Ne, List.map_eq_nil_iff]
  exact Text.splitAll_ne_nil '\n' text.toList

theorem tail_linesOf_eq_nil_iff {text : String} : (linesOf text).tail = [] ↔ '\n' ∉ text.toList := by
  constructor
  · intro htail
    obtain ⟨first, later, hlines⟩ := exists_linesOf_eq text
    rw [hlines, List.tail_cons] at htail
    obtain ⟨q, qs, hsplit, -, hqs⟩ := List.map_eq_cons_iff.mp hlines
    rw [htail, List.map_eq_nil_iff] at hqs
    have hjoin := Text.joinAll_splitAll '\n' text.toList
    rw [hsplit, hqs] at hjoin
    have hmem : q ∈ Text.splitAll '\n' text.toList := by
      rw [hsplit]
      exact List.mem_cons_self
    rw [← hjoin]
    exact Text.not_mem_of_mem_splitAll hmem
  · intro h
    rw [linesOf_of_not_mem h]
    rfl

theorem linesOf_linesText_cons (l : String) (ls : List String) (rest : String) :
    linesOf (linesText (l :: ls) ++ rest) = linesOf l ++ linesOf (linesText ls ++ rest) := by
  rw [linesOf, String.toList_append, toList_linesText_cons, List.append_assoc, List.cons_append,
    Text.splitAll_append_sep, List.map_append, ← String.toList_append]
  rfl

theorem linesOf_linesText_append {ls : List String} (h : ∀ l ∈ ls, '\n' ∉ l.toList) (rest : String) :
    linesOf (linesText ls ++ rest) = ls ++ linesOf rest := by
  induction ls with
  | nil => exact congrArg linesOf String.empty_append
  | cons l ls ih =>
    rw [List.forall_mem_cons] at h
    rw [linesOf_linesText_cons, linesOf_of_not_mem h.1, ih h.2]
    rfl

theorem linesOf_linesText_append_iff {ls : List String} {rest : String} :
    ls <+: linesOf (linesText ls ++ rest) ↔ ∀ l ∈ ls, '\n' ∉ l.toList := by
  constructor
  · intro h l hl
    exact not_mem_of_mem_linesOf (h.subset hl)
  · intro h
    rw [linesOf_linesText_append h]
    exact List.prefix_append ls (linesOf rest)

end Source

open Source

/-! ## the name in the text -/

/-- a generated text, with the name of the schema file and what comes after the source line -/
def sourceText (name rest : String) : String :=
  linesText [generatedMarker, "// source: " ++ name] ++ rest

theorem not_mem_generatedMarker : '\n' ∉ generatedMarker.toList := by decide +kernel

theorem not_mem_append_iff {before name : String} (h : '\n' ∉ before.toList) :
    '\n' ∉ (before ++ name).toList ↔ '\n' ∉ name.toList := by
  rw [String.toList_append, List.mem_append, not_or]
  exact and_iff_right h

theorem linesOf_sourceText {name first : String} {later : List String}
    (h : linesOf name = first :: later) (rest : String) : linesOf (sourceText name rest) =
      generatedMarker :: ("// source: " ++ first) :: (later ++ linesOf rest) := by
  have hrest : linesText [] ++ rest = rest := String.empty_append
  rw [sourceText, linesOf_linesText_cons, linesOf_linesText_cons, hrest,
    linesOf_of_not_mem not_mem_generatedMarker, linesOf_append_left (by decide) h]
  rfl

theorem drop_linesOf_sourceText (name rest : String) :
    (linesOf (sourceText name rest)).drop 2 = (linesOf name).tail ++ linesOf rest := by
  obtain ⟨first, later, hname⟩ := exists_linesOf_eq name
  rw [linesOf_sourceText hname, hname]
  rfl

namespace SchemaFile

/-- where the lines of the name are, if `rest` comes after the source line -/
structure NameWritten (f : SchemaFile) (name rest : String) : Prop where
  lines : ∃ first later, linesOf name = first :: later ∧ linesOf (sourceText name rest) =
    generatedMarker :: ("// source: " ++ first) :: (later ++ linesOf rest)
  /-- the name is in one comment exactly if it is one line -/
  inside : (linesOf (sourceText name rest)).drop 2 = linesOf rest ↔ '\n' ∉ name.toList
  opening : { f with name := name }.openingLines <+: linesOf (sourceText name rest) ↔
    '\n' ∉ name.toList ∧ '\n' ∉ f.packageName.toList

theorem nameWritten {f : SchemaFile} {rest more : String}
    (hrest : rest = linesText ["", "package " ++ f.packageName] ++ more) (name : String) :
    f.NameWritten name rest where
  lines := by
    obtain ⟨first, later, hname⟩ := exists_linesOf_eq name
    exact ⟨first, later, hname, linesOf_sourceText hname rest⟩
  inside := by
    rw [drop_linesOf_sourceText, List.append_left_eq_self, tail_linesOf_eq_nil_iff]
  opening := by
    have hopening : sourceText name rest = linesText { f with name := name }.openingLines ++ more := by
      rw [sourceText, hrest, ← String.append_assoc, ← linesText_append]
      rfl
    rw [hopening, linesOf_linesText_append_iff, openingLines, List.forall_mem_cons,
      List.forall_mem_cons, List.forall_mem_cons, List.forall_mem_singleton,
      not_mem_append_iff (by decide), not_mem_append_iff (by decide),
      and_iff_right not_mem_generatedMarker, and_iff_right (show '\n' ∉ "".toList by decide)]

/-- the lines after the source line -/
def afterSource (f : SchemaFile) (r : Roots) : List String :=
  importLines (.allocate (f.unit r "")) ++
    (f.unit r "").bodyLines (Aliases.allocate (f.unit r "")).written

theorem lines_unit (f : SchemaFile) (r : Roots) (name fileName : String) :
    ({ f with name := name }.unit r fileName).lines =
      [generatedMarker, "// source: " ++ name] ++
        (["", "package " ++ f.packageName] ++ ("" :: f.afterSource r)) := by
  show _ ++ importLines (.allocate (f.unit r "")) ++ _ = _
  rw [List.append_assoc]
  rfl

/-- **What a name does to the text**: the first line of the name is in the comment, and all others are
lines of their own above the package clause.  All else is the same whatever the name. -/
theorem sourceLine_exact (f : SchemaFile) (r : Roots) : ∃ rest more : String,
    rest = linesText ["", "package " ++ f.packageName] ++ more ∧
    (∀ name fileName, ({ f with name := name }.unit r fileName).render = .ok (sourceText name rest)) ∧
    (∀ name, f.NameWritten name rest) ∧
    ∀ name name', (linesOf (sourceText name rest)).drop 2 = (linesOf (sourceText name' rest)).drop 2 ↔
      (linesOf name).tail = (linesOf name').tail := by
  refine ⟨_, linesText ("" :: f.afterSource r), rfl, ?_, ?_, ?_⟩
  · intro name fileName
    rw [render_unit, lines_unit, linesText_append, linesText_append]
    rfl
  · exact nameWritten rfl
  · intro name name'
    rw [drop_linesOf_sourceText, drop_linesOf_sourceText, List.append_cancel_right_eq]

end SchemaFile

/-! ### a stray line -/

def strayName : String := "order\nvar stray services.proto"

def strayRequest : Request where
  filesToGenerate := [strayName]
  parameter? := some "domainPath=shop/domain,useCasePath=shop/app,dtsPath=shop/dts"
  files := [{ name? := some strayName, options? := some { goPackage? := some "shop/rpc" } }]

/-- a name with a line break is accepted, and its second line is a declaration in the generated file -/
theorem sourceLine_stray : ∃ p g f file rest, strayRequest.plan = .ok p ∧ p.generate = .ok g ∧
    f ∈ p.eligibleFiles ∧ f.name = strayName ∧ file ∈ g.files ∧
    linesOf file.content = [generatedMarker, "// source: order", "var stray services.proto", "",
      "package rpc"] ++ rest ∧
    ¬ f.openingLines <+: linesOf file.content := by
  have hread : (strayRequest.plan.toOption.map fun p => (p.files, p.layout.placement))
      = some ([⟨strayName, true, "shop/rpc", "rpc", []⟩], .sourceRelative) := by decide +kernel
  obtain ⟨p, g, hplan, hg, hfiles⟩ := Request.exists_generate hread
  have heligible : p.eligibleFiles = [⟨strayName, true, "shop/rpc", "rpc", []⟩] := by
    rw [Plan.eligibleFiles, hfiles]
    decide +kernel
  have htexts := Plan.forall₂_openingLines hg
  rw [heligible] at htexts
  obtain ⟨file, hfile, rest, hcontent⟩ := exists_right_of_mem htexts (List.mem_singleton_self _)
  refine ⟨p, g, _, file, linesOf rest, hplan, hg, heligible ▸ List.mem_singleton_self _, rfl, hfile,
    ?_, ?_⟩
  · have hlines : linesText [generatedMarker, "// source: " ++ strayName, "", "package rpc"] =
        linesText [generatedMarker, "// source: order", "var stray services.proto", "",
          "package rpc"] := by decide +kernel
    rw [hcontent]
    show linesOf (linesText [generatedMarker, "// source: " ++ strayName, "", "package rpc"] ++ rest) = _
    rw [hlines]
    apply linesOf_linesText_append
    decide +kernel
  · rw [hcontent, linesOf_linesText_append_iff]
    decide +kernel

end RpcAdapters
