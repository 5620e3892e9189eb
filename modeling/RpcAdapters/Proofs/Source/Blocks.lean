import RpcAdapters.Proofs.Generation.SourceLines
import RpcAdapters.Proofs.Lookup
import RpcAdapters.Proofs.Source.Depths
import RpcAdapters.Proofs.Source.Nesting
import RpcAdapters.Proofs.Source.Unrecorded

/-!
# Texts block by block

Below the import block the text of a unit is one block for each declaration, if no string of the unit
has a line break or a tab.

* `SourceUnit.strings`        all strings in a unit;
* `KeepsInline name`          an identifier is written on one line if its name is on one;
* `Declaration.header name d` the header of the block that a declaration is;
* `isBlock_declaration`       it is one;
* `SourceUnit.InBlocks`       a text whose part below the import block is made of blocks;
* `BlockRestores`             what a block does for its writer, whatever comes of its body;
* `blocks_exact`              the texts of all units, and the blocks of all bodies.
-/

namespace RpcAdapters

open Source

/-! ## the strings of a unit -/

def Ident.strings (i : Ident) : List String := [i.name, i.importPath]

def TypeExpr.strings (t : TypeExpr) : List String :=
  match t.name with
  | .imported i => i.strings
  | .bare name => [name]

def Local.strings (l : Local) : List String := l.name :: l.type.strings

def OnError.strings : OnError → List String
  | .propagate => []
  | .translate routine => [routine]

def TransformCall.strings (c : TransformCall) : List String :=
  [c.source, c.target] ++ (c.function.strings ++ c.onError.strings)

def UseCaseCall.strings (c : UseCaseCall) : List String :=
  [c.receiver, c.field, c.method, c.input, c.output] ++ c.onError.strings

def Step.strings : Step → List String
  | .declareLocals locals => locals.flatMap Local.strings
  | .transformInput call | .transformOutput call => call.strings
  | .invokeUseCase call => call.strings
  | .returnOutput output => [output]

def Wrapper.strings (w : Wrapper) : List String := [w.name, w.field] ++ w.useCase.strings

def Adapter.strings (f : Adapter) : List String :=
  [f.receiver, f.receiverType, f.name] ++ (f.context.strings ++ (f.input.strings ++
    (f.output.strings ++ f.steps.flatMap Step.strings)))

def Translation.strings (t : Translation) : List String :=
  [t.name, t.codeField, t.metaKey] ++ t.looksUp.flatMap Ident.strings

def Declaration.strings : Declaration → List String
  | .wrapper w => w.strings
  | .adapter f => f.strings
  | .translation t => t.strings

def SourceUnit.strings (u : SourceUnit) : List String :=
  [u.fileName, u.source, u.packageName, u.importPath] ++
    (u.declarations.flatMap Declaration.strings ++ u.references.flatMap Ident.strings)

/-! ## parts of declarations -/

section
variable (name : Ident → String)

def TypeExpr.text (t : TypeExpr) : String :=
  (if t.pointer then "*" else "") ++
    match t.name with
    | .imported i => name i
    | .bare s => s

theorem TypeExpr.joined_pieces (t : TypeExpr) : joined name t.pieces = t.text name := by
  obtain ⟨n, pointer⟩ := t
  cases n <;> cases pointer <;> simp [TypeExpr.pieces, TypeExpr.text]

/-- identifiers are written on one line if their names are -/
def KeepsInline : Prop := ∀ i, Inline i.name → Inline (name i)

end

theorem keepsInline_written (u : SourceUnit) : KeepsInline (Aliases.allocate u).written := by
  intro i hi
  unfold Aliases.written
  split
  · exact hi
  · rw [inline_append, inline_append]
    refine ⟨⟨?_, by decide⟩, hi⟩
    cases hlookup : (Aliases.allocate u).entries.lookup i.importPath with
    | none => exact (by decide : Inline "")
    | some short =>
      have hidentifier := Aliases.isIdentifier_of_mem_allocate (mem_of_lookup hlookup)
      exact ⟨hidentifier.not_mem Naming.isIdentifierChar_lineBreak,
        hidentifier.not_mem Naming.isIdentifierChar_tab⟩

section
variable {name : Ident → String}

theorem nests_guard {assigned : String} {call : List Piece} {onError : OnError}
    (hassigned : Inline assigned) (hcall : Inline (joined name call))
    (h : ∀ s ∈ onError.strings, Inline s) : Nests name (guardOutline assigned call onError) := by
  have hreturned : Inline (returnedError onError) := by
    cases onError with
    | propagate => decide
    | translate routine => simp +decide [returnedError, h routine (.head _)]
  refine .block ?_ (.line ?_ ?_)
  · simp +decide [hassigned, hcall]
  · simp
  · simp +decide [hreturned]

theorem nests_useCaseCall {c : UseCaseCall} (h : ∀ s ∈ c.strings, Inline s) :
    Nests name c.outline := by
  rw [UseCaseCall.strings, List.forall_mem_append] at h
  obtain ⟨hnames, honError⟩ := h
  simp only [List.forall_mem_cons] at hnames
  obtain ⟨hreceiver, hfield, hmethod, hinput, houtput, -⟩ := hnames
  refine nests_guard ?_ ?_ honError
  · simp +decide [houtput]
  · simp +decide [hreceiver, hfield, hmethod, hinput]

variable (hname : KeepsInline name)
include hname

theorem inline_text {t : TypeExpr} (h : ∀ s ∈ t.strings, Inline s) : Inline (t.text name) := by
  obtain ⟨n, pointer⟩ := t
  cases n with
  | imported i =>
    have hi := hname i (h i.name (.head _))
    cases pointer <;> simp +decide [TypeExpr.text, hi]
  | bare n =>
    have hn := h n (.head _)
    cases pointer <;> simp +decide [TypeExpr.text, hn]

theorem nests_local {l : Local} (h : ∀ s ∈ l.strings, Inline s) : Nests name [l.outline] := by
  rw [Local.strings, List.forall_mem_cons] at h
  refine .line ?_ ?_
  · simp
  · simp +decide [TypeExpr.joined_pieces, h.1, inline_text hname h.2]

theorem nests_transform {c : TransformCall} (h : ∀ s ∈ c.strings, Inline s) :
    Nests name c.outline := by
  rw [TransformCall.strings, List.forall_mem_append, List.forall_mem_append] at h
  obtain ⟨harguments, hfunction, honError⟩ := h
  rw [List.forall_mem_cons, List.forall_mem_singleton] at harguments
  have hcalled := hname c.function (hfunction _ (.head _))
  refine nests_guard (by decide) ?_ honError
  simp +decide [harguments, hcalled]

theorem nests_step {s : Step} (h : ∀ t ∈ s.strings, Inline t) : Nests name s.outline := by
  cases s with
  | declareLocals locals =>
    refine Nests.append ?_ .empty
    rw [List.map_eq_flatMap]
    exact .flatMap fun l hl => nests_local hname fun t ht => h t (List.mem_flatMap_of_mem hl ht)
  | transformInput call => exact (nests_transform hname h).append .empty
  | transformOutput call => exact (nests_transform hname h).append .empty
  | invokeUseCase call => exact (nests_useCaseCall h).append .empty
  | returnOutput output =>
    refine .line ?_ ?_
    · simp
    · simp +decide [h output (.head _)]

end

/-! ## blocks of declarations -/

section
variable (name : Ident → String)

def Wrapper.header (w : Wrapper) : String := "type " ++ w.name ++ " struct"

def Adapter.header (f : Adapter) : String :=
  "func (" ++ f.receiver ++ " " ++ f.receiverType ++ ") " ++ f.name ++ "(_ " ++ name f.context ++ ", "
    ++ Bound.transportInput ++ " " ++ f.input.text name ++ ") (" ++ f.output.text name ++ ", error)"

def Translation.header (t : Translation) : String :=
  "func " ++ t.name ++ "(" ++ Bound.error ++ " error) " ++ name t.transportError

/-- what stands before the opening brace -/
def Declaration.header : Declaration → String
  | .wrapper w => w.header
  | .adapter f => f.header name
  | .translation t => t.header name

end

section
variable {name : Ident → String} (hname : KeepsInline name)
include hname

theorem isBlock_wrapper {w : Wrapper} (h : ∀ s ∈ w.strings, Inline s) :
    IsBlock w.header (outlineLines name 0 w.outline) := by
  rw [Wrapper.strings, List.forall_mem_append] at h
  obtain ⟨hnames, huseCase⟩ := h
  rw [List.forall_mem_cons, List.forall_mem_singleton] at hnames
  rw [Wrapper.outline]
  refine isBlock_outlineLines ?_ ?_ (.line ?_ ?_)
  · simp [Wrapper.header]
  · simp +decide [Wrapper.header, hnames]
  · simp
  · simp +decide [hnames, hname w.useCase (huseCase _ (.head _))]

theorem isBlock_adapter {f : Adapter} (h : ∀ s ∈ f.strings, Inline s) :
    IsBlock (f.header name) (outlineLines name 0 f.outline) := by
  simp only [Adapter.strings, List.forall_mem_append, List.forall_mem_cons] at h
  obtain ⟨⟨hreceiver, hreceiverType, hadapter, -⟩, hcontext, hinput, houtput, hsteps⟩ := h
  rw [Adapter.outline]
  refine isBlock_outlineLines ?_ ?_ (.flatMap fun s hs => ?_)
  · unfold Adapter.header
    simp [TypeExpr.joined_pieces, String.append_assoc]
  · have hwritten := hname f.context (hcontext _ (.head _))
    unfold Adapter.header
    simp +decide [hreceiver, hreceiverType, hadapter, hwritten,
      inline_text hname hinput, inline_text hname houtput]
  · exact nests_step hname fun t ht => hsteps t (List.mem_flatMap_of_mem hs ht)

theorem isBlock_translation {t : Translation} (h : ∀ s ∈ t.strings, Inline s) :
    IsBlock (t.header name) (outlineLines name 0 t.outline) := by
  rw [Translation.strings, List.forall_mem_append] at h
  obtain ⟨hnames, hidents⟩ := h
  have hwritten : ∀ i ∈ t.looksUp, Inline (name i) := fun i hi =>
    hname i (hidents i.name (List.mem_flatMap_of_mem hi (.head _)))
  simp only [Translation.looksUp, List.forall_mem_cons] at hwritten hnames
  obtain ⟨hroutine, hcodeField, -⟩ := hnames
  obtain ⟨htransportError, hnewError, hinternalCode, hwrapError, herrorsAs, hsprintf, hdomainError,
    -⟩ := hwritten
  rw [Translation.outline]
  refine isBlock_outlineLines ?_ ?_ (Nests.append (.line ?_ ?_) <| .append (.line ?_ ?_) <|
    .append (.block ?_ (.line ?_ ?_)) (.line ?_ ?_))
  · simp [Translation.header, String.append_assoc]
  · simp +decide [Translation.header, hroutine, htransportError]
  case refine_3 | refine_5 | refine_8 | refine_10 => simp
  · simp +decide [hnewError, hinternalCode]
  · simp +decide [hdomainError]
  · simp +decide [herrorsAs]
  · simp +decide [inline_literal, hsprintf, hcodeField]
  · simp +decide [hwrapError]

theorem isBlock_declaration {d : Declaration} (h : ∀ s ∈ d.strings, Inline s) :
    IsBlock (d.header name) (outlineLines name 0 d.outline) := by
  cases d with
  | wrapper w => exact isBlock_wrapper hname h
  | adapter f => exact isBlock_adapter hname h
  | translation t => exact isBlock_translation hname h

end

/-! ## the text of a unit -/

namespace Source

theorem outlineLines_outlineAll (name : Ident → String) (ds : List Declaration) :
    outlineLines name 0 (outlineAll ds)
      = [""].intercalate (ds.map fun d => outlineLines name 0 d.outline) := by
  induction ds with
  | nil => rfl
  | cons d ds ih =>
    cases ds with
    | nil => rw [outlineAll, List.flatMap_nil, List.append_nil, List.map_singleton,
        List.intercalate_singleton]
    | cons d' ds =>
      rw [outlineAll_cons_cons, outlineLines_append, outlineLines_append, ih, List.map_cons,
        List.map_cons, List.map_cons, List.intercalate_cons_cons, List.append_assoc]
      rfl

theorem linesText_outlineLines (name : Ident → String) (o : List OpenLine) :
    linesText (outlineLines name 0 o) = outlineText name o := by
  simp only [outlineLines, outlineText, Nat.zero_add]

theorem exists_intercalate_concat (bs : List (List String)) (b : List String) :
    ∃ before, [""].intercalate (bs ++ [b]) = before ++ b := by
  induction bs with
  | nil => exact ⟨[], List.intercalate_singleton⟩
  | cons c bs ih =>
    obtain ⟨before, hbefore⟩ := ih
    refine ⟨c ++ [""] ++ before, ?_⟩
    rw [List.cons_append, List.intercalate_cons_of_ne_nil (by simp), hbefore]
    exact (List.append_assoc ..).symm

theorem linesText_singleton (l : String) : linesText [l] = l ++ "\n" := by
  simp [linesText]

/-- a block ends with its brace, which has a line above it -/
theorem IsBlock.exists_linesText_eq {header : String} {ls : List String} (h : IsBlock header ls)
    (before : List String) : ∃ start, linesText (before ++ ls) = start ++ "\n\x7d\n" := by
  obtain ⟨-, body, rfl, -⟩ := h
  have hne : before ++ (header ++ " \x7b") :: body ≠ [] := by simp
  have hsplit := List.dropLast_append_getLast hne
  refine ⟨linesText (before ++ (header ++ " \x7b") :: body).dropLast ++
    (before ++ (header ++ " \x7b") :: body).getLast hne, ?_⟩
  rw [← List.cons_append, ← List.append_assoc, linesText_append, linesText_singleton]
  conv_lhs => rw [← hsplit, linesText_append, linesText_singleton]
  simp only [String.append_assoc]
  rfl

theorem linesOf_linesText {ls : List String} (h : ∀ l ∈ ls, '\n' ∉ l.toList) :
    linesOf (linesText ls) = ls ++ [""] := by
  have hempty : linesOf "" = [""] := linesOf_of_not_mem (by decide)
  have hlines := linesOf_linesText_append h ""
  rwa [String.append_empty, hempty] at hlines

end Source

namespace SourceUnit

variable (u : SourceUnit)

/-- no string of the unit has a line break or a tab -/
def IsInline : Prop := ∀ s ∈ u.strings, Inline s

instance : Decidable u.IsInline := inferInstanceAs (Decidable (∀ s ∈ u.strings, Inline s))

/-- the lines of each declaration -/
def blocks : List (List String) :=
  u.declarations.map fun d => outlineLines (Aliases.allocate u).written 0 d.outline

/-- the text is a head and what comes `after` its import block, and that is `blocks` -/
structure InBlocks (text after : String) (blocks : List (List String)) : Prop where
  head : text = u.head ++ after
  above : linesOf text = headerLines u ++ importLines (.allocate u) ++ linesOf after
  /-- an empty line between two blocks, and a line break at the end -/
  lines : linesOf after = [""].intercalate blocks ++ [""]
  isBlock : List.Forall₂ (fun d ls => IsBlock (d.header (Aliases.allocate u).written) ls)
    u.declarations blocks
  texts : blocks.map linesText = u.declarations.map (Declaration.text (.allocate u))
  written : ∀ i ∈ u.looksUp, (Aliases.allocate u).qualify i = .ok ((Aliases.allocate u).written i)
  ending : u.declarations = [] ∧ after = "" ∨ ∃ start, after = start ++ "\n\x7d\n"
  /-- the writer is at the top after each declaration -/
  restored : ∀ ds, ds <+: u.declarations →
    ((writeUnit { u with declarations := ds }).run {}).2.depth = 0

variable {u}

theorem isBlock_of_mem (h : u.IsInline) {d : Declaration} (hd : d ∈ u.declarations) :
    IsBlock (d.header (Aliases.allocate u).written)
      (outlineLines (Aliases.allocate u).written 0 d.outline) := by
  refine isBlock_declaration (keepsInline_written u) fun s hs => h s ?_
  exact List.mem_append_right _ (List.mem_append_left _ (List.mem_flatMap_of_mem hd hs))

theorem nested_blocks (h : u.IsInline) : Nested 0 ([""].intercalate u.blocks) := by
  refine nested_intercalate fun b hb => ?_
  obtain ⟨d, hd, rfl⟩ := List.mem_map.mp hb
  exact (isBlock_of_mem h hd).nested

theorem not_mem_head (h : u.IsInline) :
    ∀ l ∈ headerLines u ++ importLines (.allocate u), '\n' ∉ l.toList := by
  have hsource : Inline u.source := h u.source (.tail _ (.head _))
  have hpackage : Inline u.packageName := h u.packageName (.tail _ (.tail _ (.head _)))
  rw [List.forall_mem_append, headerLines]
  refine ⟨?_, u.importsReadable.unbroken⟩
  simp only [List.forall_mem_cons, not_mem_append_iff (by decide : '\n' ∉ "// source: ".toList),
    not_mem_append_iff (by decide : '\n' ∉ "package ".toList)]
  exact ⟨not_mem_generatedMarker, hsource.1, by decide, hpackage.1, by decide, List.forall_mem_nil _⟩

theorem ending_blocks (h : u.IsInline) :
    u.declarations = [] ∧ linesText ([""].intercalate u.blocks) = "" ∨
      ∃ start, linesText ([""].intercalate u.blocks) = start ++ "\n\x7d\n" := by
  rcases List.eq_nil_or_concat u.declarations with hnil | ⟨ds, d, hds⟩
  · rw [blocks, hnil]
    exact .inl ⟨rfl, rfl⟩
  · right
    have hd : d ∈ u.declarations := by simp [hds]
    obtain ⟨before, hbefore⟩ := exists_intercalate_concat
      (ds.map fun d => outlineLines (Aliases.allocate u).written 0 d.outline)
      (outlineLines (Aliases.allocate u).written 0 d.outline)
    rw [blocks, hds, List.concat_eq_append, List.map_append, List.map_singleton, hbefore]
    exact (isBlock_of_mem h hd).exists_linesText_eq before

theorem inBlocks (h : u.IsInline) {text : String} (hrender : u.render = .ok text) :
    u.InBlocks text (linesText ([""].intercalate u.blocks)) u.blocks := by
  obtain ⟨hrecords, rfl⟩ := render_eq_ok_iff.mp hrender
  have hknows : ∀ i ∈ u.looksUp, (Aliases.allocate u).knows i = true := fun i hi =>
    knows_iff_records.mpr (hrecords i hi)
  have hbody : u.bodyLines (Aliases.allocate u).written = [""].intercalate u.blocks := by
    rw [blocks, ← outlineLines_outlineAll]
    simp only [bodyLines, outlineLines, Nat.zero_add]
  have htext : linesText u.lines = u.head ++ linesText ([""].intercalate u.blocks) := by
    rw [lines, hbody, linesText_append]
    rfl
  constructor
  case head => exact htext
  case above =>
    rw [htext]
    exact linesOf_linesText_append (not_mem_head h) _
  case lines => exact linesOf_linesText (nested_blocks h).not_mem
  case isBlock =>
    rw [blocks, List.forall₂_map_right_iff, List.forall₂_same]
    exact fun d hd => isBlock_of_mem h hd
  case texts =>
    rw [blocks, List.map_map]
    refine List.map_congr_left fun d hd => ?_
    have hlooksUp : ∀ i ∈ d.looksUp, (Aliases.allocate u).knows i = true := fun i hi =>
      hknows i (List.mem_flatMap_of_mem hd hi)
    rw [Function.comp_apply, linesText_outlineLines, Declaration.text_of_knows hlooksUp]
  case written => exact fun i hi => Aliases.qualify_of_knows (hknows i hi)
  case ending => exact ending_blocks h
  case restored => exact fun ds _ => (built_writeUnit _).depth_run {}

end SourceUnit

/-- The body has an opening line above it and is one deeper; after it there are a closing brace and the
depth that there was before, and what came of it is what comes of the block. -/
structure Source.BlockRestores (header : String) (body : Writing Unit) (w : Writer) : Prop where
  depth : ((block header body).run w).2.depth = w.depth
  closed : ∃ ls, ((block header body).run w).2 = w.append (blockLines header ls)
  outcome : ((block header body).run w).1 = (body.run (w.line (header ++ " \x7b")).deeper).1

theorem Source.Built.blockRestores {body : Writing Unit} (h : Built body) (header : String)
    (w : Writer) : BlockRestores header body w where
  depth := depth_block header body w h.depth_run
  closed := by
    obtain ⟨ls, hls⟩ := h.exists_append (w.line (header ++ " \x7b")).deeper
    exact ⟨ls, run_block_append hls⟩
  outcome := rfl

/-- **Texts are made of blocks**: if no string of a unit has a line break or a tab, its text is one block
for each declaration below the import block, and each line is behind as many tabs as there are blocks
around it.  The writer has its depth back after every declaration and every block, however they end. -/
theorem blocks_exact :
    (∀ (u : SourceUnit) (text : String), u.render = .ok text → u.IsInline →
      ∃ after blocks, u.InBlocks text after blocks) ∧
    (∀ (a : Aliases) (d : Declaration) (w : Writer), ((writeDeclaration a d).run w).2.depth = w.depth) ∧
    ∀ (header : String) (body : Writing Unit) (w : Writer),
      Built body → BlockRestores header body w := by
  refine ⟨?_, ?_, ?_⟩
  · intro u text hrender hinline
    exact ⟨_, _, SourceUnit.inBlocks hinline hrender⟩
  · intro a d w
    exact (built_declaration a d).depth_run w
  · intro header body w hbody
    exact hbody.blockRestores header w

/-! ### a file with one adapter, and a body that is stopped -/

def stockFile : SchemaFile where
  name := "stock.services.proto"
  importPath := "shop/rpc"
  packageName := "rpc"
  services := [⟨"StockService", "StockService",
    [⟨"Count", "Count", ⟨"CountParam", "shop/rpc"⟩, ⟨"Item", "shop/rpc"⟩, false, false⟩]⟩]

def stockUnit : SourceUnit := stockFile.unit ⟨"shop/domain", "shop/app", "shop/dts"⟩ "stock.go"

/-- stops inside of a block -/
def stoppedBody : Writing Unit := do
  line "var count int"
  block "if count == 0" (throw (.unrecorded ⟨"Error", "shop/domain"⟩))

theorem built_stoppedBody : Built stoppedBody :=
  (Built.line _).bind fun _ => .block _ (.settled (.error _))

theorem blocks_exact_stock :
    (stockUnit.render = .ok (linesText stockUnit.lines) ∧ stockUnit.IsInline ∧
      ∃ after blocks, stockUnit.InBlocks (linesText stockUnit.lines) after blocks) ∧
    ((stoppedBody.run {}).1 = .error (.unrecorded ⟨"Error", "shop/domain"⟩) ∧ Built stoppedBody ∧
      BlockRestores "func Count()" stoppedBody {}) := by
  have hrender : stockUnit.render = .ok (linesText stockUnit.lines) := stockFile.render_unit _ _
  have hinline : stockUnit.IsInline := by decide +kernel
  refine ⟨⟨hrender, hinline, blocks_exact.1 _ _ hrender hinline⟩, rfl, built_stoppedBody, ?_⟩
  exact blocks_exact.2.2 "func Count()" stoppedBody {} built_stoppedBody

-- both blocks are closed before the error is passed on
example : ((block "func Count()" stoppedBody).run {}).2.text =
    "func Count() \x7b\n\tvar count int\n\tif count == 0 \x7b\n\t\x7d\n\x7d\n" := by decide +kernel

end RpcAdapters
