import RpcAdapters.Source.Render

/-!
# Outlines of declarations

The lines of a declaration while nobody has said yet how identifiers are written: between pieces of
text a line has identifiers, each to be filled in with its package alias.

* `OpenLine`              one such line, with its depth;
* `fill name o`           the lines, with `name` for the identifiers;
* `idents o`              the identifiers in an outline, in the order of the text;
* `outline d`             the outline of a declaration, `outlineAll ds` that of all of a file;
* `Declaration.looksUp`   the identifiers of a declaration, in the order in which writing asks for them;
* `idents_outline_perm`   those are the identifiers in its outline.
-/

namespace RpcAdapters.Source

/-! ## open lines -/

inductive Piece where
  | text (s : String)
  | ident (i : Ident)
  deriving DecidableEq, Repr

namespace Piece

def fill (name : Ident → String) : Piece → String
  | text s => s
  | ident i => name i

def idents : Piece → List Ident
  | text _ => []
  | ident i => [i]

end Piece

def joined (name : Ident → String) (ps : List Piece) : String :=
  String.join (ps.map (Piece.fill name))

section
variable (name : Ident → String)

@[simp] theorem joined_nil : joined name [] = "" := rfl

@[simp] theorem joined_text_cons (s : String) (ps : List Piece) :
    joined name (.text s :: ps) = s ++ joined name ps := String.join_cons

@[simp] theorem joined_ident_cons (i : Ident) (ps : List Piece) :
    joined name (.ident i :: ps) = name i ++ joined name ps := String.join_cons

@[simp] theorem joined_append (ps qs : List Piece) :
    joined name (ps ++ qs) = joined name ps ++ joined name qs := by
  rw [joined, List.map_append, String.join_append]
  rfl

end

structure OpenLine where
  depth : Nat := 0
  pieces : List Piece
  deriving DecidableEq, Repr

namespace OpenLine

def deeper (l : OpenLine) : OpenLine := { l with depth := l.depth + 1 }

def idents (l : OpenLine) : List Ident := l.pieces.flatMap Piece.idents

/-- the depth and the text of the line -/
def fill (name : Ident → String) (l : OpenLine) : Nat × String :=
  (l.depth, joined name l.pieces)

end OpenLine

def fill (name : Ident → String) (o : List OpenLine) : List (Nat × String) :=
  o.map (OpenLine.fill name)

def idents (o : List OpenLine) : List Ident := o.flatMap OpenLine.idents

theorem fill_append (name : Ident → String) (o p : List OpenLine) :
    fill name (o ++ p) = fill name o ++ fill name p := List.map_append

theorem fill_cons (name : Ident → String) (l : OpenLine) (o : List OpenLine) :
    fill name (l :: o) = l.fill name :: fill name o := rfl

theorem idents_nil : idents [] = [] := rfl

theorem idents_cons (l : OpenLine) (o : List OpenLine) : idents (l :: o) = l.idents ++ idents o := rfl

theorem idents_append (o p : List OpenLine) : idents (o ++ p) = idents o ++ idents p :=
  List.flatMap_append

theorem idents_flatMap {α : Type} (xs : List α) (f : α → List OpenLine) :
    idents (xs.flatMap f) = xs.flatMap fun x => idents (f x) := List.flatMap_assoc

theorem idents_map_deeper (o : List OpenLine) : idents (o.map OpenLine.deeper) = idents o :=
  List.flatMap_map ..

theorem fill_map_deeper (name : Ident → String) (o : List OpenLine) :
    fill name (o.map OpenLine.deeper) = (fill name o).map fun l => (l.1 + 1, l.2) := by
  rw [fill, fill, List.map_map, List.map_map]
  rfl

/-! ## parts of bodies -/

def textLine (s : String) : OpenLine := { pieces := [.text s] }

def emptyLine : OpenLine := { pieces := [] }

def blockOutline (header : List Piece) (body : List OpenLine) : List OpenLine :=
  { pieces := header ++ [.text " \x7b"] } :: (body.map OpenLine.deeper ++ [textLine "\x7d"])

theorem fill_blockOutline (name : Ident → String) (header : List Piece) (body : List OpenLine) :
    fill name (blockOutline header body) = (0, joined name header ++ " \x7b") ::
      ((fill name body).map (fun l => (l.1 + 1, l.2)) ++ [(0, "\x7d")]) := by
  rw [blockOutline, fill_cons, fill_append, fill_map_deeper]
  simp [OpenLine.fill, fill, textLine]

theorem idents_blockOutline (header : List Piece) (body : List OpenLine) :
    idents (blockOutline header body) = header.flatMap Piece.idents ++ idents body := by
  simp [blockOutline, idents_cons, idents_append, idents_map_deeper, OpenLine.idents, textLine,
    Piece.idents, idents_nil]

end RpcAdapters.Source

namespace RpcAdapters

open Source

def TypeExpr.idents (t : TypeExpr) : List Ident :=
  match t.name with
  | .imported i => [i]
  | .bare _ => []

def TypeExpr.pieces (t : TypeExpr) : List Piece :=
  (if t.pointer then [.text "*"] else []) ++
    match t.name with
    | .imported i => [.ident i]
    | .bare name => [.text name]

theorem TypeExpr.flatMap_pieces (t : TypeExpr) : t.pieces.flatMap Piece.idents = t.idents := by
  obtain ⟨name, pointer⟩ := t
  cases name <;> cases pointer <;> rfl

/-- a call in the condition of an `if` that returns when there is an error -/
def guardOutline (assigned : String) (call : List Piece) (onError : OnError) : List OpenLine :=
  blockOutline
    (.text ("if " ++ assigned ++ " = ") :: call ++ [.text ("; " ++ Bound.error ++ " != nil")])
    [textLine ("return nil, " ++ returnedError onError)]

def Local.outline (l : Local) : OpenLine :=
  { pieces := .text ("var " ++ l.name ++ " ") :: l.type.pieces }

def TransformCall.outline (c : TransformCall) : List OpenLine :=
  guardOutline Bound.error
    [.ident c.function, .text ("(" ++ c.source ++ ", &" ++ c.target ++ ")")] c.onError

def UseCaseCall.outline (c : UseCaseCall) : List OpenLine :=
  guardOutline (c.output ++ ", " ++ Bound.error)
    [.text (c.receiver ++ "." ++ c.field ++ "." ++ c.method ++ "(" ++ c.input ++ ")")] c.onError

def Step.outline : Step → List OpenLine
  | .declareLocals locals => locals.map Local.outline ++ [emptyLine]
  | .transformInput call | .transformOutput call => call.outline ++ [emptyLine]
  | .invokeUseCase call => call.outline ++ [emptyLine]
  | .returnOutput output => [textLine ("return &" ++ output ++ ", nil")]

/-! ## declarations -/

def Wrapper.outline (w : Wrapper) : List OpenLine :=
  blockOutline [.text ("type " ++ w.name ++ " struct")]
    [{ pieces := [.text (w.field ++ " "), .ident w.useCase] }]

def Adapter.outline (f : Adapter) : List OpenLine :=
  blockOutline
    ([.text ("func (" ++ f.receiver ++ " " ++ f.receiverType ++ ") " ++ f.name ++ "(_ "),
      .ident f.context, .text (", " ++ Bound.transportInput ++ " ")] ++ f.input.pieces
      ++ [.text ") ("] ++ f.output.pieces ++ [.text ", error)"])
    (f.steps.flatMap Step.outline)

namespace Translation

def newErrorLine (t : Translation) : OpenLine where
  pieces := [.text (Bound.transportError ++ " := "), .ident t.newError, .text "(",
    .ident t.internalCode, .text (", " ++ Bound.error ++ ".Error())")]

def domainErrorLine (t : Translation) : OpenLine where
  pieces := [.text ("var " ++ Bound.domainError ++ " "), .ident t.domainError]

def metaLine (t : Translation) : OpenLine where
  pieces := [.text (Bound.transportError ++ " = " ++ Bound.transportError ++ ".WithMeta("
      ++ literal t.metaKey ++ ", "), .ident t.sprintf,
    .text ("(\"%d\", " ++ Bound.domainError ++ "." ++ t.codeField ++ "))")]

def metaBlock (t : Translation) : List OpenLine :=
  blockOutline [.text "if ", .ident t.errorsAs,
    .text ("(" ++ Bound.error ++ ", &" ++ Bound.domainError ++ ")")] [t.metaLine]

def returnLine (t : Translation) : OpenLine where
  pieces := [.text "return ", .ident t.wrapError,
    .text ("(" ++ Bound.transportError ++ ", " ++ Bound.error ++ ")")]

def outline (t : Translation) : List OpenLine :=
  blockOutline [.text ("func " ++ t.name ++ "(" ++ Bound.error ++ " error) "), .ident t.transportError]
    ([t.newErrorLine] ++ ([t.domainErrorLine] ++ (t.metaBlock ++ [t.returnLine])))

end Translation

def Declaration.outline : Declaration → List OpenLine
  | .wrapper w => w.outline
  | .adapter f => f.outline
  | .translation t => t.outline

/-- all declarations of a file, with an empty line between two -/
def outlineAll : List Declaration → List OpenLine
  | [] => []
  | d :: ds => d.outline ++ ds.flatMap fun d => emptyLine :: d.outline

/-! ## identifiers -/

def Step.looksUp : Step → List Ident
  | .declareLocals locals => locals.flatMap fun l => l.type.idents
  | .transformInput call | .transformOutput call => [call.function]
  | .invokeUseCase _ | .returnOutput _ => []

def Adapter.looksUp (f : Adapter) : List Ident :=
  f.context :: (f.input.idents ++ f.output.idents ++ f.steps.flatMap Step.looksUp)

def Translation.looksUp (t : Translation) : List Ident :=
  [t.transportError, t.newError, t.internalCode, t.wrapError, t.errorsAs, t.sprintf, t.domainError]

def Declaration.looksUp : Declaration → List Ident
  | .wrapper w => [w.useCase]
  | .adapter f => f.looksUp
  | .translation t => t.looksUp

theorem Local.idents_outline (l : Local) : l.outline.idents = l.type.idents :=
  l.type.flatMap_pieces

theorem Step.idents_outline (s : Step) : idents s.outline = s.looksUp := by
  cases s with
  | declareLocals locals =>
    rw [Step.outline, idents_append, idents, List.flatMap_map]
    simp only [Local.idents_outline, Step.looksUp]
    exact List.append_nil _
  | transformInput call => rfl
  | transformOutput call => rfl
  | invokeUseCase call => rfl
  | returnOutput output => rfl

theorem Adapter.idents_outline (f : Adapter) : idents f.outline = f.looksUp := by
  rw [Adapter.outline, idents_blockOutline, idents_flatMap]
  simp [TypeExpr.flatMap_pieces, Step.idents_outline, Adapter.looksUp, Piece.idents]

/-- the routine asks for its identifiers in another order than it shows them -/
theorem Translation.idents_outline_perm (t : Translation) : (idents t.outline).Perm t.looksUp := by
  have h : idents t.outline = [t.transportError, t.newError, t.internalCode, t.domainError,
      t.errorsAs, t.sprintf, t.wrapError] := rfl
  rw [h, Translation.looksUp]
  have hwrap : ([t.domainError, t.errorsAs, t.sprintf] ++ [t.wrapError]).Perm
      ([t.wrapError] ++ [t.domainError, t.errorsAs, t.sprintf]) := List.perm_append_comm
  have hdomain : ([t.domainError] ++ [t.errorsAs, t.sprintf]).Perm
      ([t.errorsAs, t.sprintf] ++ [t.domainError]) := List.perm_append_comm
  exact .cons _ (.cons _ (.cons _ (hwrap.trans (.cons _ hdomain))))

theorem Declaration.idents_outline_perm (d : Declaration) : (idents d.outline).Perm d.looksUp := by
  cases d with
  | wrapper w => exact .refl _
  | adapter f => exact .of_eq f.idents_outline
  | translation t => exact t.idents_outline_perm

theorem mem_idents_outlineAll {ds : List Declaration} {i : Ident} :
    i ∈ idents (outlineAll ds) ↔ ∃ d ∈ ds, i ∈ d.looksUp := by
  have hmem : ∀ d : Declaration, i ∈ idents d.outline ↔ i ∈ d.looksUp :=
    fun d => d.idents_outline_perm.mem_iff
  cases ds with
  | nil => simp [outlineAll, idents_nil]
  | cons d ds =>
    rw [outlineAll, idents_append, idents_flatMap]
    simp [idents_cons, emptyLine, OpenLine.idents, hmem]

end RpcAdapters
