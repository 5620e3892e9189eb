import RpcAdapters.Proofs.Source.Outline

/-!
# What writing leaves behind

Writing a declaration asks for its identifiers one after the other.  If the aliases know them all, the
lines of its outline are written; otherwise the first unknown one stops it.

* `Aliases.knows`, `Aliases.written`   whether and how an identifier can be written;
* `Aliases.firstUnknown`               the identifier that writing stops at;
* `Writes a m ids x ls`                `m` asks for `ids`; if it is not stopped it writes `ls` and
                                       gives `x`, and it always gives the writer its depth back;
* `writes_declarations`                the declarations of a file;
* `SourceUnit.render_eq`               the text of a unit, or the identifier it fails at.
-/

namespace RpcAdapters

/-! ## identifiers that can be written -/

namespace Aliases

def knows (a : Aliases) (i : Ident) : Bool :=
  decide (i.importPath = a.ownPath) || (a.entries.lookup i.importPath).isSome

/-- a bare name in the file's own package, otherwise behind the alias of its package -/
def written (a : Aliases) (i : Ident) : String :=
  if i.importPath = a.ownPath then i.name
  else (a.entries.lookup i.importPath).getD "" ++ "." ++ i.name

def firstUnknown (a : Aliases) (ids : List Ident) : Option Ident := ids.find? fun i => !a.knows i

theorem qualify_of_knows {a : Aliases} {i : Ident} (h : a.knows i = true) :
    a.qualify i = .ok (a.written i) := by
  unfold qualify written
  by_cases hown : i.importPath = a.ownPath
  · rw [if_pos hown, if_pos hown]
  · rw [if_neg hown, if_neg hown]
    cases hl : a.entries.lookup i.importPath with
    | none => simp [knows, hown, hl] at h
    | some short => rfl

theorem qualify_of_not_knows {a : Aliases} {i : Ident} (h : a.knows i = false) :
    a.qualify i = .error (.unrecorded i) := by
  simp only [knows, Bool.or_eq_false_iff, decide_eq_false_iff_not, Option.isSome_eq_false_iff,
    Option.isNone_iff_eq_none] at h
  rw [qualify, if_neg h.1, h.2]

theorem knows_allocate {u : SourceUnit} {i : Ident} :
    (allocate u).knows i = true ↔ i.importPath = u.importPath ∨ i.importPath ∈ u.importedPaths := by
  have hkeys : ((allocate u).entries.lookup i.importPath).isSome = true ↔
      i.importPath ∈ (allocate u).entries.map Prod.fst := by
    rw [List.lookup_isSome_iff, List.mem_map]
    exact exists_congr fun e => and_congr_right fun _ => by rw [beq_iff_eq, eq_comm]
  rw [knows, Bool.or_eq_true, decide_eq_true_iff, hkeys, allocate, map_fst_assign]

theorem firstUnknown_eq_none {a : Aliases} {ids : List Ident} :
    a.firstUnknown ids = none ↔ ∀ i ∈ ids, a.knows i = true := by
  simp [firstUnknown]

theorem firstUnknown_append (a : Aliases) (ids ids' : List Ident) :
    a.firstUnknown (ids ++ ids') = (a.firstUnknown ids).or (a.firstUnknown ids') :=
  List.find?_append

end Aliases

namespace Source

/-! ## lines written -/

/-- lines with their depths below the current one -/
def Writer.append (w : Writer) (ls : List (Nat × String)) : Writer :=
  { w with lines := w.lines ++ (ls.map fun l => indented (w.depth + l.1) l.2).toArray }

namespace Writer

theorem append_nil (w : Writer) : w.append [] = w := by
  simp [append]

theorem append_append (w : Writer) (ls ms : List (Nat × String)) :
    (w.append ls).append ms = w.append (ls ++ ms) := by
  simp [append]

theorem line_eq_append (w : Writer) (t : String) : w.line t = w.append [(0, t)] := by
  simp [line, append]

theorem shallower_append_deeper (w : Writer) (ls : List (Nat × String)) :
    (w.deeper.append ls).shallower = w.append (ls.map fun l => (l.1 + 1, l.2)) := by
  simp [append, deeper, shallower, Function.comp_def, Nat.add_assoc, Nat.add_comm 1]

end Writer

/-! ## steps of writing -/

theorem run_bind {α β : Type} (m : Writing α) (k : α → Writing β) (w : Writer) :
    (m >>= k).run w = match m.run w with
      | (.ok x, v) => (k x).run v
      | (.error e, v) => (.error e, v) := by
  rw [ExceptT.run_bind]
  simp only [bind, StateT.bind]
  obtain ⟨result, v⟩ := m.run w
  cases result <;> rfl

structure Writes {α : Type} (a : Aliases) (m : Writing α) (ids : List Ident) (x : α)
    (ls : List (Nat × String)) : Prop where
  done : a.firstUnknown ids = none → ∀ w : Writer, m.run w = (.ok x, w.append ls)
  stopped : ∀ i, a.firstUnknown ids = some i → ∀ w : Writer,
    ∃ v : Writer, m.run w = (.error (.unrecorded i), v) ∧ v.depth = w.depth

namespace Writes

variable {α β : Type} {a : Aliases} {m : Writing α} {k : α → Writing β} {ids ids' : List Ident}
  {x : α} {y : β} {ls ls' : List (Nat × String)}

theorem cast (h : Writes a m ids x ls) (hids : ids = ids') (hls : ls = ls') :
    Writes a m ids' x ls' := by
  subst hids hls
  exact h

protected theorem pure (x : α) : Writes a (pure x) [] x [] where
  done _ w := by rw [Writer.append_nil]; rfl
  stopped _ h := nomatch h

/-- one step after another: the second one is not begun when the first one is stopped -/
protected theorem bind (h : Writes a m ids x ls) (h' : Writes a (k x) ids' y ls') :
    Writes a (m >>= k) (ids ++ ids') y (ls ++ ls') where
  done hnone w := by
    rw [Aliases.firstUnknown_append, Option.or_eq_none_iff] at hnone
    rw [run_bind, h.done hnone.1, ← Writer.append_append]
    exact h'.done hnone.2 _
  stopped i hsome w := by
    rw [Aliases.firstUnknown_append] at hsome
    cases hfirst : a.firstUnknown ids with
    | some j =>
      rw [hfirst, Option.some_or, Option.some.injEq] at hsome
      subst hsome
      obtain ⟨v, hv, hdepth⟩ := h.stopped j hfirst w
      exact ⟨v, by rw [run_bind, hv], hdepth⟩
    | none =>
      rw [hfirst, Option.none_or] at hsome
      obtain ⟨v, hv, hdepth⟩ := h'.stopped i hsome (w.append ls)
      exact ⟨v, by rw [run_bind, h.done hfirst]; exact hv, hdepth⟩

theorem line (t : String) : Writes a (line t) [] () [(0, t)] where
  done _ w := by rw [← Writer.line_eq_append]; rfl
  stopped _ h := nomatch h

theorem block {body : Writing Unit} (header : String) (h : Writes a body ids () ls) :
    Writes a (block header body) ids ()
      ((0, header ++ " \x7b") :: (ls.map (fun l => (l.1 + 1, l.2)) ++ [(0, "\x7d")])) where
  done hnone w := by
    rw [run_block, h.done hnone, Writer.shallower_append_deeper, Writer.line_eq_append,
      Writer.line_eq_append, Writer.append_append, Writer.append_append]
    rfl
  stopped i hsome w := by
    obtain ⟨v, hv, hdepth⟩ := h.stopped i hsome (w.line (header ++ " \x7b")).deeper
    refine ⟨v.shallower.line "\x7d", by rw [run_block, hv], ?_⟩
    show v.depth - 1 = w.depth
    rw [hdepth]
    rfl

end Writes

/-! ## declarations -/

section
variable (a : Aliases)

theorem writes_qualify (i : Ident) : Writes a (qualify a i) [i] (a.written i) [] where
  done hnone w := by
    rw [qualify, Aliases.qualify_of_knows (Aliases.firstUnknown_eq_none.mp hnone i (.head _)),
      Writer.append_nil]
    rfl
  stopped j hsome w := by
    have hj := List.find?_some hsome
    obtain rfl : j = i := List.mem_singleton.mp (List.mem_of_find?_eq_some hsome)
    rw [qualify, Aliases.qualify_of_not_knows (by simpa using hj)]
    exact ⟨w, rfl, rfl⟩

theorem writes_typeText (t : TypeExpr) :
    Writes a (typeText a t) t.idents (joined a.written t.pieces) [] := by
  obtain ⟨name, pointer⟩ := t
  cases name with
  | imported i =>
    have h : joined a.written (TypeExpr.mk (.imported i) pointer).pieces
        = if pointer then "*" ++ a.written i else a.written i := by
      cases pointer <;> simp [TypeExpr.pieces]
    rw [h]
    exact (writes_qualify a i).bind (.pure _)
  | bare name =>
    have h : joined a.written (TypeExpr.mk (.bare name) pointer).pieces
        = if pointer then "*" ++ name else name := by
      cases pointer <;> simp [TypeExpr.pieces]
    rw [h]
    exact (Writes.pure name).bind (.pure _)

variable {a}

/-- a line, given as the pieces that it is put together from -/
theorem writes_line {t : String} {ps : List Piece} (ht : joined a.written ps = t) :
    Writes a (line t) [] () (fill a.written [{ pieces := ps }]) :=
  (Writes.line t).cast rfl (by rw [← ht]; rfl)

theorem writes_block {body : Writing Unit} {ids : List Ident} {header : String} {ps : List Piece}
    {o : List OpenLine} (hheader : joined a.written ps = header)
    (h : Writes a body ids () (fill a.written o)) :
    Writes a (block header body) ids () (fill a.written (blockOutline ps o)) :=
  (h.block header).cast rfl (by rw [fill_blockOutline, hheader])

theorem writes_guard {assigned call : String} {ps : List Piece} (onError : OnError)
    (hcall : joined a.written ps = call) :
    Writes a (writeGuarded assigned call onError) [] ()
      (fill a.written (guardOutline assigned ps onError)) := by
  refine writes_block ?_ (writes_line ?_)
  · simp [hcall, String.append_assoc]
  · simp

variable (a)

theorem writes_transform (c : TransformCall) :
    Writes a (writeTransform a c) [c.function] () (fill a.written c.outline) := by
  refine (writes_qualify a c.function).bind (writes_guard c.onError ?_)
  simp [String.append_assoc]

theorem writes_useCaseCall (c : UseCaseCall) :
    Writes a (writeUseCaseCall c) [] () (fill a.written c.outline) := by
  refine writes_guard c.onError ?_
  simp

theorem writes_local (l : Local) :
    Writes a (writeLocal a l) l.type.idents () (fill a.written [l.outline]) := by
  have h : Writes a (writeLocal a l) (l.type.idents ++ []) () (fill a.written [l.outline]) :=
    (writes_typeText a l.type).bind (writes_line (by simp))
  exact h.cast (List.append_nil _) rfl

theorem writes_locals (ls : List Local) :
    Writes a (writeLocals a ls) (ls.flatMap fun l => l.type.idents) ()
      (fill a.written (ls.map Local.outline)) := by
  induction ls with
  | nil => exact .pure ()
  | cons l ls ih => exact (writes_local a l).bind ih

theorem writes_blank : Writes a blank [] () (fill a.written [emptyLine]) := Writes.line ""

theorem writes_step (s : Step) : Writes a (writeStep a s) s.looksUp () (fill a.written s.outline) := by
  cases s with
  | declareLocals locals =>
    refine ((writes_locals a locals).bind (writes_blank a)).cast (List.append_nil _) ?_
    rw [Step.outline, fill_append]
  | transformInput call =>
    refine ((writes_transform a call).bind (writes_blank a)).cast rfl ?_
    rw [Step.outline, fill_append]
  | transformOutput call =>
    refine ((writes_transform a call).bind (writes_blank a)).cast rfl ?_
    rw [Step.outline, fill_append]
  | invokeUseCase call =>
    refine ((writes_useCaseCall a call).bind (writes_blank a)).cast rfl ?_
    rw [Step.outline, fill_append]
  | returnOutput output =>
    refine writes_line ?_
    simp

theorem writes_steps (ss : List Step) :
    Writes a (writeSteps a ss) (ss.flatMap Step.looksUp) ()
      (fill a.written (ss.flatMap Step.outline)) := by
  induction ss with
  | nil => exact .pure ()
  | cons s ss ih =>
    rw [List.flatMap_cons, List.flatMap_cons, fill_append]
    exact (writes_step a s).bind ih

theorem writes_wrapper (w : Wrapper) :
    Writes a (writeWrapper a w) [w.useCase] () (fill a.written w.outline) := by
  refine (writes_qualify a w.useCase).bind (writes_block ?_ (writes_line ?_))
  · simp
  · simp

theorem writes_adapter (f : Adapter) :
    Writes a (writeAdapter a f) f.looksUp () (fill a.written f.outline) := by
  have h : Writes a (writeAdapter a f) _ () (fill a.written f.outline) :=
    (writes_qualify a f.context).bind <| (writes_typeText a f.input).bind <|
      (writes_typeText a f.output).bind <| writes_block (by simp [String.append_assoc])
        (writes_steps a f.steps)
  refine h.cast ?_ rfl
  simp [Adapter.looksUp]

theorem writes_translation (t : Translation) :
    Writes a (writeTranslation a t) t.looksUp () (fill a.written t.outline) := by
  refine (writes_qualify a t.transportError).bind <| (writes_qualify a t.newError).bind <|
    (writes_qualify a t.internalCode).bind <| (writes_qualify a t.wrapError).bind <|
    (writes_qualify a t.errorsAs).bind <| (writes_qualify a t.sprintf).bind <|
    (writes_qualify a t.domainError).bind <| writes_block (by simp [String.append_assoc]) ?_
  rw [fill_append, fill_append, fill_append]
  refine (writes_line ?_).bind <| (writes_line ?_).bind <|
    (writes_block ?_ (writes_line ?_)).bind (writes_line ?_)
  all_goals simp [String.append_assoc]

theorem writes_declaration (d : Declaration) :
    Writes a (writeDeclaration a d) d.looksUp () (fill a.written d.outline) := by
  cases d with
  | wrapper w => exact writes_wrapper a w
  | adapter f => exact writes_adapter a f
  | translation t => exact writes_translation a t

theorem writes_following (ds : List Declaration) :
    Writes a (writeFollowing a ds) (ds.flatMap Declaration.looksUp) ()
      (fill a.written (ds.flatMap fun d => emptyLine :: d.outline)) := by
  induction ds with
  | nil => exact .pure ()
  | cons d ds ih =>
    rw [List.flatMap_cons, List.flatMap_cons, fill_append, fill_cons]
    exact (writes_blank a).bind <| (writes_declaration a d).bind ih

theorem writes_declarations (ds : List Declaration) :
    Writes a (writeDeclarations a ds) (ds.flatMap Declaration.looksUp) ()
      (fill a.written (outlineAll ds)) := by
  cases ds with
  | nil => exact .pure ()
  | cons d ds =>
    rw [List.flatMap_cons, outlineAll, fill_append]
    exact (writes_declaration a d).bind (writes_following a ds)

theorem writes_lines (ls : List String) :
    Writes a (writeLines ls) [] () (ls.map fun l => (0, l)) := by
  induction ls with
  | nil => exact .pure ()
  | cons l ls ih => exact (Writes.line l).bind ih

end

/-! ## units -/

def linesText (ls : List String) : String := String.join (ls.map (· ++ "\n"))

theorem toList_linesText_cons (l : String) (ls : List String) :
    (linesText (l :: ls)).toList = l.toList ++ '\n' :: (linesText ls).toList := by
  rw [linesText, List.map_cons, String.join_cons, String.toList_append, String.toList_append,
    List.append_assoc]
  rfl

theorem indented_zero (l : String) : Writer.indented 0 l = l := by
  unfold Writer.indented
  split
  · rename_i h; rw [h]
  · rw [Writer.tabs_zero, String.empty_append]

theorem text_append_empty (ls : List (Nat × String)) :
    (Writer.append {} ls).text = linesText (ls.map fun l => Writer.indented l.1 l.2) := by
  simp [Writer.text, Writer.append, linesText, Function.comp_def]

end Source

namespace SourceUnit

open Source

def looksUp (u : SourceUnit) : List Ident := u.declarations.flatMap Declaration.looksUp

/-- the lines of the declarations, with the given way to write identifiers -/
def bodyLines (u : SourceUnit) (name : Ident → String) : List String :=
  (fill name (outlineAll u.declarations)).map fun l => Writer.indented l.1 l.2

def lines (u : SourceUnit) : List String :=
  headerLines u ++ importLines (.allocate u) ++ u.bodyLines (Aliases.allocate u).written

theorem writes_writeUnit (u : SourceUnit) :
    Writes (.allocate u) (writeUnit u) u.looksUp ()
      ((headerLines u ++ importLines (.allocate u)).map (fun l => (0, l))
        ++ fill (Aliases.allocate u).written (outlineAll u.declarations)) :=
  (writes_lines _ _).bind (writes_declarations _ _)

/-- a unit has its text, unless some declaration uses an identifier that no alias is known for -/
theorem render_eq (u : SourceUnit) :
    u.render = match (Aliases.allocate u).firstUnknown u.looksUp with
      | none => .ok (linesText u.lines)
      | some i => .error (.unrecorded i) := by
  have hw := u.writes_writeUnit
  rw [render]
  cases hfirst : (Aliases.allocate u).firstUnknown u.looksUp with
  | none =>
    rw [hw.done hfirst]
    simp [text_append_empty, lines, bodyLines, indented_zero, Function.comp_def]
  | some i =>
    obtain ⟨v, hv, -⟩ := hw.stopped i hfirst {}
    rw [hv]

theorem exists_render_eq {u : SourceUnit} {content : String} (h : u.render = .ok content) :
    ∃ rest, content = linesText (generatedMarker :: ("// source: " ++ u.source) :: rest) := by
  rw [render_eq] at h
  split at h
  · exact ⟨_, (Except.ok.inj h).symm⟩
  · exact nomatch h

/-- the second line of a text says what it is made from -/
theorem source_of_render {u u' : SourceUnit} {content : String} (h : u.render = .ok content)
    (h' : u'.render = .ok content) (hline : '\n' ∉ u.source.toList) (hline' : '\n' ∉ u'.source.toList) :
    u.source = u'.source := by
  have hsecond {u : SourceUnit} (h : u.render = .ok content) (hline : '\n' ∉ u.source.toList) :
      (Text.splitAll '\n' content.toList)[1]? = some ("// source: ".toList ++ u.source.toList) := by
    obtain ⟨rest, rfl⟩ := exists_render_eq h
    have hmarker : '\n' ∉ generatedMarker.toList := by decide
    have hsource : '\n' ∉ ("// source: " ++ u.source).toList := by
      rw [String.toList_append, List.mem_append]
      exact not_or.mpr ⟨by decide, hline⟩
    rw [toList_linesText_cons, toList_linesText_cons, Text.splitAll_append _ hmarker,
      Text.splitAll_append _ hsource, String.toList_append]
    rfl
  have heq := (hsecond h hline).symm.trans (hsecond h' hline')
  exact String.toList_inj.mp (List.append_cancel_left (Option.some.inj heq))

end SourceUnit

end RpcAdapters
