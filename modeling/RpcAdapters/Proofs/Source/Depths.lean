import RpcAdapters.Proofs.Source.Writing

/-!
# Writers come back to their depth

What is put together from lines, blocks and results of other computations only ever adds lines to its
writer.  The writer is as deep afterwards as it was before, also when an error stops the steps inside
of blocks: each of these still gets its closing brace.

* `Built m`               `m` is put together so;
* `blockLines header ls`  the lines of a block whose body has the lines `ls`;
* `run_block_append`      what a block adds to its writer, whatever comes of its body;
* `Built.exists_append`   the writer afterwards is the writer before, with more lines;
* `Built.depth_run`       so it has its depth back;
* `built_declaration`, `built_writeUnit`   declarations and whole units are written so.
-/

namespace RpcAdapters

namespace Source

/-! ## steps put together -/

/-- steps of writing: a result or an error, a line, a block, or one of these after another -/
inductive Built : {α : Type} → Writing α → Prop
  | settled {α : Type} (result : Except RenderError α) : Built (ExceptT.mk (pure result))
  | line (t : String) : Built (line t)
  | block {body : Writing Unit} (header : String) (h : Built body) : Built (block header body)
  | bind {α β : Type} {m : Writing α} {k : α → Writing β} (h : Built m) (h' : ∀ x, Built (k x)) :
    Built (m >>= k)

/-- the opening line, the lines of the body one deeper, and the closing brace -/
def blockLines (header : String) (ls : List (Nat × String)) : List (Nat × String) :=
  (0, header ++ " \x7b") :: (ls.map (fun l => (l.1 + 1, l.2)) ++ [(0, "\x7d")])

/-- a block closes with its brace whatever comes of its body -/
theorem run_block_append {body : Writing Unit} {header : String} {w : Writer}
    {ls : List (Nat × String)}
    (h : (body.run (w.line (header ++ " \x7b")).deeper).2
      = (w.line (header ++ " \x7b")).deeper.append ls) :
    ((block header body).run w).2 = w.append (blockLines header ls) := by
  rw [run_block, h, Writer.shallower_append_deeper, Writer.line_eq_append, Writer.line_eq_append,
    Writer.append_append, Writer.append_append]
  rfl

namespace Built

theorem exists_append {α : Type} {m : Writing α} (h : Built m) (w : Writer) :
    ∃ ls, (m.run w).2 = w.append ls := by
  induction h generalizing w with
  | settled result => exact ⟨[], w.append_nil.symm⟩
  | line t => exact ⟨[(0, t)], w.line_eq_append t⟩
  | block header _ ih =>
    obtain ⟨ls, hls⟩ := ih (w.line (header ++ " \x7b")).deeper
    exact ⟨_, run_block_append hls⟩
  | @bind α β m k _ _ ih ih' =>
    obtain ⟨ls, hls⟩ := ih w
    rw [run_bind]
    cases hm : m.run w with
    | mk result v =>
      rw [hm] at hls
      cases result with
      | error e => exact ⟨ls, hls⟩
      | ok x =>
        obtain ⟨ms, hms⟩ := ih' x v
        refine ⟨ls ++ ms, hms.trans ?_⟩
        rw [show v = w.append ls from hls, Writer.append_append]

theorem depth_run {α : Type} {m : Writing α} (h : Built m) (w : Writer) :
    (m.run w).2.depth = w.depth := by
  obtain ⟨ls, hls⟩ := h.exists_append w
  rw [hls]
  rfl

theorem pure {α : Type} (x : α) : Built (pure x) := .settled (.ok x)

end Built

/-! ## declarations and units -/

section
variable (a : Aliases)

theorem built_qualify (i : Ident) : Built (qualify a i) := .settled _

theorem built_typeText (t : TypeExpr) : Built (typeText a t) := by
  obtain ⟨name, pointer⟩ := t
  cases name with
  | imported i => exact (built_qualify a i).bind fun _ => .pure _
  | bare name => exact (Built.pure name).bind fun _ => .pure _

theorem built_guarded (assigned call : String) (onError : OnError) :
    Built (writeGuarded assigned call onError) := .block _ (.line _)

theorem built_locals (ls : List Local) : Built (writeLocals a ls) := by
  induction ls with
  | nil => exact .pure ()
  | cons l ls ih => exact ((built_typeText a l.type).bind fun _ => .line _).bind fun _ => ih

theorem built_step (s : Step) : Built (writeStep a s) := by
  cases s with
  | declareLocals locals => exact (built_locals a locals).bind fun _ => .line ""
  | transformInput call | transformOutput call =>
    exact ((built_qualify a call.function).bind fun _ => built_guarded ..).bind fun _ => .line ""
  | invokeUseCase call => exact (built_guarded ..).bind fun _ => .line ""
  | returnOutput output => exact .line _

theorem built_steps (ss : List Step) : Built (writeSteps a ss) := by
  induction ss with
  | nil => exact .pure ()
  | cons s ss ih => exact (built_step a s).bind fun _ => ih

theorem built_declaration (d : Declaration) : Built (writeDeclaration a d) := by
  cases d with
  | wrapper w => exact (built_qualify a w.useCase).bind fun _ => .block _ (.line _)
  | adapter f =>
    refine (built_qualify a f.context).bind fun _ => (built_typeText a f.input).bind fun _ =>
      (built_typeText a f.output).bind fun _ => .block _ (built_steps a f.steps)
  | translation t =>
    refine (built_qualify a _).bind fun _ => (built_qualify a _).bind fun _ =>
      (built_qualify a _).bind fun _ => (built_qualify a _).bind fun _ =>
      (built_qualify a _).bind fun _ => (built_qualify a _).bind fun _ =>
      (built_qualify a _).bind fun _ => .block _ ?_
    exact (Built.line _).bind fun _ => (Built.line _).bind fun _ =>
      (Built.block _ (.line _)).bind fun _ => .line _

theorem built_declarations (ds : List Declaration) : Built (writeDeclarations a ds) := by
  have hfollowing : Built (writeFollowing a ds.tail) := by
    generalize ds.tail = following
    induction following with
    | nil => exact .pure ()
    | cons d ds ih => exact (Built.line "").bind fun _ => (built_declaration a d).bind fun _ => ih
  cases ds with
  | nil => exact .pure ()
  | cons d ds => exact (built_declaration a d).bind fun _ => hfollowing

theorem built_lines (ls : List String) : Built (writeLines ls) := by
  induction ls with
  | nil => exact .pure ()
  | cons l ls ih => exact (Built.line l).bind fun _ => ih

theorem built_writeUnit (u : SourceUnit) : Built (writeUnit u) :=
  (built_lines _).bind fun _ => built_declarations _ u.declarations

end

end Source

end RpcAdapters
