import RpcAdapters.Proofs.Generation.Packages
import RpcAdapters.Proofs.Source.Imports

/-!
# Aliases and bare names

In a file an alias stands for a package wherever its name is not bound again.  So no alias may be the name
of a variable, and none is.  The names that a file shares with its package are not kept free: such a
name is captured if it is the package name of an import.

* `Declaration.localNames`       the names that bodies bind and use for themselves;
* `SourceUnit.bareNames`         the names that a file uses or declares without a package;
* `SourceUnit.Captures u name`   an alias of the unit is that name;
* `captures_iff_of_not_digit`   when a name is captured that no digit ends;
* `SchemaFile.captures_exact`    what emitted units capture;
* `captures_order`               a file that captures names of all kinds.
-/

namespace RpcAdapters

/-! ## names without a package -/

def OnError.routines : OnError → List String
  | .propagate => []
  | .translate routine => [routine]

def TypeExpr.bareNames (t : TypeExpr) : List String :=
  match t.name with
  | .imported _ => []
  | .bare name => [name]

namespace Step

def localNames : Step → List String
  | .declareLocals locals => locals.map Local.name
  | .transformInput call | .transformOutput call => [Bound.error, call.source, call.target]
  | .invokeUseCase call => [call.output, Bound.error, call.receiver, call.input]
  | .returnOutput output => [output]

/-- the routines that the step calls by a bare name -/
def routines : Step → List String
  | .declareLocals _ | .returnOutput _ => []
  | .transformInput call | .transformOutput call => call.onError.routines
  | .invokeUseCase call => call.onError.routines

def bareNames : Step → List String
  | .declareLocals locals => locals.flatMap fun l => l.type.bareNames
  | s => s.routines

end Step

namespace Declaration

def localNames : Declaration → List String
  | .wrapper _ => []
  | .adapter f => f.receiver :: Bound.transportInput :: f.steps.flatMap Step.localNames
  | .translation _ => [Bound.error, Bound.transportError, Bound.domainError]

/-- also the name that is declared -/
def bareNames : Declaration → List String
  | .wrapper w => [w.name]
  | .adapter f =>
    f.receiverType :: (f.input.bareNames ++ f.output.bareNames ++ f.steps.flatMap Step.bareNames)
  | .translation t => [t.name]

end Declaration

namespace SourceUnit

def localNames (u : SourceUnit) : List String := u.declarations.flatMap Declaration.localNames

/-- the names of what belongs to the unit's own package -/
def ownNames (u : SourceUnit) : List String :=
  (u.shown.filter fun i => i.importPath = u.importPath).map Ident.name

def bareNames (u : SourceUnit) : List String :=
  u.declarations.flatMap Declaration.bareNames ++ u.ownNames

def Captures (u : SourceUnit) (name : String) : Prop := ∃ e ∈ (Aliases.allocate u).entries, e.2 = name

instance (u : SourceUnit) (name : String) : Decidable (u.Captures name) :=
  inferInstanceAs (Decidable (∃ e ∈ (Aliases.allocate u).entries, e.2 = name))

end SourceUnit

/-! ## which names are captured -/

namespace Aliases

theorem exists_numbered_of_mem_assign {used paths : List String} {e : String × String}
    (he : e ∈ assign used paths) : e.1 ∈ paths ∧ ∃ n, e.2 = numbered (Naming.packageName e.1) n := by
  induction paths generalizing used with
  | nil => exact absurd he List.not_mem_nil
  | cons path paths ih =>
    rcases List.mem_cons.mp he with rfl | he
    · exact ⟨List.mem_cons_self .., _, rfl⟩
    · obtain ⟨hmem, hn⟩ := ih he
      exact ⟨List.mem_cons_of_mem _ hmem, hn⟩

theorem freeAlias_of_not_mem {used : List String} {base : String} (h : base ∉ used) :
    freeAlias used base = base := by
  have hchosen := chosen_freeAlias used base
  generalize freeAlias used base = name at hchosen ⊢
  cases hchosen with
  | plain => rfl
  | numbered hused => exact absurd hused h

/-- a package name that is free at first goes to one of the packages of that name -/
theorem exists_mem_assign {used paths : List String} {path : String} (hpath : path ∈ paths)
    (hfree : Naming.packageName path ∉ used) :
    ∃ e ∈ assign used paths, e.2 = Naming.packageName path := by
  induction paths generalizing used with
  | nil => exact absurd hpath List.not_mem_nil
  | cons first paths ih =>
    rw [assign]
    by_cases hname : freeAlias used (Naming.packageName first) = Naming.packageName path
    · exact ⟨_, List.mem_cons_self .., hname⟩
    · have hne : path ≠ first := by
        rintro rfl
        exact hname (freeAlias_of_not_mem hfree)
      have hstill : Naming.packageName path ∉ freeAlias used (Naming.packageName first) :: used := by
        intro hmem
        rcases List.mem_cons.mp hmem with heq | hused
        · exact hname heq.symm
        · exact hfree hused
      obtain ⟨e, he, heq⟩ := ih (List.mem_of_ne_of_mem hne hpath) hstill
      exact ⟨e, List.mem_cons_of_mem _ he, heq⟩

end Aliases

namespace SourceUnit

variable {u : SourceUnit} {name : String}

theorem numbered_of_captures (h : u.Captures name) :
    ∃ path ∈ u.importedPaths, ∃ n, name = numbered (Naming.packageName path) n := by
  obtain ⟨e, he, rfl⟩ := h
  obtain ⟨hpath, hn⟩ := Aliases.exists_numbered_of_mem_assign he
  exact ⟨e.1, hpath, hn⟩

theorem captures_of_packageName (hfree : name ∉ Aliases.reserved)
    (h : ∃ path ∈ u.importedPaths, Naming.packageName path = name) : u.Captures name := by
  obtain ⟨path, hpath, rfl⟩ := h
  exact Aliases.exists_mem_assign hpath hfree

theorem not_captures_of_reserved (h : name ∈ Aliases.reserved) : ¬ u.Captures name := by
  rintro ⟨e, he, rfl⟩
  exact (Aliases.nodup_aliases_assign Aliases.reserved u.importedPaths).2 e he h

theorem not_captures_of_keyword (h : name ∈ Naming.keywords) : ¬ u.Captures name := by
  rintro ⟨e, he, rfl⟩
  exact (Aliases.isIdentifier_of_mem_allocate he).not_keyword h

end SourceUnit

theorem isDigit_getLast?_numbered (base : String) {n : Nat} (h : 1 ≤ n) :
    ∃ c, (numbered base n).toList.getLast? = some c ∧ c.isDigit = true := by
  have hne := decimal_toList_ne_nil n
  refine ⟨(Text.decimal n).toList.getLast hne, ?_, Text.isDigit_of_mem_decimal (List.getLast_mem hne)⟩
  rw [numbered_of_pos base h, String.toList_append, List.getLast?_append_of_ne_nil _ hne,
    List.getLast?_eq_some_getLast hne]

/-- a name that no digit ends is captured if it is the package name of an import -/
theorem captures_iff_of_not_digit {u : SourceUnit} {name : String} {c : Char}
    (hfree : name ∉ Aliases.reserved) (hlast : name.toList.getLast? = some c)
    (hc : c.isDigit = false) :
    u.Captures name ↔ ∃ path ∈ u.importedPaths, Naming.packageName path = name := by
  refine ⟨fun h => ?_, SourceUnit.captures_of_packageName hfree⟩
  obtain ⟨path, hpath, n, rfl⟩ := SourceUnit.numbered_of_captures h
  refine ⟨path, hpath, ?_⟩
  rcases Nat.eq_zero_or_pos n with rfl | hpos
  · exact (numbered_zero _).symm
  · obtain ⟨d, hd, hdigit⟩ := isDigit_getLast?_numbered (Naming.packageName path) hpos
    rw [hd, Option.some.injEq] at hlast
    rw [hlast, hc] at hdigit
    exact nomatch hdigit

/-! ## names of emitted units -/

theorem Service.wrapperName_not_reserved (s : Service) : s.wrapperName ∉ Aliases.reserved := by
  intro hmem
  have hall : (Aliases.reserved.all fun x => !Text.endsWith wrapperSuffix.toList x.toList) = true := by
    decide +kernel
  have hend : Text.endsWith wrapperSuffix.toList s.wrapperName.toList = true := by
    refine Text.endsWith_iff.mpr ⟨s.goName.toList, ?_⟩
    rw [Service.wrapperName, String.toList_append]
  have hnot := List.all_eq_true.mp hall _ hmem
  rw [hend] at hnot
  cases hnot

theorem Method.localNames_adapter (m : Method) (r : Roots) (receiverType : String) :
    ∀ name ∈ (Declaration.adapter (m.adapter r receiverType)).localNames, name ∈ Bound.all := by
  have hnames : (Declaration.adapter (m.adapter r receiverType)).localNames
      = [Bound.receiver, Bound.transportInput, Bound.error, Bound.useCaseInput, Bound.useCaseOutput,
        Bound.transportOutput, Bound.error, Bound.transportInput, Bound.useCaseInput,
        Bound.useCaseOutput, Bound.error, Bound.receiver, Bound.useCaseInput, Bound.error,
        Bound.useCaseOutput, Bound.transportOutput, Bound.transportOutput] := rfl
  rw [hnames]
  decide

namespace SchemaFile

variable (f : SchemaFile) (r : Roots) (fileName : String)

theorem localNames_unit : ∀ name ∈ (f.unit r fileName).localNames, name ∈ Bound.all := by
  intro name hname
  obtain ⟨d, hd, hname⟩ := List.mem_flatMap.mp hname
  rcases List.mem_append.mp hd with hd | hd
  · obtain ⟨s, _, hd⟩ := List.mem_flatMap.mp hd
    rcases List.mem_cons.mp hd with rfl | hd
    · exact absurd hname List.not_mem_nil
    · obtain ⟨m, _, rfl⟩ := List.mem_map.mp hd
      exact m.localNames_adapter r s.wrapperName name hname
  · obtain rfl := List.mem_singleton.mp hd
    have hall : ∀ x ∈ [Bound.error, Bound.transportError, Bound.domainError], x ∈ Bound.all := by decide
    exact hall name hname

theorem routines_unit {a : Adapter} (ha : a ∈ (f.unit r fileName).adapters) :
    a.receiverType ∈ (f.unit r fileName).packageLevel ∧
      ∀ s ∈ a.steps, ∀ routine ∈ s.routines, routine ∈ (f.unit r fileName).packageLevel := by
  rw [f.adapters_unit] at ha
  obtain ⟨s, hs, ha⟩ := List.mem_flatMap.mp ha
  obtain ⟨m, _, rfl⟩ := List.mem_map.mp ha
  rw [f.packageLevel_unit]
  constructor
  · exact List.mem_append_left _ (List.mem_map_of_mem hs)
  · intro step hstep routine hroutine
    have hroutines : (m.adapter r s.wrapperName).steps.flatMap Step.routines = [translationName] := rfl
    have hmem : routine ∈ (m.adapter r s.wrapperName).steps.flatMap Step.routines :=
      List.mem_flatMap.mpr ⟨step, hstep, hroutine⟩
    rw [hroutines] at hmem
    exact List.mem_append_right _ hmem

theorem captures_packageLevel_iff {name : String} (h : name ∈ (f.unit r fileName).packageLevel) :
    (f.unit r fileName).Captures name ↔
      ∃ path ∈ (f.unit r fileName).importedPaths, Naming.packageName path = name := by
  rw [f.packageLevel_unit] at h
  rcases List.mem_append.mp h with h | h
  · obtain ⟨s, _, rfl⟩ := List.mem_map.mp h
    exact captures_iff_of_not_digit s.wrapperName_not_reserved s.getLast?_wrapperName (by decide)
  · obtain rfl := List.mem_singleton.mp h
    exact captures_iff_of_not_digit (by decide +kernel) getLast?_translationName (by decide)

end SchemaFile

/-- what a unit captures with its aliases, and what it does not -/
structure SourceUnit.CapturesExactly (u : SourceUnit) : Prop where
  locals : ∀ name ∈ u.localNames, ¬ u.Captures name
  reserved : ∀ name ∈ "_" :: (Naming.predeclared ++ Naming.keywords), ¬ u.Captures name
  packageLevel : ∀ name ∈ u.packageLevel, (u.Captures name ↔
    ∃ path ∈ u.importedPaths, Naming.packageName path = name)
  /-- adapters belong to types of the file, and call routines of the file -/
  adapters : ∀ a ∈ u.adapters, a.receiverType ∈ u.packageLevel ∧
    ∀ s ∈ a.steps, ∀ routine ∈ s.routines, routine ∈ u.packageLevel
  bare : ∀ name ∈ u.bareNames, u.Captures name →
    ∃ path ∈ u.importedPaths, ∃ n, name = numbered (Naming.packageName path) n
  captured : ∀ name ∈ u.bareNames, name ∉ Aliases.reserved →
    (∃ path ∈ u.importedPaths, Naming.packageName path = name) → u.Captures name

/-- **What aliases capture**: in an emitted unit no alias is the name of a variable, a predeclared name or
a keyword; one is the name of a wrapper or of the routine exactly if that is the package name of an import,
and one is any other bare name only if a package name, perhaps with a number, is the same. -/
theorem SchemaFile.captures_exact (f : SchemaFile) (r : Roots) (fileName : String) :
    (f.unit r fileName).CapturesExactly := by
  constructor
  case locals =>
    intro name hname
    have hbound : name ∈ Bound.all := f.localNames_unit r fileName name hname
    exact SourceUnit.not_captures_of_reserved (List.mem_append_left _ hbound)
  case reserved =>
    intro name hname
    rcases List.mem_cons.mp hname with rfl | hname
    · exact SourceUnit.not_captures_of_reserved (by decide)
    · rcases List.mem_append.mp hname with hname | hname
      · exact SourceUnit.not_captures_of_reserved (List.mem_append_right _ hname)
      · exact SourceUnit.not_captures_of_keyword hname
  case packageLevel =>
    intro name hname
    exact f.captures_packageLevel_iff r fileName hname
  case adapters =>
    intro a ha
    exact f.routines_unit r fileName ha
  case bare =>
    intro name _ hcaptured
    exact SourceUnit.numbered_of_captures hcaptured
  case captured =>
    intro name _ hfree hpath
    exact SourceUnit.captures_of_packageName hfree hpath

/-! ### a file with captured names -/

def orderFile : SchemaFile where
  name := "order.services.proto"
  importPath := "shop/rpc"
  packageName := "rpc"
  services := [⟨"OrderService", "OrderService",
    [⟨"Place", "Place", ⟨"Order", "shop/rpc"⟩, ⟨"Order", "shop/rpc"⟩, false, false⟩]⟩]

/-- a wrapper, the routine, a message and a use case of the same package, each called like a package -/
theorem captures_order :
    let u := orderFile.unit ⟨"shop/transformTwirpError", "shop/OrderServiceRpc", "shop/Order"⟩ "order.go"
    let own := orderFile.unit ⟨"shop/OrderUseCase", "shop/rpc", "shop/dts"⟩ "order.go"
    (∀ name ∈ ["OrderServiceRpc", "transformTwirpError"], name ∈ u.packageLevel ∧ u.Captures name) ∧
    ("Order" ∈ u.bareNames ∧ u.Captures "Order") ∧
    "OrderUseCase" ∈ own.ownNames ∧ own.Captures "OrderUseCase" := by
  decide +kernel

end RpcAdapters
