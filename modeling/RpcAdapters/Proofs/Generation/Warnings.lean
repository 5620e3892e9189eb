import RpcAdapters.Proofs.Generation.Listings
import RpcAdapters.Proofs.Naming.Markers

/-!
# Warnings and emitted units

Warnings are made from the schema alone, and yet each says of the emitted unit what a reader could see
there: walking through the declarations of the unit, with the services and methods they are made for,
gives the reasons for all warnings, in order.

* `Due reason w ws`             `ws` is the one warning `w` if there is reason for it, otherwise nothing;
* `Roots.Routes role i l`       by its ending, the name of `i` belongs to the layer `l` in its role;
* `Adapter.Types m i o`         what an adapter shows of the types of its method;
* `MethodWarned`, `MethodsWarned`, `ServicesWarned`   the reasons, declaration by declaration;
* `Adapter.OwnTypes u m`        all bare types are declared in the package of the unit;
* `SchemaFile.warnings_exact`   the warnings are those that there is reason for.
-/

namespace RpcAdapters

open Naming

/-! ## reasons -/

inductive Due (reason : Prop) (w : Warning) : List Warning → Prop
  | given (h : reason) : Due reason w [w]
  | spared (h : ¬ reason) : Due reason w []

section
variable {reason c : Prop} [Decidable c]

theorem due_if (h : reason ↔ c) (w : Warning) : Due reason w (if c then [w] else []) := by
  by_cases hc : c
  · rw [if_pos hc]
    exact .given (h.mpr hc)
  · rw [if_neg hc]
    exact .spared (h.not.mpr hc)

theorem due_if_not (h : reason ↔ ¬ c) (w : Warning) : Due reason w (if c then [] else [w]) := by
  rw [← ite_not]
  exact due_if h w

end

/-! ## routing -/

/-- the layer that the ending of a name stands for, in the roles where the ending decides -/
inductive EndingOf : Role → String → Layer → Prop
  | param (before : String) : EndingOf .requestParam (before ++ "Param") .useCase
  | params (before : String) : EndingOf .requestParam (before ++ "Params") .useCase
  | response (before : String) : EndingOf .responsePayload (before ++ "Response") .useCase
  | otherRequest {name : String} (h : ∀ before, name ≠ before ++ "Param" ∧ name ≠ before ++ "Params") :
    EndingOf .requestParam name .domain
  | otherResponse {name : String} (h : ∀ before, name ≠ before ++ "Response") :
    EndingOf .responsePayload name .domain

theorem endsWith_toList_iff {suffix name : String} :
    Text.endsWith suffix.toList name.toList = true ↔ ∃ before, name = before ++ suffix := by
  rw [Text.endsWith_iff]
  constructor
  · rintro ⟨before, hname⟩
    refine ⟨String.ofList before, String.toList_injective ?_⟩
    rw [hname, String.toList_append, String.toList_ofList]
  · rintro ⟨before, rfl⟩
    exact ⟨before.toList, String.toList_append⟩

theorem any_requestSuffixes_iff {name : String} :
    (requestSuffixes.any fun suffix => Text.endsWith suffix.toList name.toList) = true ↔
      ∃ before, name = before ++ "Param" ∨ name = before ++ "Params" := by
  rw [List.any_eq_true, exists_or]
  simp only [endsWith_toList_iff, requestSuffixes, List.mem_cons, List.not_mem_nil, or_false,
    exists_eq_or_imp, exists_eq_left]

theorem endingOf_requestLayer (name : String) :
    EndingOf .requestParam name (requestLayer name) := by
  unfold requestLayer
  split
  · rename_i h
    obtain ⟨before, rfl | rfl⟩ := any_requestSuffixes_iff.mp h
    · exact .param before
    · exact .params before
  · rename_i h
    rw [any_requestSuffixes_iff] at h
    exact .otherRequest fun before => not_or.mp (not_exists.mp h before)

theorem endingOf_responseLayer (name : String) :
    EndingOf .responsePayload name (responseLayer name) := by
  unfold responseLayer
  split
  · rename_i h
    obtain ⟨before, rfl⟩ := endsWith_toList_iff.mp h
    exact .response before
  · rename_i h
    rw [endsWith_toList_iff] at h
    exact .otherResponse (not_exists.mp h)

theorem EndingOf.layer? {role : Role} {name : String} {l : Layer} (h : EndingOf role name l) :
    role.layer? name = some l := by
  cases h with
  | param before => exact congrArg some (if_pos (any_requestSuffixes_iff.mpr ⟨before, .inl rfl⟩))
  | params before => exact congrArg some (if_pos (any_requestSuffixes_iff.mpr ⟨before, .inr rfl⟩))
  | response before => exact congrArg some (if_pos (endsWith_toList_iff.mpr ⟨before, rfl⟩))
  | otherRequest h =>
    apply congrArg some
    apply if_neg
    rw [any_requestSuffixes_iff, not_exists]
    intro before
    exact not_or.mpr (h before)
  | otherResponse h => exact congrArg some (if_neg (endsWith_toList_iff.not.mpr (not_exists.mpr h)))

namespace Roots

/-- the identifier is taken from the layer that its ending stands for -/
structure Routes (r : Roots) (role : Role) (i : Ident) (l : Layer) : Prop where
  ending : EndingOf role i.name l
  path : i.importPath = r.root l

variable (r : Roots)

theorem routes_request (m : Method) :
    r.Routes .requestParam (m.requestIdent r) (requestLayer m.input.name) where
  ending := endingOf_requestLayer m.input.name
  path := rfl

theorem routes_response (m : Method) :
    r.Routes .responsePayload (m.responseIdent r) (responseLayer m.output.name) where
  ending := endingOf_responseLayer m.output.name
  path := rfl

variable {r}

theorem Routes.eq_iff {role : Role} {i : Ident} {l l' : Layer} (h : r.Routes role i l) :
    r.Routes role i l' ↔ l = l' := by
  constructor
  · intro h'
    exact Option.some_inj.mp (h.ending.layer?.symm.trans h'.ending.layer?)
  · rintro rfl
    exact h

end Roots

/-! ## the types of an adapter -/

/-- an adapter takes and returns the messages of its method, and calls the use case with a parameter and
a response that have their names -/
structure Adapter.Types (a : Adapter) (m : Method) (param response : Ident) : Prop where
  input : a.input = { name := .bare m.input.name, pointer := true }
  output : a.output = { name := .bare m.output.name, pointer := true }
  locals : a.locals =
    [⟨"err", { name := .bare "error" }⟩,
    ⟨"ucIn", { name := .imported param }⟩,
    ⟨"ucOut", { name := .imported response, pointer := true }⟩,
    ⟨"pbOut", { name := .bare m.output.name }⟩]
  param : param.name = m.input.name
  response : response.name = m.output.name

theorem Method.types_adapter (m : Method) (r : Roots) (wrapper : String) :
    (m.adapter r wrapper).Types m (m.requestIdent r) (m.responseIdent r) where
  input := rfl
  output := rfl
  locals := rfl
  param := rfl
  response := rfl

/-! ## declarations and the warnings about them -/

section
variable (u : SourceUnit) (r : Roots)

/-- the five reasons for a warning about a method, under the names that the schema declares -/
inductive MethodWarned (s : Service) (m : Method) (a : Adapter) : List Warning → Prop
  | intro {param response : Ident} {l l' : Layer}
    {streaming foreignIn foreignOut fallbackIn fallbackOut : List Warning}
    (types : a.Types m param response) (request : r.Routes .requestParam param l)
    (payload : r.Routes .responsePayload response l')
    (streams : Due (m.clientStreaming = true ∨ m.serverStreaming = true)
      (.streamingMethod s.name m.name) streaming)
    (input : Due (m.input.importPath ≠ u.importPath)
      (.foreignTransportMessage s.name m.name m.input.name m.input.importPath) foreignIn)
    (output : Due (m.output.importPath ≠ u.importPath)
      (.foreignTransportMessage s.name m.name m.output.name m.output.importPath) foreignOut)
    (paramFallback : Due (r.Routes .requestParam param .domain)
      (.domainFallback s.name m.name "request parameter type" param.name) fallbackIn)
    (responseFallback : Due (r.Routes .responsePayload response .domain)
      (.domainFallback s.name m.name "response payload type" response.name) fallbackOut) :
    MethodWarned s m a (streaming ++ foreignIn ++ foreignOut ++ fallbackIn ++ fallbackOut)

/-- the methods of a service, each with its adapter -/
inductive MethodsWarned (s : Service) : List Method → List Declaration → List Warning → Prop
  | nil : MethodsWarned s [] [] []
  | cons {m : Method} {ms : List Method} {a : Adapter} {ds : List Declaration} {ws vs : List Warning}
    (head : MethodWarned u r s m a ws) (tail : MethodsWarned s ms ds vs) :
    MethodsWarned s (m :: ms) (.adapter a :: ds) (ws ++ vs)

/-- the services, each with its wrapper and its methods; the translation of errors comes last -/
inductive ServicesWarned : List Service → List Declaration → List Warning → Prop
  | nil (t : Translation) : ServicesWarned [] [.translation t] []
  | cons {s : Service} {ss : List Service} {w : Wrapper} {ds es : List Declaration}
    {marker ws vs : List Warning} (name : w.name = s.goName ++ "Rpc")
    (unmarked : Due (w.useCase.name = s.goName) (.serviceWithoutMarker u.source s.goName) marker)
    (methods : MethodsWarned u r s s.methods ds ws) (tail : ServicesWarned ss es vs) :
    ServicesWarned (s :: ss) (.wrapper w :: (ds ++ es)) (marker ++ ws ++ vs)

end

section
variable (u : SourceUnit) (r : Roots) (s : Service)

theorem methodWarned (m : Method) :
    MethodWarned u r s m (m.adapter r s.wrapperName) (m.warnings s u.importPath) := by
  have hparam := r.routes_request m
  have hresponse := r.routes_response m
  apply MethodWarned.intro (m.types_adapter r s.wrapperName) hparam hresponse
  case streams => exact due_if Bool.or_eq_true_iff.symm _
  case input => exact due_if_not Iff.rfl _
  case output => exact due_if_not Iff.rfl _
  case paramFallback => exact due_if (hparam.eq_iff.trans Option.some_inj.symm) _
  case responseFallback => exact due_if (hresponse.eq_iff.trans Option.some_inj.symm) _

theorem methodsWarned (ms : List Method) :
    MethodsWarned u r s ms (ms.map fun m => .adapter (m.adapter r s.wrapperName))
      (ms.flatMap fun m => m.warnings s u.importPath) := by
  induction ms with
  | nil => exact .nil
  | cons m ms ih => exact .cons (methodWarned u r s m) ih

/-- a use case is called like its service if there is no marker to change -/
theorem markerWarnings_due :
    Due ((s.wrapper r).useCase.name = s.goName) (.serviceWithoutMarker u.source s.goName)
      (s.markerWarnings u.source) := by
  have hname : useCaseName s.goName = s.goName ↔ ¬ hasServiceMarker s.goName = true := by
    rw [useCaseName_eq_self_iff, hasServiceMarker_iff]
  exact due_if_not hname _

end

theorem servicesWarned (u : SourceUnit) (r : Roots) (ss : List Service) :
    ServicesWarned u r ss ((ss.flatMap fun s => s.declarations r) ++ [.translation r.translation])
      (ss.flatMap fun s => s.warnings u.source u.importPath) := by
  induction ss with
  | nil => exact .nil r.translation
  | cons s ss ih =>
    rw [List.flatMap_cons, List.flatMap_cons, List.append_assoc]
    exact .cons rfl (markerWarnings_due u r s) (methodsWarned u r s s.methods) ih

/-! ### no other warnings -/

theorem Due.unique {reason : Prop} {w : Warning} {ws vs : List Warning} (h : Due reason w ws)
    (h' : Due reason w vs) : ws = vs := by
  cases h with
  | given h =>
    cases h' with
    | given => rfl
    | spared hno => exact absurd h hno
  | spared hno =>
    cases h' with
    | given h => exact absurd h hno
    | spared => rfl

section
variable {u : SourceUnit} {r : Roots} {s : Service} {m : Method} {a : Adapter} {ms : List Method}
  {ss : List Service} {ds : List Declaration} {ws vs : List Warning}

theorem MethodWarned.unique (h : MethodWarned u r s m a ws) (h' : MethodWarned u r s m a vs) :
    ws = vs := by
  cases h with
  | intro types _ _ streams input output paramFallback responseFallback =>
    cases h' with
    | intro types' _ _ streams' input' output' paramFallback' responseFallback' =>
      have hlocals := types.locals.symm.trans types'.locals
      simp only [List.cons.injEq, Local.mk.injEq, TypeExpr.mk.injEq, TypeName.imported.injEq, true_and,
        and_true] at hlocals
      obtain ⟨rfl, rfl⟩ := hlocals
      rw [streams.unique streams', input.unique input', output.unique output',
        paramFallback.unique paramFallback', responseFallback.unique responseFallback']

theorem MethodsWarned.length_eq (h : MethodsWarned u r s ms ds ws) : ds.length = ms.length := by
  induction h with
  | nil => rfl
  | cons _ _ ih => exact congrArg (· + 1) ih

theorem MethodsWarned.unique (h : MethodsWarned u r s ms ds ws) (h' : MethodsWarned u r s ms ds vs) :
    ws = vs := by
  induction h generalizing vs with
  | nil =>
    cases h' with
    | nil => rfl
  | cons head _ ih =>
    cases h' with
    | cons head' tail' => rw [head.unique head', ih tail']

theorem ServicesWarned.unique (h : ServicesWarned u r ss ds ws) (h' : ServicesWarned u r ss ds vs) :
    ws = vs := by
  induction h generalizing vs with
  | nil t =>
    cases h' with
    | nil => rfl
  | @cons s ss w ds es _ _ _ _ unmarked methods _ ih =>
    generalize hdeclarations : Declaration.wrapper w :: (ds ++ es) = declarations at h'
    cases h' with
    | cons _ unmarked' methods' tail' =>
      obtain ⟨hwrapper, happend⟩ := List.cons.inj hdeclarations
      obtain rfl := Declaration.wrapper.inj hwrapper
      -- both walks take as many declarations as the service has methods
      obtain ⟨rfl, rfl⟩ := List.append_inj happend (methods.length_eq.trans methods'.length_eq.symm)
      rw [unmarked.unique unmarked', methods.unique methods', ih tail']

end

/-! ## bare types -/

/-- no warning is about a message of another package -/
def WithoutForeign (ws : List Warning) : Prop :=
  ∀ service method message path, .foreignTransportMessage service method message path ∉ ws

/-- the types that an adapter writes, without that of `err` -/
def Adapter.transportTypes (a : Adapter) : List TypeName :=
  a.input.name :: a.output.name :: (a.locals.filter fun l => l.name ≠ "err").map fun l => l.type.name

/-- every bare type is a message of the method that the package of the unit declares -/
def Adapter.OwnTypes (u : SourceUnit) (m : Method) (a : Adapter) : Prop :=
  ∀ name, .bare name ∈ a.transportTypes → ⟨name, u.importPath⟩ ∈ [m.input, m.output]

theorem withoutForeign_append {ws vs : List Warning} :
    WithoutForeign (ws ++ vs) ↔ WithoutForeign ws ∧ WithoutForeign vs := by
  simp only [WithoutForeign, List.mem_append, not_or, forall_and]

theorem Due.not_reason {reason : Prop} {w : Warning} {ws : List Warning} (h : Due reason w ws)
    (hw : w ∉ ws) : ¬ reason := by
  cases h with
  | given => exact absurd (List.mem_singleton_self w) hw
  | spared h => exact h

section
variable {u : SourceUnit} {r : Roots} {s : Service} {m : Method} {a : Adapter} {ms : List Method}
  {ss : List Service} {ds : List Declaration} {ws : List Warning}

theorem Adapter.Types.ownTypes {param response : Ident} (h : a.Types m param response)
    (hinput : m.input.importPath = u.importPath) (houtput : m.output.importPath = u.importPath) :
    a.OwnTypes u m := by
  intro name hname
  have htypes : a.transportTypes = [.bare m.input.name, .bare m.output.name, .imported param,
      .imported response, .bare m.output.name] := by
    rw [transportTypes, h.input, h.output, h.locals]
    rfl
  have hbare : name = m.input.name ∨ name = m.output.name := by
    rw [htypes] at hname
    simpa only [List.mem_cons, TypeName.bare.injEq, reduceCtorEq, List.not_mem_nil, or_false,
      false_or, or_self] using hname
  rcases hbare with rfl | rfl
  · rw [← hinput]
    exact List.mem_cons_self
  · rw [← houtput]
    exact List.mem_cons_of_mem _ List.mem_cons_self

theorem MethodWarned.ownTypes (h : MethodWarned u r s m a ws) (hown : WithoutForeign ws) :
    a.OwnTypes u m := by
  cases h with
  | intro types _ _ _ input output _ _ =>
    simp only [withoutForeign_append] at hown
    apply types.ownTypes
    · exact not_not.mp (input.not_reason (hown.1.1.1.2 _ _ _ _))
    · exact not_not.mp (output.not_reason (hown.1.1.2 _ _ _ _))

theorem MethodsWarned.ownTypes (h : MethodsWarned u r s ms ds ws) (hown : WithoutForeign ws) :
    List.Forall₂ (fun m a => a.OwnTypes u m) ms (ds.filterMap Declaration.adapter?) := by
  induction h with
  | nil => exact .nil
  | cons head tail ih =>
    rw [withoutForeign_append] at hown
    exact .cons (head.ownTypes hown.1) (ih hown.2)

theorem ServicesWarned.ownTypes (h : ServicesWarned u r ss ds ws) (hown : WithoutForeign ws) :
    List.Forall₂ (fun m a => a.OwnTypes u m) (ss.flatMap Service.methods)
      (ds.filterMap Declaration.adapter?) := by
  induction h with
  | nil t => exact .nil
  | cons _ _ methods _ ih =>
    rw [withoutForeign_append, withoutForeign_append] at hown
    rw [List.flatMap_cons, List.filterMap_cons_none rfl, List.filterMap_append]
    exact List.rel_append (methods.ownTypes hown.1.2) (ih hown.2)

end

/-- **Warnings are sound and complete against the unit**: they are those that its declarations give reason
for, in order, and no others.  Without one about a message of another package, all bare types are right. -/
theorem SchemaFile.warnings_exact (f : SchemaFile) (r : Roots) (fileName : String) :
    (∀ ws, ServicesWarned (f.unit r fileName) r f.services (f.unit r fileName).declarations ws ↔
      ws = f.warnings) ∧
    (WithoutForeign f.warnings → List.Forall₂ (fun m a => a.OwnTypes (f.unit r fileName) m) f.methods
      (f.unit r fileName).adapters) := by
  have hwarned : ServicesWarned (f.unit r fileName) r f.services (f.unit r fileName).declarations
      f.warnings := servicesWarned (f.unit r fileName) r f.services
  refine ⟨?_, hwarned.ownTypes⟩
  intro ws
  constructor
  · intro h
    exact h.unique hwarned
  · rintro rfl
    exact hwarned

/-! ### orders -/

/-- a file whose service has no marker, and whose method streams orders -/
def ordersFile : SchemaFile where
  name := "orders.services.proto"
  importPath := "shop/rpc"
  packageName := "rpc"
  services := [{
    name := "Orders"
    goName := "Orders"
    methods := [{
      name := "list_orders"
      goName := "ListOrders"
      input := ⟨"ListOrdersParams", "shop/rpc"⟩
      output := ⟨"Order", "shop/rpc"⟩
      serverStreaming := true }] }]

def shopRoots : Roots := ⟨"shop/domain", "shop/app", "shop/dts"⟩

theorem SchemaFile.warnings_exact_orders :
    ordersFile.warnings =
      [.serviceWithoutMarker "orders.services.proto" "Orders",
      .streamingMethod "Orders" "list_orders",
      .domainFallback "Orders" "list_orders" "response payload type" "Order"] ∧
    WithoutForeign ordersFile.warnings ∧
    List.Forall₂ (fun m a => a.OwnTypes (ordersFile.unit shopRoots "orders.go") m) ordersFile.methods
      (ordersFile.unit shopRoots "orders.go").adapters := by
  have hwarnings : ordersFile.warnings =
      [.serviceWithoutMarker "orders.services.proto" "Orders",
      .streamingMethod "Orders" "list_orders",
      .domainFallback "Orders" "list_orders" "response payload type" "Order"] := by decide +kernel
  have hown : WithoutForeign ordersFile.warnings := by
    rw [hwarnings]
    intro service method message path
    simp only [List.mem_cons, reduceCtorEq, List.not_mem_nil, or_false, not_false_eq_true]
  exact ⟨hwarnings, hown, (warnings_exact ordersFile shopRoots "orders.go").2 hown⟩

end RpcAdapters
