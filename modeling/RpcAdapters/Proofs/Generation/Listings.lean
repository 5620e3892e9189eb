import RpcAdapters.Generation.Listing
import RpcAdapters.Proofs.Generation.Packages

/-!
# Listings and adapters

The table of adapters is made from the schema alone, and yet says of every adapter what stands in the unit
that is emitted for it.

* `Adapter.typesOf a name`       the types that the body of an adapter declares a name with;
* `Listing.Describes row u a`    what a row says of the adapter `a` in the unit `u`;
* `Request.listings_exact`       one row for each adapter, in order, and each row describes its adapter.
-/

namespace RpcAdapters

/-! ## rows and adapters -/

def Step.locals : Step → List Local
  | .declareLocals locals => locals
  | _ => []

namespace Adapter

def locals (a : Adapter) : List Local := a.steps.flatMap Step.locals

def typesOf (a : Adapter) (name : String) : List TypeExpr :=
  (a.locals.filter fun l => l.name = name).map Local.type

end Adapter

/-- the row and the unit say the same of an adapter -/
structure Listing.Describes (row : Listing) (u : SourceUnit) (a : Adapter) : Prop where
  file : row.file = u.source
  method : row.method = a.name
  service : row.service ++ "Rpc" = a.receiverType
  wrapper : ∃ w ∈ u.wrappers, w.name = a.receiverType
  useCase : ∀ w ∈ u.wrappers, w.name = a.receiverType → row.useCase = w.useCase.text
  param : ∃ i pointer, a.typesOf "ucIn" = [⟨.imported i, pointer⟩] ∧ row.param = i.text
  response : ∃ i pointer, a.typesOf "ucOut" = [⟨.imported i, pointer⟩] ∧ row.response = i.text

theorem Method.typesOf_useCaseInput (m : Method) (r : Roots) (wrapper : String) :
    (m.adapter r wrapper).typesOf "ucIn" = [⟨.imported (m.requestIdent r), false⟩] := rfl

theorem Method.typesOf_useCaseOutput (m : Method) (r : Roots) (wrapper : String) :
    (m.adapter r wrapper).typesOf "ucOut" = [⟨.imported (m.responseIdent r), true⟩] := rfl

section
variable (f : SchemaFile) (r : Roots) (fileName : String)

theorem Method.describes_listing {s : Service} (hs : s ∈ f.services) (m : Method) :
    (m.listing f.name s r).Describes (f.unit r fileName) (m.adapter r s.wrapperName) := by
  constructor
  case file => rfl
  case method => rfl
  case service => rfl
  case wrapper =>
    rw [f.wrappers_unit]
    exact ⟨s.wrapper r, List.mem_map_of_mem hs, rfl⟩
  case useCase =>
    intro w hw hname
    rw [f.wrappers_unit] at hw
    obtain ⟨s', _, rfl⟩ := List.mem_map.mp hw
    -- another service with this wrapper has the same Go name, and so the same use case
    have hgoName : s'.goName = s.goName := Service.wrapperName_inj hname
    show (s.useCaseIdent r).text = (s'.useCaseIdent r).text
    rw [Service.useCaseIdent, Service.useCaseIdent, hgoName]
  case param => exact ⟨_, _, m.typesOf_useCaseInput r s.wrapperName, rfl⟩
  case response => exact ⟨_, _, m.typesOf_useCaseOutput r s.wrapperName, rfl⟩

theorem SchemaFile.describes_listings :
    List.Forall₂ (fun row (x : SourceUnit × Adapter) => row.Describes x.1 x.2) (f.listings r)
      ((f.unit r fileName).adapters.map fun a => (f.unit r fileName, a)) := by
  rw [f.adapters_unit, List.map_flatMap]
  have hservices : List.Forall₂ (fun s s' => s = s' ∧ s ∈ f.services) f.services f.services :=
    List.forall₂_same.mpr fun s hs => ⟨rfl, hs⟩
  refine List.rel_flatMap hservices fun s s' ⟨heq, hs⟩ => ?_
  subst heq
  rw [Service.listings, List.map_map]
  exact List.forall₂_map_left_iff.mpr (List.forall₂_map_right_iff.mpr
    (List.forall₂_same.mpr fun m _ => m.describes_listing f r fileName hs))

theorem SchemaFile.length_listings : (f.listings r).length = f.methods.length := by
  rw [listings, methods, List.length_flatMap, List.length_flatMap]
  simp only [Service.listings, List.length_map]

end

/-! ## whole plans -/

namespace Plan

variable {p : Plan}

theorem describes_listings {units : List SourceUnit} (h : p.Emits units) :
    List.Forall₂ (fun row (x : SourceUnit × Adapter) => row.Describes x.1 x.2) p.listings
      (units.flatMap fun u => u.adapters.map fun a => (u, a)) := by
  refine List.rel_flatMap h fun f u ⟨name, hu⟩ => ?_
  subst hu
  exact f.describes_listings p.roots name

theorem length_listings {g : Generation} (h : p.Yields g) :
    p.listings.length = g.stats.adaptersGenerated := by
  rw [h.adapters, listings, List.length_flatMap, List.length_flatMap]
  simp only [SchemaFile.length_listings]

end Plan

namespace Request

variable {r : Request}

theorem listings_eq_ok_iff {rows : List Listing} :
    r.listings = .ok rows ↔ ∃ p, r.plan = .ok p ∧ p.listings = rows := by
  simp only [listings, bind_eq_ok_iff, pure_eq_ok_iff]

theorem listings_eq_error_iff {e : GenerationError} :
    r.listings = .error e ↔ r.plan = .error e := by
  rw [listings, bind_eq_error_iff]
  refine ⟨fun h => ?_, .inl⟩
  rcases h with h | ⟨_, _, hpure⟩
  · exact h
  · exact absurd hpure pure_ne_error

variable (r)

/-- **Listings tell what is generated**: a request has listings if it has a plan, and then one for each
adapter of the units emitted for it, in order, with what stands in that unit. -/
theorem listings_exact :
    (∀ e, r.listings = .error e ↔ r.plan = .error e) ∧
    ((∃ rows, r.listings = .ok rows) ↔ ∃ p, r.plan = .ok p) ∧
    ∀ p rows, r.plan = .ok p → r.listings = .ok rows →
      (∀ units, p.Emits units →
        List.Forall₂ (fun row (x : SourceUnit × Adapter) => row.Describes x.1 x.2) rows
          (units.flatMap fun u => u.adapters.map fun a => (u, a))) ∧
      ∀ g, p.generate = .ok g → rows.length = g.stats.adaptersGenerated ∧ p.Emits (p.unitsOf g) ∧
        List.Forall₂ (fun u file => u.fileName = file.name ∧ u.render = .ok file.content)
          (p.unitsOf g) g.files := by
  refine ⟨fun _ => listings_eq_error_iff, ⟨?_, ?_⟩, fun p rows hp hrows => ?_⟩
  · rintro ⟨rows, h⟩
    obtain ⟨p, hp, _⟩ := listings_eq_ok_iff.mp h
    exact ⟨p, hp⟩
  · rintro ⟨p, hp⟩
    exact ⟨p.listings, listings_eq_ok_iff.mpr ⟨p, hp, rfl⟩⟩
  · obtain ⟨p', hp', rfl⟩ := listings_eq_ok_iff.mp hrows
    obtain rfl := Except.ok.inj (hp.symm.trans hp')
    refine ⟨fun units => Plan.describes_listings, fun g hg => ?_⟩
    have hyields := p.yields_of_generate hg
    exact ⟨Plan.length_listings hyields, Plan.emits_unitsOf hyields, Plan.forall₂_unitsOf hyields⟩

end Request

end RpcAdapters
