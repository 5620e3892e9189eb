import RpcAdapters.Exchange
import RpcAdapters.Proofs.Generation.Outcome
import RpcAdapters.Proofs.Schema.Demands
import RpcAdapters.Proofs.Wire.Requests
import RpcAdapters.Proofs.Wire.Responses

/-!
# Answers to a schema compiler

Every request that can be read is answered with one response, whatever goes wrong after that.

* `GenerationError.chain`   what an error says, from the outermost context to the cause;
* `Request.Fails r e`       a stage of the work on `r` ends with `e`;
* `Request.fails_iff`       this is what generation ends with;
* `exchange_exact`          what is written for any bytes at all.
-/

namespace RpcAdapters

/-! ## chains of causes -/

def SchemaError.chain : SchemaError → List String
  | .noImportPath file => [noImportPathMessage file]
  | .inMethod file service method cause =>
    [file ++ ": method " ++ service ++ "." ++ method, cause.message]

def GenerationError.chain : GenerationError → List String
  | .options e => [e.message]
  | .schema e => e.chain
  | .layout e => [e.message]
  | .render e => [e.message]

theorem SchemaError.message_eq (e : SchemaError) : e.message = ": ".intercalate e.chain := by
  cases e with
  | noImportPath file => exact String.intercalate_singleton.symm
  | inMethod file service method cause =>
    rw [chain, String.intercalate_cons_cons, String.intercalate_singleton]
    simp only [message, String.append_assoc]

theorem GenerationError.message_eq (e : GenerationError) : e.message = ": ".intercalate e.chain := by
  cases e with
  | schema e => exact e.message_eq
  | options e => exact String.intercalate_singleton.symm
  | layout e => exact String.intercalate_singleton.symm
  | render e => exact String.intercalate_singleton.symm

/-! ## stages -/

namespace Request

/-- one of the three stages ends with the error: reading the options, building the schema, generation -/
inductive Fails (r : Request) : GenerationError → Prop where
  | options {e} (h : Options.parse r.parameter = .error e) : r.Fails (.options e)
  | schema {o e} (ho : Options.parse r.parameter = .ok o)
      (h : buildSchema r.files r.filesToGenerate o.overrides = .error e) : r.Fails (.schema e)
  | generation {p e} (hp : r.plan = .ok p) (h : p.generate = .error e) : r.Fails e

variable {r : Request}

theorem fails_of_plan {e : GenerationError} (h : r.plan = .error e) : r.Fails e := by
  simp only [plan, bind_eq_error_iff, mapError_eq_error_iff, mapError_eq_ok_iff] at h
  rcases h with ⟨cause, hcause, rfl⟩ | ⟨o, ho, ⟨cause, hcause, rfl⟩ | ⟨files, _, hpure⟩⟩
  · exact .options hcause
  · exact .schema ho hcause
  · exact absurd hpure pure_ne_error

theorem fails_of_generate {e : GenerationError} (h : r.generate = .error e) : r.Fails e := by
  simp only [generate, bind_eq_error_iff] at h
  rcases h with hplan | ⟨p, hp, hgenerate | ⟨g, _, hpure⟩⟩
  · exact fails_of_plan hplan
  · exact .generation hp hgenerate
  · exact absurd hpure pure_ne_error

theorem generate_of_fails {e : GenerationError} (h : r.Fails e) : r.generate = .error e := by
  cases h with
  | options h =>
    rw [generate, plan, h]
    rfl
  | schema ho h =>
    rw [generate, plan, ho]
    show ((buildSchema _ _ _).mapError _ >>= fun files => _) >>= _ = _
    rw [h]
    rfl
  | @generation p e hp h =>
    rw [generate, hp]
    show p.generate >>= _ = _
    rw [h]
    rfl

theorem fails_iff {e : GenerationError} : r.Fails e ↔ r.generate = .error e :=
  ⟨generate_of_fails, fails_of_generate⟩

theorem Fails.unique {e e' : GenerationError} (h : r.Fails e) (h' : r.Fails e') : e = e' :=
  Except.error.inj ((fails_iff.mp h).symm.trans (fails_iff.mp h'))

theorem generate_eq_ok_iff {p : Plan} {g : Generation} :
    r.generate = .ok (p, g) ↔ r.plan = .ok p ∧ p.generate = .ok g := by
  simp only [generate, bind_eq_ok_iff, pure_eq_ok_iff, Prod.mk.injEq]
  constructor
  · rintro ⟨_, hp, _, hg, rfl, rfl⟩
    exact ⟨hp, hg⟩
  · rintro ⟨hp, hg⟩
    exact ⟨p, hp, g, hg, rfl, rfl⟩

end Request

/-! ## answers -/

theorem Response.decode_encode_respond (r : Request)
    (h : r.respond.response.encode.length < Wire.varintLimit) :
    Response.decode r.respond.response.encode = .ok r.respond.response := by
  have hfeatures : r.respond.response.supportedFeatures? = some 1 := by
    rw [Request.respond]
    split <;> rfl
  apply Response.decode_encode _ h
  intro n hn
  rw [hfeatures, Option.some.injEq] at hn
  subst hn
  decide

theorem exchange_of_decode {input : List UInt8} {r : Request} (h : Request.decode input = .ok r) :
    exchange input = .ok ⟨r.respond.response.encode, r.respond.report⟩ := by
  rw [exchange, h]
  rfl

/-- **Every request is answered**: bytes that are no request make the exchange fail; any other bytes are
answered with the encoding of one response, which holds either the error of the stage that failed or
the generated files. -/
theorem exchange_exact (input : List UInt8) :
    (∀ e, Request.decode input = .error e → exchange input = .error e) ∧
    ∀ r, Request.decode input = .ok r → ∃ reply response, exchange input = .ok reply ∧
      reply.output = response.encode ∧ Response.read? reply.output = some response ∧
      (reply.output.length < Wire.varintLimit → Response.decode reply.output = .ok response) ∧
      response.supportedFeatures? = some 1 ∧
      ((∃ e, r.Fails e ∧ response.error? = some (": ".intercalate e.chain) ∧
          response.files = [] ∧ reply.report = []) ∨
        (∀ e, ¬ r.Fails e) ∧ ∃ p g, r.plan = .ok p ∧ p.generate = .ok g ∧ response.error? = none ∧
          response.files = g.files.map fun f => ⟨some f.name, none, some f.content⟩) := by
  constructor
  · intro e h
    rw [exchange, h]
    rfl
  · intro r h
    have hread := Response.read?_encode r.respond.response
    have hdecode := Response.decode_encode_respond r
    refine ⟨⟨r.respond.response.encode, r.respond.report⟩, r.respond.response,
      exchange_of_decode h, rfl, hread, hdecode, ?_⟩
    cases hr : r.generate with
    | error e =>
      rw [Request.respond, hr]
      exact ⟨rfl, .inl ⟨e, Request.fails_iff.mpr hr, congrArg some e.message_eq, rfl, rfl⟩⟩
    | ok result =>
      obtain ⟨p, g⟩ := result
      obtain ⟨hp, hg⟩ := Request.generate_eq_ok_iff.mp hr
      have hnone : ∀ e, ¬ r.Fails e := fun e he => nomatch hr.symm.trans (Request.fails_iff.mp he)
      rw [Request.respond, hr]
      exact ⟨rfl, .inr ⟨hnone, p, g, hp, hg, rfl, rfl⟩⟩

/-! ### a parcel -/

/-- the box of the parcel has no import path, unless the options give it one -/
def parcelRequest (more : String) : Request where
  filesToGenerate := ["parcel.services.proto"]
  parameter? := some ("domainPath=shop/domain,useCasePath=shop/app,dtsPath=shop/dts" ++ more)
  files := parcelFiles

def parcelError : GenerationError :=
  .schema (.inMethod "parcel.services.proto" "ParcelService" "Pack" (.noImportPath "box.proto"))

def parcelPlan : Plan where
  files := [
    { name := "box.proto", requested := false, importPath := "box/rpc", packageName := "rpc" },
    { name := "parcel.services.proto"
      importPath := "parcel/rpc"
      packageName := "rpc"
      services := [{
        name := "ParcelService"
        goName := "ParcelService"
        methods := [
          { name := "Send", goName := "Send", input := ⟨"Parcel", "parcel/rpc"⟩,
            output := ⟨"Parcel", "parcel/rpc"⟩ },
          { name := "Pack", goName := "Pack", input := ⟨"Box", "box/rpc"⟩,
            output := ⟨"Parcel", "parcel/rpc"⟩ }] }] }]
  roots := ⟨"shop/domain", "shop/app", "shop/dts"⟩

theorem decode_parcelRequest (more : String)
    (hsize : (parcelRequest more).encode.length < Wire.varintLimit) :
    Request.decode (parcelRequest more).encode = .ok (parcelRequest more) := by
  have hnested : ∀ f ∈ parcelFiles, ∀ path ∈ f.paths, path.length < Wire.maxDepth := by
    decide +kernel
  exact Request.decode_of_fields (Request.interleaved_encode hnested) hsize

theorem fails_parcelRequest : (parcelRequest "").Fails parcelError :=
  Request.fails_of_plan rfl

/-- the file that is generated has the text of its unit -/
theorem exists_generate_parcelPlan : ∃ g content, parcelPlan.generate = .ok g ∧
    g.files = [⟨"parcel.services_pprpc.pb.go", content⟩] := by
  obtain ⟨g, hg⟩ := parcelPlan.exists_generate_eq_ok_iff.mpr fun f _ =>
    Plan.exists_fileName_of_sourceRelative rfl f
  have heligible : parcelPlan.eligibleFiles = parcelPlan.files.tail := by decide +kernel
  have hyields := (parcelPlan.yields_of_generate hg).files
  rw [heligible] at hyields
  obtain ⟨⟨name, content⟩, _, ⟨hname, _⟩, hnil, hfiles⟩ := List.forall₂_cons_left_iff.mp hyields
  obtain rfl := List.forall₂_nil_left_iff.mp hnil
  have hname' : "parcel.services_pprpc.pb.go" = name := Except.ok.inj (.trans (by decide +kernel) hname)
  exact ⟨g, content, hg, hname' ▸ hfiles⟩

/-- a byte that is cut off, a request that asks for nothing, an error with its context, and a file -/
theorem exchange_exact_parcel :
    (Request.decode [0xff] = .error { cause := .varint } ∧
      exchange [0xff] = .error { cause := .varint }) ∧
    (Request.decode [] = .ok {} ∧ ∃ reply response, exchange [] = .ok reply ∧
      Response.read? reply.output = some response ∧
      response.error? = some "missing required parameter 'domainPath'" ∧ response.files = [] ∧
      reply.report = []) ∧
    (Request.decode (parcelRequest "").encode = .ok (parcelRequest "") ∧
      ∃ reply response, exchange (parcelRequest "").encode = .ok reply ∧
        Response.read? reply.output = some response ∧
        response.error? = some (": ".intercalate ["parcel.services.proto: method ParcelService.Pack",
          noImportPathMessage "box.proto"]) ∧ response.files = [] ∧ reply.report = []) ∧
    Request.decode (parcelRequest ",Mbox.proto=box/rpc").encode
      = .ok (parcelRequest ",Mbox.proto=box/rpc") ∧
      ∃ reply response content, exchange (parcelRequest ",Mbox.proto=box/rpc").encode = .ok reply ∧
        Response.read? reply.output = some response ∧ response.error? = none ∧
        response.files = [⟨some "parcel.services_pprpc.pb.go", none, some content⟩] := by
  refine ⟨?_, ?_, ?_, ?_⟩
  · have hdecode : Request.decode [0xff] = .error { cause := .varint } := rfl
    exact ⟨hdecode, (exchange_exact [0xff]).1 _ hdecode⟩
  · have hdecode : Request.decode [] = .ok {} := rfl
    have hfails : ({} : Request).Fails (.options (.missingRoot .domain)) := .options rfl
    obtain ⟨reply, response, hreply, -, hread, -, -, hanswer⟩ := (exchange_exact []).2 {} hdecode
    refine ⟨hdecode, reply, response, hreply, hread, ?_⟩
    rcases hanswer with ⟨e, he, herror, hfiles, hreport⟩ | ⟨hnone, -⟩
    · obtain rfl := he.unique hfails
      exact ⟨herror, hfiles, hreport⟩
    · exact absurd hfails (hnone _)
  · have hdecode := decode_parcelRequest "" (by decide +kernel)
    obtain ⟨reply, response, hreply, -, hread, -, -, hanswer⟩ := (exchange_exact _).2 _ hdecode
    refine ⟨hdecode, reply, response, hreply, hread, ?_⟩
    rcases hanswer with ⟨e, he, herror, hfiles, hreport⟩ | ⟨hnone, -⟩
    · obtain rfl := he.unique fails_parcelRequest
      exact ⟨herror, hfiles, hreport⟩
    · exact absurd fails_parcelRequest (hnone _)
  · have hdecode := decode_parcelRequest ",Mbox.proto=box/rpc" (by decide +kernel)
    have hplan : (parcelRequest ",Mbox.proto=box/rpc").plan = .ok parcelPlan := rfl
    obtain ⟨g, content, hg, hfiles⟩ := exists_generate_parcelPlan
    have hgenerate := Request.generate_eq_ok_iff.mpr ⟨hplan, hg⟩
    obtain ⟨reply, response, hreply, -, hread, -, -, hanswer⟩ := (exchange_exact _).2 _ hdecode
    refine ⟨hdecode, reply, response, content, hreply, hread, ?_⟩
    rcases hanswer with ⟨e, he, -⟩ | ⟨-, p, g', hp, hg', herror, hanswered⟩
    · exact nomatch hgenerate.symm.trans (Request.fails_iff.mp he)
    · obtain rfl := Except.ok.inj (hplan.symm.trans hp)
      obtain rfl := Except.ok.inj (hg.symm.trans hg')
      rw [hfiles] at hanswered
      exact ⟨herror, hanswered⟩

end RpcAdapters
