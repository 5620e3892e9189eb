import RpcAdapters.Proofs.Exchange.Answers
import RpcAdapters.Proofs.Standalone.Outputs
import RpcAdapters.Proofs.Wire.Resending

/-!
# With and without a schema compiler

A run on a descriptor set does what becomes of the response that a schema compiler gets which sends the
set as a request.

* `ResponseFile.WrittenAs`           how a file of a response is written below a directory;
* `Follows response output t o`      the outcome `o` is what the response asks for in the tree `t`;
* `Outcome.follows_exchange`         runs follow the exchange, for any set that can be read.
-/

namespace RpcAdapters

def ResponseFile.WrittenAs (f : ResponseFile) (output : String) (w : FileWrite) : Prop :=
  ∃ name content, f = ⟨some name, none, some content⟩ ∧ w = ⟨Path.join output name, content⟩

/-- a response with an error is followed by failing with it and leaving the tree alone, and any other
response by writing its files one after the other, up to the first that cannot be written -/
inductive Follows (response : Response) (output : String) (t : FileTree) (o : Outcome) : Prop where
  | failed {e : GenerationError} (herror : response.error? = some (": ".intercalate e.chain))
      (hfailure : o.failure? = some (.generation e)) (htree : o.tree = t)
  | wrote {writes : List FileWrite} (herror : response.error? = none)
      (hwrites : List.Forall₂ (fun f w => f.WrittenAs output w) response.files writes)
      (hfailure : o.failure? = (t.writeAll writes).2.map .unwritable)
      (htree : o.tree = (t.writeAll writes).1)

/-! ## runs -/

theorem forall₂_writtenAs (output : String) (g : Generation) :
    List.Forall₂ (fun f w => ResponseFile.WrittenAs f output w) (Response.ofGeneration g).files
      (Standalone.writesOf output g) := by
  show List.Forall₂ _ (g.files.map _) (g.files.map _)
  rw [List.forall₂_map_left_iff, List.forall₂_map_right_iff, List.forall₂_same]
  intro f _
  exact ⟨f.name, f.content, rfl, rfl⟩

section
variable {v : Verbosity} {path param output : String} {files : List String} {s : Surroundings}
  {set : DescriptorSet}

theorem follows_respond (hset : Standalone.readSet path (s.tree.readFile path) = .ok set) :
    Follows (set.request files (some param)).respond.response output s.tree
      (Outcome.ofGenerate v path param files output s) := by
  have hresult := Standalone.result_of_readSet v param files output hset
  rw [Request.respond]
  cases hg : (set.request files (some param)).generate with
  | error e =>
    rw [hg] at hresult
    obtain ⟨hfailure, htree⟩ := Outcome.of_result_error hresult
    have herror : (Response.ofError e.message).error? = some (": ".intercalate e.chain) :=
      congrArg some e.message_eq
    exact .failed herror hfailure htree
  | ok result =>
    obtain ⟨p, g⟩ := result
    rw [hg] at hresult
    obtain ⟨hfailure, htree⟩ := Outcome.of_result_ok hresult
    exact .wrote rfl (forall₂_writtenAs output g) hfailure htree

/-- without a choice of files all are asked for -/
theorem requested_of_plan {p : Plan} (h : (set.request [] (some param)).plan = .ok p) :
    List.Forall₂ (fun d f => f.name = d.name ∧ f.requested = true) set.files p.files := by
  obtain ⟨o, _, schema, hschema, rfl⟩ := Request.plan_eq_ok_iff.mp h
  have hasked : ∀ d ∈ set.files, (set.request [] (some param)).filesToGenerate.contains d.name = true := by
    intro d hd
    exact List.contains_iff_mem.mpr (List.mem_map_of_mem hd)
  have hfiles := (List.forall₂_and_left ..).mpr ⟨hasked, buildSchema_eq_ok_iff.mp hschema⟩
  refine hfiles.imp fun d f hf => ?_
  obtain ⟨hcontains, hf⟩ := hf
  rw [hcontains, Supplied.schemaFile, if_pos rfl] at hf
  obtain ⟨importPath, _, services, _, rfl⟩ := (Supplied.requestedFile_eq_ok_iff _).mp hf
  exact ⟨rfl, rfl⟩

end

/-- **A run on its own follows the exchange**: for a set that can be read from a file, whatever is asked
for, the request that holds it is read by the other side of the exchange, and the run does what the
response says.  If no files are chosen, all files of the set are asked for.  Nothing can be longer than
varints say, which have 64 bits. -/
theorem Outcome.follows_exchange (v : Verbosity) (path param : String) (files : List String)
    (output : String) (s : Surroundings) {set : DescriptorSet}
    (hset : Standalone.readSet path (s.tree.readFile path) = .ok set) :
    ((set.request files (some param)).encode.length < Wire.varintLimit →
      Request.decode (set.request files (some param)).encode = .ok (set.request files (some param))) ∧
    (∀ input, Request.decode input = .ok (set.request files (some param)) →
      ∃ reply response, exchange input = .ok reply ∧ Response.read? reply.output = some response ∧
        Follows response output s.tree (ofGenerate v path param files output s)) ∧
    (set.request [] (some param)).filesToGenerate = set.files.map ProtoFile.name ∧
    ∀ p, (set.request [] (some param)).plan = .ok p →
      List.Forall₂ (fun d f => f.name = d.name ∧ f.requested = true) set.files p.files := by
  refine ⟨?_, ?_, rfl, fun p hp => requested_of_plan hp⟩
  · intro hsize
    obtain ⟨bytes, _, hdecode⟩ := bind_eq_ok_iff.mp hset
    exact DescriptorSet.decode_encode_of_decode (mapError_eq_ok_iff.mp hdecode) files (some param) hsize
  · intro input hinput
    refine ⟨_, _, exchange_of_decode hinput, Response.read?_encode _, ?_⟩
    exact follows_respond hset

/-- twins are written, and with two of their options missing they are not -/
theorem Outcome.follows_exchange_twins :
    Standalone.readSet "shop.set" (twinTree.readFile "shop.set") = .ok twinSet ∧
    (∃ reply response, exchange (twinSet.request [] (some twinOptions)).encode = .ok reply ∧
      Response.read? reply.output = some response ∧ Follows response "out" twinTree twinRun ∧
      twinRun.failure? = none) ∧
    ∃ reply response, exchange (twinSet.request [] (some "domainPath=shop/domain")).encode = .ok reply ∧
      Response.read? reply.output = some response ∧
      response.error? = some "missing required parameter 'useCasePath'" ∧
      (ofGenerate .normal "shop.set" "domainPath=shop/domain" [] "out" { tree := twinTree }).tree
        = twinTree := by
  have hset := readSet_twins
  have hsize : ∀ param ∈ [twinOptions, "domainPath=shop/domain"],
      (twinSet.request [] (some param)).encode.length < Wire.varintLimit := by decide +kernel
  have h (param : String) := follows_exchange .normal "shop.set" param [] "out" { tree := twinTree } hset
  refine ⟨hset, ?_, ?_⟩
  · obtain ⟨hdecode, hexchange, -⟩ := h twinOptions
    obtain ⟨reply, response, hreply, hread, hfollows⟩ :=
      hexchange _ (hdecode (hsize _ (List.mem_cons_self ..)))
    obtain ⟨_, _, _, _, _, _, _, _, _, hsuccess, _⟩ := run_twins
    exact ⟨reply, response, hreply, hread, hfollows, hsuccess⟩
  · obtain ⟨hdecode, hexchange, -⟩ := h "domainPath=shop/domain"
    obtain ⟨reply, response, hreply, hread, hfollows⟩ :=
      hexchange _ (hdecode (hsize _ (List.mem_cons_of_mem _ (List.mem_singleton_self _))))
    have hmissing : (twinSet.request [] (some "domainPath=shop/domain")).generate
        = .error (.options (.missingRoot .useCase)) := rfl
    have hresult :=
      Standalone.result_of_readSet .normal "domainPath=shop/domain" [] "out" hset
    rw [hmissing] at hresult
    obtain ⟨hfailure, htree⟩ := of_result_error (s := { tree := twinTree }) hresult
    refine ⟨reply, response, hreply, hread, ?_, htree⟩
    cases hfollows with
    | failed herror hfailure' =>
      obtain rfl := RunError.generation.inj (Option.some.inj (hfailure'.symm.trans hfailure))
      exact herror
    | wrote _ _ hfailure' =>
      rw [hfailure'] at hfailure
      obtain ⟨_, _, hunwritable⟩ := Option.map_eq_some_iff.mp hfailure
      exact nomatch hunwritable

end RpcAdapters
