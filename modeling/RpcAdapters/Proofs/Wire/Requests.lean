import RpcAdapters.Proofs.Schema.Paths
import RpcAdapters.Proofs.Wire.Decoding
import RpcAdapters.Proofs.Wire.Values

/-!
# Requests are read back

* `…ofFields_fields`          a value is what its fields say, for every part of a request;
* `…fits_of_mem_fields`       its fields can be read as long as messages are not nested too deep;
* `DescriptorSet.decode_encode`   a written set is read back;
* `Request.decode_written`    a written request is read back, also with undeclared fields in it.
-/

namespace RpcAdapters

open Wire

/-! ## what the fields of a value say -/

theorem nestedFields_eq_map (tag : Nat) (ms : List ProtoMessage) :
    nestedFields tag ms = ms.map fun m => .message tag m.fields := by
  induction ms with
  | nil => rfl
  | cons m ms ih => rw [nestedFields, ih, List.map_cons]

theorem protoMessagesOf_eq_filterMap (tag : Nat) (fs : List Field) :
    protoMessagesOf tag fs = fs.filterMap (protoMessageOf? tag) := by
  induction fs with
  | nil => rfl
  | cons f fs ih =>
    rw [protoMessagesOf, ih, List.filterMap_cons]
    cases protoMessageOf? tag f <;> rfl

theorem protoMessagesOf_textField (tag t : Nat) (value? : Option String) (fs : List Field) :
    protoMessagesOf tag (textField t value? ++ fs) = protoMessagesOf tag fs := by
  cases value? <;> simp [textField, protoMessagesOf, protoMessageOf?]

-- the induction follows the trees; a message is read after the ones nested in it
mutual

theorem ProtoMessage.protoMessageOf?_fields (tag : Nat) :
    ∀ m : ProtoMessage, protoMessageOf? tag (.message tag m.fields) = some m
  | ⟨name?, nested⟩ => by
    have hname : texts 1 (textField 1 name? ++ nestedFields 3 nested) = name?.toList := by
      simp [texts, textField, nestedFields_eq_map, filterMap_optional, Field.text?]
    rw [ProtoMessage.fields, protoMessageOf?, if_pos rfl, text?, hname, getLast?_toList,
      protoMessagesOf_textField, protoMessagesOf_nestedFields 3 nested]

theorem protoMessagesOf_nestedFields (tag : Nat) :
    ∀ ms : List ProtoMessage, protoMessagesOf tag (nestedFields tag ms) = ms
  | [] => rfl
  | m :: ms => by
    rw [nestedFields, protoMessagesOf, m.protoMessageOf?_fields tag,
      protoMessagesOf_nestedFields tag ms]
    rfl

end

theorem ProtoMethod.ofFields_fields (m : ProtoMethod) : ofFields m.fields = m := by
  simp [ofFields, fields, text?, texts, flag?, textField, flagField, filterMap_optional,
    Field.text?, Field.flag?, getLast?_toList]

theorem ProtoService.ofFields_fields (s : ProtoService) : ofFields s.fields = s := by
  have hname : texts 1 s.fields = s.name?.toList := by
    simp [texts, fields, textField, filterMap_optional, Field.text?]
  have hmethods : submessages 2 s.fields = s.methods.map ProtoMethod.fields := by
    simp [submessages, fields, textField, filterMap_optional, Field.message?, Function.comp_def]
  rw [ofFields, text?, hname, hmethods, getLast?_toList, map_of_map ProtoMethod.ofFields_fields]

theorem ProtoOptions.ofFields_fields (o : ProtoOptions) : ofFields o.fields = o := by
  simp [ofFields, fields, text?, texts, textField, filterMap_optional, Field.text?, getLast?_toList]

namespace ProtoFile

theorem ofFields_fields (f : ProtoFile) : ofFields f.fields = f := by
  have hname : texts 1 f.fields = f.name?.toList := by
    simp [texts, fields, textField, nestedFields_eq_map, filterMap_optional, Field.text?]
  have hpackage : texts 2 f.fields = f.package?.toList := by
    simp [texts, fields, textField, nestedFields_eq_map, filterMap_optional, Field.text?]
  have hmessages : protoMessagesOf 4 f.fields = f.messages := by
    have hnested := protoMessagesOf_nestedFields 4 f.messages
    rw [protoMessagesOf_eq_filterMap] at hnested
    simp [protoMessagesOf_eq_filterMap, fields, textField, filterMap_optional, hnested,
      protoMessageOf?]
  have hservices : submessages 6 f.fields = f.services.map ProtoService.fields := by
    simp [submessages, fields, textField, nestedFields_eq_map, filterMap_optional, Field.message?,
      Function.comp_def]
  have hoptions : submessages 8 f.fields = (f.options?.bind fun o => some o.fields).toList := by
    simp [submessages, fields, textField, nestedFields_eq_map, filterMap_optional, Field.message?,
      Function.comp_def]
  have hmerged : (merged? 8 f.fields).map ProtoOptions.ofFields = f.options? := by
    rw [merged?, hoptions]
    cases f.options? with
    | none => rfl
    | some o => simp [ProtoOptions.ofFields_fields]
  rw [ofFields, text?, text?, hname, hpackage, hmessages, hservices, hmerged, getLast?_toList,
    getLast?_toList, map_of_map ProtoService.ofFields_fields]

end ProtoFile

namespace Request

theorem ofFields_fields (r : Request) : ofFields r.fields = r := by
  have hnames : texts 1 r.fields = r.filesToGenerate := by
    simp [texts, fields, textField, filterMap_optional, Field.text?, Function.comp_def]
  have hparameter : texts 2 r.fields = r.parameter?.toList := by
    simp [texts, fields, textField, filterMap_optional, Field.text?, Function.comp_def]
  have hfiles : submessages 15 r.fields = r.files.map ProtoFile.fields := by
    simp [submessages, fields, textField, filterMap_optional, Field.message?, Function.comp_def]
  rw [ofFields, text?, hnames, hparameter, hfiles, getLast?_toList,
    map_of_map ProtoFile.ofFields_fields]

end Request

/-! ## which fields these are -/

-- the induction follows the trees; every message takes one of the levels that are left
mutual

theorem ProtoMessage.fits {type : MessageType} {tag : Nat} {name : String}
    (hknown : type.field? tag = some (name, .message .message)) {depth : Nat} :
    ∀ m : ProtoMessage, (∀ path ∈ m.paths, path.length ≤ depth) →
      (Field.message tag m.fields).Fits depth type
  | ⟨name?, nested⟩, h => by
    have hself : [name?.getD ""] ∈ ProtoMessage.paths ⟨name?, nested⟩ := by
      simp [ProtoMessage.paths]
    have hone : 1 ≤ depth := h _ hself
    obtain ⟨depth, rfl⟩ := Nat.exists_eq_add_of_le' hone
    have hnested : ∀ path ∈ messagePaths nested, path.length ≤ depth := by
      intro path hpath
      have hlonger : name?.getD "" :: path ∈ ProtoMessage.paths ⟨name?, nested⟩ := by
        simp [ProtoMessage.paths, hpath]
      exact Nat.le_of_succ_le_succ (h _ hlonger)
    refine .message hknown fun f hf => ?_
    rw [ProtoMessage.fields] at hf
    rcases List.mem_append.mp hf with hf | hf
    · obtain ⟨value, rfl⟩ := mem_textField hf
      exact .value rfl .text
    · exact fits_of_mem_nestedFields rfl nested hnested f hf

theorem fits_of_mem_nestedFields {type : MessageType} {tag : Nat} {name : String}
    (hknown : type.field? tag = some (name, .message .message)) {depth : Nat} :
    ∀ ms : List ProtoMessage, (∀ path ∈ messagePaths ms, path.length ≤ depth) →
      ∀ f ∈ nestedFields tag ms, f.Fits depth type
  | [], _ => fun _ hf => nomatch hf
  | m :: ms, h => by
    intro f hf
    have hm : ∀ path ∈ m.paths, path.length ≤ depth := fun path hpath =>
      h path (List.mem_append_left _ hpath)
    have hms : ∀ path ∈ messagePaths ms, path.length ≤ depth := fun path hpath =>
      h path (List.mem_append_right _ hpath)
    rw [nestedFields] at hf
    rcases List.mem_cons.mp hf with rfl | hf
    · exact m.fits hknown hm
    · exact fits_of_mem_nestedFields hknown ms hms f hf

end

theorem ProtoMethod.fits_of_mem_fields {m : ProtoMethod} {depth : Nat} {g : Field}
    (hg : g ∈ m.fields) : g.Fits depth .method := by
  simp only [fields, List.mem_append] at hg
  rcases hg with (((hg | hg) | hg) | hg) | hg
  case inr | inl.inr =>
    obtain ⟨value, rfl⟩ := mem_flagField hg
    exact .value rfl .flag
  all_goals
    obtain ⟨value, rfl⟩ := mem_textField hg
    exact .value rfl .text

theorem ProtoService.fits_of_mem_fields {s : ProtoService} {depth : Nat} {g : Field}
    (hg : g ∈ s.fields) : g.Fits (depth + 1) .service := by
  rcases List.mem_append.mp hg with hg | hg
  · obtain ⟨value, rfl⟩ := mem_textField hg
    exact .value rfl .text
  · obtain ⟨m, -, rfl⟩ := List.mem_map.mp hg
    exact .message rfl fun f hf => ProtoMethod.fits_of_mem_fields hf

theorem ProtoFile.fits_of_mem_fields {f : ProtoFile} {depth : Nat}
    (h : ∀ path ∈ f.paths, path.length ≤ depth + 2) {g : Field} (hg : g ∈ f.fields) :
    g.Fits (depth + 2) .file := by
  simp only [fields, List.mem_append] at hg
  rcases hg with (((hg | hg) | hg) | hg) | hg
  · obtain ⟨value, rfl⟩ := mem_textField hg
    exact .value rfl .text
  · obtain ⟨value, rfl⟩ := mem_textField hg
    exact .value rfl .text
  · exact fits_of_mem_nestedFields rfl f.messages h g hg
  · obtain ⟨s, -, rfl⟩ := List.mem_map.mp hg
    exact .message rfl fun f hf => ProtoService.fits_of_mem_fields hf
  · obtain ⟨o, -, rfl⟩ := Option.map_eq_some_iff.mp (Option.mem_toList.mp hg)
    refine .message rfl fun f hf => ?_
    obtain ⟨value, rfl⟩ := mem_textField hf
    exact .value rfl .text

theorem Request.fits_of_mem_fields {r : Request}
    (h : ∀ f ∈ r.files, ∀ path ∈ f.paths, path.length < maxDepth) {g : Field} (hg : g ∈ r.fields) :
    g.Fits maxDepth .request := by
  simp only [fields, List.mem_append] at hg
  rcases hg with (hg | hg) | hg
  · obtain ⟨value, -, rfl⟩ := List.mem_map.mp hg
    exact .value rfl .text
  · obtain ⟨value, rfl⟩ := mem_textField hg
    exact .value rfl .text
  · obtain ⟨f, hf, rfl⟩ := List.mem_map.mp hg
    have hpaths : ∀ path ∈ f.paths, path.length ≤ 97 + 2 := fun path hpath =>
      Nat.le_of_lt_succ (h f hf path hpath)
    exact .message rfl fun g hg => ProtoFile.fits_of_mem_fields hpaths hg

/-! ## sets -/

namespace DescriptorSet

theorem ofFields_fields (s : DescriptorSet) : ofFields s.fields = s := by
  have hfiles : submessages 1 s.fields = s.files.map ProtoFile.fields := by
    simp [submessages, fields, Field.message?, Function.comp_def]
  rw [ofFields, hfiles, map_of_map ProtoFile.ofFields_fields]

theorem decode_encode {s : DescriptorSet} (h : ∀ f ∈ s.files, ∀ path ∈ f.paths, path.length < maxDepth)
    (hsize : s.encode.length < varintLimit) : decode s.encode = .ok s := by
  have hfits : ∀ g ∈ s.fields, g.Fits maxDepth .descriptorSet := by
    intro g hg
    obtain ⟨f, hf, rfl⟩ := List.mem_map.mp hg
    have hpaths : ∀ path ∈ f.paths, path.length ≤ 97 + 2 := fun path hpath =>
      Nat.le_of_lt_succ (h f hf path hpath)
    exact .message rfl fun g hg => ProtoFile.fits_of_mem_fields hpaths hg
  rw [decode, encode, Wire.decode_encodeFields hfits hsize]
  exact congrArg Except.ok s.ofFields_fields

end DescriptorSet

/-! ## requests -/

namespace Request

theorem decode_of_fields {r : Request} {bytes : List UInt8}
    (h : Interleaved maxDepth .request r.fields bytes) (hsize : bytes.length < varintLimit) :
    decode bytes = .ok r := by
  rw [decode, decode_of_interleaved h hsize]
  exact congrArg Except.ok r.ofFields_fields

theorem interleaved_encode {r : Request}
    (h : ∀ f ∈ r.files, ∀ path ∈ f.paths, path.length < maxDepth) :
    Interleaved maxDepth .request r.fields r.encode :=
  interleaved_encodeFields fun _ hg => fits_of_mem_fields h hg

/-- **A written request is read back**, where messages are nested into one another as deep as a reader
follows them; a file is the first of its 100 levels.  So it is with fields of undeclared tags between the
fields of any message, as deep as they go.  Nothing can be longer than varints say, which have 64 bits. -/
theorem decode_written (r : Request) :
    ((∀ f ∈ r.files, ∀ path ∈ f.paths, path.length < 100) →
      Interleaved 100 .request r.fields r.encode ∧
        (r.encode.length < varintLimit → decode r.encode = .ok r)) ∧
    ∀ bytes, Interleaved 100 .request r.fields bytes → bytes.length < varintLimit →
      decode bytes = .ok r := by
  constructor
  · intro hnested
    have hwritten := interleaved_encode hnested
    exact ⟨hwritten, decode_of_fields hwritten⟩
  · intro bytes h hsize
    exact decode_of_fields h hsize

/-- texts that are empty, options that say nothing, a flag that is not set, and a message in another -/
def sample : Request where
  filesToGenerate := ["a.proto"]
  parameter? := some ""
  files := [
    { name? := some "a.proto"
      messages := [{ name? := some "M", nested := [{}] }]
      services := [{ methods := [{ serverStreaming? := some false }] }]
      options? := some {} }]

/-- the sample with a varint of tag 7 at the beginning, 64 bits of tag 20 in the outer message, and at the
end a group of tag 9 with a group in it that holds a text -/
def sampleBytes : List UInt8 := [
  0x38, 0x96, 0x01,
  0x0a, 0x07, 0x61, 0x2e, 0x70, 0x72, 0x6f, 0x74, 0x6f,
  0x12, 0x00,
  0x7a, 0x22,
    0x0a, 0x07, 0x61, 0x2e, 0x70, 0x72, 0x6f, 0x74, 0x6f,
    0x22, 0x0f,
      0x0a, 0x01, 0x4d,
      0x1a, 0x00,
      0xa1, 0x01, 0x08, 0x07, 0x06, 0x05, 0x04, 0x03, 0x02, 0x01,
    0x32, 0x04, 0x12, 0x02, 0x30, 0x00,
    0x42, 0x00,
  0x4b, 0x13, 0x0a, 0x02, 0x68, 0x69, 0x14, 0x4c]

-- first as a reader takes it apart, with the levels that are left, and then that these are the bytes
theorem interleaved_sample : Interleaved 100 .request sample.fields sampleBytes := by
  have hkey {tag : Nat} {wire : WireType} (h : 0 < tag ∧ 8 * tag + wire.number < keyLimit) :
      IsKey ⟨tag, wire⟩ (writeKey ⟨tag, wire⟩) := isKey_writeKey h.1 h.2
  have hsingle {depth tag : Nat} {bytes : List UInt8} (h : Unknown depth tag bytes) :
      ∀ f ∈ [(tag, bytes)], Unknown depth f.1 f.2 := List.forall_mem_singleton.mpr h
  have hvarint : Unknown 100 7 (writeKey ⟨7, .varint⟩ ++ writeVarint 150) :=
    .varint (hkey (by decide)) (varint_writeVarint (by decide))
  have hbits : Unknown 98 20 (writeKey ⟨20, .sixtyFourBit⟩ ++ [8, 7, 6, 5, 4, 3, 2, 1]) :=
    .sixtyFourBit (hkey (by decide)) rfl
  have htext : Unknown 98 1 (writeKey ⟨1, .lengthDelimited⟩ ++ (writeVarint 2 ++ [0x68, 0x69])) :=
    .lengthDelimited (hkey (by decide)) (varint_writeVarint (by decide))
  have hinner : Unknown 99 2 _ := .group (hkey (by decide)) (hsingle htext) (hkey (by decide))
  have hgroup : Unknown 100 9 _ := .group (hkey (by decide)) (hsingle hinner) (hkey (by decide))
  have hmessage : Interleaved 98 .message [.text 1 "M", .message 3 []] _ :=
    .value rfl .text (.message rfl .nil (.unknown rfl hbits .nil))
  have hservice : Interleaved 98 .service [.message 2 [.flag 6 false]] _ :=
    .message rfl (.value rfl .flag .nil) .nil
  have hfile : Interleaved 99 .file [.text 1 "a.proto", .message 4 [.text 1 "M", .message 3 []],
      .message 6 [.message 2 [.flag 6 false]], .message 8 []] _ :=
    .value rfl .text
      (.message rfl hmessage (.message rfl hservice (.message rfl .nil .nil)))
  have h : Interleaved 100 .request sample.fields _ :=
    .unknown rfl hvarint
      (.value rfl .text (.value rfl .text (.message rfl hfile (.unknown rfl hgroup .nil))))
  refine Eq.mp (congrArg (Interleaved 100 .request sample.fields) ?_) h
  decide +kernel

theorem decode_written_sample :
    (∀ f ∈ sample.files, ∀ path ∈ f.paths, path.length < 100) ∧
    sample.encode.length < varintLimit ∧ decode sample.encode = .ok sample ∧
    Interleaved 100 .request sample.fields sampleBytes ∧ sampleBytes.length < varintLimit ∧
    decode sampleBytes = .ok sample := by
  have hnested : ∀ f ∈ sample.files, ∀ path ∈ f.paths, path.length < 100 := by decide +kernel
  have hsize : sample.encode.length < varintLimit := by decide +kernel
  have hsize' : sampleBytes.length < varintLimit := by decide
  obtain ⟨hwritten, hany⟩ := decode_written sample
  exact ⟨hnested, hsize, (hwritten hnested).2 hsize, interleaved_sample, hsize',
    hany _ interleaved_sample hsize'⟩

-- a tag that is declared cannot be passed over: this would be an enumeration, but it is no message
example : decode [0x7a, 0x02, 0x28, 0x01] = .error {
    path := [("FileDescriptorProto", "enum_type"), ("CodeGeneratorRequest", "proto_file")]
    cause := .wireType .varint .lengthDelimited } := rfl

end Request

end RpcAdapters
