import RpcAdapters.Proofs.Lookup
import RpcAdapters.Proofs.Wire.Unknown
import RpcAdapters.Wire.Request

/-!
# Decoding what was encoded

The readers of texts, fields and messages, on bytes that were written and have anything behind them.
Between the fields of a message there may be others whose tags are not declared in its type.  Varints have
64 bits, so nothing may be longer than they can say.

* `Reads item`, `ReadsAll item`  what one item of a sequence is read as, and all of them;
* `ReadsAll.delimited`           such a sequence behind its length;
* `Field.Holds`                  a field, other than a message, with a value of its type;
* `Interleaved depth type fs bytes`   the bytes hold the fields `fs` of a message type, in order, with
                                 undeclared ones between; `depth` levels are left;
* `decode_of_interleaved`        such bytes are read as these fields;
* `Field.Fits depth type`        a field that a message type declares, with `depth` levels left below it;
* `decode_encodeFields`          a whole message, as it is written.
-/

namespace RpcAdapters.Wire

open Buffer

/-! ## texts -/

theorem readText_utf8 {value : String} (h : (Text.utf8 value).length < varintLimit)
    (rest : List UInt8) :
    readText (ofBytes (writeVarint (Text.utf8 value).length ++ (Text.utf8 value ++ rest)))
      = .ok (value, ofBytes rest) := by
  have htake := take?_ofBytes_append (Text.utf8 value) rest
  rw [readText, (varint_writeVarint h).read]
  simp only [bind, Except.bind, htake, Text.ofUtf8?_utf8]
  rfl

theorem length_lt_of_writeDelimited (tag : Nat) (bytes : List UInt8) {n : Nat}
    (h : (writeDelimited tag bytes).length < n) : bytes.length < n := by
  rw [writeDelimited, List.length_append] at h
  omega

/-! ## sequences -/

section
variable {α : Type} (item : ItemReader α)

/-- the bytes of one item are read as its values, whatever follows them -/
structure Reads (values : List α) (bytes : List UInt8) : Prop where
  length_pos : 0 < bytes.length
  read (rest : List UInt8) : item (ofBytes (bytes ++ rest)) = .ok (values, ofBytes rest)

/-- the bytes of a whole sequence are read as its values, whatever follows them -/
def ReadsAll (values : List α) (bytes : List UInt8) : Prop :=
  ∀ (rest : List UInt8) (fuel : Nat), bytes.length ≤ fuel →
    readItems item rest.length fuel (ofBytes (bytes ++ rest)) = .ok (values, ofBytes rest)

variable {item} {values more : List α} {bytes tail : List UInt8}

theorem readsAll_nil : ReadsAll item [] [] := by
  intro rest fuel _
  rw [List.nil_append]
  cases fuel with
  | zero => rw [readItems, if_pos (size_ofBytes rest)]
  | succ fuel =>
    rw [readItems, if_neg (by rw [size_ofBytes]; omega), if_pos (size_ofBytes rest)]

theorem Reads.append (h : Reads item values bytes) (h' : ReadsAll item more tail) :
    ReadsAll item (values ++ more) (bytes ++ tail) := by
  intro rest fuel hfuel
  have hpos := h.length_pos
  rw [List.length_append] at hfuel
  cases fuel with
  | zero => omega
  | succ fuel =>
    have hstop : rest.length < (ofBytes (bytes ++ (tail ++ rest))).size := by
      rw [size_ofBytes, List.length_append, List.length_append]
      omega
    rw [List.append_assoc, readItems, if_pos hstop, h.read]
    show (readItems item rest.length fuel (ofBytes (tail ++ rest)) >>= fun p => _) = _
    rw [h' rest fuel (by omega)]
    rfl

theorem ReadsAll.delimited (h : ReadsAll item values bytes) (hsize : bytes.length < varintLimit)
    (rest : List UInt8) :
    readDelimited item (ofBytes (writeVarint bytes.length ++ (bytes ++ rest)))
      = .ok (values, ofBytes rest) := by
  have hlength : (ofBytes (bytes ++ rest)).size = bytes.length + rest.length :=
    List.length_append ..
  rw [readDelimited, (varint_writeVarint hsize).read]
  show (if (ofBytes (bytes ++ rest)).size < bytes.length then _
    else readItems item ((ofBytes (bytes ++ rest)).size - bytes.length) (ofBytes (bytes ++ rest)).size
      (ofBytes (bytes ++ rest))) = _
  rw [hlength, if_neg (by omega), Nat.add_sub_cancel_left]
  exact h rest _ (by omega)

end

/-! ## fields -/

/-- no tag is declared twice in a type -/
theorem MessageType.field?_eq_some_iff {type : MessageType} {tag : Nat} {known : String × FieldType} :
    type.field? tag = some known ↔ (tag, known) ∈ type.fields := by
  have hnodup : (type.fields.map Prod.fst).Nodup := by cases type <;> decide
  exact ⟨mem_of_lookup, lookup_of_mem hnodup⟩

/-- tags are small, so that keys are -/
theorem MessageType.tag_of_field? {type : MessageType} {tag : Nat} {known : String × FieldType}
    (h : type.field? tag = some known) : 0 < tag ∧ tag < 1000 := by
  have hall : ∀ p ∈ type.fields, 0 < p.1 ∧ p.1 < 1000 := by cases type <;> decide
  exact hall (tag, known) (field?_eq_some_iff.mp h)

theorem isKey_of_field? {type : MessageType} {key : Key} {known : String × FieldType}
    (h : type.field? key.tag = some known) : IsKey key (writeKey key) := by
  obtain ⟨hpos, hlt⟩ := MessageType.tag_of_field? h
  have hwire := key.wire.number_lt
  have hsmall : 8 * key.tag + key.wire.number < 8000 := by omega
  exact isKey_writeKey hpos (Nat.lt_trans hsmall (by decide))

namespace Field

def tag : Field → Nat
  | .text tag _ | .flag tag _ | .number tag _ | .message tag _ => tag

/-- a field, other than a message, with a value of the type -/
inductive Holds : FieldType → Field → Prop where
  | text {tag value} : Holds .text (.text tag value)
  | flag {tag value} : Holds .flag (.flag tag value)
  | number {tag value} (hvalue : value < varintLimit) : Holds .number (.number tag value)

end Field

section
variable {readSub : SubmessageReader} {skip : Key → Buffer → Except Cause Buffer} {type : MessageType}

theorem reads_of_declared {f : Field} (key : Key) {name : String} {fieldType : FieldType}
    {written : List UInt8} (hknown : type.field? key.tag = some (name, fieldType))
    (hread : ∀ rest, readTyped readSub fieldType key (ofBytes (written ++ rest))
      = .ok ([f], ofBytes rest)) :
    Reads (readField readSub skip type) [f] (writeKey key ++ written) where
  length_pos := by
    have hpos := (isKey_of_field? hknown).length_pos
    rw [List.length_append]
    omega
  read := by
    intro rest
    rw [readField, List.append_assoc, (isKey_of_field? hknown).read]
    show readContent readSub skip type key (ofBytes (written ++ rest)) = _
    rw [readContent, hknown]
    simp only [hread rest]
    rfl

theorem reads_of_holds {f : Field} {name : String} {fieldType : FieldType}
    (hknown : type.field? f.tag = some (name, fieldType)) (hvalue : f.Holds fieldType)
    (hsize : f.encode.length < varintLimit) :
    Reads (readField readSub skip type) [f] f.encode := by
  cases hvalue with
  | @text tag value =>
    have hlength := length_lt_of_writeDelimited tag _ hsize
    rw [Field.encode, writeDelimited, List.append_assoc]
    refine reads_of_declared ⟨tag, .lengthDelimited⟩ hknown fun rest => ?_
    rw [readTyped, List.append_assoc, readText_utf8 hlength]
    rfl
  | @flag tag value =>
    rw [Field.encode]
    refine reads_of_declared ⟨tag, .varint⟩ hknown fun rest => ?_
    rw [readTyped, (varint_writeVarint (by cases value <;> decide)).read]
    cases value <;> rfl
  | @number tag value hlimit =>
    rw [Field.encode]
    refine reads_of_declared ⟨tag, .varint⟩ hknown fun rest => ?_
    rw [readTyped, (varint_writeVarint hlimit).read]
    rfl

end

theorem reads_unknown {readSub : SubmessageReader} {type : MessageType} {depth tag : Nat}
    {bytes : List UInt8} (hnone : type.field? tag = none) (h : Unknown depth tag bytes) :
    Reads (readField readSub (skipField depth) type) [] bytes where
  length_pos := h.skipped.length_pos
  read := by
    intro rest
    obtain ⟨wire, tail, _, hkey, hskip⟩ := h.skipped rest
    rw [readField, hkey]
    show readContent readSub (skipField depth) type ⟨tag, wire⟩ (ofBytes tail) = _
    rw [readContent, hnone, hskip]
    rfl

/-- the reader of the fields of a message, where so many levels are left -/
abbrev fieldReader (depth : Nat) (type : MessageType) : ItemReader Field :=
  readField (readSubmessage depth) (skipField depth) type

theorem reads_message {depth tag : Nat} {type sub : MessageType} {name : String}
    {fields : List Field} {bytes : List UInt8}
    (hknown : type.field? tag = some (name, .message sub)) (hsize : bytes.length < varintLimit)
    (h : ReadsAll (fieldReader depth sub) fields bytes) :
    Reads (fieldReader (depth + 1) type) [.message tag fields] (writeDelimited tag bytes) := by
  rw [writeDelimited, List.append_assoc]
  refine reads_of_declared ⟨tag, .lengthDelimited⟩ hknown fun rest => ?_
  rw [readTyped, List.append_assoc, readSubmessage, h.delimited hsize]
  rfl

/-! ## messages -/

/-- what a message of a type may look like that holds certain fields: each is written as always, but
before, between and after them there may be fields with tags that the type does not declare, also in
submessages -/
inductive Interleaved : (depth : Nat) → MessageType → List Field → List UInt8 → Prop where
  | nil {depth type} : Interleaved depth type [] []
  | unknown {depth type tag bytes fields rest} (hnone : type.field? tag = none)
      (hfield : Unknown depth tag bytes) (hrest : Interleaved depth type fields rest) :
      Interleaved depth type fields (bytes ++ rest)
  | value {depth type name fieldType f fields rest}
      (hknown : type.field? f.tag = some (name, fieldType)) (hvalue : f.Holds fieldType)
      (hrest : Interleaved depth type fields rest) :
      Interleaved depth type (f :: fields) (f.encode ++ rest)
  | message {depth type tag name sub inner bytes fields rest}
      (hknown : type.field? tag = some (name, .message sub))
      (hinner : Interleaved depth sub inner bytes)
      (hrest : Interleaved (depth + 1) type fields rest) :
      Interleaved (depth + 1) type (.message tag inner :: fields) (writeDelimited tag bytes ++ rest)

/-- the induction is on the fields of the message and, for a submessage, on its own -/
theorem Interleaved.readsAll {depth : Nat} {type : MessageType} {fields : List Field}
    {bytes : List UInt8} (h : Interleaved depth type fields bytes)
    (hsize : bytes.length < varintLimit) : ReadsAll (fieldReader depth type) fields bytes := by
  induction h with
  | nil => exact readsAll_nil
  | unknown hnone hfield _ ih =>
    rw [List.length_append] at hsize
    exact (reads_unknown hnone hfield).append (ih (by omega))
  | value hknown hvalue _ ih =>
    rw [List.length_append] at hsize
    exact (reads_of_holds hknown hvalue (by omega)).append (ih (by omega))
  | @message depth type tag name sub inner bytes fields rest hknown _ _ ihinner ih =>
    rw [List.length_append] at hsize
    have hbytes : bytes.length < varintLimit :=
      length_lt_of_writeDelimited tag _ (Nat.lt_of_le_of_lt (Nat.le_add_right ..) hsize)
    exact (reads_message hknown hbytes (ihinner hbytes)).append (ih (by omega))

theorem decode_of_interleaved {type : MessageType} {fields : List Field} {bytes : List UInt8}
    (h : Interleaved maxDepth type fields bytes) (hsize : bytes.length < varintLimit) :
    decode type bytes = .ok fields := by
  have hread := h.readsAll hsize [] bytes.length (Nat.le_refl _)
  rw [List.append_nil] at hread
  rw [decode]
  show (readItems (fieldReader maxDepth type) ([] : List UInt8).length bytes.length (ofBytes bytes)
    >>= fun p => _) = _
  rw [hread]
  rfl

/-! ## messages as they are written -/

/-- a field that is read back in a message of the type, where `depth` levels of messages are left -/
inductive Field.Fits : (depth : Nat) → MessageType → Field → Prop where
  | value {depth type name fieldType f} (hknown : type.field? f.tag = some (name, fieldType))
      (hvalue : f.Holds fieldType) : Fits depth type f
  | message {depth type tag name sub fields} (hknown : type.field? tag = some (name, .message sub))
      (hfields : ∀ f ∈ fields, Fits depth sub f) : Fits (depth + 1) type (.message tag fields)

theorem interleaved_of_forall {depth : Nat} {type : MessageType} {fs : List Field}
    (h : ∀ f ∈ fs, ∀ {fields rest}, Interleaved depth type fields rest →
      Interleaved depth type (f :: fields) (f.encode ++ rest)) :
    Interleaved depth type fs (encodeFields fs) := by
  induction fs with
  | nil => exact .nil
  | cons f fs ih =>
    have hrest := ih fun g hg => h g (List.mem_cons_of_mem _ hg)
    exact h f (List.mem_cons_self ..) hrest

theorem Field.Fits.interleaved {depth : Nat} {type : MessageType} {f : Field} (h : f.Fits depth type)
    {fields : List Field} {rest : List UInt8} (hrest : Interleaved depth type fields rest) :
    Interleaved depth type (f :: fields) (f.encode ++ rest) := by
  induction h generalizing fields rest with
  | value hknown hvalue => exact .value hknown hvalue hrest
  | message hknown _ ih =>
    rw [Field.encode]
    exact .message hknown (interleaved_of_forall ih) hrest

theorem interleaved_encodeFields {depth : Nat} {type : MessageType} {fs : List Field}
    (h : ∀ f ∈ fs, f.Fits depth type) : Interleaved depth type fs (encodeFields fs) :=
  interleaved_of_forall fun f hf => (h f hf).interleaved

theorem decode_encodeFields {type : MessageType} {fs : List Field}
    (hfits : ∀ f ∈ fs, f.Fits maxDepth type) (hsize : (encodeFields fs).length < varintLimit) :
    decode type (encodeFields fs) = .ok fs :=
  decode_of_interleaved (interleaved_encodeFields hfits) hsize

end RpcAdapters.Wire
