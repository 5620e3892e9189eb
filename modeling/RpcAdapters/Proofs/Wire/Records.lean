import RpcAdapters.Wire.Request

/-!
# What bytes say on the wire

A message is read here without knowing its type, by the rules of the wire alone and however long its
parts are: it is a list of records, and a record is a tag with a number or with bytes.

* `leadingVarint?`, `leadingRecord?`   a number, and a record, with the bytes after it;
* `records?_encodeFields`              fields are one record each, in order;
* `bytesOf`, `numbersOf`, `textsOf?`   what records hold under a tag.
-/

namespace RpcAdapters.Wire

/-! ## numbers -/

/-- a number in base 128, the lowest digit first; there is no bound on it -/
def leadingVarint? : List UInt8 → Option (Nat × List UInt8)
  | [] => none
  | b :: bytes =>
    if b.toNat < 128 then some (b.toNat, bytes)
    else (leadingVarint? bytes).map fun p => (b.toNat - 128 + 128 * p.1, p.2)

theorem leadingVarint?_writeVarint (n : Nat) (rest : List UInt8) :
    leadingVarint? (writeVarint n ++ rest) = some (n, rest) := by
  induction n using Nat.strongRecOn with
  | ind n ih =>
    by_cases h : n < 128
    · have hbyte : n.toUInt8.toNat = n := toNat_toUInt8 (by omega)
      rw [writeVarint_of_lt h, List.singleton_append, leadingVarint?, hbyte, if_pos h]
    · have hbyte : (n % 128 + 128).toUInt8.toNat = n % 128 + 128 := toNat_toUInt8 (by omega)
      rw [writeVarint_of_ge (by omega), List.cons_append, leadingVarint?, hbyte, if_neg (by omega),
        ih (n / 128) (by omega), Option.map_some, Nat.add_sub_cancel, Nat.mod_add_div]

/-! ## records -/

inductive Payload where
  | number (n : Nat)
  | bytes (bytes : List UInt8)
  deriving DecidableEq, Repr

structure Record where
  tag : Nat
  payload : Payload
  deriving DecidableEq, Repr

namespace Record

def number? (tag : Nat) : Record → Option Nat
  | ⟨t, .number n⟩ => if t = tag then some n else none
  | _ => none

def bytes? (tag : Nat) : Record → Option (List UInt8)
  | ⟨t, .bytes bytes⟩ => if t = tag then some bytes else none
  | _ => none

end Record

/-- what follows a key; the wire types that no field here has are not read -/
def leadingPayload? (wire : Nat) (bytes : List UInt8) : Option (Payload × List UInt8) :=
  match wire, leadingVarint? bytes with
  | 0, some (n, rest) => some (.number n, rest)
  | 2, some (n, rest) =>
    if n ≤ rest.length then some (.bytes (rest.take n), rest.drop n) else none
  | _, _ => none

def leadingRecord? (bytes : List UInt8) : Option (Record × List UInt8) :=
  match leadingVarint? bytes with
  | none => none
  | some (key, rest) => (leadingPayload? (key % 8) rest).map fun p => (⟨key / 8, p.1⟩, p.2)

/-- all records, up to the very end of the bytes; there are at most `fuel` -/
def readRecords? : (fuel : Nat) → List UInt8 → Option (List Record)
  | _, [] => some []
  | 0, _ :: _ => none
  | fuel + 1, b :: bytes =>
    match leadingRecord? (b :: bytes) with
    | none => none
    | some (r, rest) => (readRecords? fuel rest).map (r :: ·)

def records? (bytes : List UInt8) : Option (List Record) := readRecords? bytes.length bytes

/-! ### the records of fields -/

def Field.record : Field → Record
  | .text tag value => ⟨tag, .bytes (Text.utf8 value)⟩
  | .flag tag value => ⟨tag, .number (if value then 1 else 0)⟩
  | .number tag value => ⟨tag, .number value⟩
  | .message tag fields => ⟨tag, .bytes (encodeFields fields)⟩

theorem leadingVarint?_writeKey (key : Key) (rest : List UInt8) :
    leadingVarint? (writeKey key ++ rest) = some (8 * key.tag + key.wire.number, rest) :=
  leadingVarint?_writeVarint _ rest

theorem leadingRecord?_number (tag n : Nat) (rest : List UInt8) :
    leadingRecord? (writeKey ⟨tag, .varint⟩ ++ writeVarint n ++ rest)
      = some (⟨tag, .number n⟩, rest) := by
  have hwire : (8 * tag + WireType.varint.number) % 8 = 0 := by simp [WireType.number]
  have htag : (8 * tag + WireType.varint.number) / 8 = tag := by simp [WireType.number]
  rw [leadingRecord?, List.append_assoc, leadingVarint?_writeKey]
  simp only [hwire, htag, leadingPayload?, leadingVarint?_writeVarint, Option.map_some]

theorem leadingRecord?_delimited (tag : Nat) (bytes rest : List UInt8) :
    leadingRecord? (writeDelimited tag bytes ++ rest) = some (⟨tag, .bytes bytes⟩, rest) := by
  have hwire : (8 * tag + WireType.lengthDelimited.number) % 8 = 2 := by
    simp [WireType.number, Nat.add_mod]
  have htag : (8 * tag + WireType.lengthDelimited.number) / 8 = tag := by
    simp only [WireType.number]; omega
  have hlength : bytes.length ≤ (bytes ++ rest).length := by simp
  rw [leadingRecord?, writeDelimited, List.append_assoc, List.append_assoc, leadingVarint?_writeKey]
  simp only [hwire, htag, leadingPayload?, leadingVarint?_writeVarint, if_pos hlength, List.take_left,
    List.drop_left, Option.map_some]

theorem leadingRecord?_encode (f : Field) (rest : List UInt8) :
    leadingRecord? (f.encode ++ rest) = some (f.record, rest) := by
  cases f with
  | text tag value => exact leadingRecord?_delimited tag (Text.utf8 value) rest
  | flag tag value => exact leadingRecord?_number tag (if value then 1 else 0) rest
  | number tag value => exact leadingRecord?_number tag value rest
  | message tag fields =>
    rw [Field.encode]
    exact leadingRecord?_delimited tag (encodeFields fields) rest

theorem encode_ne_nil (f : Field) : f.encode ≠ [] := by
  intro h
  have hread := leadingRecord?_encode f []
  rw [h] at hread
  exact nomatch hread

theorem readRecords?_encodeFields {fs : List Field} {fuel : Nat}
    (h : (encodeFields fs).length ≤ fuel) :
    readRecords? fuel (encodeFields fs) = some (fs.map Field.record) := by
  induction fs generalizing fuel with
  | nil => cases fuel <;> rfl
  | cons f fs ih =>
    have hread := leadingRecord?_encode f (encodeFields fs)
    rw [encodeFields] at h ⊢
    cases hf : f.encode with
    | nil => exact absurd hf (encode_ne_nil f)
    | cons b bytes =>
      rw [hf] at h hread
      cases fuel with
      | zero => simp at h
      | succ fuel =>
        have hrest : (encodeFields fs).length ≤ fuel := by
          simp only [List.cons_append, List.length_cons, List.length_append] at h
          omega
        rw [List.cons_append] at hread ⊢
        rw [readRecords?, hread]
        simp only [ih hrest, Option.map_some, List.map_cons]

theorem records?_encodeFields (fs : List Field) :
    records? (encodeFields fs) = some (fs.map Field.record) :=
  readRecords?_encodeFields (Nat.le_refl _)

/-! ## what records say -/

def bytesOf (tag : Nat) (rs : List Record) : List (List UInt8) := rs.filterMap (Record.bytes? tag)

def numbersOf (tag : Nat) (rs : List Record) : List Nat := rs.filterMap (Record.number? tag)

/-- the texts with a tag, if all bytes with that tag are texts -/
def textsOf? (tag : Nat) (rs : List Record) : Option (List String) :=
  (bytesOf tag rs).mapM Text.ofUtf8?

theorem mapM_map_eq_some {α β : Type} {read? : β → Option α} {write : α → β}
    (h : ∀ x, read? (write x) = some x) (xs : List α) : (xs.map write).mapM read? = some xs := by
  induction xs with
  | nil => rfl
  | cons x xs ih => simp [List.mapM_cons, h, ih]

theorem textsOf?_of_bytesOf {tag : Nat} {rs : List Record} {value? : Option String}
    (h : bytesOf tag rs = (value?.bind fun value => some (Text.utf8 value)).toList) :
    textsOf? tag rs = some value?.toList := by
  rw [textsOf?, h]
  cases value? with
  | none => rfl
  | some value => exact mapM_map_eq_some Text.ofUtf8?_utf8 [value]

end RpcAdapters.Wire
