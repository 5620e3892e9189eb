import RpcAdapters.Text.Utf8
import RpcAdapters.Wire.Key
import RpcAdapters.Wire.MessageType

/-!
# Fields

A message is a list of fields in the order in which they are written.

* `Field.encode`, `encodeFields`   the bytes of one field, of a list of fields;
* `skipField`                      passes over a field that is not declared;
* `readItems`, `readDelimited`     one item after another, up to where the last of them should end;
* `readField`, `readSubmessage`    a field of a message type, and all fields of a submessage;
* `decode type bytes`              the declared fields of a whole message, or the first error.

Submessages and the fields inside groups are one level deeper; `maxDepth` levels are read.  A submessage
only knows where it should end, so a field in it may read beyond that place, which is noticed afterwards.
-/

namespace RpcAdapters.Wire

inductive Field where
  | text (tag : Nat) (value : String)
  | flag (tag : Nat) (value : Bool)
  | number (tag : Nat) (value : Nat)
  | message (tag : Nat) (fields : List Field)
  deriving Repr, Inhabited

/-! ## writing -/

/-- the bytes of something that says how long it is -/
def writeDelimited (tag : Nat) (bytes : List UInt8) : List UInt8 :=
  writeKey ⟨tag, .lengthDelimited⟩ ++ writeVarint bytes.length ++ bytes

mutual

def Field.encode : Field → List UInt8
  | .text tag value => writeDelimited tag (Text.utf8 value)
  | .flag tag value => writeKey ⟨tag, .varint⟩ ++ writeVarint (if value then 1 else 0)
  | .number tag value => writeKey ⟨tag, .varint⟩ ++ writeVarint value
  | .message tag fields => writeDelimited tag (encodeFields fields)

def encodeFields : List Field → List UInt8
  | [] => []
  | f :: fs => f.encode ++ encodeFields fs

end

/-! ## errors -/

structure DecodeError where
  /-- message type and field name, from the innermost field outwards -/
  path : List (String × String) := []
  cause : Cause
  deriving DecidableEq, Repr

namespace DecodeError

def within (e : DecodeError) (type : MessageType) (field : String) : DecodeError :=
  { e with path := e.path ++ [(type.name, field)] }

def message (e : DecodeError) : String :=
  "failed to decode Protobuf message: " ++
    String.join (e.path.map fun p => p.1 ++ "." ++ p.2 ++ ": ") ++ e.cause.message

end DecodeError

/-! ## skipping -/

def skipBytes (buf : Buffer) (n : Nat) : Except Cause Buffer :=
  match buf.drop? n with
  | some rest => .ok rest
  | none => .error .underflow

/-- passes over fields up to the end of the group; at most `fuel` bytes are left -/
def skipGroup (skip : Key → Buffer → Except Cause Buffer) (tag : Nat) :
    (fuel : Nat) → Buffer → Except Cause Buffer
  | 0, _ => .error .varint
  | fuel + 1, buf => do
    let (key, rest) ← readKey buf
    if key.wire = .endGroup then
      if key.tag = tag then return rest else throw .endGroup
    else
      let rest ← skip key rest
      skipGroup skip tag fuel rest

def skipField : (depth : Nat) → Key → Buffer → Except Cause Buffer
  | 0, _, _ => .error .recursionLimit
  | depth + 1, key, buf =>
    match key.wire with
    | .varint => do
      let (_, rest) ← readVarint buf
      return rest
    | .sixtyFourBit => skipBytes buf 8
    | .thirtyTwoBit => skipBytes buf 4
    | .lengthDelimited => do
      let (n, rest) ← readVarint buf
      skipBytes rest n
    | .startGroup => skipGroup (skipField depth) key.tag buf.size buf
    | .endGroup => .error .endGroup

/-! ## reading -/

def expect (key : Key) (wire : WireType) : Except Cause PUnit :=
  if key.wire = wire then .ok ⟨⟩ else .error (.wireType key.wire wire)

def readText (buf : Buffer) : Except Cause (String × Buffer) := do
  let (n, rest) ← readVarint buf
  match rest.take? n with
  | none => throw .underflow
  | some (bytes, rest) =>
    match Text.ofUtf8? bytes with
    | none => throw .notUtf8
    | some s => return (s, rest)

def plain {α : Type} (x : Except Cause α) : Except DecodeError α :=
  x.mapError fun cause => { cause }

/-- reads one item of a sequence, which stands for any number of values -/
abbrev ItemReader (α : Type) := Buffer → Except DecodeError (List α × Buffer)

/-- the items up to where `stop` bytes are left; at most `fuel` bytes are left -/
def readItems {α : Type} (item : ItemReader α) (stop : Nat) : (fuel : Nat) → ItemReader α
  | 0, buf => if buf.size = stop then .ok ([], buf) else .error { cause := .lengthExceeded }
  | fuel + 1, buf =>
    if stop < buf.size then do
      let (values, rest) ← item buf
      let (more, rest) ← readItems item stop fuel rest
      return (values ++ more, rest)
    else if buf.size = stop then .ok ([], buf)
    else .error { cause := .lengthExceeded }

/-- items behind the number of their bytes -/
def readDelimited {α : Type} (item : ItemReader α) : ItemReader α := fun buf => do
  let (n, rest) ← plain (readVarint buf)
  if rest.size < n then throw { cause := .underflow }
  readItems item (rest.size - n) rest.size rest

def readNumber : ItemReader Nat := fun buf => do
  let (n, rest) ← plain (readVarint buf)
  return ([n], rest)

/-- one number, or several of them behind one key -/
def readNumbers (key : Key) : ItemReader Nat := fun buf =>
  if key.wire = .lengthDelimited then readDelimited readNumber buf
  else do
    plain (expect key .varint)
    readNumber buf

/-- reads a submessage, given its type and what follows its key -/
abbrev SubmessageReader := MessageType → ItemReader Field

/-- what follows the key of a field; the values of some types are of no use once they are read -/
def readTyped (readSub : SubmessageReader) (type : FieldType) (key : Key) : ItemReader Field :=
  fun buf =>
  match type with
  | .text => do
    plain (expect key .lengthDelimited)
    let (value, rest) ← plain (readText buf)
    return ([.text key.tag value], rest)
  | .bytes => do
    plain (expect key .lengthDelimited)
    let (n, rest) ← plain (readVarint buf)
    let rest ← plain (skipBytes rest n)
    return ([], rest)
  | .flag => do
    plain (expect key .varint)
    let (n, rest) ← plain (readVarint buf)
    return ([.flag key.tag (n ≠ 0)], rest)
  | .number => do
    plain (expect key .varint)
    let (n, rest) ← plain (readVarint buf)
    return ([.number key.tag n], rest)
  | .numbers => do
    let (_, rest) ← readNumbers key buf
    return ([], rest)
  | .double => do
    plain (expect key .sixtyFourBit)
    let rest ← plain (skipBytes buf 8)
    return ([], rest)
  | .message type => do
    plain (expect key .lengthDelimited)
    let (fields, rest) ← readSub type buf
    return ([.message key.tag fields], rest)

section
variable (readSub : SubmessageReader) (skip : Key → Buffer → Except Cause Buffer)
  (type : MessageType)

/-- what follows the key of a field, which is passed over if the tag is not declared -/
def readContent (key : Key) : ItemReader Field := fun buf =>
  match type.field? key.tag with
  | none => do
    let rest ← plain (skip key buf)
    return ([], rest)
  | some (name, fieldType) => (readTyped readSub fieldType key buf).mapError (·.within type name)

def readField : ItemReader Field := fun buf => do
  let (key, rest) ← plain (readKey buf)
  readContent readSub skip type key rest

end

def readSubmessage : (depth : Nat) → SubmessageReader
  | 0, _, _ => .error { cause := .recursionLimit }
  | depth + 1, type, buf =>
    readDelimited (readField (readSubmessage depth) (skipField depth) type) buf

def maxDepth : Nat := 100

def decode (type : MessageType) (bytes : List UInt8) : Except DecodeError (List Field) := do
  let field := readField (readSubmessage maxDepth) (skipField maxDepth) type
  let (fields, _) ← readItems field 0 bytes.length (.ofBytes bytes)
  return fields

end RpcAdapters.Wire
