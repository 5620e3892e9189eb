import RpcAdapters.Text.Decimal
import RpcAdapters.Wire.Buffer

/-!
# Varints and keys

A varint is a number in base 128, the lowest digit first; every byte but the last has its top bit set.
A key announces a field: eight times its tag, plus the number of its wire type.

* `readVarint?`, `writeVarint`   at most ten bytes are read, and the value is below `2 ^ 64`;
* `readKey`, `writeKey`          a key, if it is well formed;
* `Cause`                        why bytes cannot be read, with its wording `message`.
-/

namespace RpcAdapters.Wire

/-! ## wire types -/

inductive WireType where
  | varint
  | sixtyFourBit
  | lengthDelimited
  | startGroup
  | endGroup
  | thirtyTwoBit
  deriving DecidableEq, Repr

namespace WireType

def text : WireType → String
  | varint => "Varint"
  | sixtyFourBit => "SixtyFourBit"
  | lengthDelimited => "LengthDelimited"
  | startGroup => "StartGroup"
  | endGroup => "EndGroup"
  | thirtyTwoBit => "ThirtyTwoBit"

def number : WireType → Nat
  | varint => 0
  | sixtyFourBit => 1
  | lengthDelimited => 2
  | startGroup => 3
  | endGroup => 4
  | thirtyTwoBit => 5

def ofNumber? : Nat → Option WireType
  | 0 => some varint
  | 1 => some sixtyFourBit
  | 2 => some lengthDelimited
  | 3 => some startGroup
  | 4 => some endGroup
  | 5 => some thirtyTwoBit
  | _ => none

theorem ofNumber?_number (w : WireType) : ofNumber? w.number = some w := by cases w <;> rfl

theorem number_lt (w : WireType) : w.number < 8 := by cases w <;> decide

end WireType

/-! ## errors -/

inductive Cause where
  | varint
  | keyTooLarge (key : Nat)
  | wireTypeNumber (number : Nat)
  | tagZero
  | wireType (found expected : WireType)
  | underflow
  | notUtf8
  | recursionLimit
  | lengthExceeded
  | endGroup
  deriving DecidableEq, Repr

def Cause.message : Cause → String
  | .varint => "invalid varint"
  | .keyTooLarge n => "invalid key value: " ++ Text.decimal n
  | .wireTypeNumber n => "invalid wire type value: " ++ Text.decimal n
  | .tagZero => "invalid tag value: 0"
  | .wireType found expected =>
    "invalid wire type: " ++ found.text ++ " (expected " ++ expected.text ++ ")"
  | .underflow => "buffer underflow"
  | .notUtf8 => "invalid string value: data is not UTF-8 encoded"
  | .recursionLimit => "recursion limit reached"
  | .lengthExceeded => "delimited length exceeded"
  | .endGroup => "unexpected end group tag"

/-! ## varints -/

/-- reads a varint of at most `room` more bytes; the last of ten bytes has only one bit to give -/
def readDigits? : Nat → Buffer → Option (Nat × Buffer)
  | 0, _ => none
  | room + 1, buf =>
    match buf.next? with
    | none => none
    | some (b, rest) =>
      if b.toNat < 128 then if room = 0 ∧ 1 < b.toNat then none else some (b.toNat, rest)
      else (readDigits? room rest).map fun p => (b.toNat - 128 + 128 * p.1, p.2)

def readVarint? (buf : Buffer) : Option (Nat × Buffer) := readDigits? 10 buf

def readVarint (buf : Buffer) : Except Cause (Nat × Buffer) :=
  match readVarint? buf with
  | some p => .ok p
  | none => .error .varint

def writeVarint (n : Nat) : List UInt8 :=
  if n < 128 then [n.toUInt8] else (n % 128 + 128).toUInt8 :: writeVarint (n / 128)
termination_by n

theorem toNat_toUInt8 {n : Nat} (h : n < 256) : n.toUInt8.toNat = n := Nat.mod_eq_of_lt h

theorem writeVarint_of_lt {n : Nat} (h : n < 128) : writeVarint n = [n.toUInt8] := by
  rw [writeVarint, if_pos h]

theorem writeVarint_of_ge {n : Nat} (h : 128 ≤ n) :
    writeVarint n = (n % 128 + 128).toUInt8 :: writeVarint (n / 128) := by
  rw [writeVarint, if_neg (Nat.not_lt.mpr h)]

/-! ## keys -/

structure Key where
  tag : Nat
  wire : WireType
  deriving DecidableEq, Repr

/-- keys have 32 bits -/
def keyLimit : Nat := 4294967296

def keyOfNumber (n : Nat) : Except Cause Key :=
  if keyLimit ≤ n then .error (.keyTooLarge n)
  else
    match WireType.ofNumber? (n % 8) with
    | none => .error (.wireTypeNumber (n % 8))
    | some wire => if n / 8 = 0 then .error .tagZero else .ok ⟨n / 8, wire⟩

def readKey (buf : Buffer) : Except Cause (Key × Buffer) := do
  let (n, rest) ← readVarint buf
  let key ← keyOfNumber n
  return (key, rest)

def writeKey (key : Key) : List UInt8 := writeVarint (8 * key.tag + key.wire.number)

end RpcAdapters.Wire
