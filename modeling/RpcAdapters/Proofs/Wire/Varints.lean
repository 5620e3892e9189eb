import RpcAdapters.Wire.Key

/-!
# Numbers and keys as bytes

A number can be written as a varint in more ways than one, since digits of zero may follow.  Any of them
is read back as long as there are ten bytes at most and the number has 64 bits.

* `Digits n bytes`       the bytes are the digits of `n`;
* `Varint n bytes`       so they are, and they can be read;
* `IsKey key bytes`      the bytes are a varint of a key;
* `Varint.read`, `IsKey.read`              what is read from them, whatever follows;
* `varint_writeVarint`, `isKey_writeKey`   what is written.
-/

namespace RpcAdapters.Wire

open Buffer

/-! ## numbers -/

/-- numbers below it can be read from at most `room + 1` bytes -/
def roomLimit : (room : Nat) → Nat
  | 0 => 2
  | room + 1 => 128 * roomLimit room

/-- `2 ^ 64` -/
def varintLimit : Nat := 18446744073709551616

/-- a number in base 128, the lowest digit first; all bytes but the last have their top bit set -/
inductive Digits : (n : Nat) → List UInt8 → Prop where
  | last {b : UInt8} (hb : b.toNat < 128) : Digits b.toNat [b]
  | more {b : UInt8} {n : Nat} {bytes : List UInt8} (hb : 128 ≤ b.toNat) (hrest : Digits n bytes) :
      Digits (b.toNat - 128 + 128 * n) (b :: bytes)

structure Varint (n : Nat) (bytes : List UInt8) : Prop where
  digits : Digits n bytes
  length : bytes.length ≤ 10
  value : n < varintLimit

theorem Digits.length_pos {n : Nat} {bytes : List UInt8} (h : Digits n bytes) :
    0 < bytes.length := by
  cases h with
  | last => exact Nat.one_pos
  | more => exact Nat.succ_pos _

/-- the induction is on the digits; each takes one byte of room -/
theorem Digits.read {room n : Nat} {bytes : List UInt8} (h : Digits n bytes)
    (hlength : bytes.length ≤ room + 1) (hn : n < roomLimit room) (rest : List UInt8) :
    readDigits? (room + 1) (ofBytes (bytes ++ rest)) = some (n, ofBytes rest) := by
  induction h generalizing room with
  | @last b hb =>
    have hroom : ¬ (room = 0 ∧ 1 < b.toNat) := by
      rintro ⟨rfl, hlt⟩
      exact absurd hn (Nat.not_lt.mpr hlt)
    rw [List.singleton_append, readDigits?, next?_ofBytes_cons]
    simp only
    rw [if_pos hb, if_neg hroom]
  | @more b n bytes hb hrest ih =>
    have hpos := hrest.length_pos
    rw [List.length_cons] at hlength
    cases room with
    | zero => omega
    | succ room =>
      rw [roomLimit] at hn
      rw [List.cons_append, readDigits?, next?_ofBytes_cons]
      simp only
      rw [if_neg (by omega), ih (by omega) (by omega), Option.map_some]

theorem Varint.read {n : Nat} {bytes : List UInt8} (h : Varint n bytes) (rest : List UInt8) :
    readVarint (ofBytes (bytes ++ rest)) = .ok (n, ofBytes rest) := by
  have hroom : n < roomLimit 9 := h.value
  rw [readVarint, readVarint?, h.digits.read h.length hroom]

theorem digits_writeVarint (n : Nat) : Digits n (writeVarint n) := by
  induction n using Nat.strongRecOn with
  | ind n ih =>
    by_cases h : n < 128
    · have hbyte : n.toUInt8.toNat = n := toNat_toUInt8 (by omega)
      have hlast : Digits n.toUInt8.toNat [n.toUInt8] := .last (by omega)
      rw [hbyte] at hlast
      rw [writeVarint_of_lt h]
      exact hlast
    · have hbyte : (n % 128 + 128).toUInt8.toNat = n % 128 + 128 := toNat_toUInt8 (by omega)
      have hmore := Digits.more (b := (n % 128 + 128).toUInt8) (by omega) (ih (n / 128) (by omega))
      rw [hbyte, Nat.add_sub_cancel, Nat.mod_add_div] at hmore
      rw [writeVarint_of_ge (by omega)]
      exact hmore

theorem length_writeVarint_le {room n : Nat} (h : n < roomLimit room) :
    (writeVarint n).length ≤ room + 1 := by
  induction room generalizing n with
  | zero =>
    have hn : n < 2 := h
    rw [writeVarint_of_lt (by omega)]
    exact Nat.le_refl 1
  | succ room ih =>
    rw [roomLimit] at h
    by_cases hn : n < 128
    · rw [writeVarint_of_lt hn]
      exact Nat.succ_pos _
    · rw [writeVarint_of_ge (by omega), List.length_cons]
      exact Nat.succ_le_succ (ih (by omega))

theorem varint_writeVarint {n : Nat} (h : n < varintLimit) : Varint n (writeVarint n) where
  digits := digits_writeVarint n
  length := length_writeVarint_le (show n < roomLimit 9 from h)
  value := h

/-! ## keys -/

structure IsKey (key : Key) (bytes : List UInt8) : Prop where
  varint : Varint (8 * key.tag + key.wire.number) bytes
  tag_pos : 0 < key.tag
  small : 8 * key.tag + key.wire.number < keyLimit

theorem keyOfNumber_number {key : Key} (hpos : 0 < key.tag)
    (hsmall : 8 * key.tag + key.wire.number < keyLimit) :
    keyOfNumber (8 * key.tag + key.wire.number) = .ok key := by
  have hwire := key.wire.number_lt
  have hmod : (8 * key.tag + key.wire.number) % 8 = key.wire.number := by omega
  have hdiv : (8 * key.tag + key.wire.number) / 8 = key.tag := by omega
  rw [keyOfNumber, if_neg (Nat.not_le.mpr hsmall), hmod, hdiv, WireType.ofNumber?_number]
  exact if_neg (Nat.ne_of_gt hpos)

theorem IsKey.read {key : Key} {bytes : List UInt8} (h : IsKey key bytes) (rest : List UInt8) :
    readKey (ofBytes (bytes ++ rest)) = .ok (key, ofBytes rest) := by
  rw [readKey, h.varint.read]
  show (keyOfNumber (8 * key.tag + key.wire.number) >>= fun key => _) = _
  rw [keyOfNumber_number h.tag_pos h.small]
  rfl

theorem IsKey.length_pos {key : Key} {bytes : List UInt8} (h : IsKey key bytes) :
    0 < bytes.length := h.varint.digits.length_pos

theorem isKey_writeKey {key : Key} (hpos : 0 < key.tag)
    (hsmall : 8 * key.tag + key.wire.number < keyLimit) : IsKey key (writeKey key) where
  varint := varint_writeVarint (Nat.lt_trans hsmall (by decide))
  tag_pos := hpos
  small := hsmall

end RpcAdapters.Wire
