import RpcAdapters.Proofs.Wire.Varints
import RpcAdapters.Wire.Field

/-!
# Fields that nothing is known of

A reader passes over a field whose tag it does not know, which it can do by the wire type alone.

* `Unknown depth tag bytes`   the bytes are a field with the tag; every field takes one of the `depth`
                              levels, and a group leaves the rest to the fields in it;
* `Unknown.skipped`           such a field is passed over, whatever follows.
-/

namespace RpcAdapters.Wire

open Buffer

/-- the fields in a group are given with their tags, which need not be unknown themselves -/
inductive Unknown : (depth tag : Nat) → List UInt8 → Prop where
  | varint {depth tag n key value} (hkey : IsKey ⟨tag, .varint⟩ key) (hvalue : Varint n value) :
      Unknown (depth + 1) tag (key ++ value)
  | sixtyFourBit {depth tag key value} (hkey : IsKey ⟨tag, .sixtyFourBit⟩ key)
      (hvalue : value.length = 8) : Unknown (depth + 1) tag (key ++ value)
  | thirtyTwoBit {depth tag key value} (hkey : IsKey ⟨tag, .thirtyTwoBit⟩ key)
      (hvalue : value.length = 4) : Unknown (depth + 1) tag (key ++ value)
  | lengthDelimited {depth tag key size value} (hkey : IsKey ⟨tag, .lengthDelimited⟩ key)
      (hsize : Varint value.length size) : Unknown (depth + 1) tag (key ++ (size ++ value))
  | group {depth tag start stop} {fields : List (Nat × List UInt8)}
      (hstart : IsKey ⟨tag, .startGroup⟩ start) (hfields : ∀ f ∈ fields, Unknown depth f.1 f.2)
      (hstop : IsKey ⟨tag, .endGroup⟩ stop) :
      Unknown (depth + 1) tag (start ++ (fields.flatMap Prod.snd ++ stop))

/-- a key of the tag is read, which does not end a group, and then the field is passed over -/
def Skipped (depth tag : Nat) (bytes : List UInt8) : Prop :=
  ∀ rest : List UInt8, ∃ wire tail, wire ≠ .endGroup ∧
    readKey (ofBytes (bytes ++ rest)) = .ok (⟨tag, wire⟩, ofBytes tail) ∧
    skipField depth ⟨tag, wire⟩ (ofBytes tail) = .ok (ofBytes rest)

theorem Skipped.length_pos {depth tag : Nat} {bytes : List UInt8} (h : Skipped depth tag bytes) :
    0 < bytes.length := by
  obtain ⟨_, _, _, hkey, _⟩ := h []
  cases bytes with
  | nil => exact nomatch hkey
  | cons b bytes => exact Nat.succ_pos _

theorem skipBytes_append (value rest : List UInt8) :
    skipBytes (ofBytes (value ++ rest)) value.length = .ok (ofBytes rest) := by
  rw [skipBytes, drop?_ofBytes_append]

/-- the fields of a group are passed over one by one, up to the key that ends it -/
theorem skipGroup_append {depth tag : Nat} {fields : List (Nat × List UInt8)} {stop : List UInt8}
    (hfields : ∀ f ∈ fields, Skipped depth f.1 f.2) (hstop : IsKey ⟨tag, .endGroup⟩ stop)
    (rest : List UInt8) {fuel : Nat} (hfuel : (fields.flatMap Prod.snd).length < fuel) :
    skipGroup (skipField depth) tag fuel (ofBytes (fields.flatMap Prod.snd ++ (stop ++ rest)))
      = .ok (ofBytes rest) := by
  induction fields generalizing fuel with
  | nil =>
    cases fuel with
    | zero => exact absurd hfuel (Nat.not_lt_zero _)
    | succ fuel =>
      rw [List.flatMap_nil, List.nil_append, skipGroup, hstop.read]
      show (if tag = tag then .ok (ofBytes rest) else .error .endGroup : Except Cause Buffer) = _
      exact if_pos rfl
  | cons f fields ih =>
    have hf := hfields f (List.mem_cons_self ..)
    have hpos := hf.length_pos
    rw [List.flatMap_cons, List.length_append] at hfuel
    cases fuel with
    | zero => exact absurd hfuel (Nat.not_lt_zero _)
    | succ fuel =>
      obtain ⟨wire, tail, hwire, hkey, hskip⟩ := hf (fields.flatMap Prod.snd ++ (stop ++ rest))
      have hlength : (fields.flatMap Prod.snd).length < fuel := by omega
      have hrest := ih (fun g hg => hfields g (List.mem_cons_of_mem _ hg)) hlength
      rw [List.flatMap_cons, List.append_assoc, skipGroup, hkey]
      show (if wire = .endGroup then _ else skipField depth ⟨f.1, wire⟩ (ofBytes tail) >>=
        fun rest => skipGroup (skipField depth) tag fuel rest) = _
      rw [if_neg hwire, hskip]
      exact hrest

/-- the induction is on the levels of the field; only groups need one more -/
theorem Unknown.skipped {depth tag : Nat} {bytes : List UInt8} (h : Unknown depth tag bytes) :
    Skipped depth tag bytes := by
  induction h with
  | @varint depth tag n key value hkey hvalue =>
    intro rest
    refine ⟨.varint, value ++ rest, by decide, ?_, ?_⟩
    · rw [List.append_assoc, hkey.read]
    · rw [skipField, hvalue.read]
      rfl
  | @sixtyFourBit depth tag key value hkey hvalue =>
    intro rest
    refine ⟨.sixtyFourBit, value ++ rest, by decide, ?_, ?_⟩
    · rw [List.append_assoc, hkey.read]
    · rw [skipField, ← hvalue]
      exact skipBytes_append value rest
  | @thirtyTwoBit depth tag key value hkey hvalue =>
    intro rest
    refine ⟨.thirtyTwoBit, value ++ rest, by decide, ?_, ?_⟩
    · rw [List.append_assoc, hkey.read]
    · rw [skipField, ← hvalue]
      exact skipBytes_append value rest
  | @lengthDelimited depth tag key size value hkey hsize =>
    intro rest
    refine ⟨.lengthDelimited, size ++ (value ++ rest), by decide, ?_, ?_⟩
    · rw [List.append_assoc, hkey.read, List.append_assoc]
    · rw [skipField, hsize.read]
      exact skipBytes_append value rest
  | @group depth tag start stop fields hstart hfields hstop ih =>
    intro rest
    refine ⟨.startGroup, fields.flatMap Prod.snd ++ (stop ++ rest), by decide, ?_, ?_⟩
    · rw [List.append_assoc, hstart.read, List.append_assoc]
    · have hpos := hstop.length_pos
      rw [skipField]
      refine skipGroup_append ih hstop rest ?_
      rw [size_ofBytes, List.length_append, List.length_append]
      omega

end RpcAdapters.Wire
