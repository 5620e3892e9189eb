import RpcAdapters.Proofs.InOrder
import RpcAdapters.Proofs.Wire.Requests

/-!
# What was read can be sent on

A reader follows messages down to a certain level, so nothing it has read is nested deeper.  A set of
files and a request have their files at the same level; that is why a set that was read from bytes can be
sent as a request, and arrives as it was.

* `readVarint_lt`              a number that was read has 64 bits;
* `fits_of_decode`             every field that was read can be written and read again;
* `length_paths_of_decode`     how deep the messages of a set can be that was read;
* `decode_encode_of_decode`    the request for such a set arrives.
-/

namespace RpcAdapters.Wire

/-! ## numbers -/

theorem two_le_roomLimit (room : Nat) : 2 ≤ roomLimit room := by
  induction room with
  | zero => exact Nat.le_refl 2
  | succ room ih =>
    rw [roomLimit]
    omega

/-- each digit takes one byte of room, and the last of them can only be 0 or 1 -/
theorem readDigits?_lt {room n : Nat} {buf rest : Buffer}
    (h : readDigits? (room + 1) buf = some (n, rest)) : n < roomLimit room := by
  induction room generalizing n buf rest with
  | zero =>
    rw [readDigits?] at h
    split at h
    · cases h
    · rename_i b tail _
      split at h
      · split at h
        · cases h
        · rename_i hlast
          obtain ⟨rfl, -⟩ := Prod.mk.inj (Option.some.inj h)
          show b.toNat < 2
          omega
      · cases h
  | succ room ih =>
    have hroom := two_le_roomLimit room
    rw [readDigits?] at h
    rw [roomLimit]
    split at h
    · cases h
    · rename_i b tail _
      split at h
      · split at h
        · cases h
        · obtain ⟨rfl, -⟩ := Prod.mk.inj (Option.some.inj h)
          omega
      · obtain ⟨⟨m, tail'⟩, hm, hn⟩ := Option.map_eq_some_iff.mp h
        have hbound := ih hm
        have hbyte := b.toNat_lt
        obtain ⟨rfl, -⟩ := Prod.mk.inj hn
        show b.toNat - 128 + 128 * m < 128 * roomLimit room
        omega

theorem readVarint_lt {n : Nat} {buf rest : Buffer} (h : readVarint buf = .ok (n, rest)) :
    n < varintLimit := by
  rw [readVarint, readVarint?] at h
  split at h
  · rename_i p hp
    obtain rfl := Except.ok.inj h
    have hlt : n < roomLimit 9 := readDigits?_lt hp
    exact hlt
  · cases h

/-! ## fields -/

/-- what is read for a submessage fits one level further down -/
def ReadsFitting (readSub : SubmessageReader) (depth : Nat) : Prop :=
  ∀ type buf fields rest, readSub type buf = .ok (fields, rest) →
    ∃ below, depth = below + 1 ∧ ∀ f ∈ fields, f.Fits below type

section
variable {readSub : SubmessageReader} {skip : Key → Buffer → Except Cause Buffer} {depth : Nat}
  {type : MessageType} {key : Key} {buf rest : Buffer} (hsub : ReadsFitting readSub depth)
include hsub

theorem fits_of_readTyped {name : String} {fieldType : FieldType} {fields : List Field}
    (hknown : type.field? key.tag = some (name, fieldType))
    (h : readTyped readSub fieldType key buf = .ok (fields, rest)) :
    ∀ f ∈ fields, f.Fits depth type := by
  cases fieldType with
  | text =>
    obtain ⟨_, _, ⟨value, tail⟩, _, hf⟩ := by simpa only [readTyped, bind_eq_ok_iff] using h
    obtain ⟨rfl, -⟩ := Prod.mk.inj (pure_eq_ok_iff.mp hf)
    exact List.forall_mem_singleton.mpr (.value hknown .text)
  | flag =>
    obtain ⟨_, _, ⟨n, tail⟩, _, hf⟩ := by simpa only [readTyped, bind_eq_ok_iff] using h
    obtain ⟨rfl, -⟩ := Prod.mk.inj (pure_eq_ok_iff.mp hf)
    exact List.forall_mem_singleton.mpr (.value hknown .flag)
  | number =>
    obtain ⟨_, _, ⟨n, tail⟩, hn, hf⟩ := by simpa only [readTyped, bind_eq_ok_iff] using h
    obtain ⟨rfl, -⟩ := Prod.mk.inj (pure_eq_ok_iff.mp hf)
    have hvalue := readVarint_lt (mapError_eq_ok_iff.mp hn)
    exact List.forall_mem_singleton.mpr (.value hknown (.number hvalue))
  | bytes =>
    obtain ⟨_, _, ⟨n, tail⟩, _, _, _, hf⟩ := by simpa only [readTyped, bind_eq_ok_iff] using h
    obtain ⟨rfl, -⟩ := Prod.mk.inj (pure_eq_ok_iff.mp hf)
    exact List.forall_mem_nil _
  | numbers =>
    obtain ⟨⟨values, tail⟩, _, hf⟩ := by simpa only [readTyped, bind_eq_ok_iff] using h
    obtain ⟨rfl, -⟩ := Prod.mk.inj (pure_eq_ok_iff.mp hf)
    exact List.forall_mem_nil _
  | double =>
    obtain ⟨_, _, _, _, hf⟩ := by simpa only [readTyped, bind_eq_ok_iff] using h
    obtain ⟨rfl, -⟩ := Prod.mk.inj (pure_eq_ok_iff.mp hf)
    exact List.forall_mem_nil _
  | message sub =>
    obtain ⟨_, _, ⟨fields, tail⟩, hfields, hf⟩ := by simpa only [readTyped, bind_eq_ok_iff] using h
    obtain ⟨rfl, -⟩ := Prod.mk.inj (pure_eq_ok_iff.mp hf)
    obtain ⟨below, rfl, hbelow⟩ := hsub _ _ _ _ hfields
    exact List.forall_mem_singleton.mpr (.message hknown hbelow)

theorem fits_of_readField {fields : List Field}
    (h : readField readSub skip type buf = .ok (fields, rest)) :
    ∀ f ∈ fields, f.Fits depth type := by
  obtain ⟨⟨key, tail⟩, _, hcontent⟩ := by simpa only [readField, bind_eq_ok_iff] using h
  rw [readContent] at hcontent
  split at hcontent
  · obtain ⟨_, _, hf⟩ := bind_eq_ok_iff.mp hcontent
    obtain ⟨rfl, -⟩ := Prod.mk.inj (pure_eq_ok_iff.mp hf)
    exact List.forall_mem_nil _
  · rename_i name fieldType hknown
    exact fits_of_readTyped hsub hknown (mapError_eq_ok_iff.mp hcontent)

end

/-- what holds of the values of every item holds of all that is read -/
theorem forall_mem_of_readItems {α : Type} {item : ItemReader α} {P : α → Prop}
    (hitem : ∀ buf values rest, item buf = .ok (values, rest) → ∀ x ∈ values, P x)
    {stop fuel : Nat} {buf rest : Buffer} {values : List α}
    (h : readItems item stop fuel buf = .ok (values, rest)) : ∀ x ∈ values, P x := by
  induction fuel generalizing buf rest values with
  | zero =>
    rw [readItems] at h
    split at h
    · obtain ⟨rfl, -⟩ := Prod.mk.inj (Except.ok.inj h)
      exact List.forall_mem_nil _
    · cases h
  | succ fuel ih =>
    rw [readItems] at h
    split at h
    · obtain ⟨⟨first, tail⟩, hfirst, ⟨more, tail'⟩, hmore, hvalues⟩ := by
        simpa only [bind_eq_ok_iff] using h
      obtain ⟨rfl, -⟩ := Prod.mk.inj (pure_eq_ok_iff.mp hvalues)
      exact List.forall_mem_append.mpr ⟨hitem _ _ _ hfirst, ih hmore⟩
    · split at h
      · obtain ⟨rfl, -⟩ := Prod.mk.inj (Except.ok.inj h)
        exact List.forall_mem_nil _
      · cases h

/-- the induction is on the levels that are left -/
theorem readsFitting_readSubmessage (depth : Nat) : ReadsFitting (readSubmessage depth) depth := by
  induction depth with
  | zero =>
    intro type buf fields rest h
    cases h
  | succ depth ih =>
    intro type buf fields rest h
    obtain ⟨⟨n, tail⟩, _, h⟩ := by
      simpa only [readSubmessage, readDelimited, bind_eq_ok_iff] using h
    split at h
    · cases h
    · exact ⟨depth, rfl, forall_mem_of_readItems (fun _ _ _ => fits_of_readField ih) h⟩

theorem fits_of_decode {type : MessageType} {bytes : List UInt8} {fields : List Field}
    (h : decode type bytes = .ok fields) : ∀ f ∈ fields, f.Fits maxDepth type := by
  obtain ⟨⟨fields', tail⟩, hread, hf⟩ := bind_eq_ok_iff.mp h
  obtain rfl := pure_eq_ok_iff.mp hf
  have hsub := readsFitting_readSubmessage maxDepth
  exact forall_mem_of_readItems (fun _ _ _ => fits_of_readField hsub) hread

end RpcAdapters.Wire

namespace RpcAdapters

open Wire

/-! ## messages -/

/-- every message takes one of the levels that are left; the induction is on them -/
theorem length_paths_of_fits {depth : Nat} {type : MessageType} {f : Field} (h : f.Fits depth type)
    {tag : Nat} {m : ProtoMessage} (hm : protoMessageOf? tag f = some m) :
    ∀ path ∈ m.paths, path.length ≤ depth := by
  induction h generalizing tag m with
  | value _ hvalue => cases hvalue <;> cases hm
  | @message depth type tag' name sub fields _ _ ih =>
    rw [protoMessageOf?] at hm
    split at hm
    · obtain rfl := Option.some.inj hm
      intro path hpath
      rw [ProtoMessage.paths] at hpath
      obtain ⟨tail, htail, rfl⟩ := List.mem_map.mp hpath
      rw [List.length_cons]
      refine Nat.succ_le_succ ?_
      rcases List.mem_append.mp htail with htail | htail
      · obtain ⟨m', hm', hpath'⟩ := mem_messagePaths.mp htail
        rw [protoMessagesOf_eq_filterMap] at hm'
        obtain ⟨g, hg, hgm⟩ := List.mem_filterMap.mp hm'
        exact ih g hg hgm tail hpath'
      · obtain rfl := List.mem_singleton.mp htail
        exact Nat.zero_le _
    · exact nomatch hm

theorem ProtoFile.length_paths_ofFields {depth : Nat} {type : MessageType} {fs : List Field}
    (h : ∀ f ∈ fs, f.Fits depth type) : ∀ path ∈ (ofFields fs).paths, path.length ≤ depth := by
  intro path hpath
  have hmessages : path ∈ messagePaths (protoMessagesOf 4 fs) := hpath
  obtain ⟨m, hm, hpath⟩ := mem_messagePaths.mp hmessages
  rw [protoMessagesOf_eq_filterMap] at hm
  obtain ⟨f, hf, hfm⟩ := List.mem_filterMap.mp hm
  exact length_paths_of_fits (h f hf) hfm path hpath

/-! ## sets of files -/

namespace DescriptorSet

variable {set : DescriptorSet} {bytes : List UInt8}

/-- a file takes the first of the levels -/
theorem length_paths_of_decode (h : decode bytes = .ok set) :
    ∀ f ∈ set.files, ∀ path ∈ f.paths, path.length < maxDepth := by
  rw [decode] at h
  cases hfields : Wire.decode .descriptorSet bytes with
  | error e =>
    rw [hfields] at h
    cases h
  | ok fs =>
    rw [hfields] at h
    obtain rfl := Except.ok.inj h
    intro f hf path hpath
    obtain ⟨fields, hmem, rfl⟩ := List.mem_map.mp hf
    obtain ⟨g, hg, hgfields⟩ := List.mem_filterMap.mp hmem
    cases fits_of_decode hfields g hg with
    | value _ hvalue => cases hvalue <;> cases hgfields
    | message _ hinner =>
      rw [Field.message?] at hgfields
      split at hgfields
      · obtain rfl := Option.some.inj hgfields
        exact Nat.lt_succ_of_le (ProtoFile.length_paths_ofFields hinner path hpath)
      · cases hgfields

theorem decode_encode_of_decode (h : decode bytes = .ok set) (files : List String)
    (parameter? : Option String)
    (hsize : (set.request files parameter?).encode.length < varintLimit) :
    Request.decode (set.request files parameter?).encode = .ok (set.request files parameter?) :=
  Request.decode_of_fields (Request.interleaved_encode (length_paths_of_decode h)) hsize

end DescriptorSet

end RpcAdapters
