import RpcAdapters.Proofs.Wire.Decoding
import RpcAdapters.Proofs.Wire.Records
import RpcAdapters.Proofs.Wire.Values
import RpcAdapters.Wire.Response

/-!
# Responses are read back

* `Response.read?`           the response that bytes stand for by the rules of the wire alone;
* `Response.read?_encode`    a written response is read back, however long it is;
* `Response.decode_encode`   so does a decoder for numbers of 64 bits, as far as lengths have them.
-/

namespace RpcAdapters

open Wire

/-! ## by the rules of the wire -/

def ResponseFile.read? (bytes : List UInt8) : Option ResponseFile := do
  let rs ← records? bytes
  let names ← textsOf? 1 rs
  let insertionPoints ← textsOf? 2 rs
  let contents ← textsOf? 15 rs
  return {
    name? := names.getLast?
    insertionPoint? := insertionPoints.getLast?
    content? := contents.getLast? }

theorem ResponseFile.read?_encodeFields (f : ResponseFile) :
    read? (encodeFields f.fields) = some f := by
  have hname : textsOf? 1 (f.fields.map Field.record) = some f.name?.toList :=
    textsOf?_of_bytesOf (by
      simp [bytesOf, fields, textField, filterMap_optional, Field.record, Record.bytes?])
  have hpoint : textsOf? 2 (f.fields.map Field.record) = some f.insertionPoint?.toList :=
    textsOf?_of_bytesOf (by
      simp [bytesOf, fields, textField, filterMap_optional, Field.record, Record.bytes?])
  have hcontent : textsOf? 15 (f.fields.map Field.record) = some f.content?.toList :=
    textsOf?_of_bytesOf (by
      simp [bytesOf, fields, textField, filterMap_optional, Field.record, Record.bytes?])
  rw [read?, records?_encodeFields]
  simp [hname, hpoint, hcontent, getLast?_toList]

namespace Response

/-- the response that bytes stand for; of what there can be one of, the last one counts -/
def read? (bytes : List UInt8) : Option Response := do
  let rs ← records? bytes
  let errors ← textsOf? 1 rs
  let files ← (bytesOf 15 rs).mapM ResponseFile.read?
  return {
    error? := errors.getLast?
    supportedFeatures? := (numbersOf 2 rs).getLast?
    files }

theorem read?_encode (r : Response) : read? r.encode = some r := by
  have herror : textsOf? 1 (r.fields.map Field.record) = some r.error?.toList :=
    textsOf?_of_bytesOf (by
      simp [bytesOf, fields, textField, filterMap_optional, Field.record, Record.bytes?,
        Function.comp_def])
  have hfeatures : numbersOf 2 (r.fields.map Field.record) = r.supportedFeatures?.toList := by
    simp [numbersOf, fields, textField, filterMap_optional, Field.record, Record.number?,
      Function.comp_def]
  have hfiles : bytesOf 15 (r.fields.map Field.record)
      = r.files.map fun f => encodeFields f.fields := by
    simp [bytesOf, fields, textField, filterMap_optional, Field.record, Record.bytes?,
      Function.comp_def]
  rw [read?, encode, records?_encodeFields]
  simp only [herror, hfeatures, hfiles, mapM_map_eq_some ResponseFile.read?_encodeFields,
    getLast?_toList, Option.bind_eq_bind, Option.bind_some]
  rfl

end Response

/-! ## by a decoder -/

namespace ResponseFile

theorem ofFields_fields (f : ResponseFile) : ofFields f.fields = f := by
  simp [ofFields, fields, text?, texts, textField, filterMap_optional, Field.text?, getLast?_toList]

theorem fits_of_mem_fields {f : ResponseFile} {depth : Nat} {g : Field} (hg : g ∈ f.fields) :
    g.Fits depth .responseFile := by
  simp only [fields, List.mem_append] at hg
  rcases hg with (hg | hg) | hg
  all_goals
    obtain ⟨value, rfl⟩ := mem_textField hg
    exact .value rfl .text

end ResponseFile

namespace Response

theorem ofFields_fields (r : Response) : ofFields r.fields = r := by
  have herror : texts 1 r.fields = r.error?.toList := by
    simp [texts, fields, textField, filterMap_optional, Field.text?]
  have hfeatures : numbers 2 r.fields = r.supportedFeatures?.toList := by
    simp [numbers, fields, textField, filterMap_optional, Field.number?]
  have hfiles : submessages 15 r.fields = r.files.map ResponseFile.fields := by
    simp [submessages, fields, textField, filterMap_optional, Field.message?, Function.comp_def]
  show Response.mk (texts 1 r.fields).getLast? (numbers 2 r.fields).getLast?
    ((submessages 15 r.fields).map ResponseFile.ofFields) = r
  rw [herror, hfeatures, hfiles, map_of_map ResponseFile.ofFields_fields, getLast?_toList,
    getLast?_toList]

theorem fits_of_mem_fields {r : Response} (h : ∀ n, r.supportedFeatures? = some n → n < varintLimit)
    {f : Field} (hf : f ∈ r.fields) : f.Fits maxDepth .response := by
  simp only [fields, List.mem_append] at hf
  rcases hf with (hf | hf) | hf
  · obtain ⟨value, rfl⟩ := mem_textField hf
    exact .value rfl .text
  · obtain ⟨n, hn, rfl⟩ := Option.map_eq_some_iff.mp (Option.mem_toList.mp hf)
    exact .value rfl (.number (h n hn))
  · obtain ⟨file, -, rfl⟩ := List.mem_map.mp hf
    exact .message rfl fun g hg => ResponseFile.fits_of_mem_fields hg

theorem decode_encode {r : Response} (hfeatures : ∀ n, r.supportedFeatures? = some n → n < varintLimit)
    (hsize : r.encode.length < varintLimit) : decode r.encode = .ok r := by
  rw [decode, encode, decode_encodeFields (fun f hf => fits_of_mem_fields hfeatures hf) hsize]
  exact congrArg Except.ok r.ofFields_fields

end Response

end RpcAdapters
