import RpcAdapters.Wire.Request

/-!
# Values of fields

What a message says under a tag is what a view of single fields yields over all of them.  A text, a flag
or a number that may be absent is no field or one, so that a view yields its value or nothing.

* `filterMap_optional`               what a view yields of such a field;
* `getLast?_toList`                  of what is there at most once the last one is that;
* `mem_textField`, `mem_flagField`   which fields these are.
-/

namespace RpcAdapters.Wire

def numbers (tag : Nat) (fs : List Field) : List Nat := fs.filterMap (Field.number? tag)

theorem filterMap_optional {α β : Type} (view : Field → Option α) (field : β → Field)
    (value? : Option β) :
    (value?.map field).toList.filterMap view
      = (value?.bind fun value => view (field value)).toList := by
  cases value? with
  | none => rfl
  | some value => cases h : view (field value) <;> simp [h]

theorem getLast?_toList {α : Type} (value? : Option α) : value?.toList.getLast? = value? := by
  cases value? <;> rfl

theorem map_of_map {α β : Type} {read : β → α} {write : α → β} (h : ∀ x, read (write x) = x)
    (xs : List α) : (xs.map write).map read = xs := by
  rw [List.map_map]
  exact List.map_id'' h xs

theorem mem_textField {tag : Nat} {value? : Option String} {f : Field}
    (h : f ∈ textField tag value?) : ∃ value, f = .text tag value := by
  obtain ⟨value, -, rfl⟩ := Option.map_eq_some_iff.mp (Option.mem_toList.mp h)
  exact ⟨value, rfl⟩

theorem mem_flagField {tag : Nat} {value? : Option Bool} {f : Field}
    (h : f ∈ flagField tag value?) : ∃ value, f = .flag tag value := by
  obtain ⟨value, -, rfl⟩ := Option.map_eq_some_iff.mp (Option.mem_toList.mp h)
  exact ⟨value, rfl⟩

end RpcAdapters.Wire
