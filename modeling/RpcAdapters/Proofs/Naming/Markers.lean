import RpcAdapters.Naming.Layer
import RpcAdapters.Proofs.Text.Occurrences

/-!
# Markers in service names

The use case of a service has its name with the first `Service` in it changed into `UseCase`.  The two
words are of one length and have no place where one could begin or end in the other, so that there is one
marker less, and the name is another one exactly if there was a marker.

* `Marked name`                    `Service` is part of the name;
* `FirstMarker name before after`  what stands around the first one;
* `markers name`                   how many there are, none overlapping another;
* `useCaseName_eq_self_iff`        a name is kept if it is not marked;
* `useCaseName_exact`              the name of the use case, and what follows for it.
-/

namespace RpcAdapters.Naming

variable {name before after : String}

/-! ## markers as texts -/

def Marked (name : String) : Prop := ∃ before after : String, name = before ++ "Service" ++ after

/-- the marker between `before` and `after` is the first one: none is complete before its last letter -/
structure FirstMarker (name before after : String) : Prop where
  eq : name = before ++ "Service" ++ after
  first : ¬ Marked (before ++ "Servic")

/-- the markers met from left to right -/
def markers (name : String) : Nat := Text.count serviceMarker name.toList

theorem serviceMarker_ne_nil : serviceMarker ≠ [] := by decide

theorem foreign_useCaseMarker : Text.Foreign serviceMarker useCaseMarker where
  head := ⟨'U', "seCase".toList, by decide, by decide⟩
  begins := ⟨'S', "ervice".toList, by decide, by decide⟩

theorem toList_append_marker (before after : String) :
    (before ++ "Service" ++ after).toList = before.toList ++ (serviceMarker ++ after.toList) := by
  rw [String.toList_append, String.toList_append, List.append_assoc]
  rfl

theorem marked_iff : Marked name ↔ serviceMarker <:+: name.toList := by
  constructor
  · rintro ⟨before, after, rfl⟩
    rw [toList_append_marker]
    exact List.infix_append' before.toList serviceMarker after.toList
  · rintro ⟨before, after, hname⟩
    refine ⟨String.ofList before, String.ofList after, String.toList_injective ?_⟩
    rw [toList_append_marker, String.toList_ofList, String.toList_ofList, ← hname, List.append_assoc]

theorem hasServiceMarker_iff : hasServiceMarker name = true ↔ Marked name :=
  Text.contains_iff.trans marked_iff.symm

theorem FirstMarker.firstIn (h : FirstMarker name before after) :
    Text.FirstIn serviceMarker name.toList before.toList after.toList where
  eq := by
    rw [h.eq, toList_append_marker]
  first := by
    have hfirst := h.first
    rw [marked_iff, String.toList_append] at hfirst
    exact hfirst

theorem exists_firstMarker (h : Marked name) : ∃ before after, FirstMarker name before after := by
  obtain ⟨before, after, heq, hfirst⟩ :=
    Text.exists_firstIn serviceMarker_ne_nil (marked_iff.mp h)
  refine ⟨String.ofList before, String.ofList after, String.toList_injective ?_, ?_⟩
  · rw [heq, toList_append_marker, String.toList_ofList, String.toList_ofList]
  · rw [marked_iff, String.toList_append, String.toList_ofList]
    exact hfirst

/-! ## names of use cases -/

theorem useCaseName_of_firstMarker (h : FirstMarker name before after) :
    useCaseName name = before ++ "UseCase" ++ after := by
  rw [useCaseName, Text.replaceFirst_of_firstIn serviceMarker_ne_nil h.firstIn, String.ofList_append,
    String.ofList_append, String.ofList_toList, String.ofList_toList, ← String.append_assoc]
  rfl

theorem useCaseName_of_not_marked (h : ¬ Marked name) : useCaseName name = name := by
  rw [marked_iff] at h
  rw [useCaseName, Text.replaceFirst_of_not_isInfix serviceMarker_ne_nil h, String.ofList_toList]

theorem useCaseName_eq_self_iff : useCaseName name = name ↔ ¬ Marked name := by
  refine ⟨?_, useCaseName_of_not_marked⟩
  intro hsame hmarked
  obtain ⟨before, after, hfirst⟩ := exists_firstMarker hmarked
  rw [useCaseName_of_firstMarker hfirst, hfirst.eq, String.append_left_inj,
    String.append_right_inj] at hsame
  exact absurd hsame (by decide)

/-- a measure that adds up, and is the same for both words, does not tell the names apart -/
theorem useCaseName_of_additive {measure : String → Nat}
    (hadd : ∀ a b, measure (a ++ b) = measure a + measure b)
    (hsame : measure "UseCase" = measure "Service") (name : String) :
    measure (useCaseName name) = measure name := by
  by_cases hmarked : Marked name
  · obtain ⟨before, after, hfirst⟩ := exists_firstMarker hmarked
    rw [useCaseName_of_firstMarker hfirst, hfirst.eq, hadd, hadd, hadd, hadd, hsame]
  · rw [useCaseName_of_not_marked hmarked]

/-- what a use case is called, by the name of its service -/
structure UseCaseNamed (name useCase : String) : Prop where
  replaced : ∀ before after, FirstMarker name before after → useCase = before ++ "UseCase" ++ after
  replaces : Marked name → ∃ before after, FirstMarker name before after
  kept : ¬ Marked name → useCase = name
  /-- as long as the name, in characters and in bytes -/
  length : useCase.length = name.length
  size : useCase.utf8ByteSize = name.utf8ByteSize
  noticed : hasServiceMarker name = true ↔ useCase ≠ name
  fewer : Marked name → markers name = markers useCase + 1
  /-- as many markers can be apart from each other as are counted -/
  counted : ∀ n, Text.Apart serviceMarker n name.toList ↔ n ≤ markers name

/-- **The first marker, and only that, is replaced**: a use case has the name of its service with the
first `Service` changed into `UseCase`, which takes one marker away and makes no new one. -/
theorem useCaseName_exact (name : String) : UseCaseNamed name (useCaseName name) where
  replaced _ _ h := useCaseName_of_firstMarker h
  replaces h := exists_firstMarker h
  kept h := useCaseName_of_not_marked h
  length := useCaseName_of_additive String.length_append (by decide) name
  size := useCaseName_of_additive (fun _ _ => String.utf8ByteSize_append) (by decide) name
  noticed := by
    rw [hasServiceMarker_iff, Ne, useCaseName_eq_self_iff, not_not]
  fewer h := by
    rw [markers, markers, useCaseName, String.toList_ofList]
    exact Text.count_replaceFirst foreign_useCaseMarker (marked_iff.mp h)
  counted _ := Text.apart_iff_le_count serviceMarker_ne_nil

example : useCaseName "ServServiceServices" = "ServUseCaseServices" := by decide +kernel

example : markers "ServServiceServices" = 2 := by decide +kernel

end RpcAdapters.Naming
