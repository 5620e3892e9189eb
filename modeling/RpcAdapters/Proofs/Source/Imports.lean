import RpcAdapters.Proofs.Source.Aliases
import RpcAdapters.SourceUnit.Emit

/-!
# Imports of emitted units

An emitted unit records exactly the identifiers that its declarations show.  So it always has a text,
and its import block lists the packages that the text names, without the unit's own.

* `listedPath? l`                     the import path in a line of an import block;
* `filterMap_listedPath?_importLines` reading the block gives the paths of the aliases;
* `SchemaFile.mem_references_unit`    the recorded identifiers are those that writing asks for;
* `SchemaFile.render_unit`            the text of an emitted unit;
* `SchemaFile.imports_exact`          no import is missing in it, and none is unused.
-/

namespace RpcAdapters

/-! ## reading an import block -/

namespace Source

/-- the path of a line that has an alias, a space and the literal of the path -/
def listedPath? (l : String) : Option String :=
  match Text.splitFirst ' ' l.toList with
  | none => none
  | some (_, literal) =>
    match readLiteral? literal with
    | some (path, []) => some (String.ofList path)
    | _ => none

theorem listedPath?_specLine {spec : String × String} (h : Naming.IsIdentifier spec.2) :
    listedPath? (specLine spec) = some spec.1 := by
  have hspace : ' ' ∉ '\t' :: spec.2.toList := by
    rintro (_ | ⟨_, hmem⟩)
    exact h.not_mem Naming.isIdentifierChar_space hmem
  have hline : (specLine spec).toList
      = ('\t' :: spec.2.toList) ++ ' ' :: literalChars spec.1.toList := by
    simp [specLine, literal]
  have hread : readLiteral? (literalChars spec.1.toList) = some (spec.1.toList, []) :=
    readBody?_escape spec.1.toList []
  rw [listedPath?, hline, Text.splitFirst_append _ hspace]
  simp only [hread, String.ofList_toList]

theorem filterMap_listedPath?_importLines (u : SourceUnit) :
    (importLines (.allocate u)).filterMap listedPath? = (Aliases.allocate u).specs.map Prod.fst := by
  have hspecs : ((Aliases.allocate u).specs.map specLine).filterMap listedPath?
      = (Aliases.allocate u).specs.map Prod.fst := by
    rw [List.filterMap_map, ← List.filterMap_eq_map]
    refine List.filterMap_congr fun spec hspec => ?_
    have hmem := (Aliases.perm_specs _).mem_iff.mp hspec
    exact listedPath?_specLine (Aliases.isIdentifier_of_mem_allocate hmem)
  have hopen : listedPath? "import (" = none := by decide
  have hclose : listedPath? ")" = none := by decide
  have hempty : listedPath? "" = none := by decide
  unfold importLines
  split
  · rename_i hnone
    rw [hnone]
    rfl
  · rw [List.filterMap_append, List.filterMap_append, hspecs]
    simp [hopen, hclose, hempty]

end Source

/-! ## exact imports -/

open Source

namespace SourceUnit

variable (u : SourceUnit)

/-- the identifiers that stand in the text of the declarations -/
def shown : List Ident := idents (outlineAll u.declarations)

def listedPaths : List String := (importLines (.allocate u)).filterMap listedPath?

/-- the unit has a text, and the import block in it lists what the declarations need -/
structure ImportsExactly : Prop where
  render : u.render = .ok (linesText (headerLines u ++ importLines (.allocate u) ++
    u.bodyLines (Aliases.allocate u).written))
  nodup : u.listedPaths.Nodup
  listed : ∀ path, path ∈ u.listedPaths ↔ path ≠ u.importPath ∧ ∃ i ∈ u.shown, i.importPath = path
  recorded : ∀ i, i ∈ u.references ↔ i ∈ u.shown
  written : ∀ i ∈ u.shown, (i.importPath = u.importPath ∧ (Aliases.allocate u).written i = i.name) ∨
    ∃ short, (i.importPath, short) ∈ (Aliases.allocate u).specs ∧
      (Aliases.allocate u).written i = short ++ "." ++ i.name

end SourceUnit

/-! ## emitted units -/

theorem Method.mem_looksUp (m : Method) (r : Roots) (receiverType : String) {i : Ident} :
    i ∈ (m.adapter r receiverType).looksUp ↔ i ∈ m.references r := by
  have h : (m.adapter r receiverType).looksUp = [contextIdent, m.requestIdent r, m.responseIdent r,
      r.transformIdent, r.transformIdent] := rfl
  rw [h, Method.references]
  simp

theorem Service.mem_looksUp (s : Service) (r : Roots) {i : Ident} :
    i ∈ (s.declarations r).flatMap Declaration.looksUp ↔ i ∈ s.references r := by
  rw [Service.declarations, Service.references, List.flatMap_cons, List.flatMap_map]
  simp only [Declaration.looksUp, List.singleton_append, List.mem_cons, List.mem_flatMap,
    Method.mem_looksUp]
  rfl

theorem Roots.mem_looksUp_translation (r : Roots) {i : Ident} :
    i ∈ r.translation.looksUp ↔ i ∈ r.translationReferences := by
  simp only [Translation.looksUp, Roots.translation, Roots.translationReferences, List.mem_cons,
    List.not_mem_nil, or_false]
  grind

namespace SchemaFile

variable (f : SchemaFile) (r : Roots) (fileName : String)

theorem mem_references_unit {i : Ident} :
    i ∈ (f.unit r fileName).references ↔ i ∈ (f.unit r fileName).looksUp := by
  have hservices : i ∈ (f.services.flatMap fun s => s.declarations r).flatMap Declaration.looksUp ↔
      i ∈ f.services.flatMap fun s => s.references r := by
    rw [List.flatMap_assoc]
    simp only [List.mem_flatMap (l := f.services), Service.mem_looksUp]
  show i ∈ (f.references r).eraseDups ↔ i ∈ (f.declarations r).flatMap Declaration.looksUp
  rw [List.mem_eraseDups, SchemaFile.references, SchemaFile.declarations, List.flatMap_append,
    List.mem_append, List.mem_append, hservices, List.flatMap_singleton]
  exact or_congr_right r.mem_looksUp_translation.symm

theorem mem_idents_unit {i : Ident} :
    i ∈ idents (outlineAll (f.unit r fileName).declarations) ↔
      i ∈ (f.unit r fileName).references := by
  rw [mem_references_unit, mem_idents_outlineAll, SourceUnit.looksUp, List.mem_flatMap]

theorem knows_of_mem_references {i : Ident} (h : i ∈ (f.unit r fileName).references) :
    (Aliases.allocate (f.unit r fileName)).knows i = true := Aliases.knows_of_mem_references h

theorem render_unit : (f.unit r fileName).render = .ok (linesText (f.unit r fileName).lines) := by
  rw [SourceUnit.render_eq, Aliases.firstUnknown_eq_none.mpr fun i hi =>
    f.knows_of_mem_references r fileName ((f.mem_references_unit r fileName).mpr hi)]

/-- **The import block of an emitted unit is exact**: of the paths of the identifiers that the text
shows it lists all but the unit's own, each once, and nothing else. -/
theorem imports_exact (f : SchemaFile) (r : Roots) (fileName : String) :
    (f.unit r fileName).ImportsExactly where
  render := f.render_unit r fileName
  nodup := by
    rw [SourceUnit.listedPaths, filterMap_listedPath?_importLines,
      (Aliases.paths_specs_allocate _).nodup_iff]
    exact SourceUnit.nodup_importedPaths _
  listed path := by
    rw [SourceUnit.listedPaths, filterMap_listedPath?_importLines,
      (Aliases.paths_specs_allocate _).mem_iff, SourceUnit.mem_importedPaths]
    simp only [SourceUnit.shown, mem_idents_unit]
  recorded i := (f.mem_idents_unit r fileName).symm
  written i hi := Aliases.written_of_knows
    (f.knows_of_mem_references r fileName ((f.mem_idents_unit r fileName).mp hi))

end SchemaFile

end RpcAdapters
