import RpcAdapters.Proofs.Source.Imports

/-!
# Appending to a schema file

The text of an emitted unit is a head and one block of lines for each declaration.  When methods are
appended to the last service of a file, or services after it, the wrappers and adapters that were there
before keep their blocks: the aliases that they use are handed out first.

* `Declaration.text a d`            the block of a declaration, for given aliases;
* `SchemaFile.render_unit_blocks`   the text of an emitted unit, block by block;
* `SchemaFile.appending`            a file with more methods and services at its end;
* `importedFrom_append`             what is referenced first is imported first;
* `SchemaFile.kept_appending`       what stays as it is in the text.
-/

namespace RpcAdapters

open Source

/-! ## blocks of text -/

namespace Source

theorem linesText_append (ls ms : List String) :
    linesText (ls ++ ms) = linesText ls ++ linesText ms := by
  rw [linesText, List.map_append, String.join_append]
  rfl

def outlineText (name : Ident → String) (o : List OpenLine) : String :=
  linesText ((fill name o).map fun l => Writer.indented l.1 l.2)

theorem outlineText_append (name : Ident → String) (o p : List OpenLine) :
    outlineText name (o ++ p) = outlineText name o ++ outlineText name p := by
  rw [outlineText, fill_append, List.map_append, linesText_append]
  rfl

theorem outlineText_emptyLine (name : Ident → String) : outlineText name [emptyLine] = "\n" := rfl

/-- only the names of the identifiers in it matter for a text -/
theorem outlineText_congr {name name' : Ident → String} {o : List OpenLine}
    (h : ∀ i ∈ idents o, name i = name' i) : outlineText name o = outlineText name' o := by
  have hpiece : ∀ l ∈ o, ∀ p ∈ l.pieces, p.fill name = p.fill name' := by
    intro l hl p hp
    cases p with
    | text s => rfl
    | ident i =>
      have hline : i ∈ l.idents := List.mem_flatMap.mpr ⟨_, hp, List.mem_singleton_self i⟩
      exact h i (List.mem_flatMap.mpr ⟨l, hl, hline⟩)
  have hfill : fill name o = fill name' o := by
    refine List.map_congr_left fun l hl => ?_
    rw [OpenLine.fill, OpenLine.fill, joined, joined, List.map_congr_left (hpiece l hl)]
  rw [outlineText, outlineText, hfill]

theorem outlineAll_cons_cons (d d' : Declaration) (ds : List Declaration) :
    outlineAll (d :: d' :: ds) = d.outline ++ ([emptyLine] ++ outlineAll (d' :: ds)) := by
  rw [outlineAll, outlineAll, List.flatMap_cons]
  rfl

/-- an empty line between two blocks -/
theorem outlineText_outlineAll (name : Ident → String) (ds : List Declaration) :
    outlineText name (outlineAll ds)
      = "\n".intercalate (ds.map fun d => outlineText name d.outline) := by
  induction ds with
  | nil => rfl
  | cons d ds ih =>
    cases ds with
    | nil =>
      rw [outlineAll, List.flatMap_nil, List.append_nil, List.map_singleton,
        String.intercalate_singleton]
    | cons d' ds =>
      rw [outlineAll_cons_cons, outlineText_append, outlineText_append, outlineText_emptyLine, ih,
        List.map_cons, List.map_cons, List.map_cons, String.intercalate_cons_cons, String.append_assoc]

end Source

/-- what writing the declaration leaves -/
def Declaration.text (a : Aliases) (d : Declaration) : String := ((writeDeclaration a d).run {}).2.text

theorem Declaration.text_of_knows {a : Aliases} {d : Declaration}
    (h : ∀ i ∈ d.looksUp, a.knows i = true) : d.text a = outlineText a.written d.outline := by
  have hrun := (writes_declaration a d).done (Aliases.firstUnknown_eq_none.mpr h) {}
  rw [text, hrun, text_append_empty]
  rfl

theorem Declaration.text_congr {a a' : Aliases} {d : Declaration}
    (h : ∀ i ∈ d.looksUp, a.knows i = true) (h' : ∀ i ∈ d.looksUp, a'.knows i = true)
    (hwritten : ∀ i ∈ d.looksUp, a'.written i = a.written i) : d.text a' = d.text a := by
  rw [text_of_knows h, text_of_knows h']
  refine outlineText_congr fun i hi => ?_
  exact hwritten i (d.idents_outline_perm.mem_iff.mp hi)

/-- what comes before the declarations -/
def SourceUnit.head (u : SourceUnit) : String := linesText (headerLines u ++ importLines (.allocate u))

namespace SchemaFile

variable (f : SchemaFile) (r : Roots) (fileName : String)

theorem knows_of_mem_looksUp {d : Declaration} (hd : d ∈ (f.unit r fileName).declarations) {i : Ident}
    (hi : i ∈ d.looksUp) : (Aliases.allocate (f.unit r fileName)).knows i = true := by
  refine f.knows_of_mem_references r fileName ((f.mem_references_unit r fileName).mpr ?_)
  exact List.mem_flatMap.mpr ⟨d, hd, hi⟩

theorem render_unit_blocks : (f.unit r fileName).render = .ok ((f.unit r fileName).head ++
    "\n".intercalate ((f.unit r fileName).declarations.map
      (Declaration.text (.allocate (f.unit r fileName))))) := by
  have htexts : (f.unit r fileName).declarations.map (Declaration.text (.allocate (f.unit r fileName)))
      = (f.unit r fileName).declarations.map fun d =>
        outlineText (Aliases.allocate (f.unit r fileName)).written d.outline := by
    refine List.map_congr_left fun d hd => ?_
    exact Declaration.text_of_knows fun i hi => f.knows_of_mem_looksUp r fileName hd hi
  rw [render_unit, SourceUnit.lines, linesText_append, htexts, ← outlineText_outlineAll]
  rfl

end SchemaFile

/-! ## more at the end -/

/-- the last service gets more methods, if there is one -/
def extendLast (methods : List Method) : List Service → List Service
  | [] => []
  | [s] => [{ s with methods := s.methods ++ methods }]
  | s :: s' :: ss => s :: extendLast methods (s' :: ss)

namespace SchemaFile

def appending (f : SchemaFile) (methods : List Method) (services : List Service) : SchemaFile :=
  { f with services := extendLast methods f.services ++ services }

/-- all wrappers and adapters of a file -/
def serviceDeclarations (f : SchemaFile) (r : Roots) : List Declaration :=
  f.services.flatMap fun s => s.declarations r

def serviceReferences (f : SchemaFile) (r : Roots) : List Ident :=
  f.services.flatMap fun s => s.references r

end SchemaFile

theorem flatMap_extendLast {α : Type} {g : Service → List α} {methods : List Method}
    (hg : ∀ s, g s <+: g { s with methods := s.methods ++ methods }) (ss : List Service) :
    ss.flatMap g <+: (extendLast methods ss).flatMap g := by
  induction ss with
  | nil => exact List.nil_prefix
  | cons s ss ih =>
    cases ss with
    | nil =>
      rw [extendLast, List.flatMap_singleton, List.flatMap_singleton]
      exact hg s
    | cons s' ss =>
      rw [extendLast, List.flatMap_cons, List.flatMap_cons]
      exact (List.prefix_append_right_inj _).mpr ih

section
variable (s : Service) (r : Roots) (methods : List Method)

theorem Service.declarations_mono :
    s.declarations r <+: { s with methods := s.methods ++ methods }.declarations r := by
  refine ⟨methods.map fun m => .adapter (m.adapter r s.wrapperName), ?_⟩
  rw [declarations, declarations, List.cons_append, ← List.map_append]
  rfl

theorem Service.references_mono :
    s.references r <+: { s with methods := s.methods ++ methods }.references r := by
  refine ⟨methods.flatMap fun m => m.references r, ?_⟩
  rw [references, references, List.cons_append, ← List.flatMap_append]
  rfl

end

namespace SchemaFile

variable (f : SchemaFile) (r : Roots) (methods : List Method) (services : List Service)

theorem exists_serviceDeclarations_appending : ∃ added,
    (f.appending methods services).serviceDeclarations r = f.serviceDeclarations r ++ added := by
  have h := flatMap_extendLast (fun s => s.declarations_mono r methods) f.services
  obtain ⟨added, hadded⟩ := h.trans (List.prefix_append _ (services.flatMap fun s => s.declarations r))
  refine ⟨added, ?_⟩
  rw [serviceDeclarations, serviceDeclarations, hadded, ← List.flatMap_append]
  rfl

theorem exists_serviceReferences_appending : ∃ added,
    (f.appending methods services).serviceReferences r = f.serviceReferences r ++ added := by
  have h := flatMap_extendLast (fun s => s.references_mono r methods) f.services
  obtain ⟨added, hadded⟩ := h.trans (List.prefix_append _ (services.flatMap fun s => s.references r))
  refine ⟨added, ?_⟩
  rw [serviceReferences, serviceReferences, hadded, ← List.flatMap_append]
  rfl

end SchemaFile

/-! ## aliases handed out first -/

namespace Aliases

/-- aliases that are handed out later do not matter for what is known already -/
theorem written_of_append {a first : Aliases} {rest : List (String × String)} {i : Ident}
    (hown : a.ownPath = first.ownPath) (hentries : a.entries = first.entries ++ rest)
    (h : first.knows i = true) : a.knows i = true ∧ a.written i = first.written i := by
  rw [knows, Bool.or_eq_true, decide_eq_true_iff] at h ⊢
  unfold written
  rw [hown, hentries, List.lookup_append]
  rcases h with hpath | hsome
  · exact ⟨.inl hpath, by rw [if_pos hpath, if_pos hpath]⟩
  · obtain ⟨short, hshort⟩ := Option.isSome_iff_exists.mp hsome
    rw [hshort]
    exact ⟨.inr rfl, rfl⟩

end Aliases

/-- the paths of the references, in order, without the one path -/
def importedFrom (ownPath : String) (references : List Ident) : List String :=
  ((references.eraseDups.map Ident.importPath).filter (· ≠ ownPath)).eraseDups

theorem mem_importedFrom {ownPath : String} {references : List Ident} {i : Ident}
    (h : i ∈ references) (hpath : i.importPath ≠ ownPath) :
    i.importPath ∈ importedFrom ownPath references := by
  rw [importedFrom, List.mem_eraseDups, List.mem_filter, decide_eq_true_iff]
  exact ⟨List.mem_map_of_mem (List.mem_eraseDups.mpr h), hpath⟩

theorem importedFrom_append (ownPath : String) (before after : List Ident) : ∃ rest,
    importedFrom ownPath (before ++ after) = importedFrom ownPath before ++ rest := by
  unfold importedFrom
  rw [List.eraseDups_append, List.map_append, List.filter_append, List.eraseDups_append]
  exact ⟨_, rfl⟩

namespace SchemaFile

section
variable (f : SchemaFile) (r : Roots)

/-- the aliases of what the services refer to -/
def serviceAliases : Aliases where
  ownPath := f.importPath
  entries := Aliases.assign Aliases.reserved (importedFrom f.importPath (f.serviceReferences r))

theorem knows_serviceAliases {i : Ident} (h : i ∈ f.serviceReferences r) :
    (f.serviceAliases r).knows i = true := by
  rw [Aliases.knows, Bool.or_eq_true, decide_eq_true_iff]
  by_cases hpath : i.importPath = f.importPath
  · exact .inl hpath
  · right
    have hmem := mem_importedFrom h hpath
    rw [← Aliases.map_fst_assign Aliases.reserved (importedFrom ..)] at hmem
    obtain ⟨e, he, hfst⟩ := List.mem_map.mp hmem
    exact List.lookup_isSome_iff.mpr ⟨e, he, beq_iff_eq.mpr hfst.symm⟩

/-- they come first in any file that refers to the same before anything else -/
theorem exists_entries_eq {g : SchemaFile} (fileName : String) (hpath : g.importPath = f.importPath)
    {more : List Ident} (hreferences : g.references r = f.serviceReferences r ++ more) :
    ∃ rest, (Aliases.allocate (g.unit r fileName)).entries = (f.serviceAliases r).entries ++ rest := by
  have hentries : (Aliases.allocate (g.unit r fileName)).entries
      = Aliases.assign Aliases.reserved (importedFrom g.importPath (g.references r)) := rfl
  obtain ⟨rest, hrest⟩ := importedFrom_append f.importPath (f.serviceReferences r) more
  rw [hentries, hpath, hreferences, hrest, Aliases.assign_append]
  exact ⟨_, rfl⟩

theorem mem_serviceReferences {d : Declaration} (hd : d ∈ f.serviceDeclarations r) {i : Ident}
    (hi : i ∈ d.looksUp) : i ∈ f.serviceReferences r := by
  obtain ⟨s, hs, hd⟩ := List.mem_flatMap.mp hd
  have hlooked : i ∈ (s.declarations r).flatMap Declaration.looksUp := List.mem_flatMap.mpr ⟨d, hd, hi⟩
  exact List.mem_flatMap.mpr ⟨s, hs, (s.mem_looksUp r).mp hlooked⟩

section
variable {g : SchemaFile} {fileName : String} {rest : List (String × String)} {d : Declaration}

theorem written_of_entries (hpath : g.importPath = f.importPath)
    (hentries : (Aliases.allocate (g.unit r fileName)).entries = (f.serviceAliases r).entries ++ rest)
    (hd : d ∈ f.serviceDeclarations r) {i : Ident} (hi : i ∈ d.looksUp) :
    (Aliases.allocate (g.unit r fileName)).knows i = true ∧
      (Aliases.allocate (g.unit r fileName)).written i = (f.serviceAliases r).written i := by
  have hknown := f.knows_serviceAliases r (f.mem_serviceReferences r hd hi)
  exact Aliases.written_of_append hpath hentries hknown

theorem qualify_of_entries (hpath : g.importPath = f.importPath)
    (hentries : (Aliases.allocate (g.unit r fileName)).entries = (f.serviceAliases r).entries ++ rest)
    (hd : d ∈ f.serviceDeclarations r) {i : Ident} (hi : i ∈ d.looksUp) :
    (Aliases.allocate (g.unit r fileName)).qualify i = .ok ((f.serviceAliases r).written i) := by
  obtain ⟨hknows, hwritten⟩ := f.written_of_entries r hpath hentries hd hi
  rw [Aliases.qualify_of_knows hknows, hwritten]

theorem text_of_entries (hpath : g.importPath = f.importPath)
    (hentries : (Aliases.allocate (g.unit r fileName)).entries = (f.serviceAliases r).entries ++ rest)
    (hd : d ∈ f.serviceDeclarations r) :
    d.text (.allocate (g.unit r fileName)) = d.text (f.serviceAliases r) := by
  have hfirst {i : Ident} (hi : i ∈ d.looksUp) := f.written_of_entries r hpath hentries hd hi
  refine Declaration.text_congr (fun i hi => ?_) (fun i hi => (hfirst hi).1) fun i hi => (hfirst hi).2
  exact f.knows_serviceAliases r (f.mem_serviceReferences r hd hi)

end

/-- the block of the routine comes last -/
theorem render_unit_services (fileName : String) :
    (f.unit r fileName).render = .ok ((f.unit r fileName).head ++ "\n".intercalate
      ((f.serviceDeclarations r).map (Declaration.text (.allocate (f.unit r fileName)))
        ++ [Declaration.text (.allocate (f.unit r fileName)) (.translation r.translation)])) := by
  have hdeclarations : (f.unit r fileName).declarations
      = f.serviceDeclarations r ++ [.translation r.translation] := rfl
  rw [render_unit_blocks, hdeclarations, List.map_append]
  rfl

end

/-! ## kept text -/

/-- what the text of `f` and the text of `f'` have in common, when `f'` is `f` with more at its end -/
structure KeptIn (f f' : SchemaFile) (r : Roots) (fileName fileName' : String) : Prop where
  /-- the aliases that services use are handed out first -/
  aliases : ∃ rest rest',
    (Aliases.allocate (f.unit r fileName)).entries = (f.serviceAliases r).entries ++ rest ∧
    (Aliases.allocate (f'.unit r fileName')).entries = (f.serviceAliases r).entries ++ rest'
  qualified : ∀ d ∈ f.serviceDeclarations r, ∀ i ∈ d.looksUp, ∃ text,
    (Aliases.allocate (f.unit r fileName)).qualify i = .ok text ∧
    (Aliases.allocate (f'.unit r fileName')).qualify i = .ok text
  texts : ∀ d ∈ f.serviceDeclarations r, d.text (.allocate (f'.unit r fileName'))
    = d.text (.allocate (f.unit r fileName))
  /-- the blocks of all wrappers and adapters, and that of the routine -/
  rendered : (f.unit r fileName).render = .ok ((f.unit r fileName).head ++ "\n".intercalate
    ((f.serviceDeclarations r).map (Declaration.text (.allocate (f.unit r fileName)))
      ++ [Declaration.text (.allocate (f.unit r fileName)) (.translation r.translation)]))
  /-- the same blocks, those of what was added, and that of the routine -/
  rendered' : ∃ added, f'.serviceDeclarations r = f.serviceDeclarations r ++ added ∧
    (f'.unit r fileName').render = .ok ((f'.unit r fileName').head ++ "\n".intercalate
      ((f.serviceDeclarations r).map (Declaration.text (.allocate (f.unit r fileName)))
        ++ added.map (Declaration.text (.allocate (f'.unit r fileName')))
        ++ [Declaration.text (.allocate (f'.unit r fileName')) (.translation r.translation)]))

/-- **Appending keeps what is there**: when methods are appended to the last service of a file and
services after it, the wrappers and adapters that were there before keep the aliases they use, their text
and their order. -/
theorem kept_appending (f : SchemaFile) (methods : List Method) (services : List Service) (r : Roots)
    (fileName fileName' : String) :
    f.KeptIn (f.appending methods services) r fileName fileName' := by
  obtain ⟨added, hadded⟩ := f.exists_serviceDeclarations_appending r methods services
  obtain ⟨more, hmore⟩ := f.exists_serviceReferences_appending r methods services
  have hreferences : (f.appending methods services).references r
      = f.serviceReferences r ++ (more ++ r.translationReferences) := by
    rw [← List.append_assoc, ← hmore]
    rfl
  obtain ⟨rest, hrest⟩ := f.exists_entries_eq r fileName (g := f) rfl rfl
  obtain ⟨rest', hrest'⟩ :=
    f.exists_entries_eq r fileName' (g := f.appending methods services) rfl hreferences
  have htexts : ∀ d ∈ f.serviceDeclarations r,
      d.text (.allocate ((f.appending methods services).unit r fileName'))
        = d.text (.allocate (f.unit r fileName)) := by
    intro d hd
    rw [f.text_of_entries r rfl hrest hd]
    exact f.text_of_entries r (g := f.appending methods services) rfl hrest' hd
  constructor
  case aliases => exact ⟨rest, rest', hrest, hrest'⟩
  case qualified =>
    intro d hd i hi
    refine ⟨_, f.qualify_of_entries r rfl hrest hd hi, ?_⟩
    exact f.qualify_of_entries r (g := f.appending methods services) rfl hrest' hd hi
  case texts => exact htexts
  case rendered => exact f.render_unit_services r fileName
  case rendered' =>
    refine ⟨added, hadded, ?_⟩
    rw [render_unit_services, hadded, List.map_append, List.map_congr_left htexts]

-- the routine comes after all services, so that what it uses can get another alias
example :
    let f : SchemaFile := ⟨"a.services.proto", true, "shop/rpc", "rpc", [⟨"Stock", "Stock", []⟩]⟩
    let added : Method := ⟨"Count", "Count", ⟨"Item", "shop/rpc"⟩, ⟨"Item", "shop/rpc"⟩, false, false⟩
    let r : Roots := ⟨"shop/twirp", "shop/app", "shop/dts"⟩
    (Aliases.allocate (f.unit r "a.go")).written (twirp "Error") = "twirp.Error" ∧
      (Aliases.allocate ((f.appending [added] []).unit r "a.go")).written (twirp "Error")
        = "twirp1.Error" := by
  decide +kernel

end SchemaFile

end RpcAdapters
