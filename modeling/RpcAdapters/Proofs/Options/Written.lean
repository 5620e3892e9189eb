import RpcAdapters.Proofs.Lookup
import RpcAdapters.Proofs.Options.Parameters

/-!
# Options written as a parameter text

Options are written as one entry for each thing they say, with commas between the entries.  The order of
the entries does not matter, and neither do white space and empty entries around the commas.

* `o.assignments`         the keys that `o` says something of, with the values;
* `mem_assignments_iff`   those are the keys of its draft: `Draft.text?`;
* `Spelled as pieces`     the pieces between commas that hold the assignments in this order;
* `o.WrittenAs parameter` the parameter texts for `o`, in any order of the entries;
* `o.text`                one of them;
* `o.Writable`            no value of `o` would be cut or trimmed;
* `writable_iff_exists_parse`   those are the options that some parameter text gives;
* `parse_written`         what is written is read back.
-/

namespace RpcAdapters

/-! ## overrides -/

namespace Overrides

variable (o : Overrides)

theorem nodup_files : (o.entries.map Prod.fst).Nodup := by
  rw [List.nodup_iff_pairwise_ne, List.pairwise_map]
  exact o.ascending.imp fun h => Std.ne_of_lt h

theorem mem_entries_iff {file path : String} :
    (file, path) ∈ o.entries ↔ o.find? file = some path :=
  ⟨lookup_of_mem o.nodup_files, mem_of_lookup⟩

end Overrides

/-! ## what there is to write -/

namespace Options

/-- a module prefix only if it is set, and every override -/
def assignments (o : Options) : List (Key × String) :=
  [(.root .domain, o.roots.domain), (.root .useCase, o.roots.useCase),
    (.root .transform, o.roots.transform), (.placement, o.layout.placement.text),
    (.verbose, toString o.verbose)] ++
  (o.layout.modulePrefix?.toList.map (Key.modulePrefix, ·) ++
    o.overrides.entries.map fun e => (Key.file e.1, e.2))

variable (o : Options)

theorem mem_assignments_iff {k : Key} {value : String} :
    (k, value) ∈ o.assignments ↔ o.draft.text? k = some value := by
  unfold assignments
  cases k with
  | root r => cases r <;> simp [Draft.text?, draft, eq_comm]
  | placement => simp [Draft.text?, draft, eq_comm]
  | verbose => simp [Draft.text?, draft, eq_comm]
  | modulePrefix => simp [Draft.text?, draft]
  | file name => simp [Draft.text?, draft, Overrides.mem_entries_iff]

end Options

/-! ## parameter texts for options -/

/-- the entry that gives a key its value -/
def writtenEntry (a : Key × String) : List Char := a.1.text.toList ++ '=' :: a.2.toList

/-- every assignment has a piece of its own, with white space around it; the other pieces hold nothing
but white space -/
inductive Spelled : List (Key × String) → List (List Char) → Prop where
  | nil : Spelled [] []
  | blank {as : List (Key × String)} {piece : List Char} {pieces : List (List Char)}
    (hpiece : ∀ c ∈ piece, Text.isBlank c = true) (h : Spelled as pieces) :
    Spelled as (piece :: pieces)
  | entry {a : Key × String} {as : List (Key × String)} {before after : List Char}
    {pieces : List (List Char)} (hbefore : ∀ c ∈ before, Text.isBlank c = true)
    (hafter : ∀ c ∈ after, Text.isBlank c = true) (h : Spelled as pieces) :
    Spelled (a :: as) ((before ++ (writtenEntry a ++ after)) :: pieces)

namespace Options

/-- `parameter` says what the options are, in any order -/
def WrittenAs (o : Options) (parameter : String) : Prop :=
  ∃ as pieces, as.Perm o.assignments ∧ Spelled as pieces ∧ Text.joinAll ',' pieces = parameter.toList

def text (o : Options) : String := String.ofList (Text.joinAll ',' (o.assignments.map writtenEntry))

end Options

theorem spelled_map_writtenEntry (as : List (Key × String)) : Spelled as (as.map writtenEntry) := by
  induction as with
  | nil => exact .nil
  | cons a as ih =>
    have h : Spelled (a :: as) (([] ++ (writtenEntry a ++ [])) :: as.map writtenEntry) :=
      .entry (List.forall_mem_nil _) (List.forall_mem_nil _) ih
    rw [List.append_nil] at h
    exact h

theorem Options.writtenAs_text (o : Options) : o.WrittenAs o.text :=
  ⟨o.assignments, _, .refl _, spelled_map_writtenEntry _, (String.toList_ofList).symm⟩

/-! ## values that can be written -/

/-- a comma would end the value, and white space at its end would be trimmed -/
structure IsValue (value : String) : Prop where
  comma : ',' ∉ value.toList
  last : ∀ c ∈ value.toList.getLast?, Text.isBlank c = false

/-- the name is all that stands between `M` and the first `=` of an entry -/
structure IsFileName (name : String) : Prop where
  nonempty : name ≠ ""
  comma : ',' ∉ name.toList
  equals : '=' ∉ name.toList

theorem isValue_iff {value : String} : IsValue value ↔
    ',' ∉ value.toList ∧ value.toList.getLast?.all (fun c => !Text.isBlank c) = true := by
  have hlast : value.toList.getLast?.all (fun c => !Text.isBlank c) = true ↔
      ∀ c ∈ value.toList.getLast?, Text.isBlank c = false := by
    cases value.toList.getLast? <;> simp
  rw [hlast]
  exact ⟨fun h => ⟨h.comma, h.last⟩, fun h => ⟨h.1, h.2⟩⟩

theorem isValue_placement (p : Placement) : IsValue p.text := by
  rw [isValue_iff]
  cases p <;> decide

theorem isValue_verbose (on : Bool) : IsValue (toString on) := by
  rw [isValue_iff]
  cases on <;> decide

structure Options.Writable (o : Options) : Prop where
  roots : ∀ r, o.roots.path r ≠ "" ∧ IsValue (o.roots.path r)
  module_ : ∀ path ∈ o.layout.modulePrefix?, IsValue path
  overrides : ∀ e ∈ o.overrides.entries, IsFileName e.1 ∧ IsValue e.2

namespace Key

theorem separators_not_mem_text {k : Key} (h : ∀ name, k = .file name → IsFileName name) :
    ',' ∉ k.text.toList ∧ '=' ∉ k.text.toList := by
  cases k with
  | root r => cases r <;> decide
  | file name =>
    have hname := h name rfl
    rw [toList_text_file]
    exact ⟨List.not_mem_cons_of_ne_of_not_mem (by decide) hname.comma,
      List.not_mem_cons_of_ne_of_not_mem (by decide) hname.equals⟩
  | _ => decide

/-- a key starts with a letter -/
theorem isBlank_head_text (k : Key) : ∃ c cs, k.text.toList = c :: cs ∧ Text.isBlank c = false := by
  cases k with
  | root r => cases r <;> exact ⟨_, _, rfl, rfl⟩
  | file name => exact ⟨_, _, toList_text_file name, rfl⟩
  | _ => exact ⟨_, _, rfl, rfl⟩

end Key

namespace Options.Writable

variable {o : Options} {k : Key} {value : String}

theorem isFileName (ho : o.Writable) {name : String} (h : o.draft.text? (.file name) = some value) :
    IsFileName name :=
  (ho.overrides _ (o.overrides.mem_entries_iff.mpr h)).1

theorem isValue (ho : o.Writable) (h : o.draft.text? k = some value) : IsValue value := by
  cases k with
  | root r =>
    rw [o.text?_draft_root, Option.some.injEq] at h
    exact h ▸ (ho.roots r).2
  | modulePrefix => exact ho.module_ _ h
  | file name => exact (ho.overrides _ (o.overrides.mem_entries_iff.mpr h)).2
  | placement => exact Option.some.inj h ▸ isValue_placement _
  | verbose => exact Option.some.inj h ▸ isValue_verbose _

theorem exists_says (ho : o.Writable) (h : o.draft.text? k = some value) : ∃ s, Says k value s := by
  cases k with
  | root r => exact ⟨_, .root r value⟩
  | modulePrefix => exact ⟨_, .modulePrefix value⟩
  | file name => exact ⟨_, .file value (ho.isFileName h).nonempty⟩
  | placement =>
    obtain rfl := Option.some.inj h
    exact ⟨_, .placement _⟩
  | verbose =>
    obtain rfl := Option.some.inj h
    exact ⟨_, .verbose _⟩

end Options.Writable

/-! ## reading what is written -/

section
variable {a : Key × String} {as : List (Key × String)} {pieces : List (List Char)}

/-- the end of an entry is that of its value, or the `=` before an empty one -/
theorem getLast?_writtenEntry (a : Key × String) :
    (writtenEntry a).getLast? = some (a.2.toList.getLast?.getD '=') := by
  rw [writtenEntry, List.getLast?_append_of_ne_nil _ (List.cons_ne_nil _ _), List.getLast?_cons]

theorem isBlank_getLast?_writtenEntry (ha : IsValue a.2) :
    ∀ c, (writtenEntry a).getLast? = some c → Text.isBlank c = false := by
  intro c hc
  rw [getLast?_writtenEntry] at hc
  obtain rfl := Option.some.inj hc
  cases hlast : a.2.toList.getLast? with
  | none => rfl
  | some c => exact ha.last c hlast

theorem isBlank_head?_writtenEntry (a : Key × String) :
    ∀ c, (writtenEntry a).head? = some c → Text.isBlank c = false := by
  intro c hc
  obtain ⟨d, ds, htext, hd⟩ := a.1.isBlank_head_text
  rw [writtenEntry, htext] at hc
  obtain rfl : d = c := Option.some.inj hc
  exact hd

theorem trimmed_writtenEntry (ha : IsValue a.2) {before after : List Char}
    (hbefore : ∀ c ∈ before, Text.isBlank c = true) (hafter : ∀ c ∈ after, Text.isBlank c = true) :
    Text.Trimmed (before ++ (writtenEntry a ++ after)) (writtenEntry a) where
  around := ⟨before, after, rfl, hbefore, hafter⟩
  head := isBlank_head?_writtenEntry a
  last := isBlank_getLast?_writtenEntry ha

theorem Spelled.exists_trimmed (h : Spelled as pieces) (has : ∀ a ∈ as, IsValue a.2) :
    ∃ trimmed, List.Forall₂ Text.Trimmed pieces trimmed ∧
      as.map writtenEntry = trimmed.filter (· ≠ []) := by
  induction h with
  | nil => exact ⟨[], .nil, rfl⟩
  | @blank as piece pieces hpiece _ ih =>
    obtain ⟨trimmed, htrimmed, hfilter⟩ := ih has
    have hnone : Text.Trimmed piece [] :=
      ⟨⟨piece, [], (List.append_nil piece).symm, hpiece, List.forall_mem_nil _⟩, nofun, nofun⟩
    exact ⟨[] :: trimmed, .cons hnone htrimmed, hfilter⟩
  | @entry a as before after pieces hbefore hafter _ ih =>
    obtain ⟨ha, has⟩ := List.forall_mem_cons.mp has
    obtain ⟨trimmed, htrimmed, hfilter⟩ := ih has
    refine ⟨writtenEntry a :: trimmed, .cons (trimmed_writtenEntry ha hbefore hafter) htrimmed, ?_⟩
    have hne : writtenEntry a ≠ [] := List.append_ne_nil_of_right_ne_nil _ (List.cons_ne_nil _ _)
    have hkeep : decide (writtenEntry a ≠ []) = true := decide_eq_true hne
    rw [List.map_cons, List.filter_cons, if_pos hkeep, hfilter]

theorem comma_not_mem_of_isBlank {cs : List Char} (h : ∀ c ∈ cs, Text.isBlank c = true) : ',' ∉ cs := by
  intro hcomma
  exact absurd (h _ hcomma) (by decide)

theorem Spelled.comma_not_mem (h : Spelled as pieces) (has : ∀ a ∈ as, ',' ∉ writtenEntry a) :
    ∀ p ∈ pieces, ',' ∉ p := by
  induction h with
  | nil => exact List.forall_mem_nil _
  | blank hpiece _ ih => exact List.forall_mem_cons.mpr ⟨comma_not_mem_of_isBlank hpiece, ih has⟩
  | entry hbefore hafter _ ih =>
    obtain ⟨ha, has⟩ := List.forall_mem_cons.mp has
    refine List.forall_mem_cons.mpr ⟨?_, ih has⟩
    simp [comma_not_mem_of_isBlank hbefore, comma_not_mem_of_isBlank hafter, ha]

theorem Spelled.ne_nil (h : Spelled as pieces) (has : as ≠ []) : pieces ≠ [] := by
  cases h with
  | nil => exact absurd rfl has
  | blank => exact List.cons_ne_nil _ _
  | entry => exact List.cons_ne_nil _ _

end

namespace Options

variable {o : Options} {parameter : String}

theorem comma_not_mem_writtenEntry (ho : o.Writable) {k : Key} {value : String}
    (h : o.draft.text? k = some value) : ',' ∉ writtenEntry (k, value) := by
  have hkey := (Key.separators_not_mem_text (k := k) fun name hname =>
    ho.isFileName (hname ▸ h)).1
  show ',' ∉ k.text.toList ++ '=' :: value.toList
  simp [hkey, (ho.isValue h).comma]

theorem entries_of_writtenAs (ho : o.Writable) (h : o.WrittenAs parameter) :
    ∃ as : List (Key × String), as.Perm o.assignments ∧ entries parameter = as.map writtenEntry := by
  obtain ⟨as, pieces, hperm, hspelled, hjoin⟩ := h
  have htext : ∀ a ∈ as, o.draft.text? a.1 = some a.2 := by
    intro a ha
    exact o.mem_assignments_iff.mp (hperm.mem_iff.mp ha)
  have hne : as ≠ [] := by
    intro hnil
    rw [hnil] at hperm
    cases hperm.nil_eq
  obtain ⟨trimmed, htrimmed, hfilter⟩ := hspelled.exists_trimmed fun a ha => ho.isValue (htext a ha)
  have hentries : IsEntries parameter.toList (as.map writtenEntry) :=
    ⟨pieces, trimmed, hjoin, hspelled.ne_nil hne,
      hspelled.comma_not_mem fun a ha => comma_not_mem_writtenEntry ho (htext a ha), htrimmed, hfilter⟩
  exact ⟨as, hperm, (isEntries_iff.mp hentries).symm⟩

end Options

/-! ## what the entries give -/

theorem entryIs_writtenEntry {k : Key} {value : String} (h : '=' ∉ k.text.toList) :
    EntryIs (writtenEntry (k, value)) k.text value :=
  ⟨rfl, h⟩

theorem valueOf?_writtenEntry {a : Key × String} (ha : '=' ∉ a.1.text.toList) (k : Key) :
    valueOf? k.text (writtenEntry a) = if k == a.1 then some a.2 else none := by
  rw [valueOf?_of_entryIs (entryIs_writtenEntry ha)]
  by_cases hk : k = a.1
  · rw [if_pos (Key.text_inj.mpr hk), if_pos (beq_iff_eq.mpr hk)]
  · rw [if_neg (mt Key.text_inj.mp hk), if_neg (mt beq_iff_eq.mp hk)]

theorem findSome?_valueOf?_map {as : List (Key × String)} (has : ∀ a ∈ as, '=' ∉ a.1.text.toList)
    (k : Key) : (as.map writtenEntry).findSome? (valueOf? k.text) = as.lookup k := by
  induction as with
  | nil => rfl
  | cons a as ih =>
    obtain ⟨ha, has⟩ := List.forall_mem_cons.mp has
    rw [List.map_cons, List.findSome?_cons, valueOf?_writtenEntry ha, ih has, List.lookup_cons]
    cases k == a.1 <;> rfl

theorem lastValue?_map_writtenEntry {as : List (Key × String)}
    (has : ∀ a ∈ as, '=' ∉ a.1.text.toList) (k : Key) :
    lastValue? k.text (as.map writtenEntry) = as.reverse.lookup k := by
  rw [lastValue?, ← List.map_reverse]
  exact findSome?_valueOf?_map (fun a ha => has a (List.mem_reverse.mp ha)) k

/-- a key that nothing is said of has no default -/
theorem Options.text?_draft_or (o : Options) (k : Key) :
    (o.draft.text? k).or (Draft.text? {} k) = o.draft.text? k := by
  cases k with
  | root r => cases r <;> rfl
  | modulePrefix => exact Option.or_none
  | file name => exact Option.or_none
  | placement => rfl
  | verbose => rfl

namespace Options

variable {o : Options} {parameter : String}

theorem gives_of_writtenAs (ho : o.Writable) (h : o.WrittenAs parameter) : Gives parameter o := by
  obtain ⟨as, hperm, hentries⟩ := entries_of_writtenAs ho h
  have hmem : ∀ k value, (k, value) ∈ as ↔ o.draft.text? k = some value := by
    intro k value
    rw [hperm.mem_iff, o.mem_assignments_iff]
  have hequals : ∀ a ∈ as, '=' ∉ a.1.text.toList := by
    intro a ha
    refine (Key.separators_not_mem_text fun name hname => ?_).2
    have htext := (hmem a.1 a.2).mp ha
    rw [hname] at htext
    exact ho.isFileName htext
  refine ⟨?_, fun r => (ho.roots r).1, ?_⟩
  · rw [hentries]
    intro e he
    obtain ⟨a, ha, rfl⟩ := List.mem_map.mp he
    obtain ⟨s, hs⟩ := ho.exists_says ((hmem a.1 a.2).mp ha)
    exact ⟨s, a.1, a.2, entryIs_writtenEntry (hequals a ha), hs⟩
  · rw [hentries]
    intro k
    have hlookup : as.reverse.lookup k = o.draft.text? k := by
      apply lookup_eq_of_mem_iff
      intro k value
      rw [List.mem_reverse, hmem]
    rw [lastValue?_map_writtenEntry hequals, hlookup, o.text?_draft_or]

end Options

/-! ## what is read can be written -/

section
variable {parameter key value : String} {e : List Char}

theorem trimmed_of_mem_entries (he : e ∈ Options.entries parameter) :
    ∃ piece, ',' ∉ piece ∧ Text.Trimmed piece e := by
  have hmem := (List.mem_filter.mp he).1
  obtain ⟨piece, hpiece, rfl⟩ := List.mem_map.mp hmem
  exact ⟨piece, Text.not_mem_of_mem_splitAll hpiece, Text.trimmed_trim piece⟩

theorem comma_not_mem_of_mem_entries (he : e ∈ Options.entries parameter) : ',' ∉ e := by
  obtain ⟨piece, hcomma, htrimmed⟩ := trimmed_of_mem_entries he
  obtain ⟨before, after, rfl, -, -⟩ := htrimmed.around
  intro h
  exact hcomma (List.mem_append_right _ (List.mem_append_left _ h))

theorem isValue_of_mem_entries (he : e ∈ Options.entries parameter) (h : EntryIs e key value) :
    IsValue value := by
  obtain ⟨piece, -, htrimmed⟩ := trimmed_of_mem_entries he
  have hcomma := comma_not_mem_of_mem_entries he
  obtain ⟨rfl, -⟩ := h
  refine ⟨fun hmem => hcomma ?_, fun c hc => htrimmed.last c ?_⟩
  · exact List.mem_append_right _ (List.mem_cons_of_mem _ hmem)
  · rw [List.getLast?_append_of_ne_nil _ (List.cons_ne_nil _ _), List.getLast?_cons, hc]
    rfl

theorem isFileName_of_mem_entries (he : e ∈ Options.entries parameter) {name : String}
    (h : EntryIs e (Key.file name).text value) (haccepted : ∃ s, Accepted e s) : IsFileName name := by
  have hcomma := comma_not_mem_of_mem_entries he
  obtain ⟨s, k, value', hentry, hs⟩ := haccepted
  have hkey : k = .file name := by
    have hsplit := (entryIs_iff.mp hentry).symm.trans (entryIs_iff.mp h)
    have htext := congrArg Prod.fst (Option.some.inj hsplit)
    exact Key.text_inj.mp (String.toList_inj.mp htext)
  subst hkey
  obtain ⟨rfl, hequals⟩ := h
  rw [Key.toList_text_file] at hcomma hequals
  cases hs with
  | file _ hname =>
    refine ⟨hname, fun hmem => hcomma ?_, fun hmem => hequals (List.mem_cons_of_mem _ hmem)⟩
    exact List.mem_append_left _ (List.mem_cons_of_mem _ hmem)

end

namespace Options

variable {o : Options} {parameter : String}

/-- what has no default is in some entry -/
theorem exists_entry_of_from (h : o.From (entries parameter)) {k : Key} {value : String}
    (htext : o.draft.text? k = some value) (hdefault : Draft.text? {} k = none) :
    ∃ e ∈ entries parameter, EntryIs e k.text value := by
  rw [h k, hdefault, Option.or_none] at htext
  obtain ⟨before, e, after, hentries, he, -⟩ := lastValue?_eq_some_iff.mp htext
  rw [hentries]
  exact ⟨e, by simp, he⟩

theorem writable_of_parse (h : parse parameter = .ok o) : o.Writable := by
  obtain ⟨haccepted, hroots, hfrom⟩ := parse_eq_ok_iff.mp h
  constructor
  case roots =>
    intro r
    have hdefault : Draft.text? {} (.root r) = none := by cases r <;> rfl
    obtain ⟨e, he, hentry⟩ := exists_entry_of_from hfrom (o.text?_draft_root r) hdefault
    exact ⟨hroots r, isValue_of_mem_entries he hentry⟩
  case module_ =>
    intro path hpath
    obtain ⟨e, he, hentry⟩ := exists_entry_of_from (k := .modulePrefix) hfrom hpath rfl
    exact isValue_of_mem_entries he hentry
  case overrides =>
    intro override hmem
    have htext : o.draft.text? (.file override.1) = some override.2 :=
      o.overrides.mem_entries_iff.mp hmem
    obtain ⟨e, he, hentry⟩ := exists_entry_of_from hfrom htext rfl
    exact ⟨isFileName_of_mem_entries he hentry (haccepted e he), isValue_of_mem_entries he hentry⟩

/-- the options that can be written are those that are read from some text -/
theorem writable_iff_exists_parse : o.Writable ↔ ∃ parameter, parse parameter = .ok o := by
  constructor
  · intro ho
    exact ⟨o.text, parse_of_gives (gives_of_writtenAs ho o.writtenAs_text)⟩
  · intro h
    obtain ⟨parameter, hparse⟩ := h
    exact writable_of_parse hparse

/-- **Options survive being written**, in any order of the entries and with any white space and empty
entries around the commas, if no value would be cut or trimmed. -/
theorem parse_written {o : Options} (ho : o.Writable) :
    o.WrittenAs o.text ∧ ∀ parameter, o.WrittenAs parameter → parse parameter = .ok o := by
  refine ⟨o.writtenAs_text, ?_⟩
  intro parameter h
  exact parse_of_gives (gives_of_writtenAs ho h)

/-- options with separators and white space inside, an empty prefix and an empty path -/
def tangledOptions : Options where
  roots := { domain := " d;1=2", useCase := "u c", transform := "t" }
  layout := { placement := .importPath, modulePrefix? := some "" }
  overrides := .ofList [("a b ", ""), ("M", ";p")]
  verbose := true

def tangledText : String :=
  "MM=;p\t, dtsPath=t,,module= ,Ma b =,verbose=true,\u00a0,useCasePath=u c,paths=import,domainPath= d;1=2\n,"

theorem entries_tangledOptions :
    tangledOptions.overrides.entries = [("M", ";p"), ("a b ", "")] := by
  decide +kernel

theorem assignments_tangledOptions : tangledOptions.assignments =
    [(.root .domain, " d;1=2"), (.root .useCase, "u c"), (.root .transform, "t"),
      (.placement, "import"), (.verbose, "true"), (.modulePrefix, ""), (.file "M", ";p"),
      (.file "a b ", "")] := by
  unfold assignments
  rw [entries_tangledOptions]
  rfl

theorem writtenAs_tangledText : tangledOptions.WrittenAs tangledText := by
  have hperm : [(Key.file "M", ";p"), (.root .transform, "t"), (.modulePrefix, ""),
      (.file "a b ", ""), (.verbose, "true"), (.root .useCase, "u c"),
      (.placement, "import"), (.root .domain, " d;1=2")].Perm tangledOptions.assignments := by
    rw [assignments_tangledOptions]
    decide
  have hnone : ∀ c ∈ ([] : List Char), Text.isBlank c = true := List.forall_mem_nil _
  have hspace : ∀ c ∈ [' '], Text.isBlank c = true := List.forall_mem_singleton.mpr rfl
  have htab : ∀ c ∈ ['\t'], Text.isBlank c = true := List.forall_mem_singleton.mpr rfl
  have hnewline : ∀ c ∈ ['\n'], Text.isBlank c = true := List.forall_mem_singleton.mpr rfl
  have hnoBreak : ∀ c ∈ ['\u00a0'], Text.isBlank c = true := List.forall_mem_singleton.mpr rfl
  refine ⟨_, _, hperm,
    .entry hnone htab <| .entry hspace hnone <| .blank hnone <| .entry hnone hspace <|
    .entry hnone hnone <| .entry hnone hnone <| .blank hnoBreak <| .entry hnone hnone <|
    .entry hnone hnone <| .entry hnone hnewline <| .blank hnone .nil, ?_⟩
  decide +kernel

theorem parse_written_tangled : tangledOptions.Writable ∧
    tangledOptions.WrittenAs tangledText ∧ parse tangledText = .ok tangledOptions := by
  have hwritable : tangledOptions.Writable := by
    constructor
    case roots =>
      intro r
      rw [isValue_iff]
      cases r <;> decide
    case module_ =>
      intro path hpath
      obtain rfl : "" = path := Option.some.inj hpath
      rw [isValue_iff]
      decide
    case overrides =>
      rw [entries_tangledOptions, List.forall_mem_cons, List.forall_mem_singleton, isValue_iff,
        isValue_iff]
      exact ⟨⟨⟨by decide, by decide, by decide⟩, by decide⟩, ⟨by decide, by decide, by decide⟩,
        by decide⟩
  exact ⟨hwritable, writtenAs_tangledText, (parse_written hwritable).2 _ writtenAs_tangledText⟩

end Options

end RpcAdapters
