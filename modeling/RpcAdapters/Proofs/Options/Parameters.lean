import RpcAdapters.Proofs.Options.Entries

/-!
# What a parameter text gives

The settings of a text are applied one after the other, so the last entry of a key counts.

* `lastValue? key es`       the value of the last entry with the key: `IsLast key value es`;
* `d.text? k`               what a draft says of a key, as it is written;
* `text?_apply`             a setting changes what is said of its key, and nothing else;
* `d.Holds es`, `o.From es`   the draft, and the options, that the entries give;
* `Holds.step`, `holds_foldl`   one entry more, and all of them;
* `HasRoot`, `LacksRoot`    a root that is there, and what is wrong with one that is not;
* `FirstRefused`, `FirstLacking`   the first entry that is no setting, the first root that is not there;
* `Options.Gives`, `Options.FailsWith`   what it takes for options, and for an error;
* `Options.parse_exact`     the options of a text, or the first thing wrong with it.
-/

namespace RpcAdapters

/-! ## last values -/

def valueOf? (key : String) (entry : List Char) : Option String :=
  match Text.splitFirst '=' entry with
  | some (k, v) => if k = key.toList then some (String.ofList v) else none
  | none => none

def lastValue? (key : String) (es : List (List Char)) : Option String :=
  es.reverse.findSome? (valueOf? key)

/-- no entry after the one that counts has its key -/
def IsLast (key value : String) (es : List (List Char)) : Prop :=
  ∃ before entry after, es = before ++ entry :: after ∧ EntryIs entry key value ∧
    ∀ e ∈ after, ∀ v, ¬EntryIs e key v

section
variable {key value : String} {entry : List Char} {es : List (List Char)}

theorem valueOf?_of_entryIs {key' : String} (h : EntryIs entry key' value) :
    valueOf? key entry = if key = key' then some value else none := by
  rw [valueOf?, entryIs_iff.mp h]
  show (if key'.toList = key.toList then some (String.ofList value.toList) else none) = _
  rw [String.ofList_toList]
  by_cases hkey : key = key'
  · rw [if_pos hkey, if_pos (congrArg String.toList hkey.symm)]
  · rw [if_neg hkey, if_neg fun h => hkey (String.toList_inj.mp h).symm]

theorem valueOf?_eq_some_iff : valueOf? key entry = some value ↔ EntryIs entry key value := by
  constructor
  · intro h
    obtain ⟨key', value', hentry⟩ | hnone := exists_entryIs_or entry
    · rw [valueOf?_of_entryIs hentry] at h
      split at h
      · rename_i hkey
        cases h
        rw [hkey]
        exact hentry
      · cases h
    · rw [valueOf?, Text.splitFirst_eq_none.mpr hnone] at h
      cases h
  · intro h
    rw [valueOf?_of_entryIs h, if_pos rfl]

theorem lastValue?_append_entry {key' : String} (h : EntryIs entry key' value) :
    lastValue? key (es ++ [entry]) = if key = key' then some value else lastValue? key es := by
  rw [lastValue?, List.reverse_concat, List.findSome?_cons, valueOf?_of_entryIs h]
  by_cases hkey : key = key'
  · rw [if_pos hkey, if_pos hkey]
  · rw [if_neg hkey, if_neg hkey]
    rfl

theorem valueOf?_eq_none_iff : valueOf? key entry = none ↔ ∀ value, ¬EntryIs entry key value := by
  rw [Option.eq_none_iff_forall_ne_some]
  exact forall_congr' fun value => not_congr valueOf?_eq_some_iff

theorem lastValue?_eq_some_iff : lastValue? key es = some value ↔ IsLast key value es := by
  rw [lastValue?, List.findSome?_eq_some_iff]
  unfold IsLast
  simp only [valueOf?_eq_some_iff, valueOf?_eq_none_iff]
  constructor
  · rintro ⟨after, entry, before, hes, hentry, hafter⟩
    refine ⟨before.reverse, entry, after.reverse, ?_, hentry, ?_⟩
    · rw [← List.reverse_reverse es, hes]
      simp
    · exact fun e he => hafter e (List.mem_reverse.mp he)
  · rintro ⟨before, entry, after, rfl, hentry, hafter⟩
    refine ⟨after.reverse, entry, before.reverse, by simp, hentry, ?_⟩
    exact fun e he => hafter e (List.mem_reverse.mp he)

theorem lastValue?_eq_none_iff : lastValue? key es = none ↔ ∀ e ∈ es, ∀ v, ¬EntryIs e key v := by
  rw [lastValue?, List.findSome?_eq_none_iff]
  simp only [valueOf?_eq_none_iff, List.mem_reverse]

end

/-! ## what entries give -/

namespace Draft

/-- what is said of a key, as it is written -/
def text? (d : Draft) : Key → Option String
  | .root .domain => d.domain?
  | .root .useCase => d.useCase?
  | .root .transform => d.transform?
  | .placement => some d.layout.placement.text
  | .modulePrefix => d.layout.modulePrefix?
  | .verbose => some (toString d.verbose)
  | .file name => d.overrides.find? name

/-- the last entry of each key counts, and without one the default -/
def Holds (d : Draft) (es : List (List Char)) : Prop :=
  ∀ k : Key, d.text? k = (lastValue? k.text es).or (text? {} k)

theorem text?_apply {k : Key} {value : String} {s : Setting} (h : Says k value s) (d : Draft)
    (k' : Key) : (d.apply s).text? k' = if k' = k then some value else d.text? k' := by
  cases h with
  | @file name path hname =>
    cases k' with
    | root r => cases r <;> rfl
    | file name' =>
      simp only [Key.file.injEq]
      exact Overrides.find?_set ..
    | _ => rfl
  | root r path =>
    cases k' with
    | root r' => cases r <;> cases r' <;> rfl
    | _ => cases r <;> rfl
  | _ =>
    cases k' with
    | root r => cases r <;> rfl
    | _ => rfl

theorem Holds.step {d : Draft} {es : List (List Char)} {entry : List Char} {s : Setting}
    (hd : d.Holds es) (h : Accepted entry s) : (d.apply s).Holds (es ++ [entry]) := by
  obtain ⟨k, value, hentry, hs⟩ := h
  intro k'
  rw [text?_apply hs, lastValue?_append_entry hentry, hd k']
  by_cases hk : k' = k
  · rw [if_pos hk, if_pos (Key.text_inj.mpr hk), Option.some_or]
  · rw [if_neg hk, if_neg (mt Key.text_inj.mp hk)]

theorem holds_empty : Holds {} [] := fun _ => rfl

theorem holds_foldl {es : List (List Char)} {settings : List Setting}
    (h : List.Forall₂ Accepted es settings) {d : Draft} {before : List (List Char)}
    (hd : d.Holds before) : (settings.foldl apply d).Holds (before ++ es) := by
  induction h generalizing d before with
  | nil =>
    rw [List.append_nil]
    exact hd
  | cons hs _ ih =>
    rw [List.append_cons]
    exact ih (hd.step hs)

theorem placement_text_inj {p p' : Placement} : p.text = p'.text ↔ p = p' := by
  cases p <;> cases p' <;> decide

theorem toString_inj {b b' : Bool} : toString b = toString b' ↔ b = b' := by
  cases b <;> cases b' <;> decide

theorem ext_text? {d d' : Draft} (h : ∀ k, d.text? k = d'.text? k) : d = d' := by
  have hplacement := placement_text_inj.mp (Option.some.inj (h .placement))
  have hverbose := toString_inj.mp (Option.some.inj (h .verbose))
  have hoverrides := Overrides.ext_find? fun name => h (.file name)
  obtain ⟨domain?, useCase?, transform?, ⟨placement, modulePrefix?⟩, overrides, verbose⟩ := d
  obtain ⟨domain?', useCase?', transform?', ⟨placement', modulePrefix?'⟩, overrides', verbose'⟩ := d'
  obtain rfl : domain? = domain?' := h (.root .domain)
  obtain rfl : useCase? = useCase?' := h (.root .useCase)
  obtain rfl : transform? = transform?' := h (.root .transform)
  obtain rfl : modulePrefix? = modulePrefix?' := h .modulePrefix
  subst hplacement hverbose hoverrides
  rfl

theorem Holds.unique {d d' : Draft} {es : List (List Char)} (h : d.Holds es) (h' : d'.Holds es) :
    d = d' :=
  ext_text? fun k => (h k).trans (h' k).symm

end Draft

/-- options, as far as they have been said -/
def Options.draft (o : Options) : Draft where
  domain? := some o.roots.domain
  useCase? := some o.roots.useCase
  transform? := some o.roots.transform
  layout := o.layout
  overrides := o.overrides
  verbose := o.verbose

/-- every option has the value of the last entry of its key, or the default if there is none -/
def Options.From (o : Options) (es : List (List Char)) : Prop := o.draft.Holds es

def Roots.path (r : Roots) : RootKey → String
  | .domain => r.domain
  | .useCase => r.useCase
  | .transform => r.transform

theorem Options.text?_draft_root (o : Options) (r : RootKey) :
    o.draft.text? (.root r) = some (o.roots.path r) := by
  cases r <;> rfl

/-! ## roots -/

def RootKey.inOrder : List RootKey := [.domain, .useCase, .transform]

def HasRoot (es : List (List Char)) (r : RootKey) : Prop :=
  ∃ path, path ≠ "" ∧ IsLast r.text path es

inductive LacksRoot (es : List (List Char)) (r : RootKey) : OptionsError → Prop where
  | missing (h : ∀ e ∈ es, ∀ value, ¬EntryIs e r.text value) : LacksRoot es r (.missingRoot r)
  | empty (h : IsLast r.text "" es) : LacksRoot es r (.emptyRoot r)

/-- the first root, in the order in which they are asked for, that is missing or empty in the end -/
def FirstLacking (es : List (List Char)) (err : OptionsError) : Prop :=
  ∃ before r after, RootKey.inOrder = before ++ r :: after ∧ (∀ r' ∈ before, HasRoot es r') ∧
    LacksRoot es r err

namespace Draft

theorem required_eq_ok_iff {r : RootKey} {value? : Option String} {path : String} :
    required r value? = .ok path ↔ path ≠ "" ∧ value? = some path := by
  cases value? with
  | none => simp [required]
  | some value =>
    rw [required, Option.some.injEq]
    by_cases h : value = ""
    · rw [if_pos h]
      refine iff_of_false nofun ?_
      rintro ⟨hne, rfl⟩
      exact hne h
    · rw [if_neg h, Except.ok.injEq]
      constructor
      · rintro rfl
        exact ⟨h, rfl⟩
      · exact And.right

theorem required_eq_error_iff {r : RootKey} {value? : Option String} {err : OptionsError} :
    required r value? = .error err ↔
      value? = none ∧ err = .missingRoot r ∨ value? = some "" ∧ err = .emptyRoot r := by
  cases value? with
  | none => simp [required, eq_comm]
  | some value =>
    rw [required]
    by_cases h : value = ""
    · simp [h, eq_comm]
    · simp [h]

variable {d : Draft} {es : List (List Char)}

/-- a root has no default -/
theorem Holds.text?_root (hd : d.Holds es) (r : RootKey) :
    d.text? (.root r) = lastValue? r.text es := by
  have hnone : text? {} (.root r) = none := by cases r <;> rfl
  rw [hd, hnone, Option.or_none]
  rfl

theorem Holds.exists_required_iff (hd : d.Holds es) {r : RootKey} :
    (∃ path, required r (d.text? (.root r)) = .ok path) ↔ HasRoot es r := by
  simp only [hd.text?_root, required_eq_ok_iff, lastValue?_eq_some_iff]
  rfl

theorem Holds.required_eq_error_iff (hd : d.Holds es) {r : RootKey} {err : OptionsError} :
    required r (d.text? (.root r)) = .error err ↔ LacksRoot es r err := by
  rw [hd.text?_root, Draft.required_eq_error_iff, lastValue?_eq_none_iff, lastValue?_eq_some_iff]
  constructor
  · rintro (⟨h, rfl⟩ | ⟨h, rfl⟩)
    · exact .missing h
    · exact .empty h
  · rintro (h | h)
    · exact .inl ⟨h, rfl⟩
    · exact .inr ⟨h, rfl⟩

theorem failure?_finish (d : Draft) : failure? d.finish
    = failure? (RootKey.inOrder.mapM fun r => required r (d.text? (.root r))) := by
  simp only [finish, RootKey.inOrder, List.mapM_cons, List.mapM_nil, text?]
  cases required .domain d.domain? with
  | error e => rfl
  | ok domain =>
    cases required .useCase d.useCase? with
    | error e => rfl
    | ok useCase => cases required .transform d.transform? <;> rfl

theorem Holds.finish_eq_error_iff (hd : d.Holds es) {err : OptionsError} :
    d.finish = .error err ↔ FirstLacking es err := by
  rw [← failure?_eq_some_iff, failure?_finish, failure?_eq_some_iff, mapM_eq_error_iff]
  unfold FirstLacking
  simp only [hd.exists_required_iff, hd.required_eq_error_iff]

theorem finish_eq_ok_iff {o : Options} :
    d.finish = .ok o ↔ (∀ r, o.roots.path r ≠ "") ∧ d = o.draft := by
  simp only [finish, bind_eq_ok_iff, pure_eq_ok_iff, required_eq_ok_iff]
  constructor
  · rintro ⟨domain, ⟨hdomain, hd⟩, useCase, ⟨huseCase, hu⟩, transform, ⟨htransform, ht⟩, rfl⟩
    refine ⟨fun r => ?_, ?_⟩
    · cases r with
      | domain => exact hdomain
      | useCase => exact huseCase
      | transform => exact htransform
    · unfold Options.draft
      rw [← hd, ← hu, ← ht]
  · rintro ⟨hne, rfl⟩
    exact ⟨_, ⟨hne .domain, rfl⟩, _, ⟨hne .useCase, rfl⟩, _, ⟨hne .transform, rfl⟩, rfl⟩

theorem Holds.finish_eq_ok_iff (hd : d.Holds es) {o : Options} :
    d.finish = .ok o ↔ (∀ r, o.roots.path r ≠ "") ∧ o.From es := by
  rw [Draft.finish_eq_ok_iff]
  refine and_congr_right fun _ => ?_
  constructor
  · rintro rfl
    exact hd
  · intro ho
    exact hd.unique ho

end Draft

/-! ## parameter texts -/

def AllAccepted (es : List (List Char)) : Prop := ∀ e ∈ es, ∃ s, Accepted e s

def FirstRefused (es : List (List Char)) (err : OptionsError) : Prop :=
  ∃ before e after, es = before ++ e :: after ∧ AllAccepted before ∧ Refused e err

theorem mapM_ofEntry_eq_error_iff {es : List (List Char)} {err : OptionsError} :
    es.mapM Setting.ofEntry = .error err ↔ FirstRefused es err := by
  rw [mapM_eq_error_iff]
  simp only [Setting.ofEntry_eq_ok_iff, Setting.ofEntry_eq_error_iff]
  rfl

theorem mapM_ofEntry_eq_ok_iff {es : List (List Char)} {settings : List Setting} :
    es.mapM Setting.ofEntry = .ok settings ↔ List.Forall₂ Accepted es settings := by
  rw [mapM_eq_ok_iff]
  simp only [Setting.ofEntry_eq_ok_iff]

theorem AllAccepted.exists_forall₂ {es : List (List Char)} (h : AllAccepted es) :
    ∃ settings, List.Forall₂ Accepted es settings := by
  simp only [← mapM_ofEntry_eq_ok_iff]
  refine exists_mapM_eq_ok_iff.mpr fun e he => ?_
  simp only [Setting.ofEntry_eq_ok_iff]
  exact h e he

theorem allAccepted_or_firstRefused (es : List (List Char)) :
    AllAccepted es ∨ ∃ err, FirstRefused es err := by
  cases h : es.mapM Setting.ofEntry with
  | error err => exact .inr ⟨err, mapM_ofEntry_eq_error_iff.mp h⟩
  | ok settings =>
    refine .inl fun e he => ?_
    obtain ⟨s, -, hs⟩ := exists_right_of_mem (mapM_ofEntry_eq_ok_iff.mp h) he
    exact ⟨s, hs⟩

theorem LacksRoot.not_hasRoot {es : List (List Char)} {r : RootKey} {err : OptionsError}
    (h : LacksRoot es r err) : ¬HasRoot es r := by
  rintro ⟨path, hne, hpath⟩
  rw [← lastValue?_eq_some_iff] at hpath
  cases h with
  | missing h =>
    rw [lastValue?_eq_none_iff.mpr h] at hpath
    cases hpath
  | empty h =>
    rw [lastValue?_eq_some_iff.mpr h] at hpath
    cases hpath
    exact hne rfl

namespace Options

variable {parameter : String} {err : OptionsError}

def entries (parameter : String) : List (List Char) := parameterEntries parameter.toList

/-- if no entry is refused, only the roots are left to be looked at -/
theorem exists_draft (h : AllAccepted (entries parameter)) :
    ∃ d : Draft, d.Holds (entries parameter) ∧ parse parameter = d.finish := by
  obtain ⟨settings, hsettings⟩ := h.exists_forall₂
  refine ⟨settings.foldl Draft.apply {}, Draft.holds_foldl hsettings Draft.holds_empty, ?_⟩
  have hmap := mapM_ofEntry_eq_ok_iff.mpr hsettings
  rw [entries] at hmap
  rw [parse, hmap]
  rfl

/-- what it takes for a text to give the options `o` -/
def Gives (parameter : String) (o : Options) : Prop :=
  AllAccepted (entries parameter) ∧ (∀ r, o.roots.path r ≠ "") ∧ o.From (entries parameter)

def FailsWith (parameter : String) (err : OptionsError) : Prop :=
  FirstRefused (entries parameter) err ∨
    AllAccepted (entries parameter) ∧ FirstLacking (entries parameter) err

theorem parse_of_gives {o : Options} (h : Gives parameter o) : parse parameter = .ok o := by
  obtain ⟨haccepted, ho⟩ := h
  obtain ⟨d, hd, hparse⟩ := exists_draft haccepted
  rw [hparse, hd.finish_eq_ok_iff]
  exact ho

theorem parse_of_failsWith (h : FailsWith parameter err) : parse parameter = .error err := by
  obtain hrefused | ⟨haccepted, hlacking⟩ := h
  · exact bind_eq_error_iff.mpr (.inl (mapM_ofEntry_eq_error_iff.mpr hrefused))
  · obtain ⟨d, hd, hparse⟩ := exists_draft haccepted
    rw [hparse, hd.finish_eq_error_iff]
    exact hlacking

theorem gives_or_failsWith (parameter : String) :
    (∃ o, Gives parameter o) ∨ ∃ err, FailsWith parameter err := by
  obtain haccepted | ⟨err, hrefused⟩ := allAccepted_or_firstRefused (entries parameter)
  · obtain ⟨d, hd, -⟩ := exists_draft haccepted
    cases hfinish : d.finish with
    | ok o => exact .inl ⟨o, haccepted, hd.finish_eq_ok_iff.mp hfinish⟩
    | error err => exact .inr ⟨err, .inr ⟨haccepted, hd.finish_eq_error_iff.mp hfinish⟩⟩
  · exact .inr ⟨err, .inl hrefused⟩

theorem parse_eq_ok_iff {o : Options} : parse parameter = .ok o ↔ Gives parameter o :=
  eq_ok_iff_of_total (fun _ => parse_of_gives) (fun _ => parse_of_failsWith)
    (gives_or_failsWith parameter)

theorem parse_eq_error_iff : parse parameter = .error err ↔ FailsWith parameter err :=
  eq_error_iff_of_total (fun _ => parse_of_gives) (fun _ => parse_of_failsWith)
    (gives_or_failsWith parameter)

theorem exists_parse_eq_ok_iff : (∃ o, parse parameter = .ok o) ↔
    AllAccepted (entries parameter) ∧ ∀ r, HasRoot (entries parameter) r := by
  constructor
  · rintro ⟨o, ho⟩
    obtain ⟨haccepted, hne, hfrom⟩ := parse_eq_ok_iff.mp ho
    refine ⟨haccepted, fun r => ⟨o.roots.path r, hne r, ?_⟩⟩
    rw [← lastValue?_eq_some_iff, ← hfrom.text?_root r, o.text?_draft_root]
  · rintro ⟨haccepted, hroots⟩
    obtain ⟨d, hd, hparse⟩ := exists_draft haccepted
    rw [hparse]
    cases hfinish : d.finish with
    | ok o => exact ⟨o, rfl⟩
    | error err =>
      obtain ⟨_, r, _, -, -, hlacks⟩ := hd.finish_eq_error_iff.mp hfinish
      exact absurd (hroots r) hlacks.not_hasRoot

structure ParsesExactly (parameter : String) : Prop where
  entries_iff : ∀ es, IsEntries parameter.toList es ↔ es = entries parameter
  succeeds_iff : (∃ o, parse parameter = .ok o) ↔
    AllAccepted (entries parameter) ∧ ∀ r, HasRoot (entries parameter) r
  ok_iff : ∀ o, parse parameter = .ok o ↔ Gives parameter o
  error_iff : ∀ err, parse parameter = .error err ↔ FailsWith parameter err

/-- **Every parameter text gives the options of its last entries, or the first error in it**: first
those of its entries in their order, then those of the roots. -/
theorem parse_exact (parameter : String) : ParsesExactly parameter where
  entries_iff _ := isEntries_iff
  succeeds_iff := exists_parse_eq_ok_iff
  ok_iff _ := parse_eq_ok_iff
  error_iff _ := parse_eq_error_iff

end Options

end RpcAdapters
