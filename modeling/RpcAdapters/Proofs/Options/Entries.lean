import Mathlib.Data.List.Forall2
import Mathlib.Data.List.TakeWhile
import RpcAdapters.Options.Basic
import RpcAdapters.Proofs.InOrder

/-!
# Entries of a parameter text

Which entries a parameter text has, and what an entry says.

* `Text.Trimmed p q`            `q` is `p` without the white space at its ends;
* `IsEntries parameter es`      the trimmed pieces between commas, without the empty ones;
* `EntryIs entry key value`     the key stands before the first `=` of the entry, the value after it;
* `Key`, `Key.text`             what an entry can be about, and how it says so;
* `Says k value s`              the settings that there are, and how they are written;
* `Rejects key value err`       keys and values that are no setting;
* `Accepted`, `Refused`         the same for a whole entry;
* `ofEntry_eq_ok_iff`, `ofEntry_eq_error_iff`   reading an entry decides between the two.
-/

namespace RpcAdapters

/-! ## white space at the ends -/

namespace Text

structure Trimmed (p q : List Char) : Prop where
  around : ∃ a b, p = a ++ (q ++ b) ∧ (∀ c ∈ a, isBlank c = true) ∧ ∀ c ∈ b, isBlank c = true
  head : ∀ c, q.head? = some c → isBlank c = false
  last : ∀ c, q.getLast? = some c → isBlank c = false

theorem dropWhile_isBlank_append {a q : List Char} (ha : ∀ c ∈ a, isBlank c = true)
    (hq : ∀ c, q.head? = some c → isBlank c = false) : (a ++ q).dropWhile isBlank = q := by
  rw [List.dropWhile_append_of_pos ha]
  cases q with
  | nil => rfl
  | cons c q => rw [List.dropWhile_cons_of_neg (Bool.not_eq_true _ ▸ hq c rfl)]

theorem trimEnd_append {q b : List Char} (hb : ∀ c ∈ b, isBlank c = true)
    (hq : ∀ c, q.getLast? = some c → isBlank c = false) : trimEnd (q ++ b) = q := by
  have hdrop : (b.reverse ++ q.reverse).dropWhile isBlank = q.reverse := by
    apply dropWhile_isBlank_append
    · intro c hc
      exact hb c (List.mem_reverse.mp hc)
    · intro c hc
      exact hq c (List.head?_reverse ▸ hc)
  rw [trimEnd, List.reverse_append, hdrop, List.reverse_reverse]

theorem Trimmed.trim_eq {p q : List Char} (h : Trimmed p q) : trim p = q := by
  obtain ⟨a, b, rfl, ha, hb⟩ := h.around
  rw [trim]
  by_cases hq : q = []
  · -- nothing but white space is left, and the front takes it all
    subst hq
    have hblank : ∀ c ∈ a ++ b, isBlank c = true := List.forall_mem_append.mpr ⟨ha, hb⟩
    have hdrop := dropWhile_isBlank_append (q := []) hblank nofun
    rw [List.append_nil] at hdrop
    rw [List.nil_append, hdrop]
    rfl
  · have hhead : ∀ c, (q ++ b).head? = some c → isBlank c = false := by
      intro c hc
      rw [List.head?_append_of_ne_nil _ hq] at hc
      exact h.head c hc
    rw [dropWhile_isBlank_append ha hhead]
    exact trimEnd_append hb h.last

theorem trimEnd_append_blanks (cs : List Char) :
    trimEnd cs ++ (cs.reverse.takeWhile isBlank).reverse = cs := by
  rw [trimEnd, ← List.reverse_append, List.takeWhile_append_dropWhile, List.reverse_reverse]

theorem trimmed_trim (p : List Char) : Trimmed p (trim p) where
  around := by
    refine ⟨p.takeWhile isBlank, ((p.dropWhile isBlank).reverse.takeWhile isBlank).reverse, ?_, ?_, ?_⟩
    · rw [trim, trimEnd_append_blanks, List.takeWhile_append_dropWhile]
    · exact fun c hc => List.mem_takeWhile_imp hc
    · exact fun c hc => List.mem_takeWhile_imp (List.mem_reverse.mp hc)
  head c hc := by
    have hne : trim p ≠ [] := by
      intro h
      rw [h] at hc
      exact nomatch hc
    have hfront := List.head?_dropWhile_not isBlank p
    rw [← trimEnd_append_blanks (p.dropWhile isBlank), ← trim, List.head?_append_of_ne_nil _ hne, hc]
      at hfront
    simpa using hfront
  last c hc := by
    rw [trim, trimEnd, List.getLast?_reverse] at hc
    have hback := List.head?_dropWhile_not isBlank (p.dropWhile isBlank).reverse
    rw [hc] at hback
    simpa using hback

theorem forall₂_trimmed_iff {ps qs : List (List Char)} :
    List.Forall₂ Trimmed ps qs ↔ qs = ps.map trim := by
  constructor
  · intro h
    have hmap := map_eq_map_of_forall₂ (g := id) h fun p q hpq => hpq.trim_eq.symm
    rw [List.map_id] at hmap
    exact hmap
  · rintro rfl
    exact List.forall₂_map_right_iff.mpr (List.forall₂_same.mpr fun p _ => trimmed_trim p)

end Text

/-! ## entries -/

def IsEntries (parameter : List Char) (es : List (List Char)) : Prop :=
  ∃ pieces trimmed, Text.joinAll ',' pieces = parameter ∧ pieces ≠ [] ∧ (∀ p ∈ pieces, ',' ∉ p) ∧
    List.Forall₂ Text.Trimmed pieces trimmed ∧ es = trimmed.filter (· ≠ [])

/-- a text has one list of entries -/
theorem isEntries_iff {parameter : List Char} {es : List (List Char)} :
    IsEntries parameter es ↔ es = parameterEntries parameter := by
  unfold IsEntries parameterEntries
  constructor
  · rintro ⟨pieces, trimmed, rfl, hne, hcomma, htrimmed, rfl⟩
    rw [Text.splitAll_joinAll hcomma hne, Text.forall₂_trimmed_iff.mp htrimmed]
  · rintro rfl
    exact ⟨Text.splitAll ',' parameter, _, Text.joinAll_splitAll .., Text.splitAll_ne_nil _ _,
      fun p hp => Text.not_mem_of_mem_splitAll hp, Text.forall₂_trimmed_iff.mpr rfl, rfl⟩

/-! ## keys and values -/

def EntryIs (entry : List Char) (key value : String) : Prop :=
  entry = key.toList ++ '=' :: value.toList ∧ '=' ∉ key.toList

theorem entryIs_iff {entry : List Char} {key value : String} :
    EntryIs entry key value ↔ Text.splitFirst '=' entry = some (key.toList, value.toList) := by
  constructor
  · rintro ⟨rfl, hkey⟩
    exact Text.splitFirst_append _ hkey
  · exact Text.splitFirst_eq_some

/-- an entry has a key and a value, or it has no `=` -/
theorem exists_entryIs_or (entry : List Char) : (∃ key value, EntryIs entry key value) ∨ '=' ∉ entry := by
  cases h : Text.splitFirst '=' entry with
  | none => exact .inr (Text.splitFirst_eq_none.mp h)
  | some pair =>
    refine .inl ⟨String.ofList pair.1, String.ofList pair.2, entryIs_iff.mpr ?_⟩
    rw [h, String.toList_ofList, String.toList_ofList]

/-! ## settings -/

/-- what an entry can be about -/
inductive Key where
  | root (k : RootKey)
  | placement
  | modulePrefix
  | verbose
  | file (name : String)
  deriving DecidableEq

namespace Key

def text : Key → String
  | .root k => k.text
  | .placement => "paths"
  | .modulePrefix => "module"
  | .verbose => "verbose"
  | .file name => "M" ++ name

theorem toList_text_file (name : String) : (file name).text.toList = 'M' :: name.toList := by
  rw [text, String.toList_append]
  rfl

/-- the keys that stand as they are begin with another letter than those of files -/
theorem head?_text_iff {k : Key} : k.text.toList.head? = some 'M' ↔ ∃ name, k = .file name := by
  cases k with
  | root k => cases k <;> simp [text, RootKey.text]
  | placement => simp [text]
  | modulePrefix => simp [text]
  | verbose => simp [text]
  | file name => simp [toList_text_file]

theorem text_file_inj {name : String} {k : Key} : k.text = (file name).text ↔ k = .file name := by
  constructor
  · intro h
    have hhead : k.text.toList.head? = some 'M' := by
      rw [h, toList_text_file]
      rfl
    obtain ⟨name', rfl⟩ := head?_text_iff.mp hhead
    have hlist := congrArg String.toList h
    rw [toList_text_file, toList_text_file] at hlist
    rw [String.toList_inj.mp (List.cons.inj hlist).2]
  · rintro rfl
    rfl

theorem text_inj {k k' : Key} : k.text = k'.text ↔ k = k' := by
  cases k' with
  | file name => exact text_file_inj
  | root r =>
    cases k with
    | file name => rw [eq_comm, text_file_inj, eq_comm]
    | root r' => cases r <;> cases r' <;> decide
    | _ => cases r <;> decide
  | _ =>
    cases k with
    | file name => rw [eq_comm, text_file_inj, eq_comm]
    | root r' => cases r' <;> decide
    | _ => decide

end Key

inductive Says : Key → String → Setting → Prop where
  | root (k : RootKey) (path : String) : Says (.root k) path (.root k path)
  | placement (p : Placement) : Says .placement p.text (.placement p)
  | modulePrefix (path : String) : Says .modulePrefix path (.modulePrefix path)
  | verbose (on : Bool) : Says .verbose (toString on) (.verbose on)
  | file {name : String} (path : String) (hname : name ≠ "") :
    Says (.file name) path (.override name path)

inductive Rejects : String → String → OptionsError → Prop where
  | badPlacement {value : String} (h : ∀ p : Placement, value ≠ p.text) :
    Rejects "paths" value (.badPlacement value)
  | badVerbose {value : String} (h : ∀ on : Bool, value ≠ toString on) :
    Rejects "verbose" value (.badVerbose value)
  /-- the key of a file without a name is no key -/
  | unknownKey {key : String} (value : String) (h : ∀ k : Key, k.text = key → k = .file "") :
    Rejects key value (.unknownKey key)

namespace Setting

theorem ofPlacement_text (p : Placement) : ofPlacement p.text = .ok (.placement p) := by
  cases p <;> rfl

theorem ofVerbose_toString (on : Bool) : ofVerbose (toString on) = .ok (.verbose on) := by
  cases on <;> rfl

theorem overriddenFile?_eq_some_iff {key name : String} :
    overriddenFile? key = some name ↔ name ≠ "" ∧ key = (Key.file name).text := by
  rw [← String.toList_inj, Key.toList_text_file]
  unfold overriddenFile?
  constructor
  · intro h
    split at h
    · rename_i c cs hkey
      obtain rfl := Option.some.inj h
      refine ⟨?_, ?_⟩
      · intro hempty
        have hlist := congrArg String.toList hempty
        rw [String.toList_ofList] at hlist
        cases hlist
      · rw [hkey, String.toList_ofList]
    · cases h
  · rintro ⟨hname, hkey⟩
    have hne : name.toList ≠ [] := fun h => hname (String.toList_eq_nil_iff.mp h)
    obtain ⟨c, cs, hcs⟩ := List.exists_cons_of_ne_nil hne
    rw [hkey, hcs]
    show some (String.ofList (c :: cs)) = some name
    rw [← hcs, String.ofList_toList]

/-- a key that is not one of those that stand as they are -/
theorem ofKeyValue_of_ne {key : String} (h : ∀ k : Key, k.text = key → ∃ name, k = .file name)
    (value : String) : ofKeyValue key value = match overriddenFile? key with
      | some name => .ok (.override name value)
      | none => .error (.unknownKey key) := by
  unfold ofKeyValue
  split
  · exact nomatch h (.root .domain) rfl
  · exact nomatch h (.root .useCase) rfl
  · exact nomatch h (.root .transform) rfl
  · exact nomatch h .placement rfl
  · exact nomatch h .modulePrefix rfl
  · exact nomatch h .verbose rfl
  · rfl

theorem ofKeyValue_eq_ok {k : Key} {value : String} {s : Setting} (h : Says k value s) :
    ofKeyValue k.text value = .ok s := by
  cases h with
  | root k path => cases k <;> rfl
  | placement p => exact ofPlacement_text p
  | modulePrefix path => rfl
  | verbose on => exact ofVerbose_toString on
  | @file name path hname =>
    rw [ofKeyValue_of_ne fun k hk => ⟨name, Key.text_file_inj.mp hk⟩,
      overriddenFile?_eq_some_iff.mpr ⟨hname, rfl⟩]

theorem ofKeyValue_eq_error {key value : String} {err : OptionsError} (h : Rejects key value err) :
    ofKeyValue key value = .error err := by
  cases h with
  | badPlacement h =>
    show ofPlacement value = _
    unfold ofPlacement
    split
    · exact absurd rfl (h .sourceRelative)
    · exact absurd rfl (h .importPath)
    · rfl
  | badVerbose h =>
    show ofVerbose value = _
    unfold ofVerbose
    split
    · exact absurd rfl (h true)
    · exact absurd rfl (h false)
    · rfl
  | unknownKey value h =>
    rw [ofKeyValue_of_ne fun k hk => ⟨"", h k hk⟩]
    cases hfile : overriddenFile? key with
    | none => rfl
    | some name =>
      obtain ⟨hname, hkey⟩ := overriddenFile?_eq_some_iff.mp hfile
      exact absurd (Key.file.inj (h (.file name) hkey.symm)) hname

/-- a key and a value are a setting, or there is a reason why not -/
theorem says_or_rejects (key value : String) :
    (∃ s k, Key.text k = key ∧ Says k value s) ∨ ∃ err, Rejects key value err := by
  by_cases hkey : ∃ k : Key, k.text = key ∧ k ≠ .file ""
  · obtain ⟨k, rfl, hk⟩ := hkey
    cases k with
    | root k => exact .inl ⟨_, _, rfl, .root k value⟩
    | placement =>
      by_cases h : ∃ p : Placement, value = p.text
      · obtain ⟨p, rfl⟩ := h
        exact .inl ⟨_, _, rfl, .placement p⟩
      · exact .inr ⟨_, .badPlacement (not_exists.mp h)⟩
    | modulePrefix => exact .inl ⟨_, _, rfl, .modulePrefix value⟩
    | verbose =>
      by_cases h : ∃ on : Bool, value = toString on
      · obtain ⟨on, rfl⟩ := h
        exact .inl ⟨_, _, rfl, .verbose on⟩
      · exact .inr ⟨_, .badVerbose (not_exists.mp h)⟩
    | file name => exact .inl ⟨_, _, rfl, .file value fun h => hk (congrArg Key.file h)⟩
  · refine .inr ⟨_, .unknownKey value fun k hk => ?_⟩
    by_contra hne
    exact hkey ⟨k, hk, hne⟩

end Setting

/-! ## reading an entry -/

def Accepted (entry : List Char) (s : Setting) : Prop :=
  ∃ (k : Key) (value : String), EntryIs entry k.text value ∧ Says k value s

inductive Refused (entry : List Char) : OptionsError → Prop where
  | notKeyValue (h : '=' ∉ entry) : Refused entry (.notKeyValue (String.ofList entry))
  | rejected {key value : String} {err : OptionsError} (hentry : EntryIs entry key value)
    (h : Rejects key value err) : Refused entry err

theorem accepted_or_refused (entry : List Char) :
    (∃ s, Accepted entry s) ∨ ∃ err, Refused entry err := by
  obtain ⟨key, value, hentry⟩ | hnone := exists_entryIs_or entry
  · obtain ⟨s, k, rfl, hs⟩ | ⟨err, herr⟩ := Setting.says_or_rejects key value
    · exact .inl ⟨s, k, value, hentry, hs⟩
    · exact .inr ⟨err, .rejected hentry herr⟩
  · exact .inr ⟨_, .notKeyValue hnone⟩

namespace Setting

theorem ofEntry_of_entryIs {entry : List Char} {key value : String} (h : EntryIs entry key value) :
    ofEntry entry = ofKeyValue key value := by
  rw [ofEntry, entryIs_iff.mp h]
  simp only [String.ofList_toList]

theorem ofEntry_of_accepted {entry : List Char} {s : Setting} (h : Accepted entry s) :
    ofEntry entry = .ok s := by
  obtain ⟨k, value, hentry, hs⟩ := h
  rw [ofEntry_of_entryIs hentry]
  exact ofKeyValue_eq_ok hs

theorem ofEntry_of_refused {entry : List Char} {err : OptionsError} (h : Refused entry err) :
    ofEntry entry = .error err := by
  cases h with
  | notKeyValue h => rw [ofEntry, Text.splitFirst_eq_none.mpr h]
  | rejected hentry h =>
    rw [ofEntry_of_entryIs hentry]
    exact ofKeyValue_eq_error h

theorem ofEntry_eq_ok_iff {entry : List Char} {s : Setting} :
    ofEntry entry = .ok s ↔ Accepted entry s :=
  eq_ok_iff_of_total (fun _ => ofEntry_of_accepted) (fun _ => ofEntry_of_refused)
    (accepted_or_refused entry)

theorem ofEntry_eq_error_iff {entry : List Char} {err : OptionsError} :
    ofEntry entry = .error err ↔ Refused entry err :=
  eq_error_iff_of_total (fun _ => ofEntry_of_accepted) (fun _ => ofEntry_of_refused)
    (accepted_or_refused entry)

end Setting

end RpcAdapters
