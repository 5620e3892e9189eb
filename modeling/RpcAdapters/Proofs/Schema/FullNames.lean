import RpcAdapters.Proofs.Schema.Paths

/-!
# Messages that share a name

Messages of different files, or at different places of one file, can have the same full name, and names
can be empty.  An index knows the last of them.

* `Leads ms path`              `path` leads from the top of the trees `ms` to a message;
* `ProtoFile.relativeText`     the name of the message there, seen from the package of its file;
* `ProtoFile.knownAs`          its full name;
* `placesInOrder files`        all messages, by file and path: files in order, messages in order, nested
                               ones before the message that holds them;
* `MessageIndex.find?_last`    what is found in an index of files.
-/

namespace RpcAdapters

open Naming

/-! ## where messages are -/

inductive Leads : List ProtoMessage → List String → Prop
  | here {ms : List ProtoMessage} {m : ProtoMessage} (hm : m ∈ ms) : Leads ms [m.name]
  | inside {ms : List ProtoMessage} {m : ProtoMessage} {path : List String} (hm : m ∈ ms)
    (hpath : Leads m.nested path) : Leads ms (m.name :: path)

theorem ProtoMessage.mem_paths {m : ProtoMessage} {path : List String} : path ∈ m.paths ↔
    path = [m.name] ∨ ∃ rest ∈ messagePaths m.nested, path = m.name :: rest := by
  obtain ⟨name?, nested⟩ := m
  rw [ProtoMessage.paths, List.mem_map]
  constructor
  · rintro ⟨rest, hrest, rfl⟩
    rcases List.mem_append.mp hrest with hrest | hrest
    · exact .inr ⟨rest, hrest, rfl⟩
    · obtain rfl := List.mem_singleton.mp hrest
      exact .inl rfl
  · rintro (rfl | ⟨rest, hrest, rfl⟩)
    · exact ⟨[], List.mem_append_right _ (List.mem_singleton.mpr rfl), rfl⟩
    · exact ⟨rest, List.mem_append_left _ hrest, rfl⟩

theorem mem_messagePaths_iff_leads {ms : List ProtoMessage} {path : List String} :
    path ∈ messagePaths ms ↔ Leads ms path := by
  constructor
  · intro h
    -- the path gets shorter on the way into a message
    induction path generalizing ms with
    | nil => exact absurd rfl (ne_nil_of_mem_messagePaths h)
    | cons name path ih =>
      obtain ⟨m, hm, hpath⟩ := mem_messagePaths.mp h
      rcases m.mem_paths.mp hpath with heq | ⟨rest, hrest, heq⟩
      · rw [heq]
        exact .here hm
      · obtain ⟨rfl, rfl⟩ := List.cons.inj heq
        exact .inside hm (ih hrest)
  · intro h
    induction h with
    | @here ms m hm => exact mem_messagePaths.mpr ⟨m, hm, m.mem_paths.mpr (.inl rfl)⟩
    | @inside ms m path hm _ ih =>
      exact mem_messagePaths.mpr ⟨m, hm, m.mem_paths.mpr (.inr ⟨path, ih, rfl⟩)⟩

/-! ## their names -/

namespace ProtoFile

/-- the names on a path with dots between them; empty names at the front add nothing -/
def relativeText (path : List String) : String := ".".intercalate (path.dropWhile (· = ""))

/-- a dot, the package and a dot if there is one, and the name seen from there -/
def knownAs (f : ProtoFile) (path : List String) : String :=
  "." ++ (if f.package = "" then "" else f.package ++ ".") ++ relativeText path

theorem foldl_relativeName_of_ne {outer : String} (h : outer ≠ "") (path : List String) :
    path.foldl relativeName outer = ".".intercalate (outer :: path) := by
  induction path generalizing outer with
  | nil => rw [List.foldl_nil, String.intercalate_singleton]
  | cons name path ih =>
    have hnext : relativeName outer name = outer ++ "." ++ name := if_neg h
    have hne : outer ++ "." ++ name ≠ "" := by
      intro hempty
      exact h (String.append_eq_empty_iff.mp (String.append_eq_empty_iff.mp hempty).1).1
    rw [List.foldl_cons, hnext, ih hne, String.intercalate_cons_append, String.intercalate_cons_cons]

theorem relativePath_eq_relativeText (path : List String) : relativePath path = relativeText path := by
  unfold relativePath relativeText
  induction path with
  | nil => rfl
  | cons name path ih =>
    have hnext : relativeName "" name = name := if_pos rfl
    rw [List.foldl_cons, hnext]
    by_cases hname : name = ""
    · rw [List.dropWhile_cons_of_pos (by simpa using hname), hname]
      exact ih
    · rw [List.dropWhile_cons_of_neg (by simpa using hname)]
      exact foldl_relativeName_of_ne hname path

theorem entryAt_eq_knownAs (f : ProtoFile) (path : List String) :
    f.entryAt (relativePath path) = (f.knownAs path, ⟨exported (relativeText path), f.name⟩) := by
  unfold entryAt fullName knownAs
  rw [relativePath_eq_relativeText]
  by_cases hpackage : f.package = ""
  · rw [if_pos hpackage, if_pos hpackage, String.append_empty]
  · rw [if_neg hpackage, if_neg hpackage]
    simp only [String.append_assoc]

end ProtoFile

/-! ## indices -/

def placesInOrder (files : List ProtoFile) : List (ProtoFile × List String) :=
  files.flatMap fun f => f.paths.map fun path => (f, path)

theorem mem_placesInOrder {files : List ProtoFile} {f : ProtoFile} {path : List String} :
    (f, path) ∈ placesInOrder files ↔ f ∈ files ∧ Leads f.messages path := by
  unfold placesInOrder
  rw [List.mem_flatMap, ← mem_messagePaths_iff_leads]
  constructor
  · rintro ⟨g, hg, hpath⟩
    obtain ⟨path', hpath', heq⟩ := List.mem_map.mp hpath
    obtain ⟨rfl, rfl⟩ := Prod.mk.inj heq
    exact ⟨hg, hpath'⟩
  · rintro ⟨hf, hpath⟩
    exact ⟨f, hf, List.mem_map.mpr ⟨path, hpath, rfl⟩⟩

/-- what an index says of the message at a place -/
def entryOf (place : ProtoFile × List String) : String × MessageEntry :=
  (place.1.knownAs place.2, ⟨exported (ProtoFile.relativeText place.2), place.1.name⟩)

namespace MessageIndex

theorem ofFiles_eq_entryOf (files : List ProtoFile) :
    ofFiles files = ((placesInOrder files).map entryOf).reverse := by
  have hentries : files.flatMap ProtoFile.entries = (placesInOrder files).map entryOf := by
    unfold placesInOrder
    rw [List.map_flatMap]
    refine List.flatMap_congr fun f _ => ?_
    rw [f.entries_eq, List.map_map]
    exact List.map_congr_left fun path _ => f.entryAt_eq_knownAs path
  rw [ofFiles, hentries]

theorem exists_find?_iff {files : List ProtoFile} {n : String} :
    (∃ entry, (ofFiles files).find? n = some entry) ↔
      ∃ f ∈ files, ∃ path, Leads f.messages path ∧ f.knownAs path = n := by
  have hsome : (∃ entry, (ofFiles files).find? n = some entry) ↔
      ∃ e ∈ ofFiles files, (n == e.1) = true := by
    rw [← Option.isSome_iff_exists]
    exact List.lookup_isSome_iff
  rw [hsome, ofFiles_eq_entryOf]
  constructor
  · rintro ⟨e, he, hn⟩
    obtain ⟨⟨f, path⟩, hplace, rfl⟩ := List.mem_map.mp (List.mem_reverse.mp he)
    obtain ⟨hf, hpath⟩ := mem_placesInOrder.mp hplace
    exact ⟨f, hf, path, hpath, (beq_iff_eq.mp hn).symm⟩
  · rintro ⟨f, hf, path, hpath, rfl⟩
    have hplace : (f, path) ∈ placesInOrder files := mem_placesInOrder.mpr ⟨hf, hpath⟩
    exact ⟨entryOf (f, path), List.mem_reverse.mpr (List.mem_map_of_mem hplace), beq_self_eq_true _⟩

/-- what is found is the entry of the last place that has the name -/
theorem find?_eq_some_iff_place {files : List ProtoFile} {n : String} {entry : MessageEntry} :
    (ofFiles files).find? n = some entry ↔ ∃ before f path after,
      placesInOrder files = before ++ (f, path) :: after ∧ f.knownAs path = n ∧
      (∀ place ∈ after, place.1.knownAs place.2 ≠ n) ∧
      entry = ⟨exported (ProtoFile.relativeText path), f.name⟩ := by
  have hlast : (ofFiles files).find? n = some entry ↔ ∃ before after,
      (placesInOrder files).map entryOf = before ++ (n, entry) :: after ∧ ∀ e ∈ after, e.1 ≠ n := by
    rw [ofFiles_eq_entryOf]
    exact lookup_reverse_eq_some_iff
  rw [hlast]
  constructor
  · rintro ⟨before, after, hsplit, hafter⟩
    obtain ⟨places, rest, hplaces, -, hrest⟩ := List.map_eq_append_iff.mp hsplit
    obtain ⟨⟨f, path⟩, later, rfl, hentry, rfl⟩ := List.map_eq_cons_iff.mp hrest
    obtain ⟨hn, hvalue⟩ := Prod.mk.inj hentry
    refine ⟨places, f, path, later, hplaces, hn, fun place hplace => ?_, hvalue.symm⟩
    exact hafter (entryOf place) (List.mem_map_of_mem hplace)
  · rintro ⟨places, f, path, later, hplaces, hn, hlater, rfl⟩
    refine ⟨places.map entryOf, later.map entryOf, ?_, fun e he => ?_⟩
    · rw [hplaces, List.map_append, List.map_cons, ← hn]
      rfl
    · obtain ⟨place, hplace, rfl⟩ := List.mem_map.mp he
      exact hlater place hplace

/-- **An index knows the last message of each name**: something is found exactly if a message in the trees
has the name, and it is the Go name and the file of the last one of them. -/
theorem find?_last (files : List ProtoFile) (n : String) :
    ((∃ entry, (ofFiles files).find? n = some entry) ↔
      ∃ f ∈ files, ∃ path, Leads f.messages path ∧ f.knownAs path = n) ∧
    ∀ entry, (ofFiles files).find? n = some entry ↔ ∃ before f path after,
      placesInOrder files = before ++ (f, path) :: after ∧ f.knownAs path = n ∧
      (∀ place ∈ after, place.1.knownAs place.2 ≠ n) ∧
      entry = ⟨exported (ProtoFile.relativeText path), f.name⟩ :=
  ⟨exists_find?_iff, fun _ => find?_eq_some_iff_place⟩

end MessageIndex

end RpcAdapters
