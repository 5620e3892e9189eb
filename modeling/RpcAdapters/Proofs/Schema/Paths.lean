import RpcAdapters.Proofs.Lookup
import RpcAdapters.Schema.Messages

/-!
# Messages by their paths

A message is found from the top of its file by a path: the names of the messages around it and its own,
outermost first.

* `ProtoFile.paths`            the paths of all messages of a file, nested ones before the one that
                               holds them;
* `ProtoFile.qualified path`   the name by which methods refer to the message there;
* `ProtoFile.fullNames`        the names under which the messages of a file are known, empty names of
                               messages or not; `fullNames_eq` says when they are the qualified ones;
* `MessageIndex.ofFiles_eq`    an index holds one entry for each path of each file;
* `MessageIndex.find?_eq_some_iff`   what is found when no two messages have the same name.
-/

namespace RpcAdapters

open Naming

/-! ## paths -/

def dotted (path : List String) : String := ".".intercalate path

mutual

def ProtoMessage.paths : ProtoMessage → List (List String)
  | ⟨name?, nested⟩ => (messagePaths nested ++ [[]]).map (name?.getD "" :: ·)

def messagePaths : List ProtoMessage → List (List String)
  | [] => []
  | m :: ms => m.paths ++ messagePaths ms

end

namespace ProtoFile

def paths (f : ProtoFile) : List (List String) := messagePaths f.messages

/-- a dot, the package if there is one, and the path, with dots between them -/
def qualified (f : ProtoFile) (path : List String) : String :=
  "." ++ dotted (if f.package = "" then path else f.package :: path)

/-- the name of a path as it is built up on the way down: an empty name adds nothing at the front -/
def relativePath (path : List String) : String := path.foldl relativeName ""

def fullNames (f : ProtoFile) : List String :=
  f.paths.map fun path => fullName f.package (relativePath path)

def entryAt (f : ProtoFile) (relative : String) : String × MessageEntry :=
  (fullName f.package relative, ⟨exported relative, f.name⟩)

end ProtoFile

theorem ne_nil_of_mem_paths {m : ProtoMessage} {path : List String} (h : path ∈ m.paths) :
    path ≠ [] := by
  obtain ⟨name?, nested⟩ := m
  rw [ProtoMessage.paths] at h
  obtain ⟨tail, -, rfl⟩ := List.mem_map.mp h
  exact List.cons_ne_nil _ _

theorem mem_messagePaths {ms : List ProtoMessage} {path : List String} :
    path ∈ messagePaths ms ↔ ∃ m ∈ ms, path ∈ m.paths := by
  induction ms with
  | nil => simp [messagePaths]
  | cons m ms ih => simp [messagePaths, ih]

theorem ne_nil_of_mem_messagePaths {ms : List ProtoMessage} {path : List String}
    (h : path ∈ messagePaths ms) : path ≠ [] := by
  obtain ⟨m, -, hpath⟩ := mem_messagePaths.mp h
  exact ne_nil_of_mem_paths hpath

/-! ## entries -/

-- the induction follows the trees; what is carried down is the name built so far
mutual

theorem ProtoMessage.entries_eq (f : ProtoFile) (outer : String) :
    ∀ m : ProtoMessage,
      m.entries f outer = m.paths.map fun path => f.entryAt (path.foldl relativeName outer)
  | ⟨name?, nested⟩ => by
    rw [ProtoMessage.entries, ProtoMessage.paths, messageEntries_eq f _ nested, List.map_map,
      List.map_append]
    rfl

theorem messageEntries_eq (f : ProtoFile) (outer : String) :
    ∀ ms : List ProtoMessage, messageEntries f outer ms
      = (messagePaths ms).map fun path => f.entryAt (path.foldl relativeName outer)
  | [] => by rw [messageEntries, messagePaths, List.map_nil]
  | m :: ms => by
    rw [messageEntries, messagePaths, ProtoMessage.entries_eq f outer m,
      messageEntries_eq f outer ms, List.map_append]

end

theorem ProtoFile.entries_eq (f : ProtoFile) :
    f.entries = f.paths.map fun path => f.entryAt (relativePath path) :=
  messageEntries_eq f "" f.messages

theorem ProtoFile.map_fst_entries (f : ProtoFile) : f.entries.map Prod.fst = f.fullNames := by
  rw [f.entries_eq, List.map_map]
  rfl

theorem map_fst_flatMap_entries (files : List ProtoFile) :
    (files.flatMap ProtoFile.entries).map Prod.fst = files.flatMap ProtoFile.fullNames := by
  rw [List.map_flatMap]
  simp only [ProtoFile.map_fst_entries]

/-! ## names without gaps -/

theorem dotted_eq_empty_iff {path : List String} (h : "" ∉ path) : dotted path = "" ↔ path = [] := by
  cases path with
  | nil => simp [dotted]
  | cons name rest =>
    have hname : name ≠ "" := fun hn => h (by simp [hn])
    cases rest with
    | nil => simpa [dotted] using hname
    | cons name' rest => simp [dotted, String.intercalate_cons_cons, hname]

theorem foldl_relativeName {outer path : List String} (houter : "" ∉ outer) (hpath : "" ∉ path) :
    path.foldl relativeName (dotted outer) = dotted (outer ++ path) := by
  induction path generalizing outer with
  | nil => rw [List.foldl_nil, List.append_nil]
  | cons name rest ih =>
    have hname : "" ∉ [name] := fun hn => hpath (List.mem_cons.mpr (.inl (List.mem_singleton.mp hn)))
    have hstep : relativeName (dotted outer) name = dotted (outer ++ [name]) := by
      rw [relativeName]
      split
      case isTrue h =>
        obtain rfl := (dotted_eq_empty_iff houter).mp h
        simp [dotted]
      case isFalse h =>
        have hne : outer ≠ [] := fun hnil => h ((dotted_eq_empty_iff houter).mpr hnil)
        rw [dotted, dotted, String.intercalate_append_of_ne_nil hne (List.cons_ne_nil _ _),
          String.intercalate_singleton]
    rw [List.foldl_cons, hstep,
      ih (fun h => (List.mem_append.mp h).elim houter hname) fun h => hpath (List.mem_cons_of_mem _ h),
      List.append_assoc, List.singleton_append]

namespace ProtoFile

variable (f : ProtoFile)

theorem fullName_dotted {path : List String} (h : path ≠ []) :
    fullName f.package (dotted path) = f.qualified path := by
  rw [fullName, qualified]
  split
  · rfl
  · rw [dotted, dotted, String.intercalate_cons_of_ne_nil h]
    simp [String.append_assoc]

theorem relativePath_eq {path : List String} (h : "" ∉ path) : relativePath path = dotted path :=
  foldl_relativeName (List.not_mem_nil : "" ∉ ([] : List String)) h

theorem entryAt_relativePath {path : List String} (hpath : "" ∉ path) (hne : path ≠ []) :
    f.entryAt (relativePath path) = (f.qualified path, ⟨exported (dotted path), f.name⟩) := by
  rw [entryAt, relativePath_eq hpath, f.fullName_dotted hne]

theorem fullNames_eq (h : ∀ path ∈ f.paths, "" ∉ path) : f.fullNames = f.paths.map f.qualified := by
  refine List.map_congr_left fun path hpath => ?_
  rw [relativePath_eq (h path hpath), f.fullName_dotted (ne_nil_of_mem_messagePaths hpath)]

theorem entries_eq_qualified (h : ∀ path ∈ f.paths, "" ∉ path) :
    f.entries = f.paths.map fun path => (f.qualified path, ⟨exported (dotted path), f.name⟩) := by
  rw [f.entries_eq]
  exact List.map_congr_left fun path hpath =>
    f.entryAt_relativePath (h path hpath) (ne_nil_of_mem_messagePaths hpath)

end ProtoFile

/-! ## indices -/

/-- what a path of a file stands for in an index -/
def qualifiedNames (files : List ProtoFile) : List String :=
  files.flatMap fun f => f.paths.map f.qualified

namespace MessageIndex

section
variable {files : List ProtoFile} (hnames : ∀ f ∈ files, ∀ path ∈ f.paths, "" ∉ path)
include hnames

theorem ofFiles_eq : ofFiles files = (files.flatMap fun f => f.paths.map fun path =>
    (f.qualified path, ⟨exported (dotted path), f.name⟩)).reverse := by
  rw [ofFiles]
  congr 1
  exact List.flatMap_congr fun f hf => f.entries_eq_qualified (hnames f hf)

theorem keys_ofFiles : (ofFiles files).map Prod.fst = (qualifiedNames files).reverse := by
  rw [ofFiles, List.map_reverse, map_fst_flatMap_entries, qualifiedNames]
  exact congrArg List.reverse (List.flatMap_congr fun f hf => f.fullNames_eq (hnames f hf))

theorem mem_ofFiles_iff {e : String × MessageEntry} : e ∈ ofFiles files ↔
    ∃ f ∈ files, ∃ path ∈ f.paths, (f.qualified path, ⟨exported (dotted path), f.name⟩) = e := by
  rw [ofFiles_eq hnames]
  simp only [List.mem_reverse, List.mem_flatMap, List.mem_map]

theorem find?_eq_some_iff (hnodup : (qualifiedNames files).Nodup) {n : String}
    {entry : MessageEntry} : (ofFiles files).find? n = some entry ↔
      ∃ f ∈ files, ∃ path ∈ f.paths, f.qualified path = n ∧
        ⟨exported (dotted path), f.name⟩ = entry := by
  have hkeys : ((ofFiles files).map Prod.fst).Nodup := by
    rw [keys_ofFiles hnames]
    exact List.nodup_reverse.mpr hnodup
  have hmem : (ofFiles files).find? n = some entry ↔ (n, entry) ∈ ofFiles files :=
    ⟨mem_of_lookup, lookup_of_mem hkeys⟩
  rw [hmem, mem_ofFiles_iff hnames]
  simp only [Prod.mk.injEq]

end

end MessageIndex

end RpcAdapters
