import RpcAdapters.Files.Tree
import RpcAdapters.Proofs.InOrder

/-!
# What writing leaves behind

Writing only adds to a file tree: directories stay where they are, and so do all files but those that are
written to.

* `FileTree.WellFormed`        everything lies in a directory, and paths start in one;
* `FileTree.Grows t ls t'`     `t'` has all that `t` has; files at `ls` may have another content;
* `Grows.find`                 what a path leads to stays where it is;
* `write_of_ok`                one write: what is then at its path, and what else changes;
* `writeAll_of_ok`             many writes: they all stay where they were made;
* `find_of_writeAll`           the last of the writes to a place is the one that counts.
-/

namespace RpcAdapters

/-- whether this can be at a place after something was written to it -/
def Node.Holds (n : Node) (content : List UInt8) : Prop := n = .file content ∨ n = .device

namespace FileTree

/-! ## one component further -/

def onward (l : Location) (name : String) : Location :=
  if name = ".." then l.dropLast else l ++ [name]

theorem onward_of_ne {name : String} (l : Location) (h : name ≠ "..") : onward l name = l ++ [name] :=
  if_neg h

section
variable {t : FileTree} {l k : Location} {n m : Node} {name : String}

theorem step_directory (l : Location) (h : name.utf8ByteSize ≤ maxNameLength) :
    t.step (l, .directory) name = match t.get? (onward l name) with
      | some n => .ok (onward l name, n)
      | none => .error .notFound :=
  if_neg (Nat.not_lt.mpr h)

theorem step_of_long (l : Location) (h : maxNameLength < name.utf8ByteSize) :
    t.step (l, .directory) name = .error .nameTooLong :=
  if_pos h

theorem step_eq_ok_iff : t.step (l, n) name = .ok (k, m) ↔
    n = .directory ∧ name.utf8ByteSize ≤ maxNameLength ∧ onward l name = k ∧ t.get? k = some m := by
  cases n with
  | file content => simp [step]
  | device => simp [step]
  | directory =>
    rcases Nat.lt_or_ge maxNameLength name.utf8ByteSize with hlong | hshort
    · rw [step_of_long l hlong]
      simp [Nat.not_le.mpr hlong]
    · rw [step_directory l hshort]
      cases hnext : t.get? (onward l name) with
      | none =>
        simp only [reduceCtorEq, false_iff, true_and, not_and]
        rintro - rfl
        simp [hnext]
      | some n =>
        simp only [Except.ok.injEq, Prod.mk.injEq, true_and, hshort]
        constructor
        · rintro ⟨rfl, rfl⟩
          exact ⟨rfl, hnext⟩
        · rintro ⟨rfl, hm⟩
          exact ⟨rfl, Option.some.inj (hnext.symm.trans hm)⟩

theorem step_eq_notFound_iff : t.step (l, n) name = .error .notFound ↔
    n = .directory ∧ name.utf8ByteSize ≤ maxNameLength ∧ t.get? (onward l name) = none := by
  cases n with
  | file content => simp [step]
  | device => simp [step]
  | directory =>
    rcases Nat.lt_or_ge maxNameLength name.utf8ByteSize with hlong | hshort
    · rw [step_of_long l hlong]
      simp [Nat.not_le.mpr hlong]
    · rw [step_directory l hshort]
      cases hnext : t.get? (onward l name) with
      | none => simp [hshort]
      | some n => simp

theorem locateFrom_cons_eq_ok_iff {names : List String} :
    t.locateFrom (l, n) (name :: names) = .ok (k, m) ↔
      ∃ next, t.step (l, n) name = .ok next ∧ t.locateFrom next names = .ok (k, m) := by
  rw [locateFrom]
  cases t.step (l, n) name with
  | error e => simp
  | ok next => simp

theorem locateFrom_singleton (at_ : Location × Node) (name : String) :
    t.locateFrom at_ [name] = t.step at_ name := by
  rw [locateFrom]
  cases t.step at_ name <;> rfl

theorem get?_of_locateFrom {names : List String} (hat : t.get? l = some n)
    (h : t.locateFrom (l, n) names = .ok (k, m)) : t.get? k = some m := by
  induction names generalizing l n with
  | nil =>
    obtain ⟨rfl, rfl⟩ := Prod.mk.inj (Except.ok.inj h)
    exact hat
  | cons name names ih =>
    obtain ⟨⟨l', n'⟩, hstep, hrest⟩ := locateFrom_cons_eq_ok_iff.mp h
    exact ih (step_eq_ok_iff.mp hstep).2.2.2 hrest

/-- without `..` every component leads one directory down -/
theorem eq_append_of_locateFrom {names : List String} (hnames : ".." ∉ names)
    (h : t.locateFrom (l, n) names = .ok (k, m)) : k = l ++ names := by
  induction names generalizing l n with
  | nil =>
    obtain ⟨rfl, -⟩ := Prod.mk.inj (Except.ok.inj h)
    exact (List.append_nil _).symm
  | cons name names ih =>
    obtain ⟨hname, hnames⟩ := not_or.mp (mt List.mem_cons.mpr hnames)
    obtain ⟨⟨l', n'⟩, hstep, hrest⟩ := locateFrom_cons_eq_ok_iff.mp h
    have honward : onward l name = l' := (step_eq_ok_iff.mp hstep).2.2.1
    rw [ih hnames hrest, ← honward, onward_of_ne l (Ne.symm hname), List.append_assoc]
    rfl

end

/-! ## well-formed trees -/

structure WellFormed (t : FileTree) : Prop where
  parent : ∀ l n, t.get? l = some n → t.get? l.dropLast = some .directory
  current : t.get? t.current = some .directory

theorem wellFormed_empty : ({} : FileTree).WellFormed := by
  have hroot : ∀ l n, ({} : FileTree).get? l = some n → l = [] := by
    intro l n h
    by_contra hl
    rw [get?, if_neg hl, List.lookup_nil] at h
    exact Option.some_ne_none n h.symm
  refine ⟨fun l n h => ?_, rfl⟩
  rw [hroot l n h]
  rfl

section
variable {t : FileTree} {path : String} {k : Location} {m : Node}

theorem WellFormed.start (h : t.WellFormed) (path : String) :
    t.get? (t.start path) = some .directory := by
  rw [FileTree.start]
  split
  · exact t.get?_nil
  · exact h.current

theorem locate_of_directory {l : Location} (h : t.get? l = some .directory) (names : List String) :
    t.locate l names = t.locateFrom (l, .directory) names := by
  rw [locate, h]
  rfl

theorem locate_append_singleton {l : Location} {names : List String} {at_ : Location × Node}
    (h : t.locate l names = .ok at_) (name : String) :
    t.locate l (names ++ [name]) = t.step at_ name := by
  rw [locate, locateFrom_append]
  show (t.locate l names >>= fun next => t.locateFrom next [name]) = _
  rw [h]
  exact locateFrom_singleton at_ name

theorem find_eq_ok_iff : t.find path = .ok (k, m) ↔ checkPath path = .ok () ∧
    t.locate (t.start path) (Path.components path) = .ok (k, m) := by
  rw [find, bind_eq_ok_iff]
  constructor
  · rintro ⟨_, hpath, hfind⟩
    exact ⟨hpath, hfind⟩
  · rintro ⟨hpath, hfind⟩
    exact ⟨_, hpath, hfind⟩

theorem checkPath_ne_notFound : checkPath path ≠ .error .notFound := by
  rw [checkPath]
  split
  · simp
  · split <;> simp

theorem find_eq_notFound_iff : t.find path = .error .notFound ↔ checkPath path = .ok () ∧
    t.locate (t.start path) (Path.components path) = .error .notFound := by
  rw [find, bind_eq_error_iff]
  constructor
  · rintro (hpath | ⟨_, hpath, hfind⟩)
    · exact absurd hpath checkPath_ne_notFound
    · exact ⟨hpath, hfind⟩
  · rintro ⟨hpath, hfind⟩
    exact .inr ⟨_, hpath, hfind⟩

theorem get?_of_find (h : t.WellFormed) (hfind : t.find path = .ok (k, m)) : t.get? k = some m := by
  have hstart := h.start path
  have hlocate := (find_eq_ok_iff.mp hfind).2
  rw [locate_of_directory hstart] at hlocate
  exact get?_of_locateFrom hstart hlocate

end

/-! ## growing trees -/

structure Grows (t : FileTree) (written : List Location) (t' : FileTree) : Prop where
  current : t'.current = t.current
  kept : ∀ l n, t.get? l = some n → t'.get? l = some n ∨
    l ∈ written ∧ (∃ old, n = .file old) ∧ ∃ new, t'.get? l = some (.file new)

namespace Grows

variable {t t' t'' : FileTree} {ls ls' : List Location} {l k : Location} {n m : Node}

theorem refl (t : FileTree) (ls : List Location) : t.Grows ls t := ⟨rfl, fun _ _ h => .inl h⟩

theorem trans (h : t.Grows ls t') (h' : t'.Grows ls' t'') : t.Grows (ls ++ ls') t'' := by
  refine ⟨h'.current.trans h.current, fun l n hl => ?_⟩
  rcases h.kept l n hl with hl' | ⟨hmem, hold, new, hl'⟩
  · rcases h'.kept l n hl' with hl'' | ⟨hmem', hold, hl''⟩
    · exact .inl hl''
    · exact .inr ⟨List.mem_append_right _ hmem', hold, hl''⟩
  · refine .inr ⟨List.mem_append_left _ hmem, hold, ?_⟩
    rcases h'.kept l _ hl' with hl'' | ⟨_, _, hl''⟩
    · exact ⟨new, hl''⟩
    · exact hl''

theorem exists_get? (h : t.Grows ls t') (hl : t.get? l = some n) : ∃ n', t'.get? l = some n' := by
  rcases h.kept l n hl with hl' | ⟨_, _, new, hl'⟩
  · exact ⟨n, hl'⟩
  · exact ⟨_, hl'⟩

theorem directory (h : t.Grows ls t') (hl : t.get? l = some .directory) :
    t'.get? l = some .directory := by
  rcases h.kept l _ hl with hl' | ⟨_, ⟨old, hold⟩, _⟩
  · exact hl'
  · exact nomatch hold

theorem unwritten (h : t.Grows ls t') (hmem : l ∉ ls) (hl : t.get? l = some n) :
    t'.get? l = some n := by
  rcases h.kept l n hl with hl' | ⟨hmem', _⟩
  · exact hl'
  · exact absurd hmem' hmem

theorem start (h : t.Grows ls t') (path : String) : t'.start path = t.start path := by
  rw [FileTree.start, FileTree.start, h.current]

theorem locateFrom {names : List String} {n' : Node} (h : t.Grows ls t') (hat : t.get? l = some n)
    (hat' : t'.get? l = some n') (hlocate : t.locateFrom (l, n) names = .ok (k, m)) :
    ∃ m', t'.locateFrom (l, n') names = .ok (k, m') := by
  induction names generalizing l n n' with
  | nil =>
    obtain ⟨rfl, -⟩ := Prod.mk.inj (Except.ok.inj hlocate)
    exact ⟨n', rfl⟩
  | cons name names ih =>
    obtain ⟨⟨next, n₁⟩, hstep, hrest⟩ := locateFrom_cons_eq_ok_iff.mp hlocate
    obtain ⟨rfl, hshort, honward, hnext⟩ := step_eq_ok_iff.mp hstep
    -- the way goes on in the same directory, to what is there now
    obtain rfl : Node.directory = n' := Option.some.inj ((h.directory hat).symm.trans hat')
    obtain ⟨n₁', hnext'⟩ := h.exists_get? hnext
    obtain ⟨m', hrest'⟩ := ih hnext hnext' hrest
    have hstep' : t'.step (l, .directory) name = .ok (next, n₁') :=
      step_eq_ok_iff.mpr ⟨rfl, hshort, honward, hnext'⟩
    exact ⟨m', locateFrom_cons_eq_ok_iff.mpr ⟨_, hstep', hrest'⟩⟩

theorem find {path : String} (h : t.Grows ls t') (hwf : t.WellFormed)
    (hfind : t.find path = .ok (k, m)) : ∃ m', t'.find path = .ok (k, m') ∧ t'.get? k = some m' := by
  obtain ⟨hpath, hlocate⟩ := find_eq_ok_iff.mp hfind
  have hstart := hwf.start path
  have hstart' : t'.get? (t.start path) = some .directory := h.directory hstart
  rw [locate_of_directory hstart] at hlocate
  obtain ⟨m', hlocate'⟩ := h.locateFrom hstart hstart' hlocate
  refine ⟨m', find_eq_ok_iff.mpr ⟨hpath, ?_⟩, get?_of_locateFrom hstart' hlocate'⟩
  rw [h.start, locate_of_directory hstart', hlocate']

end Grows

/-! ## setting an entry -/

section
variable {t : FileTree} {l k : Location} {n m : Node}

theorem ne_nil_of_get?_file {content : List UInt8} (h : t.get? l = some (.file content)) : l ≠ [] := by
  rintro rfl
  rw [get?_nil] at h
  exact nomatch h

theorem grows_set_of_vacant (n : Node) (h : t.get? l = none) : t.Grows [] (t.set l n) := by
  refine ⟨rfl, fun l' n' hl' => .inl ?_⟩
  have hne : l' ≠ l := by
    rintro rfl
    rw [h] at hl'
    exact nomatch hl'
  rw [get?_set_of_ne t n hne, hl']

theorem grows_set_of_file {old : List UInt8} (new : List UInt8) (h : t.get? l = some (.file old)) :
    t.Grows [l] (t.set l (.file new)) := by
  refine ⟨rfl, fun l' n' hl' => ?_⟩
  by_cases hne : l' = l
  · subst hne
    obtain rfl := Option.some.inj (h.symm.trans hl')
    exact .inr ⟨List.mem_singleton_self _, ⟨old, rfl⟩, new,
      get?_set_self t _ (ne_nil_of_get?_file h)⟩
  · rw [get?_set_of_ne t _ hne]
    exact .inl hl'

theorem WellFormed.set {ls : List Location} (h : t.WellFormed) (hgrows : t.Grows ls (t.set l n))
    (hparent : t.get? l.dropLast = some .directory) : (t.set l n).WellFormed := by
  constructor
  case parent =>
    intro l' n' hl'
    by_cases hne : l' = l
    · rw [hne]
      exact hgrows.directory hparent
    · rw [get?_set_of_ne t n hne] at hl'
      exact hgrows.directory (h.parent l' n' hl')
  case current =>
    exact hgrows.directory h.current

variable {start : Location} {names : List String} {name : String}

theorem vacant_of_notFound (h : t.WellFormed) (hstart : t.get? start = some .directory)
    (hdirectory : t.locate start names = .ok (k, m))
    (hvacant : t.locate start (names ++ [name]) = .error .notFound) :
    m = .directory ∧ t.get? k = some m ∧ name ≠ ".." ∧ name.utf8ByteSize ≤ maxNameLength ∧
      t.get? (k ++ [name]) = none := by
  have hk : t.get? k = some m := by
    rw [locate_of_directory hstart] at hdirectory
    exact get?_of_locateFrom hstart hdirectory
  rw [locate_append_singleton hdirectory] at hvacant
  obtain ⟨rfl, hshort, hnone⟩ := step_eq_notFound_iff.mp hvacant
  -- the way up is always there
  have hname : name ≠ ".." := by
    rintro rfl
    rw [onward, if_pos rfl, h.parent k _ hk] at hnone
    exact nomatch hnone
  rw [onward_of_ne k hname] at hnone
  exact ⟨rfl, hk, hname, hshort, hnone⟩

theorem Grows.locate_directory {ls : List Location} {t' : FileTree} (h : t.Grows ls t')
    (hstart : t.get? start = some .directory) (hlocate : t.locate start names = .ok (k, .directory)) :
    t'.locate start names = .ok (k, .directory) := by
  have hstart' := h.directory hstart
  rw [locate_of_directory hstart] at hlocate
  rw [locate_of_directory hstart']
  obtain ⟨m', hlocate'⟩ := h.locateFrom hstart hstart' hlocate
  have hk : t'.get? k = some .directory := h.directory (get?_of_locateFrom hstart hlocate)
  have hk' : t'.get? k = some m' := get?_of_locateFrom hstart' hlocate'
  rw [hlocate', Option.some.inj (hk'.symm.trans hk)]

/-- where nothing is, right below a directory that is there, anything can be put -/
theorem set_of_notFound (h : t.WellFormed) (hstart : t.get? start = some .directory)
    (hdirectory : t.locate start names = .ok (k, m))
    (hvacant : t.locate start (names ++ [name]) = .error .notFound) (n : Node) :
    t.Grows [] (t.set (k ++ [name]) n) ∧ (t.set (k ++ [name]) n).WellFormed ∧
      (t.set (k ++ [name]) n).locate start (names ++ [name]) = .ok (k ++ [name], n) := by
  obtain ⟨rfl, hk, hname, hshort, hnone⟩ := vacant_of_notFound h hstart hdirectory hvacant
  have hgrows : t.Grows [] (t.set (k ++ [name]) n) := grows_set_of_vacant n hnone
  have hparent : t.get? (k ++ [name]).dropLast = some .directory := by
    rw [List.dropLast_concat, hk]
  have hnew : (t.set (k ++ [name]) n).get? (k ++ [name]) = some n :=
    get?_set_self t n (List.append_ne_nil_of_right_ne_nil k (List.cons_ne_nil _ _))
  refine ⟨hgrows, h.set hgrows hparent, ?_⟩
  rw [locate_append_singleton (hgrows.locate_directory hstart hdirectory)]
  exact step_eq_ok_iff.mpr ⟨rfl, hshort, onward_of_ne k hname, hnew⟩

end

/-- making something new sets its place, which is right below the directory before the last name -/
theorem set_of_new {t t' : FileTree} {start : Location} {names : List String} {n : Node}
    (h : t.WellFormed) (hstart : t.get? start = some .directory)
    (hvacant : t.locate start names = .error .notFound)
    (hnew : (t.locate start names.dropLast >>= fun directory =>
      pure (t.set (directory.1 ++ names.getLast?.toList) n)) = Except.ok t') :
    ∃ k, t' = t.set k n ∧ t.Grows [] t' ∧ t'.WellFormed ∧ t'.locate start names = .ok (k, n) := by
  obtain ⟨⟨k, m⟩, hdirectory, hset⟩ := bind_eq_ok_iff.mp hnew
  have hset' : t.set (k ++ names.getLast?.toList) n = t' := pure_eq_ok_iff.mp hset
  rcases names.eq_nil_or_concat with rfl | ⟨names, name, rfl⟩
  · -- no components lead to where the way starts
    cases hvacant
  · rw [List.concat_eq_append] at hvacant hdirectory hset' ⊢
    rw [List.dropLast_concat] at hdirectory
    rw [List.getLast?_concat] at hset'
    obtain rfl : t.set (k ++ [name]) n = t' := hset'
    exact ⟨k ++ [name], rfl, set_of_notFound h hstart hdirectory hvacant n⟩

/-! ## making directories -/

section
variable {t t' : FileTree} {start : Location}

theorem makeDirectory_of_ok {names : List String} (h : t.WellFormed)
    (hstart : t.get? start = some .directory) (hmade : t.makeDirectory start names = .ok t') :
    ∃ k, t' = t.set k .directory ∧ t.Grows [] t' ∧ t'.WellFormed ∧
      t'.locate start names = .ok (k, .directory) := by
  rw [makeDirectory] at hmade
  split at hmade
  case h_1 => cases hmade
  case h_3 => cases hmade
  case h_2 hvacant => exact set_of_new h hstart hvacant hmade

/-- makes a directory, if it is not there already -/
def ensureDirectory (t : FileTree) (start : Location) (names : List String) :
    Except FileError FileTree :=
  match t.makeDirectory start names with
  | .ok t => .ok t
  | .error e => if t.isDirectory start names then .ok t else .error e

theorem makeDirectoriesAt_cons (name : String) (rnames : List String) :
    t.makeDirectoriesAt start (name :: rnames) =
      match t.ensureDirectory start (name :: rnames).reverse with
      | .error .notFound => do
        let t ← t.makeDirectoriesAt start rnames
        t.ensureDirectory start (name :: rnames).reverse
      | r => r := rfl

theorem ensureDirectory_of_ok {names : List String} (h : t.WellFormed)
    (hstart : t.get? start = some .directory) (hmade : t.ensureDirectory start names = .ok t') :
    t.Grows [] t' ∧ t'.WellFormed := by
  rw [ensureDirectory] at hmade
  split at hmade
  case h_1 hnew =>
    obtain rfl := Except.ok.inj hmade
    obtain ⟨_, _, hgrows, hwf, _⟩ := makeDirectory_of_ok h hstart hnew
    exact ⟨hgrows, hwf⟩
  case h_2 =>
    split at hmade
    · obtain rfl := Except.ok.inj hmade
      exact ⟨.refl t [], h⟩
    · exact nomatch hmade

theorem makeDirectoriesAt_of_ok {rnames : List String} (h : t.WellFormed)
    (hstart : t.get? start = some .directory) (hmade : t.makeDirectoriesAt start rnames = .ok t') :
    t.Grows [] t' ∧ t'.WellFormed := by
  induction rnames generalizing t' with
  | nil =>
    obtain rfl := Except.ok.inj hmade
    exact ⟨.refl t [], h⟩
  | cons name rnames ih =>
    rw [makeDirectoriesAt_cons] at hmade
    split at hmade
    case h_1 =>
      obtain ⟨t₁, habove, hlast⟩ := bind_eq_ok_iff.mp hmade
      obtain ⟨hgrows, hwf⟩ := ih habove
      obtain ⟨hgrows', hwf'⟩ := ensureDirectory_of_ok hwf (hgrows.directory hstart) hlast
      exact ⟨hgrows.trans hgrows', hwf'⟩
    case h_2 => exact ensureDirectory_of_ok h hstart hmade

theorem makeDirectories_of_ok {path : String} (h : t.WellFormed)
    (hmade : t.makeDirectories path = .ok t') : t.Grows [] t' ∧ t'.WellFormed := by
  obtain ⟨_, _, hmade⟩ := bind_eq_ok_iff.mp hmade
  exact makeDirectoriesAt_of_ok h (h.start path) hmade

end

/-! ## writing files -/

/-- where a path leads, if anything is there -/
def place? (t : FileTree) (path : String) : Option Location := (t.find path).toOption.map Prod.fst

theorem place?_of_find {t : FileTree} {path : String} {l : Location} {n : Node}
    (h : t.find path = .ok (l, n)) : t.place? path = some l := by
  rw [place?, h]
  rfl

theorem find_of_place? {t : FileTree} {path : String} {l : Location} (h : t.place? path = some l) :
    ∃ n, t.find path = .ok (l, n) := by
  rw [place?] at h
  cases hfind : t.find path with
  | error e =>
    rw [hfind] at h
    exact nomatch h
  | ok found =>
    rw [hfind] at h
    obtain rfl := Option.some.inj h
    exact ⟨found.2, rfl⟩

section
variable {t t' : FileTree}

theorem writeFile_of_ok {path : String} {content : List UInt8} (h : t.WellFormed)
    (hwrite : t.writeFile path content = .ok t') :
    t'.WellFormed ∧ ∃ l n, t.Grows [l] t' ∧ t'.find path = .ok (l, n) ∧ n.Holds content := by
  rw [writeFile] at hwrite
  split at hwrite
  case h_1 l old hfind =>
    obtain rfl := Except.ok.inj hwrite
    have hold : t.get? l = some (.file old) := get?_of_find h hfind
    have hgrows := grows_set_of_file content hold
    obtain ⟨n, hfind', hn⟩ := hgrows.find h hfind
    have hnew := get?_set_self t (.file content) (ne_nil_of_get?_file hold)
    exact ⟨h.set hgrows (h.parent l _ hold), l, n, hgrows, hfind',
      .inl (Option.some.inj (hn.symm.trans hnew))⟩
  case h_2 l hfind =>
    obtain rfl := Except.ok.inj hwrite
    exact ⟨h, l, .device, .refl t [l], hfind, .inr rfl⟩
  case h_3 => exact nomatch hwrite
  case h_4 hfind =>
    obtain ⟨hpath, hvacant⟩ := find_eq_notFound_iff.mp hfind
    obtain ⟨k, _, hgrows, hwf, hlocate⟩ := set_of_new h (h.start path) hvacant hwrite
    refine ⟨hwf, k, .file content, hgrows.trans (.refl _ [k]), find_eq_ok_iff.mpr ⟨hpath, ?_⟩, .inl rfl⟩
    rw [hgrows.start]
    exact hlocate
  case h_5 => exact nomatch hwrite

theorem write_of_ok {w : FileWrite} (h : t.WellFormed) (hwrite : t.write w = .ok t') :
    t'.WellFormed ∧ ∃ l n, t.Grows [l] t' ∧ t'.find w.path = .ok (l, n) ∧
      n.Holds (Text.utf8 w.content) := by
  obtain ⟨t₁, hmade, hfile⟩ := bind_eq_ok_iff.mp hwrite
  obtain ⟨hgrows, hwf⟩ := makeDirectories_of_ok h hmade
  obtain ⟨hwf', l, n, hgrows', hfind, hn⟩ := writeFile_of_ok hwf hfile
  exact ⟨hwf', l, n, hgrows.trans hgrows', hfind, hn⟩

/-- a write succeeds if its directory is there, and at its place nothing or a file -/
theorem write_of_directory {w : FileWrite} {root : Location} {name : String}
    (hpath : checkPath w.path = .ok ()) (hparent : checkPath (Path.parent w.path) = .ok ())
    (habsolute : Path.isAbsolute (Path.parent w.path) = Path.isAbsolute w.path) {names : List String}
    (hcomponents : Path.components w.path = names ++ [name])
    (hdirectory : t.locate (t.start w.path) names = .ok (root, .directory)) (hup : name ≠ "..")
    (hshort : name.utf8ByteSize ≤ maxNameLength)
    (hfree : ∀ n, t.get? (root ++ [name]) = some n → ∃ old, n = .file old) :
    t.write w = .ok (t.set (root ++ [name]) (.file (Text.utf8 w.content))) := by
  have hstart : t.start (Path.parent w.path) = t.start w.path := by
    rw [start, start, habsolute]
  have hmade : t.makeDirectories (Path.parent w.path) = .ok t := by
    rw [makeDirectories, hparent, Path.components_parent, hcomponents, List.dropLast_concat]
    show t.makeDirectoriesAt (t.start (Path.parent w.path)) names.reverse = .ok t
    rw [hstart]
    cases hnames : names.reverse with
    | nil => rfl
    | cons last rnames =>
      have hback : (last :: rnames).reverse = names := by rw [← hnames, List.reverse_reverse]
      have hthere : t.ensureDirectory (t.start w.path) names = .ok t := by
        rw [ensureDirectory, makeDirectory, isDirectory, hdirectory]
        rfl
      rw [makeDirectoriesAt_cons, hback, hthere]
  have hfind : t.find w.path = t.step (root, .directory) name := by
    rw [find, hpath, hcomponents]
    exact locate_append_singleton hdirectory name
  rw [step_directory root hshort, onward_of_ne root hup] at hfind
  rw [write, hmade]
  show t.writeFile w.path (Text.utf8 w.content) = _
  rw [writeFile, hfind]
  cases hget : t.get? (root ++ [name]) with
  | some n =>
    obtain ⟨old, rfl⟩ := hfree n hget
    rfl
  | none =>
    rw [hcomponents]
    show (t.locate (t.start w.path) (names ++ [name]).dropLast >>= fun directory =>
      pure (t.set (directory.1 ++ (names ++ [name]).getLast?.toList) (.file (Text.utf8 w.content)))) = _
    rw [List.dropLast_concat, List.getLast?_concat, hdirectory]
    rfl

/-- what was written stays where it is, whatever is written later -/
theorem writeAll_of_ok {ws : List FileWrite} (h : t.WellFormed) (hwrite : t.writeAll ws = (t', none)) :
    t'.WellFormed ∧ ∃ ls, t.Grows ls t' ∧
      List.Forall₂ (fun w l => t'.place? w.path = some l) ws ls := by
  induction ws generalizing t with
  | nil =>
    obtain ⟨rfl, -⟩ := Prod.mk.inj hwrite
    exact ⟨h, [], .refl t [], .nil⟩
  | cons w ws ih =>
    cases hw : t.write w with
    | error e =>
      rw [writeAll_cons_of_error ws hw] at hwrite
      exact nomatch hwrite
    | ok t₁ =>
      rw [writeAll_cons_of_ok ws hw] at hwrite
      obtain ⟨hwf, l, n, hgrows, hfind, _⟩ := write_of_ok h hw
      obtain ⟨hwf', ls, hgrows', hplaces⟩ := ih hwf hwrite
      obtain ⟨m, hfind', _⟩ := hgrows'.find hwf hfind
      exact ⟨hwf', l :: ls, hgrows.trans hgrows', .cons (place?_of_find hfind') hplaces⟩

/-- **The last write to a place counts**: after all writes a path leads to what was written to it, if
none of the later paths leads to the same place. -/
theorem find_of_writeAll {before after : List FileWrite} {w : FileWrite} (h : t.WellFormed)
    (hwrite : t.writeAll (before ++ w :: after) = (t', none)) :
    ∃ l n, t'.find w.path = .ok (l, n) ∧
      ((∀ w' ∈ after, t'.place? w'.path ≠ some l) → n.Holds (Text.utf8 w.content)) := by
  rw [writeAll_append] at hwrite
  split at hwrite
  case h_2 r hnot =>
    exact absurd hwrite (hnot t')
  case h_1 t₁ hbefore =>
    obtain ⟨hwf₁, _⟩ := writeAll_of_ok h hbefore
    cases hw : t₁.write w with
    | error e =>
      rw [writeAll_cons_of_error after hw] at hwrite
      exact nomatch hwrite
    | ok t₂ =>
      rw [writeAll_cons_of_ok after hw] at hwrite
      obtain ⟨hwf₂, l, n, _, hfind, hn⟩ := write_of_ok hwf₁ hw
      obtain ⟨_, ls, hgrows, hplaces⟩ := writeAll_of_ok hwf₂ hwrite
      obtain ⟨n', hfind', hn'⟩ := hgrows.find hwf₂ hfind
      refine ⟨l, n', hfind', fun hlater => ?_⟩
      have hmem : l ∉ ls := by
        intro hl
        obtain ⟨w', hw', hplace⟩ := exists_right_of_mem hplaces.flip hl
        exact hlater w' hw' hplace
      have hsame : t'.get? l = some n := hgrows.unwritten hmem (get?_of_find hwf₂ hfind)
      obtain rfl : n' = n := Option.some.inj (hn'.symm.trans hsame)
      exact hn

end

end FileTree

end RpcAdapters
