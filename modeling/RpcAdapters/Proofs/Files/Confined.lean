import RpcAdapters.Proofs.Files.Plain

/-!
# Confined paths

A confined path is not absolute, and no `..` in it leads out of the directory that it is seen from.
Writing at such paths leaves alone what is not in that directory.

* `Path.descend below names`   where names lead, seen from a directory; `none` if they leave it;
* `Path.Confined`              relative paths that do not leave their directory;
* `Path.confined_append_iff`   only the directories in a path count;
* `FileTree.OnWay`             what a path goes through;
* `FileTree.writeAll_changes`  writing changes only what the paths go through;
* `FileTree.writtenBelow_of_writeAll`   for confined paths this is below the directory, or the way to it.
-/

namespace RpcAdapters

namespace Path

/-- `below` is where the names before have led, from the directory on -/
def descend (below : List String) : List String → Option (List String)
  | [] => some below
  | name :: names =>
    if name = ".." then if below = [] then none else descend below.dropLast names
    else descend (below ++ [name]) names

def Confined (path : String) : Prop :=
  isAbsolute path = false ∧ (descend [] (components path)).isSome = true

instance (path : String) : Decidable (Confined path) :=
  inferInstanceAs (Decidable (_ ∧ _))

/-! ## going down -/

theorem descend_cons_of_ne {name : String} (below names : List String) (h : name ≠ "..") :
    descend below (name :: names) = descend (below ++ [name]) names := if_neg h

theorem descend_append (below names names' : List String) :
    descend below (names ++ names') = (descend below names).bind fun b => descend b names' := by
  induction names generalizing below with
  | nil => rfl
  | cons name names ih =>
    rw [List.cons_append, descend, descend]
    split
    · split
      · rfl
      · exact ih _
    · exact ih _

theorem isSome_descend_of_prefix {below names names' : List String} (h : names <+: names')
    (hsome : (descend below names').isSome = true) : (descend below names).isSome = true := by
  obtain ⟨rest, rfl⟩ := h
  rw [descend_append] at hsome
  cases hdown : descend below names with
  | none =>
    rw [hdown] at hsome
    exact nomatch hsome
  | some down => rfl

/-- one more name that is no way up leads further down -/
theorem isSome_descend_concat {name : String} (below names : List String) (h : name ≠ "..") :
    (descend below (names ++ [name])).isSome = (descend below names).isSome := by
  rw [descend_append]
  cases descend below names with
  | none => rfl
  | some down =>
    show (descend down [name]).isSome = true
    rw [descend_cons_of_ne _ _ h]
    rfl

theorem descend_of_not_mem {below names : List String} (h : ".." ∉ names) :
    descend below names = some (below ++ names) := by
  induction names generalizing below with
  | nil => rw [List.append_nil]; rfl
  | cons name names ih =>
    obtain ⟨hname, hnames⟩ := not_or.mp (mt List.mem_cons.mpr h)
    rw [descend_cons_of_ne _ _ (Ne.symm hname), ih hnames, List.append_assoc]
    rfl

theorem confined_of_plain {path : String} (h : Plain path) : Confined path := by
  refine ⟨not_isAbsolute_of_plain h, ?_⟩
  rw [descend_of_not_mem (not_mem_components h)]
  rfl

-- a way up need not lead out
example : Confined "a/../b" ∧ ¬ Confined "a/../../b" ∧ ¬ Confined "/a" := by decide +kernel

/-! ## directories in a path -/

theorem components_directory (d : String) : components (d ++ "/") = components d := by
  have h := components_append_slash d ""
  rwa [String.append_empty, components_empty, List.append_nil] at h

theorem plain_of_append {d path : String} (h : Plain (d ++ "/" ++ path)) : Plain path := by
  have hsep : "/".toList = ['/'] := by decide
  intro piece hpiece
  refine h piece ?_
  rw [String.toList_append, String.toList_append, List.append_assoc, hsep, List.singleton_append,
    Text.splitAll_append_sep]
  exact List.mem_append_right _ hpiece

theorem confined_directory_of_plain {d : String} (h : Plain d) : Confined (d ++ "/") := by
  have hne : d ≠ "" := by
    rintro rfl
    exact (h [] (List.mem_cons_self ..)).1 rfl
  rw [Confined, isAbsolute_append hne, components_directory]
  exact confined_of_plain h

/-- a text before which nothing stands in a path, or a directory -/
def EndsDirectory (dir : String) : Prop := dir = "" ∨ ∃ d, dir = d ++ "/"

theorem components_of_not_mem {base : String} (hslash : '/' ∉ base.toList)
    (hlong : 2 < base.toList.length) : components base = [base] := by
  have hleads : leadsOn base.toList = true := by
    refine decide_eq_true ⟨?_, ?_⟩
    · intro h
      rw [h] at hlong
      exact absurd hlong (by decide)
    · intro h
      rw [h] at hlong
      exact absurd hlong (by decide)
  rw [components, Text.splitAll_of_not_mem hslash, List.filter_singleton, hleads]
  show [String.ofList base.toList] = [base]
  rw [String.ofList_toList]

theorem components_directory_append {dir base : String} (hdir : EndsDirectory dir)
    (hslash : '/' ∉ base.toList) (hlong : 2 < base.toList.length) :
    components (dir ++ base) = components dir ++ [base] := by
  rcases hdir with rfl | ⟨d, rfl⟩
  · rw [String.empty_append, components_of_not_mem hslash hlong, components_empty, List.nil_append]
  · rw [components_append_slash, components_directory, components_of_not_mem hslash hlong]

/-- a file is confined if its directory is -/
theorem confined_append_iff {dir base : String} (hdir : EndsDirectory dir)
    (hslash : '/' ∉ base.toList) (hlong : 2 < base.toList.length) :
    Confined (dir ++ base) ↔ Confined dir := by
  have habsolute : isAbsolute (dir ++ base) = isAbsolute dir := by
    by_cases h : dir = ""
    · rw [h, String.empty_append]
      rw [Bool.eq_iff_iff, isAbsolute_iff]
      constructor
      · rintro ⟨rest, hrest⟩
        rw [hrest] at hslash
        exact absurd (List.mem_cons_self ..) hslash
      · intro hempty
        exact nomatch hempty
    · exact isAbsolute_append h base
  have hup : base ≠ ".." := by
    rintro rfl
    exact absurd hlong (by decide)
  rw [Confined, Confined, habsolute, components_directory_append hdir hslash hlong,
    isSome_descend_concat _ _ hup]

theorem exists_directory (path : String) :
    ∃ dir, EndsDirectory dir ∧ path = dir ++ String.ofList (Text.lastPiece '/' path.toList) := by
  by_cases hmem : '/' ∈ path.toList
  · obtain ⟨back, front, hreverse, hback⟩ := List.eq_append_cons_of_mem (List.mem_reverse.mpr hmem)
    have hchars : path.toList = front.reverse ++ '/' :: back.reverse := by
      rw [← List.reverse_reverse path.toList, hreverse, List.reverse_append, List.reverse_cons,
        List.append_assoc]
      rfl
    have hlast : Text.lastPiece '/' path.toList = back.reverse := by
      rw [hchars, Text.lastPiece_append _ (mt List.mem_reverse.mp hback)]
    refine ⟨String.ofList front.reverse ++ "/", .inr ⟨_, rfl⟩, ?_⟩
    have hsep : "/".toList = ['/'] := by decide
    rw [hlast, ← String.toList_inj, hchars, String.toList_append, String.toList_append, hsep,
      String.toList_ofList, String.toList_ofList, List.append_assoc, List.singleton_append]
  · refine ⟨"", .inl rfl, ?_⟩
    rw [Text.lastPiece_of_not_mem hmem, String.ofList_toList, String.empty_append]

/-! ## parents -/

theorem isAbsolute_iff_pieces {path : String} :
    isAbsolute path = true ↔ ∃ q qs, Text.splitAll '/' path.toList = [] :: q :: qs := by
  rw [isAbsolute_iff]
  constructor
  · rintro ⟨rest, hrest⟩
    rw [hrest, Text.splitAll, if_pos rfl]
    cases hpieces : Text.splitAll '/' rest with
    | nil => exact absurd hpieces (Text.splitAll_ne_nil '/' rest)
    | cons q qs => exact ⟨q, qs, rfl⟩
  · rintro ⟨q, qs, hpieces⟩
    have hjoin := Text.joinAll_splitAll '/' path.toList
    rw [hpieces] at hjoin
    exact ⟨Text.joinAll '/' (q :: qs), hjoin.symm⟩

theorem parentPieces_prefix (pieces : List (List Char)) : parentPieces pieces <+: pieces := by
  have hsuffix : ((pieces.reverse.dropWhile (!leadsOn ·)).tail.dropWhile (!leadsOn ·))
      <:+ pieces.reverse :=
    (List.dropWhile_suffix _).trans ((List.tail_suffix _).trans (List.dropWhile_suffix _))
  rw [parentPieces, ← List.reverse_suffix, List.reverse_reverse]
  exact hsuffix

/-- what is left of a path for its parent ends with a component -/
theorem leadsOn_of_parentPieces_singleton {pieces : List (List Char)} {piece : List Char}
    (h : parentPieces pieces = [piece]) : leadsOn piece = true := by
  rw [parentPieces, List.reverse_eq_iff] at h
  have hhead := List.head?_dropWhile_not (!leadsOn ·) (pieces.reverse.dropWhile (!leadsOn ·)).tail
  rw [h] at hhead
  simpa using hhead

theorem isAbsolute_parent (path : String) : isAbsolute (parent path) = isAbsolute path := by
  rw [parent]
  split
  · by_cases h : isAbsolute path = true
    · rw [if_pos h, h]
      rfl
    · rw [if_neg h, Bool.eq_false_iff.mpr h]
      rfl
  · rename_i hne
    obtain ⟨rest, hrest⟩ := parentPieces_prefix (Text.splitAll '/' path.toList)
    have hpieces : Text.splitAll '/' (String.ofList
        (Text.joinAll '/' (parentPieces (Text.splitAll '/' path.toList)))).toList
        = parentPieces (Text.splitAll '/' path.toList) := by
      rw [String.toList_ofList, Text.splitAll_joinAll (fun _ => not_mem_of_mem_parentPieces) hne]
    rw [Bool.eq_iff_iff, isAbsolute_iff_pieces, isAbsolute_iff_pieces, hpieces]
    -- both begin with the same piece, and neither is that piece alone
    cases hparent : parentPieces (Text.splitAll '/' path.toList) with
    | nil => exact absurd hparent hne
    | cons p ps =>
      rw [hparent] at hrest
      rw [← hrest]
      cases ps with
      | cons q qs => simp
      | nil =>
        have hleads := leadsOn_of_parentPieces_singleton hparent
        have hp : p ≠ [] := by
          rintro rfl
          exact absurd hleads (by decide)
        simp [hp]

end Path

/-! ## ways through a tree -/

namespace FileTree

/-- a confined way that starts below a directory stays below it -/
theorem eq_append_of_descend {t : FileTree} {root below down k : Location} {n m : Node}
    {names : List String} (h : Path.descend below names = some down)
    (hlocate : t.locateFrom (root ++ below, n) names = .ok (k, m)) : k = root ++ down := by
  induction names generalizing below n with
  | nil =>
    obtain rfl := Option.some.inj h
    obtain ⟨rfl, -⟩ := Prod.mk.inj (Except.ok.inj hlocate)
    rfl
  | cons name names ih =>
    obtain ⟨⟨next, n'⟩, hstep, hrest⟩ := locateFrom_cons_eq_ok_iff.mp hlocate
    have honward : onward (root ++ below) name = next := (step_eq_ok_iff.mp hstep).2.2.1
    rw [Path.descend] at h
    split at h
    case isTrue hup =>
      split at h
      · exact nomatch h
      · rename_i hbelow
        rw [onward, if_pos hup, List.dropLast_append_of_ne_nil hbelow] at honward
        exact ih h (honward ▸ hrest)
    case isFalse hup =>
      rw [onward_of_ne _ hup, List.append_assoc] at honward
      exact ih h (honward ▸ hrest)

/-- the names lead through the location, or end there -/
def OnWay (t : FileTree) (start : Location) (names : List String) (l : Location) : Prop :=
  ∃ passed n, passed <+: names ∧ t.locate start passed = .ok (l, n)

section
variable {t t' : FileTree} {start l : Location} {names names' : List String}

theorem OnWay.mono (h : t.OnWay start names l) (hnames : names <+: names') :
    t.OnWay start names' l := by
  obtain ⟨passed, n, hpassed, hlocate⟩ := h
  exact ⟨passed, n, hpassed.trans hnames, hlocate⟩

theorem OnWay.grows {ls : List Location} (h : t.OnWay start names l) (hgrows : t.Grows ls t')
    (hstart : t.get? start = some .directory) : t'.OnWay start names l := by
  obtain ⟨passed, n, hpassed, hlocate⟩ := h
  have hstart' := hgrows.directory hstart
  rw [locate_of_directory hstart] at hlocate
  obtain ⟨n', hlocate'⟩ := hgrows.locateFrom hstart hstart' hlocate
  exact ⟨passed, n', hpassed, by rw [locate_of_directory hstart', hlocate']⟩

theorem onWay_of_set {n : Node} {k : Location} {m : Node} (hset : (t.set k m).get? l ≠ t.get? l)
    (hlocate : (t.set k m).locate start names = .ok (k, n)) : (t.set k m).OnWay start names l := by
  have hl : l = k := by
    by_contra hne
    exact hset (get?_set_of_ne t m hne)
  exact ⟨names, n, List.prefix_refl _, hl ▸ hlocate⟩

/-! ## what writing changes -/

theorem makeDirectory_changes (h : t.WellFormed) (hstart : t.get? start = some .directory)
    (hmade : t.makeDirectory start names = .ok t') (hl : t'.get? l ≠ t.get? l) :
    t'.OnWay start names l := by
  obtain ⟨k, rfl, _, _, hlocate⟩ := makeDirectory_of_ok h hstart hmade
  exact onWay_of_set hl hlocate

theorem ensureDirectory_changes (h : t.WellFormed) (hstart : t.get? start = some .directory)
    (hmade : t.ensureDirectory start names = .ok t') (hl : t'.get? l ≠ t.get? l) :
    t'.OnWay start names l := by
  rw [ensureDirectory] at hmade
  split at hmade
  case h_1 hnew =>
    obtain rfl := Except.ok.inj hmade
    exact makeDirectory_changes h hstart hnew hl
  case h_2 =>
    split at hmade
    · obtain rfl := Except.ok.inj hmade
      exact absurd rfl hl
    · cases hmade

theorem makeDirectoriesAt_changes {rnames : List String} (h : t.WellFormed)
    (hstart : t.get? start = some .directory) (hmade : t.makeDirectoriesAt start rnames = .ok t')
    (hl : t'.get? l ≠ t.get? l) : t'.OnWay start rnames.reverse l := by
  induction rnames generalizing t' with
  | nil =>
    obtain rfl := Except.ok.inj hmade
    exact absurd rfl hl
  | cons name rnames ih =>
    rw [makeDirectoriesAt_cons] at hmade
    split at hmade
    case h_1 =>
      obtain ⟨t₁, habove, hlast⟩ := bind_eq_ok_iff.mp hmade
      obtain ⟨hgrows, hwf⟩ := makeDirectoriesAt_of_ok h hstart habove
      have hstart' := hgrows.directory hstart
      by_cases hsame : t'.get? l = t₁.get? l
      · have habove' := ih habove (hsame ▸ hl)
        rw [List.reverse_cons]
        exact (habove'.grows (ensureDirectory_of_ok hwf hstart' hlast).1 hstart').mono
          (List.prefix_append _ _)
      · exact ensureDirectory_changes hwf hstart' hlast hsame
    case h_2 => exact ensureDirectory_changes h hstart hmade hl

theorem makeDirectories_changes {path : String} (h : t.WellFormed)
    (hmade : t.makeDirectories path = .ok t') (hl : t'.get? l ≠ t.get? l) :
    t'.OnWay (t.start path) (Path.components path) l := by
  obtain ⟨_, _, hmade⟩ := bind_eq_ok_iff.mp hmade
  have hway := makeDirectoriesAt_changes h (h.start path) hmade hl
  rwa [List.reverse_reverse] at hway

theorem writeFile_changes {path : String} {content : List UInt8} (h : t.WellFormed)
    (hwrite : t.writeFile path content = .ok t') (hl : t'.get? l ≠ t.get? l) :
    t'.OnWay (t.start path) (Path.components path) l := by
  rw [writeFile] at hwrite
  split at hwrite
  case h_1 k old hfind =>
    obtain rfl := Except.ok.inj hwrite
    have hgrows := grows_set_of_file content (get?_of_find h hfind)
    obtain ⟨n, hfind', _⟩ := hgrows.find h hfind
    have hlocate := (find_eq_ok_iff.mp hfind').2
    rw [hgrows.start] at hlocate
    exact onWay_of_set hl hlocate
  case h_2 =>
    obtain rfl := Except.ok.inj hwrite
    exact absurd rfl hl
  case h_3 => cases hwrite
  case h_4 hfind =>
    have hvacant := (find_eq_notFound_iff.mp hfind).2
    obtain ⟨k, rfl, _, _, hlocate⟩ := set_of_new h (h.start path) hvacant hwrite
    exact onWay_of_set hl hlocate
  case h_5 => cases hwrite

theorem write_changes {w : FileWrite} (h : t.WellFormed) (hwrite : t.write w = .ok t')
    (hl : t'.get? l ≠ t.get? l) : t'.OnWay (t.start w.path) (Path.components w.path) l := by
  obtain ⟨t₁, hmade, hfile⟩ := bind_eq_ok_iff.mp hwrite
  obtain ⟨hgrows, hwf⟩ := makeDirectories_of_ok h hmade
  by_cases hsame : t'.get? l = t₁.get? l
  · have hway := makeDirectories_changes h hmade (hsame ▸ hl)
    have hstart : t.start (Path.parent w.path) = t.start w.path := by
      rw [start, start, Path.isAbsolute_parent]
    rw [hstart, Path.components_parent] at hway
    obtain ⟨_, _, _, hgrows', _⟩ := writeFile_of_ok hwf hfile
    exact (hway.grows hgrows' (hgrows.directory (h.start _))).mono (List.dropLast_prefix _)
  · have hway := writeFile_changes hwf hfile hsame
    rwa [hgrows.start] at hway

/-- whether it succeeds or not, some of the writes are made, from the first on -/
theorem exists_prefix_of_writeAll (t : FileTree) (ws : List FileWrite) :
    ∃ done, done <+: ws ∧ t.writeAll done = ((t.writeAll ws).1, none) := by
  induction ws generalizing t with
  | nil => exact ⟨[], List.prefix_refl _, rfl⟩
  | cons w ws ih =>
    cases hw : t.write w with
    | error e =>
      rw [writeAll_cons_of_error ws hw]
      exact ⟨[], List.nil_prefix, rfl⟩
    | ok t₁ =>
      obtain ⟨done, hdone, hwrite⟩ := ih t₁
      rw [writeAll_cons_of_ok ws hw]
      exact ⟨w :: done, List.cons_prefix_cons.mpr ⟨rfl, hdone⟩,
        (writeAll_cons_of_ok done hw).trans hwrite⟩

theorem writeAll_changes {ws : List FileWrite} (h : t.WellFormed)
    (hwrite : t.writeAll ws = (t', none)) (hl : t'.get? l ≠ t.get? l) :
    ∃ w ∈ ws, t'.OnWay (t.start w.path) (Path.components w.path) l := by
  induction ws generalizing t with
  | nil =>
    obtain ⟨rfl, -⟩ := Prod.mk.inj hwrite
    exact absurd rfl hl
  | cons w ws ih =>
    cases hw : t.write w with
    | error e =>
      rw [writeAll_cons_of_error ws hw] at hwrite
      exact nomatch hwrite
    | ok t₁ =>
      rw [writeAll_cons_of_ok ws hw] at hwrite
      obtain ⟨hwf, _, _, hgrows, _⟩ := write_of_ok h hw
      by_cases hsame : t'.get? l = t₁.get? l
      · have hway := write_changes h hw (hsame ▸ hl)
        obtain ⟨_, _, hgrows', _⟩ := writeAll_of_ok hwf hwrite
        exact ⟨w, List.mem_cons_self .., hway.grows hgrows' (hgrows.directory (h.start _))⟩
      · obtain ⟨w', hw', hway⟩ := ih hwf hwrite hsame
        rw [hgrows.start] at hway
        exact ⟨w', List.mem_cons_of_mem _ hw', hway⟩

/-! ## ways to confined paths -/

/-- the way to a directory, that directory, and what lies below it -/
def AtOrBelow (t : FileTree) (directory : String) (l : Location) : Prop :=
  t.OnWay (t.start directory) (Path.components directory) l ∨
    ∃ root n, t.locate (t.start directory) (Path.components directory) = .ok (root, n) ∧ root <+: l

/-- names that do not leave a directory lead below it -/
theorem exists_root_of_locate {directory : String} {n : Node} {rest : List String} (hwf : t.WellFormed)
    (hstays : (Path.descend [] rest).isSome = true)
    (hlocate : t.locate (t.start directory) (Path.components directory ++ rest) = .ok (l, n)) :
    ∃ root m, t.locate (t.start directory) (Path.components directory) = .ok (root, m) ∧ root <+: l := by
  obtain ⟨down, hdown⟩ := Option.isSome_iff_exists.mp hstays
  rw [locate_of_directory (hwf.start directory), locateFrom_append, bind_eq_ok_iff] at hlocate
  obtain ⟨⟨root, m⟩, hroot, hrest⟩ := hlocate
  rw [← List.append_nil root] at hrest
  obtain rfl := eq_append_of_descend hdown hrest
  rw [← locate_of_directory (hwf.start directory)] at hroot
  exact ⟨root, m, hroot, List.prefix_append ..⟩

theorem atOrBelow_of_onWay_join {directory path : String} (hwf : t.WellFormed)
    (hpath : Path.Confined path) (hway : t.OnWay (t.start (Path.join directory path))
      (Path.components (Path.join directory path)) l) : t.AtOrBelow directory l := by
  obtain ⟨hrelative, hstays⟩ := hpath
  rw [t.start_join directory hrelative, Path.components_join directory hrelative] at hway
  obtain ⟨passed, n, hpassed, hlocate⟩ := hway
  rcases List.prefix_or_prefix_of_prefix hpassed (List.prefix_append ..) with hbefore | ⟨rest, rfl⟩
  · exact .inl ⟨passed, n, hbefore, hlocate⟩
  · have hrest : rest <+: Path.components path := (List.prefix_append_right_inj _).mp hpassed
    exact .inr (exists_root_of_locate hwf (Path.isSome_descend_of_prefix hrest hstays) hlocate)

/-- the way to a directory that is there goes through directories -/
theorem get?_of_onWay {ls : List Location} {root : Location} (hgrows : t.Grows ls t')
    (hstart : t.get? start = some .directory) (hroot : t.locate start names = .ok (root, .directory))
    (hway : t'.OnWay start names l) : t.get? l = some .directory := by
  obtain ⟨passed, n, ⟨rest, rfl⟩, hpassed⟩ := hway
  rw [locate_of_directory hstart, locateFrom_append, bind_eq_ok_iff] at hroot
  obtain ⟨⟨k, m⟩, hk, hrest⟩ := hroot
  have hstart' := hgrows.directory hstart
  obtain ⟨m', hk'⟩ := hgrows.locateFrom hstart hstart' hk
  rw [locate_of_directory hstart', hk'] at hpassed
  obtain ⟨rfl, -⟩ := Prod.mk.inj (Except.ok.inj hpassed)
  rw [get?_of_locateFrom hstart hk]
  cases rest with
  | nil => rw [(Prod.mk.inj (Except.ok.inj hrest)).2]
  | cons name rest =>
    obtain ⟨_, hstep, _⟩ := locateFrom_cons_eq_ok_iff.mp hrest
    rw [(step_eq_ok_iff.mp hstep).1]

end

/-- what writing at some paths in a directory does, if it has to do with that directory only -/
structure WrittenBelow (t t' : FileTree) (directory : String) (paths : List String) : Prop where
  placed : ∀ path ∈ paths, ∀ l, t'.place? (Path.join directory path) = some l →
    ∃ root n, t'.locate (t'.start directory) (Path.components directory) = .ok (root, n) ∧ root <+: l
  changed : ∀ l, t'.get? l ≠ t.get? l → t'.AtOrBelow directory l
  /-- a directory that is there already stays what it is, and so do those that lead to it -/
  below : ∀ root, t.locate (t.start directory) (Path.components directory) = .ok (root, .directory) →
    ∀ l, t'.get? l ≠ t.get? l → root <+: l ∧ l ≠ root

/-- **Confined writes**: writing at confined paths in a directory, as far as it goes, has to do with that
directory only. -/
theorem writtenBelow_of_writeAll {t : FileTree} {directory : String} {ws : List FileWrite}
    {paths : List String} (h : t.WellFormed) (hpaths : ∀ path ∈ paths, Path.Confined path)
    (hws : ∀ w ∈ ws, ∃ path ∈ paths, w.path = Path.join directory path) :
    t.WrittenBelow (t.writeAll ws).1 directory paths := by
  obtain ⟨done, hdone, hwrite⟩ := exists_prefix_of_writeAll t ws
  obtain ⟨hwf, _, hgrows, _⟩ := writeAll_of_ok h hwrite
  have hchanged : ∀ l, (t.writeAll ws).1.get? l ≠ t.get? l → (t.writeAll ws).1.AtOrBelow directory l := by
    intro l hl
    obtain ⟨w, hw, hway⟩ := writeAll_changes h hwrite hl
    obtain ⟨path, hpath, hjoin⟩ := hws w (hdone.subset hw)
    rw [hjoin, ← hgrows.start] at hway
    exact atOrBelow_of_onWay_join hwf (hpaths path hpath) hway
  constructor
  case placed =>
    intro path hpath l hplace
    obtain ⟨hrelative, hstays⟩ := hpaths path hpath
    obtain ⟨n, hfind⟩ := find_of_place? hplace
    have hlocate := (find_eq_ok_iff.mp hfind).2
    rw [start_join _ directory hrelative, Path.components_join directory hrelative] at hlocate
    exact exists_root_of_locate hwf hstays hlocate
  case changed => exact hchanged
  case below =>
    intro root hroot l hl
    have hkept : t.get? l ≠ some .directory := by
      intro hdirectory
      exact hl ((hgrows.directory hdirectory).trans hdirectory.symm)
    have hroot' := hgrows.locate_directory (h.start directory) hroot
    have hbelow := hchanged l hl
    rw [AtOrBelow, hgrows.start] at hbelow
    rcases hbelow with hway | ⟨root', n, hlocate, hbelow'⟩
    · exact absurd (get?_of_onWay hgrows (h.start directory) hroot hway) hkept
    · rw [hroot', Except.ok.injEq, Prod.mk.injEq] at hlocate
      obtain ⟨rfl, -⟩ := hlocate
      refine ⟨hbelow', ?_⟩
      rintro rfl
      rw [locate_of_directory (h.start directory)] at hroot
      exact hkept (get?_of_locateFrom (h.start directory) hroot)

end FileTree

end RpcAdapters
