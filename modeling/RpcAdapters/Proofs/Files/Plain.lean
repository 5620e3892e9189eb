import RpcAdapters.Proofs.Files.Writes

/-!
# Plain paths

A plain path says nothing but which names to go down: it is not absolute, and has no empty component, no
`.` and no `..`.

* `Path.components_inj`         plain paths with the same components are the same;
* `Path.exists_join_eq`         a joined path ends as the path that was joined;
* `FileTree.find_join_of_plain`   a plain path leads below what it is joined to, name by name.
-/

namespace RpcAdapters

namespace Path

def Plain (path : String) : Prop :=
  ∀ piece ∈ Text.splitAll '/' path.toList, piece ≠ [] ∧ piece ≠ ['.'] ∧ piece ≠ ['.', '.']

instance (path : String) : Decidable (Plain path) :=
  inferInstanceAs (Decidable (∀ piece ∈ Text.splitAll '/' path.toList, _))

/-! ## components of plain paths -/

section
variable {path path' : String}

theorem components_of_plain (h : Plain path) :
    components path = (Text.splitAll '/' path.toList).map String.ofList := by
  have hall : ∀ piece ∈ Text.splitAll '/' path.toList, leadsOn piece = true := by
    intro piece hpiece
    obtain ⟨hempty, hdot, _⟩ := h piece hpiece
    exact decide_eq_true ⟨hempty, hdot⟩
  rw [components, List.filter_eq_self.mpr hall]

theorem components_inj (h : Plain path) (h' : Plain path') (heq : components path = components path') :
    path = path' := by
  rw [components_of_plain h, components_of_plain h'] at heq
  have hpieces : Text.splitAll '/' path.toList = Text.splitAll '/' path'.toList :=
    List.map_injective_iff.mpr (fun _ _ => String.ofList_inj.mp) heq
  have hchars : path.toList = path'.toList := by
    rw [← Text.joinAll_splitAll '/' path.toList, hpieces, Text.joinAll_splitAll]
  exact String.toList_inj.mp hchars

theorem not_mem_components (h : Plain path) : ".." ∉ components path := by
  intro hmem
  rw [components_of_plain h] at hmem
  obtain ⟨piece, hpiece, hup⟩ := List.mem_map.mp hmem
  refine (h piece hpiece).2.2 ?_
  rw [← String.toList_ofList (l := piece), hup]
  rfl

theorem not_isAbsolute_of_plain (h : Plain path) : isAbsolute path = false := by
  rw [Bool.eq_false_iff]
  intro habsolute
  obtain ⟨rest, hrest⟩ := isAbsolute_iff.mp habsolute
  refine (h [] ?_).1 rfl
  rw [hrest, Text.splitAll, if_pos rfl]
  exact List.mem_cons_self ..

end

/-! ## joined paths -/

theorem exists_join_eq (base path : String) : ∃ before, join base path = before ++ path := by
  rw [join]
  split
  · exact ⟨"", String.empty_append.symm⟩
  · split
    · exact ⟨base, rfl⟩
    · exact ⟨base ++ "/", rfl⟩

theorem isAbsolute_append {base : String} (h : base ≠ "") (rest : String) :
    isAbsolute (base ++ rest) = isAbsolute base := by
  rw [isAbsolute, isAbsolute, String.toList_append]
  cases hbase : base.toList with
  | nil => exact absurd (String.toList_eq_nil_iff.mp hbase) h
  | cons c cs =>
    rw [List.cons_append, Text.startsWith_singleton, Text.startsWith_singleton]

theorem isAbsolute_join {path : String} (base : String) (h : isAbsolute path = false) :
    isAbsolute (join base path) = isAbsolute base := by
  by_cases hbase : base = ""
  · have hjoin : join base path = path := by
      rw [join, if_neg (Bool.eq_false_iff.mp h), if_pos (.inl hbase), hbase, String.empty_append]
    rw [hjoin, h, hbase]
    rfl
  · rw [join, if_neg (Bool.eq_false_iff.mp h)]
    split
    · exact isAbsolute_append hbase path
    · rw [String.append_assoc]
      exact isAbsolute_append hbase _

/-- more than two characters after the last `/` are the name of something in a directory -/
theorem not_namesDirectory {before ending : String} (hslash : '/' ∉ ending.toList)
    (hlong : 2 < ending.toList.length) : namesDirectory (before ++ ending) = false := by
  have hlast : Text.lastPiece '/' (before ++ ending).toList
      = Text.lastPiece '/' before.toList ++ ending.toList := by
    rw [String.toList_append, Text.lastPiece_append_of_not_mem _ hslash]
  have hlength : 2 < (Text.lastPiece '/' (before ++ ending).toList).length := by
    rw [hlast, List.length_append]
    omega
  rw [namesDirectory]
  generalize Text.lastPiece '/' (before ++ ending).toList = last at hlength
  have hempty : last ≠ [] := by rintro rfl; exact absurd hlength (by decide)
  have hdot : last ≠ ['.'] := by rintro rfl; exact absurd hlength (by decide)
  have hdots : last ≠ ['.', '.'] := by rintro rfl; exact absurd hlength (by decide)
  simp [leadsOn, hempty, hdot, hdots]

end Path

/-! ## places of plain paths -/

namespace FileTree

theorem start_join (t : FileTree) {path : String} (base : String)
    (h : Path.isAbsolute path = false) : t.start (Path.join base path) = t.start base := by
  rw [start, start, Path.isAbsolute_join base h]

theorem find_join_of_plain {t : FileTree} {base path : String} {l : Location} {n : Node}
    (hwf : t.WellFormed) (h : Path.Plain path) (hfind : t.find (Path.join base path) = .ok (l, n)) :
    ∃ root, t.locate (t.start base) (Path.components base) = .ok (root, .directory) ∧
      l = root ++ Path.components path := by
  have hrelative := Path.not_isAbsolute_of_plain h
  have hlocate := (find_eq_ok_iff.mp hfind).2
  rw [t.start_join base hrelative, locate_of_directory (hwf.start base),
    Path.components_join base hrelative, locateFrom_append, bind_eq_ok_iff] at hlocate
  obtain ⟨⟨root, m⟩, hbase, hrest⟩ := hlocate
  rw [locate_of_directory (hwf.start base)]
  -- there is a first component, and it leads on from a directory only
  cases hcomponents : Path.components path with
  | nil =>
    rw [Path.components_of_plain h, List.map_eq_nil_iff] at hcomponents
    exact absurd hcomponents (Text.splitAll_ne_nil '/' path.toList)
  | cons name names =>
    have hup := Path.not_mem_components h
    rw [hcomponents] at hrest hup
    obtain ⟨next, hstep, _⟩ := locateFrom_cons_eq_ok_iff.mp hrest
    obtain ⟨rfl, _⟩ := step_eq_ok_iff.mp hstep
    exact ⟨root, hbase, eq_append_of_locateFrom hup hrest⟩

end FileTree

end RpcAdapters
