import Mathlib.Data.List.Induction
import RpcAdapters.Proofs.Generation.FileNames

/-!
# Collisions of output names

Beside its schema file an output file is called after the whole name of that; under the import path, after
the path and the last component.  A module prefix goes up to a `/`, and slashes at its end do not count.

* `Layout.IsStem module_ stem`   `stem` is the module without the slashes at its end;
* `directoryPrefix_of_isStem`    what is cut off is the stem and one slash;
* `Layout.CutsAt module_ stem`   when a name is left, which one, and else with what error;
* `Placement.Collide f f'`       what makes the output names of two files the same;
* `Layout.fileName_exact`        all of this for the names that a layout gives.
-/

namespace RpcAdapters

/-! ## the stem of a module -/

namespace Text

theorem dropTrailing_concat (c x : Char) (cs : List Char) :
    dropTrailing c (cs ++ [x]) = if x = c then dropTrailing c cs else cs ++ [x] := by
  unfold dropTrailing
  rw [List.reverse_concat, List.dropWhile_cons]
  by_cases hx : x = c
  · rw [if_pos hx, if_pos (beq_iff_eq.mpr hx)]
  · rw [if_neg hx, if_neg (beq_iff_eq.not.mpr hx), ← List.reverse_concat, List.reverse_reverse]

theorem dropTrailing_append_replicate {c : Char} {stem : List Char} (h : stem.getLast? ≠ some c)
    (n : Nat) : dropTrailing c (stem ++ List.replicate n c) = stem := by
  induction n with
  | zero =>
    rw [List.replicate_zero, List.append_nil]
    rcases stem.eq_nil_or_concat with rfl | ⟨init, x, rfl⟩
    · rfl
    · rw [List.concat_eq_append, List.getLast?_concat, Ne, Option.some.injEq] at h
      rw [List.concat_eq_append, dropTrailing_concat, if_neg h]
  | succ n ih =>
    rw [List.replicate_succ', ← List.append_assoc, dropTrailing_concat, if_pos rfl, ih]

theorem exists_eq_dropTrailing (c : Char) (cs : List Char) :
    (dropTrailing c cs).getLast? ≠ some c ∧ ∃ n, cs = dropTrailing c cs ++ List.replicate n c := by
  induction cs using List.reverseRecOn with
  | nil => exact ⟨nofun, 0, rfl⟩
  | append_singleton cs x ih =>
    rw [dropTrailing_concat]
    by_cases hx : x = c
    · obtain ⟨hlast, n, hn⟩ := ih
      rw [if_pos hx]
      refine ⟨hlast, n + 1, ?_⟩
      rw [List.replicate_succ', ← List.append_assoc, ← hn, hx]
    · rw [if_neg hx]
      refine ⟨?_, 0, ?_⟩
      · rw [List.getLast?_concat, Ne, Option.some.injEq]
        exact hx
      · rw [List.replicate_zero, List.append_nil]

end Text

namespace Layout

/-- `stem` is the module without the slashes at its end -/
structure IsStem (module_ stem : String) : Prop where
  slashes : ∃ n, module_ = stem ++ String.ofList (List.replicate n '/')
  bare : ∀ before, stem ≠ before ++ "/"

variable {module_ stem : String}

theorem directoryPrefix_of_isStem (h : IsStem module_ stem) :
    directoryPrefix module_ = stem ++ "/" := by
  obtain ⟨n, hn⟩ := h.slashes
  have hlast : stem.toList.getLast? ≠ some '/' := by
    intro hslash
    obtain ⟨before, hbefore⟩ := List.getLast?_eq_some_iff.mp hslash
    refine h.bare (String.ofList before) (String.toList_injective ?_)
    rw [hbefore, String.toList_append, String.toList_ofList]
    rfl
  rw [directoryPrefix, hn, String.toList_append, String.toList_ofList,
    Text.dropTrailing_append_replicate hlast, String.ofList_toList]

theorem exists_isStem (module_ : String) : ∃ stem, IsStem module_ stem := by
  obtain ⟨hlast, n, hn⟩ := Text.exists_eq_dropTrailing '/' module_.toList
  refine ⟨String.ofList (Text.dropTrailing '/' module_.toList), ⟨n, String.toList_injective ?_⟩, ?_⟩
  · rw [String.toList_append, String.toList_ofList, String.toList_ofList]
    exact hn
  · intro before hbefore
    apply hlast
    have hchars := congrArg String.toList hbefore
    rw [String.toList_ofList, String.toList_append] at hchars
    rw [hchars]
    exact List.getLast?_concat

/-! ## names under a module -/

/-- under the import path, in the module if there is one -/
abbrev inModule (modulePrefix? : Option String) : Layout := ⟨.importPath, modulePrefix?⟩

theorem unstrippedName_importPath (f : SchemaFile) : unstrippedName .importPath f =
    f.importPath ++ "/" ++ f.baseStem ++ "_pprpc.pb.go" := rfl

theorem fileName_inModule (module_ : String) (f : SchemaFile) :
    (inModule module_).fileName f = stripModule module_ (unstrippedName .importPath f) := rfl

/-- what the names of files in the module are, if `stem` is what counts of it -/
structure CutsAt (module_ stem : String) : Prop where
  ok_iff : ∀ (f : SchemaFile) (name : String), (inModule module_).fileName f = .ok name ↔
    f.importPath ++ "/" ++ f.baseStem ++ "_pprpc.pb.go" = stem ++ "/" ++ name
  error_iff : ∀ (f : SchemaFile) (e : LayoutError), (inModule module_).fileName f = .error e ↔
    (∀ name, f.importPath ++ "/" ++ f.baseStem ++ "_pprpc.pb.go" ≠ stem ++ "/" ++ name) ∧
      e = .outsideModule (f.importPath ++ "/" ++ f.baseStem ++ "_pprpc.pb.go") (stem ++ "/")

theorem stripModule_eq_error_iff {module_ name : String} {e : LayoutError} :
    stripModule module_ name = .error e ↔
      (∀ rest, name ≠ directoryPrefix module_ ++ rest) ∧
        e = .outsideModule name (directoryPrefix module_) := by
  have hrest : (∀ rest, name ≠ directoryPrefix module_ ++ rest) ↔
      ∀ rest, stripModule module_ name ≠ .ok rest := by
    simp only [ne_eq, stripModule_eq_ok_iff]
  rw [hrest, stripModule]
  cases Text.dropPrefix? (directoryPrefix module_).toList name.toList with
  | some cs => simp
  | none => simp [eq_comm]

theorem cutsAt_of_isStem (h : IsStem module_ stem) : CutsAt module_ stem where
  ok_iff f name := by
    rw [fileName_inModule, stripModule_eq_ok_iff, directoryPrefix_of_isStem h,
      unstrippedName_importPath]
  error_iff f e := by
    rw [fileName_inModule, stripModule_eq_error_iff, directoryPrefix_of_isStem h,
      unstrippedName_importPath]

/-- only the stem of a module counts -/
theorem fileName_eq_of_isStem {other : String} (h : IsStem module_ stem) (h' : IsStem other stem)
    (f : SchemaFile) : (inModule module_).fileName f = (inModule other).fileName f := by
  rw [fileName_inModule, fileName_inModule, stripModule, stripModule, directoryPrefix_of_isStem h,
    directoryPrefix_of_isStem h']

end Layout

/-! ## collisions -/

/-- what makes the output names of two files the same -/
def Placement.Collide (f f' : SchemaFile) : Placement → Prop
  | .sourceRelative => f.name = f'.name
  | .importPath => f.importPath = f'.importPath ∧ f.baseName = f'.baseName

theorem Placement.unstrippedName_eq_iff {f f' : SchemaFile} (h : f.eligible = true)
    (h' : f'.eligible = true) (placement : Placement) :
    Layout.unstrippedName placement f = Layout.unstrippedName placement f' ↔ placement.Collide f f' := by
  cases placement with
  | sourceRelative =>
    rw [Layout.unstrippedName_sourceRelative_inj, SchemaFile.stem_eq_iff h h']
    rfl
  | importPath =>
    rw [Layout.unstrippedName_importPath_inj, SchemaFile.baseStem_eq_iff h h']
    rfl

/-- **Output names collide exactly if what they are made from does**, whatever the layout cuts off: the
stem of the module and a `/`, or nothing beside the schema files. -/
theorem Layout.fileName_exact :
    (∀ (l : Layout) (f f' : SchemaFile) (name name' : String), f.eligible = true → f'.eligible = true →
      l.fileName f = .ok name → l.fileName f' = .ok name' →
      (name = name' ↔ l.placement.Collide f f')) ∧
    (∀ module_, ∃ stem, IsStem module_ stem ∧ CutsAt module_ stem ∧
      ∀ other, IsStem other stem → ∀ f, (inModule other).fileName f = (inModule module_).fileName f) ∧
    (∀ f, (inModule none).fileName f = .ok (f.importPath ++ "/" ++ f.baseStem ++ "_pprpc.pb.go")) ∧
    ∀ (modulePrefix? : Option String) (f : SchemaFile),
      (Layout.mk .sourceRelative modulePrefix?).fileName f = .ok (f.stem ++ "_pprpc.pb.go") := by
  refine ⟨?_, ?_, fun _ => rfl, fun _ _ => rfl⟩
  · intro l f f' name name' hf hf' h h'
    rw [fileName_eq_iff h h', Placement.unstrippedName_eq_iff hf hf']
  · intro module_
    obtain ⟨stem, hstem⟩ := exists_isStem module_
    refine ⟨stem, hstem, cutsAt_of_isStem hstem, ?_⟩
    intro other hother f
    exact fileName_eq_of_isStem hother hstem f

/-! ### siblings -/

/-- a file of the package `shop/rpc`, in a directory of its own -/
def siblingFile (directory : String) : SchemaFile where
  name := directory ++ "/order.services.proto"
  importPath := "shop/rpc"
  packageName := "rpc"

/-- the directories of the schema files do not keep their output apart -/
theorem Layout.fileName_exact_siblings :
    (siblingFile "api").eligible = true ∧ (siblingFile "web").eligible = true ∧
      (inModule "shop//").fileName (siblingFile "api") = .ok "rpc/order.services_pprpc.pb.go" ∧
      (inModule "shop//").fileName (siblingFile "web") = .ok "rpc/order.services_pprpc.pb.go" ∧
      (siblingFile "api").name ≠ (siblingFile "web").name ∧
      Placement.importPath.Collide (siblingFile "api") (siblingFile "web") := by
  have hapi : (siblingFile "api").eligible = true := by decide +kernel
  have hweb : (siblingFile "web").eligible = true := by decide +kernel
  have hname : (inModule "shop//").fileName (siblingFile "api")
      = .ok "rpc/order.services_pprpc.pb.go" := by decide +kernel
  have hname' : (inModule "shop//").fileName (siblingFile "web")
      = .ok "rpc/order.services_pprpc.pb.go" := by decide +kernel
  refine ⟨hapi, hweb, hname, hname', by decide, ?_⟩
  exact (fileName_exact.1 _ _ _ _ _ hapi hweb hname hname').mp rfl

end RpcAdapters
