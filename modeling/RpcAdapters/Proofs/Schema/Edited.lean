import RpcAdapters.Schema.Build
import RpcAdapters.Proofs.Schema.Paths

/-!
# Overrides as edited files

An override of a file does what writing its text into the `go_package` of the file would do.

* `f.edited overrides`   the file with the text of its override in place of its own;
* `packageInfo_edited`, `entries_edited`   what is known of the package and the messages of a file;
* `Supplied.ofFiles_edited`   so all that is known of the files is the same;
* `buildSchema_edited`   and so is the schema made of them, or the error.
-/

namespace RpcAdapters

/-! ## one file -/

/-- options are made if the file has none -/
def ProtoFile.withGoPackage (f : ProtoFile) (text : String) : ProtoFile :=
  { f with options? := some { f.options?.getD {} with goPackage? := some text } }

def ProtoFile.edited (overrides : Overrides) (f : ProtoFile) : ProtoFile :=
  match overrides.find? f.name with
  | some text => f.withGoPackage text
  | none => f

namespace ProtoFile

variable (overrides : Overrides) (f : ProtoFile)

/-- what is not read from the options stays as it is -/
theorem edited_eq : ∃ options?, f.edited overrides = { f with options? } := by
  unfold edited
  cases overrides.find? f.name with
  | none => exact ⟨f.options?, rfl⟩
  | some text => exact ⟨_, rfl⟩

theorem name_edited : (f.edited overrides).name = f.name := by
  obtain ⟨options?, h⟩ := f.edited_eq overrides
  rw [h]
  rfl

theorem services_edited : (f.edited overrides).services = f.services := by
  obtain ⟨options?, h⟩ := f.edited_eq overrides
  rw [h]

theorem entries_edited : (f.edited overrides).entries = f.entries := by
  obtain ⟨options?, h⟩ := f.edited_eq overrides
  rw [h, entries_eq, entries_eq]
  rfl

theorem goPackage?_edited :
    (f.edited overrides).goPackage? = (overrides.find? f.name).or f.goPackage? := by
  unfold edited
  cases overrides.find? f.name <;> rfl

theorem packageInfo_edited : (f.edited overrides).packageInfo .empty = f.packageInfo overrides := by
  unfold packageInfo
  rw [Overrides.find?_empty, Option.none_or, goPackage?_edited]

end ProtoFile

/-! ## all files -/

namespace Supplied

theorem ofFiles_edited (overrides : Overrides) (files : List ProtoFile) :
    ofFiles .empty (files.map (ProtoFile.edited overrides)) = ofFiles overrides files := by
  have hpackages : PackageTable.ofFiles .empty (files.map (ProtoFile.edited overrides))
      = PackageTable.ofFiles overrides files := by
    unfold PackageTable.ofFiles
    rw [List.map_map]
    simp only [Function.comp_def, ProtoFile.name_edited, ProtoFile.packageInfo_edited]
  have hmessages : MessageIndex.ofFiles (files.map (ProtoFile.edited overrides))
      = MessageIndex.ofFiles files := by
    unfold MessageIndex.ofFiles
    rw [List.flatMap_map]
    simp only [ProtoFile.entries_edited]
  unfold ofFiles
  rw [hpackages, hmessages]

variable (s : Supplied) (overrides : Overrides) (requested : Bool) (f : ProtoFile)

/-- of a file itself only the name and the services are read -/
theorem schemaFile_edited : s.schemaFile requested (f.edited overrides) = s.schemaFile requested f := by
  unfold schemaFile requestedFile otherFile
  simp only [f.name_edited, f.services_edited]

end Supplied

/-- **An override is an edit of `go_package`**: files make the same schema, or the same error, when the
text of every override is written into the options of its file. -/
theorem buildSchema_edited (files : List ProtoFile) (filesToGenerate : List String)
    (overrides : Overrides) : buildSchema files filesToGenerate overrides
      = buildSchema (files.map (ProtoFile.edited overrides)) filesToGenerate .empty := by
  unfold buildSchema
  rw [Supplied.ofFiles_edited, List.mapM_map]
  simp only [Function.comp_def, ProtoFile.name_edited, Supplied.schemaFile_edited]

end RpcAdapters
