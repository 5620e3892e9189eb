import RpcAdapters.Schema.Basic

/-!
# Where generated files go

* `Placement`         next to the schema file, or under the Go import path;
* `Layout.fileName`   the name of the file generated for a schema file, below the output directory;
                      under the import path a module prefix may be cut off.
-/

namespace RpcAdapters

inductive Placement where
  | sourceRelative
  | importPath
  deriving DecidableEq, Repr, Inhabited

def Placement.text : Placement → String
  | .sourceRelative => "source_relative"
  | .importPath => "import"

structure Layout where
  placement : Placement := .sourceRelative
  modulePrefix? : Option String := none
  deriving DecidableEq, Repr, Inhabited

inductive LayoutError where
  | outsideModule (name modulePrefix : String)
  deriving DecidableEq, Repr

def LayoutError.message : LayoutError → String
  | .outsideModule name pre =>
    "output file \"" ++ name ++ "\" does not have the module prefix \"" ++ pre ++ "\""

namespace Layout

def fileSuffix : String := "_pprpc.pb.go"

def unstrippedName (placement : Placement) (f : SchemaFile) : String :=
  match placement with
  | .sourceRelative => f.stem ++ fileSuffix
  | .importPath => f.importPath ++ "/" ++ f.baseStem ++ fileSuffix

/-- the module with one `/` at its end, however many it had -/
def directoryPrefix (module_ : String) : String :=
  String.ofList (Text.dropTrailing '/' module_.toList) ++ "/"

def stripModule (module_ name : String) : Except LayoutError String :=
  let pre := directoryPrefix module_
  match Text.dropPrefix? pre.toList name.toList with
  | some rest => .ok (String.ofList rest)
  | none => .error (.outsideModule name pre)

def fileName (l : Layout) (f : SchemaFile) : Except LayoutError String :=
  match l.placement, l.modulePrefix? with
  | .importPath, some module_ => stripModule module_ (unstrippedName .importPath f)
  | placement, _ => .ok (unstrippedName placement f)

end Layout

end RpcAdapters
