import RpcAdapters.Naming.Legal
import RpcAdapters.Overrides
import RpcAdapters.Proto

/-!
# The Go package of a schema file

A `go_package` text is an import path, or an import path, `;` and a package name; either part of the
latter may be empty.

* `PackageInfo.ofGoPackage`    reads such a text;
* `ProtoFile.packageInfo o f`  what is known of the package of `f`: the override of `f` in `o` if there
                               is one, otherwise its own `go_package`;
* `PackageTable.find?`         the same by file name; of two files with one name the last counts.
-/

namespace RpcAdapters

structure PackageInfo where
  importPath? : Option String := none
  name? : Option String := none
  deriving DecidableEq, Repr, Inhabited

namespace PackageInfo

def ofGoPackage (text : String) : PackageInfo :=
  if text = "" then {}
  else
    match Text.splitFirst ';' text.toList with
    | none => { importPath? := some text }
    | some (path, name) =>
      { importPath? := if path = [] then none else some (String.ofList path)
        name? := some (Naming.sanitized (String.ofList name)) }

/-- the name in the package clause of a file with this import path -/
def clauseName (p : PackageInfo) (importPath : String) : String :=
  p.name?.getD (Naming.packageName importPath)

end PackageInfo

def ProtoFile.packageInfo (overrides : Overrides) (f : ProtoFile) : PackageInfo :=
  (((overrides.find? f.name).or f.goPackage?).map PackageInfo.ofGoPackage).getD {}

/-- packages by file name, the last file first -/
abbrev PackageTable := List (String × PackageInfo)

namespace PackageTable

def ofFiles (overrides : Overrides) (files : List ProtoFile) : PackageTable :=
  (files.map fun f => (f.name, f.packageInfo overrides)).reverse

def find? (t : PackageTable) (file : String) : Option PackageInfo := t.lookup file

end PackageTable

end RpcAdapters
