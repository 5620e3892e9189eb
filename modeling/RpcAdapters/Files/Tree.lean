import RpcAdapters.Files.Path
import RpcAdapters.Text.Utf8

/-!
# File trees

The files and directories that a run finds and leaves behind, by their location: the names on the way
from the root.  There is always a root directory, and `..` leads one directory up.

* `locate`              where names lead, and what is there;
* `find`                the same for a path, if it is one that can be looked at;
* `readFile`            the content of a file; what can be opened may still have none;
* `makeDirectories`     makes a directory, and those above it that are missing;
* `writeFile`           sets the content of a file, whose directory has to be there;
* `write`, `writeAll`   write files one after the other, each with its directories, up to the first error;
* `files`               all files with their locations.
-/

namespace RpcAdapters

abbrev Location := List String

inductive Node where
  | directory
  | file (content : List UInt8)
  /-- takes what is written to it, and has no content -/
  | device
  deriving DecidableEq, Repr, Inhabited

inductive FileError where
  | notFound
  | exists
  | noDevice
  | notDirectory
  | isDirectory
  | nameTooLong
  /-- a path with the character that ends paths -/
  | nulInPath
  /-- anything else, in the words of the operating system -/
  | other (reason : String)
  deriving DecidableEq, Repr, Inhabited

/-- the words of the operating system -/
def FileError.message : FileError → String
  | .notFound => "No such file or directory (os error 2)"
  | .exists => "File exists (os error 17)"
  | .noDevice => "No such device (os error 19)"
  | .notDirectory => "Not a directory (os error 20)"
  | .isDirectory => "Is a directory (os error 21)"
  | .nameTooLong => "File name too long (os error 36)"
  | .nulInPath => "file name contained an unexpected NUL byte"
  | .other reason => reason

/-- why there is no content -/
inductive ReadError where
  /-- what is to be read cannot be opened -/
  | unopened (e : FileError)
  /-- it is open, but its content cannot be had -/
  | unmapped (e : FileError)
  deriving DecidableEq, Repr, Inhabited

/-- how many bytes a name may have -/
def maxNameLength : Nat := 255

/-- how many bytes a path may have -/
def maxPathLength : Nat := 4095

structure FileTree where
  /-- the newest entry of a location counts -/
  entries : List (Location × Node) := []
  /-- where paths that are not absolute start -/
  current : Location := []
  deriving Repr, Inhabited

/-- something to write, at a path -/
structure FileWrite where
  path : String
  content : String
  deriving DecidableEq, Repr, Inhabited

namespace FileTree

def get? (t : FileTree) (l : Location) : Option Node :=
  if l = [] then some .directory else t.entries.lookup l

def set (t : FileTree) (l : Location) (n : Node) : FileTree :=
  { t with entries := (l, n) :: t.entries }

def start (t : FileTree) (path : String) : Location :=
  if Path.isAbsolute path then [] else t.current

theorem get?_nil (t : FileTree) : t.get? [] = some .directory := rfl

theorem get?_set_self (t : FileTree) {l : Location} (n : Node) (h : l ≠ []) :
    (t.set l n).get? l = some n := by
  simp [get?, set, h]

theorem get?_set_of_ne (t : FileTree) {l l' : Location} (n : Node) (h : l' ≠ l) :
    (t.set l n).get? l' = t.get? l' := by
  have hne : (l' == l) = false := by simpa using h
  simp [get?, set, List.lookup_cons, hne]

/-! ## finding -/

/-- one component further, from something that is there -/
def step (t : FileTree) (at_ : Location × Node) (name : String) :
    Except FileError (Location × Node) :=
  match at_.2 with
  | .file _ | .device => .error .notDirectory
  | .directory =>
    let next := if name = ".." then at_.1.dropLast else at_.1 ++ [name]
    if maxNameLength < name.utf8ByteSize then .error .nameTooLong
    else match t.get? next with
      | some n => .ok (next, n)
      | none => .error .notFound

def locateFrom (t : FileTree) (at_ : Location × Node) : List String →
    Except FileError (Location × Node)
  | [] => .ok at_
  | name :: names =>
    match t.step at_ name with
    | .ok next => t.locateFrom next names
    | .error e => .error e

theorem locateFrom_append (t : FileTree) (at_ : Location × Node) (names names' : List String) :
    t.locateFrom at_ (names ++ names') = (do
      let next ← t.locateFrom at_ names
      t.locateFrom next names') := by
  induction names generalizing at_ with
  | nil => rfl
  | cons name names ih =>
    rw [List.cons_append, locateFrom, locateFrom]
    cases t.step at_ name with
    | ok next => exact ih next
    | error e => rfl

def locate (t : FileTree) (start : Location) (names : List String) :
    Except FileError (Location × Node) :=
  t.locateFrom (start, (t.get? start).getD .directory) names

/-- whether a path can be looked at; what is there does not matter -/
def checkPath (path : String) : Except FileError PUnit :=
  if '\x00' ∈ path.toList then .error .nulInPath
  else if maxPathLength < path.utf8ByteSize then .error .nameTooLong
  else .ok ⟨⟩

def find (t : FileTree) (path : String) : Except FileError (Location × Node) := do
  checkPath path
  t.locate (t.start path) (Path.components path)

def readFile (t : FileTree) (path : String) : Except ReadError (List UInt8) :=
  match t.find path with
  | .error e => .error (.unopened e)
  | .ok (_, .directory) => .error (.unmapped .noDevice)
  | .ok (_, n) =>
    if Path.namesDirectory path then .error (.unopened .notDirectory)
    else match n with
      | .file content => .ok content
      | _ => .error (.unmapped .noDevice)

/-! ## writing -/

def makeDirectory (t : FileTree) (start : Location) (names : List String) :
    Except FileError FileTree :=
  match t.locate start names with
  | .ok _ => .error .exists
  | .error .notFound => do
    let (l, _) ← t.locate start names.dropLast
    return t.set (l ++ names.getLast?.toList) .directory
  | .error e => .error e

def isDirectory (t : FileTree) (start : Location) (names : List String) : Bool :=
  match t.locate start names with
  | .ok (_, .directory) => true
  | _ => false

/-- `rnames` are the components in reverse order -/
def makeDirectoriesAt (t : FileTree) (start : Location) : (rnames : List String) →
    Except FileError FileTree
  | [] => .ok t
  | name :: rnames =>
    let names := (name :: rnames).reverse
    let made (t : FileTree) : Except FileError FileTree :=
      match t.makeDirectory start names with
      | .ok t => .ok t
      | .error e => if t.isDirectory start names then .ok t else .error e
    match made t with
    | .error .notFound => do
      let t ← t.makeDirectoriesAt start rnames
      made t
    | r => r

def makeDirectories (t : FileTree) (path : String) : Except FileError FileTree := do
  checkPath path
  t.makeDirectoriesAt (t.start path) (Path.components path).reverse

def writeFile (t : FileTree) (path : String) (content : List UInt8) : Except FileError FileTree :=
  match t.find path with
  | .ok (l, .file _) => .ok (t.set l (.file content))
  | .ok (_, .device) => .ok t
  | .ok (_, .directory) => .error .isDirectory
  | .error .notFound => do
    let names := Path.components path
    let (l, _) ← t.locate (t.start path) names.dropLast
    return t.set (l ++ names.getLast?.toList) (.file content)
  | .error e => .error e

def write (t : FileTree) (w : FileWrite) : Except FileError FileTree := do
  let t ← t.makeDirectories (Path.parent w.path)
  t.writeFile w.path (Text.utf8 w.content)

/-- what is there after the last write that succeeded, and what went wrong then -/
def writeAll (t : FileTree) : List FileWrite → FileTree × Option FileError
  | [] => (t, none)
  | w :: ws =>
    match t.write w with
    | .ok t => t.writeAll ws
    | .error e => (t, some e)

-- a single write is not to be looked into here
seal write in
theorem writeAll_cons (t : FileTree) (w : FileWrite) (ws : List FileWrite) :
    t.writeAll (w :: ws) = match t.write w with
      | .ok t => t.writeAll ws
      | .error e => (t, some e) := rfl

theorem writeAll_cons_of_ok {t t' : FileTree} {w : FileWrite} (ws : List FileWrite)
    (h : t.write w = .ok t') : t.writeAll (w :: ws) = t'.writeAll ws := by
  rw [writeAll_cons, h]

theorem writeAll_cons_of_error {t : FileTree} {w : FileWrite} (ws : List FileWrite) {e : FileError}
    (h : t.write w = .error e) : t.writeAll (w :: ws) = (t, some e) := by
  rw [writeAll_cons, h]

theorem writeAll_append (t : FileTree) (ws ws' : List FileWrite) :
    t.writeAll (ws ++ ws') = match t.writeAll ws with
      | (t, none) => t.writeAll ws'
      | r => r := by
  induction ws generalizing t with
  | nil => rfl
  | cons w ws ih =>
    rw [List.cons_append]
    cases h : t.write w with
    | ok t' => rw [writeAll_cons_of_ok _ h, writeAll_cons_of_ok _ h, ih]
    | error e => rw [writeAll_cons_of_error _ h, writeAll_cons_of_error _ h]

/-! ## listing -/

def fileAt? (t : FileTree) (l : Location) : Option (List UInt8) :=
  match t.get? l with
  | some (.file content) => some content
  | _ => none

def files (t : FileTree) : List (Location × List UInt8) :=
  (t.entries.map Prod.fst).eraseDups.filterMap fun l => (t.fileAt? l).map fun content => (l, content)

end FileTree

end RpcAdapters
