import RpcAdapters.Text.Letter
import RpcAdapters.Text.DecimalDigit
import RpcAdapters.Text.Pieces

/-!
# Legal Go identifiers

* `keywords`, `predeclared`   the words of Go that mean something already;
* `IsIdentifier`   letters, decimal digits and `_`, not starting with a digit, and no keyword;
* `sanitized n`    `n` made legal: all but letters and digits turns into `_`, and one more `_` goes
                   in front of a keyword or of a start that is no letter;
* `importBase`, `packageName`   the last element of an import path, and the package name made of it.
-/

namespace RpcAdapters.Naming

def keywords : List String :=
  ["break", "case", "chan", "const", "continue", "default", "defer", "else", "fallthrough", "for",
  "func", "go", "goto", "if", "import", "interface", "map", "package", "range", "return", "select",
  "struct", "switch", "type", "var"]

/-- the names that every Go file can use without declaring or importing them -/
def predeclared : List String :=
  ["any", "append", "bool", "byte", "cap", "clear", "close", "comparable", "complex", "complex64",
  "complex128", "copy", "delete", "error", "false", "float32", "float64", "imag", "int", "int8",
  "int16", "int32", "int64", "iota", "len", "make", "max", "min", "new", "nil", "panic", "print",
  "println", "real", "recover", "rune", "string", "true", "uint", "uint8", "uint16", "uint32",
  "uint64", "uintptr"]

/-! ## characters of an identifier -/

def isLetterOrDigit (c : Char) : Bool := Text.isLetter c || Text.isDecimalDigit c

def startsWithLetter : List Char → Bool
  | [] => false
  | c :: _ => Text.isLetter c

structure IsIdentifier (name : String) : Prop where
  nonempty : name.toList ≠ []
  chars : ∀ c ∈ name.toList, isLetterOrDigit c = true ∨ c = '_'
  start : ∀ c ∈ name.toList.head?, Text.isDecimalDigit c = false
  not_keyword : name ∉ keywords

/-! ## sanitized names -/

def replaceIllegal (cs : List Char) : List Char :=
  cs.map fun c => if isLetterOrDigit c then c else '_'

def sanitized (name : String) : String :=
  let kept := replaceIllegal name.toList
  if String.ofList kept ∈ keywords ∨ startsWithLetter kept = false then
    String.ofList ('_' :: kept)
  else String.ofList kept

theorem length_replaceIllegal (cs : List Char) : (replaceIllegal cs).length = cs.length := by
  rw [replaceIllegal, List.length_map]

theorem mem_replaceIllegal {cs : List Char} {c : Char} (h : c ∈ replaceIllegal cs) :
    isLetterOrDigit c = true ∨ c = '_' := by
  obtain ⟨d, -, rfl⟩ := List.mem_map.mp h
  split
  · exact .inl ‹_›
  · exact .inr rfl

/-- an underscore is replaced by itself -/
theorem replaceIllegal_of_legal {cs : List Char} (h : ∀ c ∈ cs, isLetterOrDigit c = true ∨ c = '_') :
    replaceIllegal cs = cs := by
  unfold replaceIllegal
  rw [List.map_congr_left (g := id), List.map_id]
  intro c hc
  rcases h c hc with hlegal | rfl
  · exact if_pos hlegal
  · exact ite_self _

/-! ## package names -/

def importBase (importPath : String) : String :=
  String.ofList (Text.lastPiece '/' importPath.toList)

def packageName (importPath : String) : String := sanitized (importBase importPath)

end RpcAdapters.Naming
