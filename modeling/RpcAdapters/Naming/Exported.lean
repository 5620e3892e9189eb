import RpcAdapters.Text.Utf8

/-!
# Exported Go names of schema names

`exported n` is the Go name under which a declaration named `n` in a schema is visible outside its
package.  It is made from the UTF-8 bytes of `n`:

* a `.` before a lowercase letter is dropped, any other becomes `_`;
* a `_` at the start, or right after a `.`, becomes `X`;
* any other `_` before a lowercase letter is dropped, the rest are kept;
* a digit is kept;
* any other byte starts a word: it is upper-cased, and the lowercase letters after it are kept.

A byte stands for the character of that number, so a name outside ASCII changes its spelling.

* `exportedFrom p bs`   the characters written for `bs` at the place `p` of a name;
* `exportedFrom_dot`, `exportedFrom_underscore`, …   one byte at a time.
-/

namespace RpcAdapters.Naming

/-! ## bytes -/

def isLower (b : UInt8) : Bool := 97 ≤ b && b ≤ 122

def isDigit (b : UInt8) : Bool := 48 ≤ b && b ≤ 57

def upper (b : UInt8) : UInt8 := if isLower b then b - 32 else b

def dot : UInt8 := 46

def underscore : UInt8 := 95

def toChar (b : UInt8) : Char := Char.ofNat b.toNat

/-- whether the next byte is a lowercase letter -/
def lowerNext : List UInt8 → Bool
  | [] => false
  | b :: _ => isLower b

/-! ## names -/

/-- a place in a name, as far as what comes before decides about what comes next -/
inductive Place where
  /-- at the very start, or right after a dot -/
  | start
  /-- after a digit or an underscore: the next letter starts a word -/
  | gap
  /-- inside a word, where lowercase letters are kept -/
  | word
  deriving DecidableEq, Repr

def exportedFrom : Place → List UInt8 → List Char
  | _, [] => []
  | p, b :: rest =>
    if p = .word ∧ isLower b then toChar b :: exportedFrom .word rest
    else if b = dot then
      if lowerNext rest then exportedFrom .start rest else '_' :: exportedFrom .start rest
    else if b = underscore then
      if p = .start then 'X' :: exportedFrom .gap rest
      else if lowerNext rest then exportedFrom .gap rest
      else '_' :: exportedFrom .gap rest
    else if isDigit b then toChar b :: exportedFrom .gap rest
    else toChar (upper b) :: exportedFrom .word rest

def exported (name : String) : String := String.ofList (exportedFrom .start (Text.utf8 name))

/-! ### one byte at a time -/

theorem exportedFrom_nil (p : Place) : exportedFrom p [] = [] := by cases p <;> rfl

theorem exportedFrom_dot (p : Place) (rest : List UInt8) :
    exportedFrom p (dot :: rest) =
      (if lowerNext rest then [] else ['_']) ++ exportedFrom .start rest := by
  rw [exportedFrom, if_neg (by simp [isLower, dot]), if_pos rfl]
  split <;> rfl

theorem exportedFrom_underscore (p : Place) (rest : List UInt8) :
    exportedFrom p (underscore :: rest) =
      (if p = .start then ['X'] else if lowerNext rest then [] else ['_'])
        ++ exportedFrom .gap rest := by
  rw [exportedFrom, if_neg (by simp [isLower, underscore]), if_neg (by decide), if_pos rfl]
  split
  · rfl
  · split <;> rfl

theorem exportedFrom_digit (p : Place) {b : UInt8} (rest : List UInt8) (h : isDigit b = true) :
    exportedFrom p (b :: rest) = toChar b :: exportedFrom .gap rest := by
  have hb : 48 ≤ b.toNat ∧ b.toNat ≤ 57 := by
    simpa [isDigit, UInt8.le_iff_toNat_le] using h
  rw [exportedFrom, if_neg, if_neg, if_neg, if_pos h]
  · rintro rfl; exact absurd h (by decide)
  · rintro rfl; exact absurd h (by decide)
  · rintro ⟨-, hl⟩
    have : 97 ≤ b.toNat ∧ b.toNat ≤ 122 := by simpa [isLower, UInt8.le_iff_toNat_le] using hl
    omega

theorem exportedFrom_word_lower {b : UInt8} (rest : List UInt8) (h : isLower b = true) :
    exportedFrom .word (b :: rest) = toChar b :: exportedFrom .word rest := by
  rw [exportedFrom, if_pos ⟨rfl, h⟩]

end RpcAdapters.Naming
