import RpcAdapters.Naming.Legal
import RpcAdapters.SourceUnit.Basic
import RpcAdapters.Text.Decimal

/-!
# Package aliases

Each imported package of a file gets an alias: its package name if that is free, otherwise that name
with the least number from 1 on that makes it free.  Aliases are handed out in the order of first
reference; the names of bodies and the predeclared names of Go are never free.

* `freeAlias used base`        the first of `base`, `base1`, `base2`, … that is not in `used`;
* `numbered_injective`         those are all different, so one of the first `used.length + 1` is free;
* `Aliases.allocate u`         the aliases of a unit;
* `Aliases.qualify i`          how an identifier is written in the file;
* `Aliases.specs`              the paths with their aliases, in ascending order of paths.
-/

namespace RpcAdapters

/-! ## free names -/

def numbered (base : String) (n : Nat) : String :=
  if n = 0 then base else base ++ Text.decimal n

def freeNumber (used : List String) (base : String) : Nat :=
  ((List.range (used.length + 1)).find? fun n => !used.contains (numbered base n)).getD 0

def freeAlias (used : List String) (base : String) : String := numbered base (freeNumber used base)

theorem numbered_zero (base : String) : numbered base 0 = base := rfl

theorem decimal_toList_ne_nil (n : Nat) : (Text.decimal n).toList ≠ [] := by
  simp [Text.decimal, Nat.toDigits_ne_nil]

theorem numbered_injective {base : String} {m n : Nat} (h : numbered base m = numbered base n) :
    m = n := by
  have hl : ∀ k, k ≠ 0 → (numbered base k).toList = base.toList ++ (Text.decimal k).toList :=
    fun k hk => by rw [numbered, if_neg hk, String.toList_append]
  have h' := congrArg String.toList h
  by_cases hm : m = 0 <;> by_cases hn : n = 0
  · rw [hm, hn]
  · rw [hm, numbered_zero, hl n hn] at h'
    exact absurd (List.self_eq_append_right.mp h') (decimal_toList_ne_nil n)
  · rw [hn, numbered_zero, hl m hm] at h'
    exact absurd (List.self_eq_append_right.mp h'.symm) (decimal_toList_ne_nil m)
  · rw [hl m hm, hl n hn] at h'
    exact Text.decimal_injective (String.toList_inj.mp (List.append_cancel_left h'))

/-! ## errors -/

inductive RenderError where
  | unrecorded (ident : Ident)
  deriving DecidableEq, Repr

def RenderError.message : RenderError → String
  | .unrecorded i =>
    "identifier " ++ i.text ++ " was emitted without being recorded as a reference"

/-! ## aliases -/

structure Aliases where
  ownPath : String
  /-- paths with their aliases, in the order of first reference -/
  entries : List (String × String)
  deriving DecidableEq, Repr

namespace Aliases

/-- names that no package may have in a generated file -/
def reserved : List String := Bound.all ++ Naming.predeclared

def assign (used : List String) : List String → List (String × String)
  | [] => []
  | path :: paths =>
    let chosen := freeAlias used (Naming.packageName path)
    (path, chosen) :: assign (chosen :: used) paths

def allocate (u : SourceUnit) : Aliases where
  ownPath := u.importPath
  entries := assign reserved u.importedPaths

theorem map_fst_assign (used paths : List String) : (assign used paths).map Prod.fst = paths := by
  induction paths generalizing used with
  | nil => rfl
  | cons p ps ih => simp [assign, ih]

/-- a bare name in the file's own package, otherwise the alias, a dot and the name -/
def qualify (a : Aliases) (i : Ident) : Except RenderError String :=
  if i.importPath = a.ownPath then .ok i.name
  else
    match a.entries.lookup i.importPath with
    | some name => .ok (name ++ "." ++ i.name)
    | none => .error (.unrecorded i)

def specs (a : Aliases) : List (String × String) := a.entries.mergeSort fun x y => x.1 ≤ y.1

end Aliases

end RpcAdapters
