import RpcAdapters.CommandLine.Basic
import RpcAdapters.Text.Pieces

/-!
# Reading command lines

Words are read from left to right.  A word that names a command leads to the level of that command, where
the rest is read; every other word is an option, or the value of the option before it.  A value that
stands in a word of its own is looked at when the next option or the end of the level is reached.

* `Given`              what has been given at one level;
* `Progress`           the same, with an option that waits for its value or whose value is not settled yet;
* `read level p words` the command, and what was given at each level on the way to it;
* `Invocation.ofWords` the invocation that the words of a command line ask for.
-/

namespace RpcAdapters.CommandLine

/-! ## what is given -/

structure Given where
  color? : Option ColorMode := none
  theme? : Option ThemeMode := none
  verbose : Bool := false
  quiet : Bool := false
  descriptorSet? : Option String := none
  param? : Option String := none
  files : List String := []
  output? : Option String := none
  deriving DecidableEq, Repr, Inhabited

namespace Given

/-- whether an option has got all that it can take -/
def isFull (g : Given) : ValueOption → Bool
  | .color => g.color?.isSome
  | .theme => g.theme?.isSome
  | .descriptorSet => g.descriptorSet?.isSome
  | .param => g.param?.isSome
  | .file => false
  | .output => g.output?.isSome

/-- with the value of an option, if it is one that the option can have -/
def set? (g : Given) (value : String) : ValueOption → Option Given
  | .color => (ColorMode.ofName? value).map fun m => { g with color? := some m }
  | .theme => (ThemeMode.ofName? value).map fun m => { g with theme? := some m }
  | .descriptorSet => if value = "" then none else some { g with descriptorSet? := some value }
  | .param => some { g with param? := some value }
  | .file => some { g with files := g.files ++ [value] }
  | .output => if value = "" then none else some { g with output? := some value }

def accept (g : Given) (o : ValueOption) (value : String) : Except Stop Given :=
  if g.isFull o then .error (.repeatedValue o)
  else
    match g.set? value o with
    | some g => .ok g
    | none => .error (.badValue o value)

def turnOn (g : Given) (l : Level) : Switch → Except Stop Given
  | .verbose => if g.verbose then .error (.repeatedSwitch .verbose) else .ok { g with verbose := true }
  | .quiet => if g.quiet then .error (.repeatedSwitch .quiet) else .ok { g with quiet := true }
  | .help => .error (.help l)
  | .version => .error .version

/-- what one of the required options is missing for -/
def missing (g : Given) : List ValueOption :=
  [.descriptorSet, .param].filter fun o => !g.isFull o

/-- the command that a level stands for when nothing follows -/
def command (g : Given) : Level → Except Stop Command
  | .program => .ok .exchange
  | .generate =>
    match g.descriptorSet?, g.param? with
    | some set, some param => .ok (.generate set param g.files (g.output?.getD "."))
    | _, _ => .error (.missingOptions g.missing)
  | .services =>
    match g.descriptorSet?, g.param? with
    | some set, some param => .ok (.listServices set param)
    | _, _ => .error (.missingOptions g.missing)
  | .list => .error (if g = {} then .bareGroup else .missingCommand)
  | .help => .error (.help .program)

end Given

/-! ## one word after the other -/

structure Pending where
  option : ValueOption
  /-- nothing yet, or a value that nobody has looked at -/
  value? : Option String := none
  deriving DecidableEq, Repr

structure Progress where
  given : Given := {}
  pending? : Option Pending := none
  deriving DecidableEq, Repr, Inhabited

namespace Progress

/-- the option that the next word can be the value of -/
def awaited? (p : Progress) : Option ValueOption :=
  p.pending?.bind fun w => if w.value?.isNone then some w.option else none

def settle (p : Progress) : Except Stop Given :=
  match p.pending? with
  | none => .ok p.given
  | some ⟨o, some value⟩ => p.given.accept o value
  | some ⟨o, none⟩ => .error (.missingValue o)

/-- one more option, whose value may be attached to it -/
def option (p : Progress) (o : ValueOption) (attached? : Option (List Char)) :
    Except Stop Progress := do
  let given ← p.settle
  match attached? with
  | some value => return { given := ← given.accept o (String.ofList value) }
  | none => return { given, pending? := some { option := o } }

def switch (p : Progress) (l : Level) (s : Switch) : Except Stop Progress := do
  let given ← p.settle
  return { given := ← given.turnOn l s }

/-- `--name` or `--name=value` -/
def long (p : Progress) (l : Level) (text : List Char) : Except Stop Progress :=
  let (name, attached?) := match Text.splitFirst '=' text with
    | some (name, value) => (name, some value)
    | none => (text, none)
  match l.long? (String.ofList name), attached? with
  | none, _ => .error (.unknownArgument (flagText (String.ofList name)))
  | some (.value o), _ => p.option o attached?
  | some (.switch s), none => p.switch l s
  | some (.switch s), some _ => .error (.valueForSwitch s)

/-- what follows an option of one character in the same word -/
def attachment? : List Char → Option (List Char)
  | [] => none
  | '=' :: value => some value
  | value => some value

/-- options of one character each; the first that takes a value takes the rest -/
def cluster (p : Progress) (l : Level) : List Char → Except Stop Progress
  | [] => .ok p
  | c :: cs =>
    match l.short? c with
    | none => .error (.unknownArgument (String.ofList ['-', c]))
    | some (.value o) => p.option o (attachment? cs)
    | some (.switch s) => do
      let p ← p.switch l s
      p.cluster l cs

/-- a word that no option takes -/
def surplus (l : Level) (word : String) : Stop :=
  if l.commands.isEmpty then .unknownArgument word else .unknownCommand word

def plain (p : Progress) (l : Level) (word : String) : Except Stop Progress :=
  match p.awaited? with
  | some o => .ok { p with pending? := some ⟨o, some word⟩ }
  | none => .error (surplus l word)

def next (p : Progress) (l : Level) (word : String) : Except Stop Progress :=
  match word.toList with
  | '-' :: '-' :: text => p.long l text
  | '-' :: c :: cs => p.cluster l (c :: cs)
  | _ => p.plain l word

/-- the level that a word leads to; a word that can be a value leads nowhere -/
def enter? (p : Progress) (l : Level) (word : String) : Option Level :=
  if p.awaited?.isSome then none else l.command? word

end Progress

/-! ## whole command lines -/

/-- the answer to a call for help, with the words that say on what -/
def helpOn (l : Level) : List String → Stop
  | [] => .help l
  | word :: words =>
    match l.command? word with
    | some sub => helpOn sub words
    | none => .unknownCommand word

/-- `--` lets nothing but plain words follow, and there is no place for one -/
def afterDashes (l : Level) (word : String) : Stop :=
  if (l.command? word).isSome then .unknownArgument word else Progress.surplus l word

def finish (l : Level) (p : Progress) : Except Stop (Command × List Given) := do
  let given ← p.settle
  return (← given.command l, [given])

def read (l : Level) (p : Progress) : List String → Except Stop (Command × List Given)
  | [] => finish l p
  | word :: words =>
    match p.enter? l word with
    | some .help => .error (helpOn l words)
    | some sub => do
      let (command, below) ← read sub {} words
      return (command, (← p.settle) :: below)
    | none =>
      if word = "--" then
        match words with
        | [] => finish l p
        | word :: _ => .error (afterDashes l word)
      else do
        let p ← p.next l word
        read l p words

end RpcAdapters.CommandLine

namespace RpcAdapters

open CommandLine

/-- where an option is given at several levels, the last of them counts -/
def Invocation.ofWords (words : List String) : Except Stop Invocation := do
  let (command, givens) ← read .program {} words
  let inwards := givens.reverse
  return {
    command
    color := (inwards.findSome? Given.color?).getD .auto
    theme := (inwards.findSome? Given.theme?).getD .auto
    verbose := givens.any Given.verbose
    quiet := givens.any Given.quiet }

end RpcAdapters
