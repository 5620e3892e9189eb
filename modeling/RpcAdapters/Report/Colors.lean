import RpcAdapters.Text.Decimal
import RpcAdapters.Text.Pieces

/-!
# Colours

* `ColorMode`, `ThemeMode`   what a user can ask for, by name: `ofName?`;
* `ColorMode.enabled`        whether colours are used, given whether the output is a terminal;
* `ThemeMode.theme`          the theme, given what the terminal says about its colours;
* `Colors.color tint`        the colour of a kind of text; no colour at all when they are off;
* `Colors.paint tint s`      `s` with the escape sequences that colour it.
-/

namespace RpcAdapters

inductive ColorMode where
  | always
  | auto
  | never
  deriving DecidableEq, Repr, Inhabited

inductive ThemeMode where
  | dark
  | light
  | auto
  deriving DecidableEq, Repr, Inhabited

inductive Theme where
  | dark
  | light
  deriving DecidableEq, Repr, Inhabited

def ColorMode.ofName? : String → Option ColorMode
  | "always" => some .always
  | "auto" => some .auto
  | "never" => some .never
  | _ => none

def ThemeMode.ofName? : String → Option ThemeMode
  | "dark" => some .dark
  | "light" => some .light
  | "auto" => some .auto
  | _ => none

def ColorMode.enabled (mode : ColorMode) (terminal : Bool) : Bool :=
  match mode with
  | .always => true
  | .auto => terminal
  | .never => false

/-! ## themes -/

/-- the value of decimal digits, if there are any and nothing else -/
def digitsValue? : List Char → Option Nat
  | [] => none
  | c :: cs =>
    if (c :: cs).all Char.isDigit then some (Nat.ofDigitChars 10 (c :: cs) 0) else none

/-- a decimal number of at most 255, perhaps with a `+` in front of it -/
def colorIndex? (cs : List Char) : Option Nat :=
  let digits := match cs with
    | '+' :: rest => rest
    | _ => cs
  (digitsValue? digits).bind fun n => if n ≤ 255 then some n else none

/-- the theme that suits the terminal's colours `foreground;background`; the background is a colour
index, of which those from 8 on are bright -/
def Theme.ofTerminal (colors : String) : Theme :=
  match colorIndex? (Text.lastPiece ';' colors.toList) with
  | some n => if 8 ≤ n then .light else .dark
  | none => .dark

def ThemeMode.theme (mode : ThemeMode) (terminalColors? : Option String) : Theme :=
  match mode with
  | .dark => .dark
  | .light => .light
  | .auto => (terminalColors?.map Theme.ofTerminal).getD .dark

/-! ## colours -/

inductive Color where
  | rgb (r g b : Nat)
  | reset
  deriving DecidableEq, Repr

/-- the kinds of text that have a colour of their own -/
inductive Tint where
  | timestamp
  | primary
  | accent
  | info
  | success
  | label
  | value
  deriving DecidableEq, Repr

def Tint.dark : Tint → Color
  | .timestamp => .rgb 118 166 166
  | .primary => .rgb 191 126 4
  | .accent => .rgb 166 84 55
  | .info => .rgb 118 166 166
  | .success => .rgb 118 166 166
  | .label => .rgb 217 164 4
  | .value => .rgb 242 211 56

def Tint.light : Tint → Color
  | .timestamp => .rgb 92 62 38
  | .primary => .rgb 70 42 25
  | .accent => .rgb 211 99 70
  | .info => .rgb 40 111 170
  | .success => .rgb 34 142 90
  | .label => .rgb 176 103 66
  | .value => .rgb 199 146 76

structure Colors where
  enabled : Bool := false
  theme : Theme := .dark
  deriving DecidableEq, Repr

namespace Colors

def color (c : Colors) (tint : Tint) : Color :=
  if c.enabled then
    match c.theme with
    | .dark => tint.dark
    | .light => tint.light
  else .reset

end Colors

namespace Color

/-- the escape sequence that ends a colour -/
def resetSequence : String := "\x1b[39m"

def sequence : Color → String
  | rgb r g b =>
    "\x1b[38;2;" ++ Text.decimal r ++ ";" ++ Text.decimal g ++ ";" ++ Text.decimal b ++ "m"
  | reset => resetSequence

def paint (c : Color) (text : String) : String := c.sequence ++ text ++ resetSequence

end Color

def Colors.paint (c : Colors) (tint : Tint) (text : String) : String := (c.color tint).paint text

end RpcAdapters
