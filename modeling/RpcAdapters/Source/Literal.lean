/-!
# Go string literals

An interpreted string literal stands between double quotes; `\` escapes a quote, a backslash, a line
break and a tab.

* `literal s`           the literal that denotes `s`;
* `readLiteral? cs`     what the literal at the start of `cs` denotes, and what comes after it;
* `readBody?_escape`    reading undoes writing, whatever follows the closing quote.
-/

namespace RpcAdapters.Source

def escapeChar (c : Char) : List Char :=
  if c = '"' then ['\\', '"']
  else if c = '\\' then ['\\', '\\']
  else if c = '\n' then ['\\', 'n']
  else if c = '\t' then ['\\', 't']
  else [c]

def escape (cs : List Char) : List Char := cs.flatMap escapeChar

def literalChars (cs : List Char) : List Char := '"' :: (escape cs ++ ['"'])

def literal (s : String) : String := String.ofList (literalChars s.toList)

/-! ## reading -/

/-- the character that a backslash and `c` denote -/
def unescapeChar? (c : Char) : Option Char :=
  if c = '"' then some '"'
  else if c = '\\' then some '\\'
  else if c = 'n' then some '\n'
  else if c = 't' then some '\t'
  else none

/-- what comes before the first quote that is not escaped, and what comes after it -/
def readBody? : List Char → Option (List Char × List Char)
  | [] => none
  | '"' :: rest => some ([], rest)
  | '\\' :: c :: rest =>
    match unescapeChar? c with
    | some d => (readBody? rest).map fun p => (d :: p.1, p.2)
    | none => none
  | c :: rest => if c = '\\' then none else (readBody? rest).map fun p => (c :: p.1, p.2)

def readLiteral? : List Char → Option (List Char × List Char)
  | '"' :: rest => readBody? rest
  | _ => none

theorem readBody?_escape (cs rest : List Char) :
    readBody? (escape cs ++ '"' :: rest) = some (cs, rest) := by
  induction cs with
  | nil => rfl
  | cons c cs ih =>
    simp only [escape, List.flatMap_cons, List.append_assoc] at ih ⊢
    by_cases h1 : c = '"'
    · subst h1; simp [escapeChar, readBody?, unescapeChar?, ih]
    by_cases h2 : c = '\\'
    · subst h2; simp [escapeChar, readBody?, unescapeChar?, ih]
    by_cases h3 : c = '\n'
    · subst h3; simp [escapeChar, readBody?, unescapeChar?, ih]
    by_cases h4 : c = '\t'
    · subst h4; simp [escapeChar, readBody?, unescapeChar?, ih]
    simp [escapeChar, h1, h2, h3, h4, readBody?, ih]

end RpcAdapters.Source
