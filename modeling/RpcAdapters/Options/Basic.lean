import RpcAdapters.Layout
import RpcAdapters.Overrides
import RpcAdapters.Roots
import RpcAdapters.Text.Blank

/-!
# Options

A parameter text holds `KEY=VALUE` entries between commas, with white space around them.

* `Setting`           one entry, read: `Setting.ofEntry`;
* `Draft`             the options seen so far, a later setting replacing an earlier one of its key;
* `Options.parse`     the options of a parameter text; the three roots have to be there;
* `OptionsError`      why a text gives no options, with its wording `message`.
-/

namespace RpcAdapters

/-- the application package that a root setting is about -/
inductive RootKey where
  | domain
  | useCase
  | transform
  deriving DecidableEq, Repr

def RootKey.text : RootKey → String
  | .domain => "domainPath"
  | .useCase => "useCasePath"
  | .transform => "dtsPath"

structure Options where
  roots : Roots
  layout : Layout := {}
  overrides : Overrides := .empty
  verbose : Bool := false

/-! ## errors -/

inductive OptionsError where
  | notKeyValue (entry : String)
  | badPlacement (value : String)
  | badVerbose (value : String)
  | unknownKey (key : String)
  | emptyRoot (key : RootKey)
  | missingRoot (key : RootKey)
  deriving DecidableEq, Repr

def OptionsError.message : OptionsError → String
  | .notKeyValue entry => "invalid parameter '" ++ entry ++ "': expected KEY=VALUE"
  | .badPlacement value =>
    "invalid value '" ++ value ++
      "' for parameter 'paths': expected 'import' or 'source_relative'"
  | .badVerbose value =>
    "invalid value '" ++ value ++ "' for parameter 'verbose': expected true or false"
  | .unknownKey key => "unknown parameter '" ++ key ++ "'"
  | .emptyRoot key => "parameter '" ++ key.text ++ "' must not be empty"
  | .missingRoot key => "missing required parameter '" ++ key.text ++ "'"

/-! ## settings -/

inductive Setting where
  | root (key : RootKey) (path : String)
  | placement (p : Placement)
  | modulePrefix (path : String)
  | verbose (on : Bool)
  | override (file path : String)
  deriving DecidableEq, Repr

namespace Setting

def ofPlacement (value : String) : Except OptionsError Setting :=
  match value with
  | "source_relative" => .ok (.placement .sourceRelative)
  | "import" => .ok (.placement .importPath)
  | _ => .error (.badPlacement value)

def ofVerbose (value : String) : Except OptionsError Setting :=
  match value with
  | "true" => .ok (.verbose true)
  | "false" => .ok (.verbose false)
  | _ => .error (.badVerbose value)

/-- a key of its own: `M` and the name of a schema file -/
def overriddenFile? (key : String) : Option String :=
  match key.toList with
  | 'M' :: c :: cs => some (String.ofList (c :: cs))
  | _ => none

def ofKeyValue (key value : String) : Except OptionsError Setting :=
  match key with
  | "domainPath" => .ok (.root .domain value)
  | "useCasePath" => .ok (.root .useCase value)
  | "dtsPath" => .ok (.root .transform value)
  | "paths" => ofPlacement value
  | "module" => .ok (.modulePrefix value)
  | "verbose" => ofVerbose value
  | _ =>
    match overriddenFile? key with
    | some file => .ok (.override file value)
    | none => .error (.unknownKey key)

def ofEntry (entry : List Char) : Except OptionsError Setting :=
  match Text.splitFirst '=' entry with
  | some (key, value) => ofKeyValue (String.ofList key) (String.ofList value)
  | none => .error (.notKeyValue (String.ofList entry))

end Setting

/-! ## drafts -/

structure Draft where
  domain? : Option String := none
  useCase? : Option String := none
  transform? : Option String := none
  layout : Layout := {}
  overrides : Overrides := .empty
  verbose : Bool := false

namespace Draft

def apply (d : Draft) : Setting → Draft
  | .root .domain path => { d with domain? := some path }
  | .root .useCase path => { d with useCase? := some path }
  | .root .transform path => { d with transform? := some path }
  | .placement p => { d with layout := { d.layout with placement := p } }
  | .modulePrefix path => { d with layout := { d.layout with modulePrefix? := some path } }
  | .verbose on => { d with verbose := on }
  | .override file path => { d with overrides := d.overrides.set file path }

def required (key : RootKey) : Option String → Except OptionsError String
  | none => .error (.missingRoot key)
  | some path => if path = "" then .error (.emptyRoot key) else .ok path

def finish (d : Draft) : Except OptionsError Options := do
  let domain ← required .domain d.domain?
  let useCase ← required .useCase d.useCase?
  let transform ← required .transform d.transform?
  return {
    roots := { domain, useCase, transform }
    layout := d.layout
    overrides := d.overrides
    verbose := d.verbose }

end Draft

/-! ## parameter texts -/

/-- the entries of a parameter text: what stands between commas, trimmed, if anything is left -/
def parameterEntries (parameter : List Char) : List (List Char) :=
  ((Text.splitAll ',' parameter).map Text.trim).filter (· ≠ [])

def Options.parse (parameter : String) : Except OptionsError Options := do
  let settings ← (parameterEntries parameter.toList).mapM Setting.ofEntry
  (settings.foldl Draft.apply {}).finish

end RpcAdapters
