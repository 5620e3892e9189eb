import RpcAdapters.Report.Colors

/-!
# Command lines

* `Command`             what the program can be asked to do;
* `Invocation`          a command with the settings that go with every command;
* `Level`               where a word on the command line stands: the program itself, its commands and the
                        group `list`; each level has commands and options of its own;
* `ValueOption`, `Switch`   the options that take a value, and those that do not;
* `Stop`                why there is nothing to run, with its wording `message`.
-/

namespace RpcAdapters

inductive Command where
  /-- answers a schema compiler on the standard streams -/
  | exchange
  | generate (descriptorSet param : String) (files : List String) (output : String)
  | listServices (descriptorSet param : String)
  deriving DecidableEq, Repr, Inhabited

structure Invocation where
  command : Command := .exchange
  color : ColorMode := .auto
  theme : ThemeMode := .auto
  verbose : Bool := false
  quiet : Bool := false
  deriving DecidableEq, Repr, Inhabited

namespace CommandLine

/-! ## options -/

inductive ValueOption where
  | color
  | theme
  | descriptorSet
  | param
  | file
  | output
  deriving DecidableEq, Repr

inductive Switch where
  | verbose
  | quiet
  | help
  | version
  deriving DecidableEq, Repr

inductive Opt where
  | value (o : ValueOption)
  | switch (s : Switch)
  deriving DecidableEq, Repr

def ValueOption.longName : ValueOption → String
  | color => "color"
  | theme => "theme"
  | descriptorSet => "descriptor-set"
  | param => "param"
  | file => "file"
  | output => "output"

def ValueOption.shortName? : ValueOption → Option Char
  | color => none
  | theme => none
  | descriptorSet => some 'd'
  | param => some 'p'
  | file => some 'f'
  | output => some 'o'

def Switch.longName : Switch → String
  | verbose => "verbose"
  | quiet => "quiet"
  | help => "help"
  | version => "version"

def Switch.shortName : Switch → Char
  | verbose => 'v'
  | quiet => 'q'
  | help => 'h'
  | version => 'V'

def Opt.longName : Opt → String
  | value o => o.longName
  | switch s => s.longName

def Opt.shortName? : Opt → Option Char
  | value o => o.shortName?
  | switch s => some s.shortName

/-! ## levels -/

inductive Level where
  | program
  | generate
  | list
  | services
  | help
  deriving DecidableEq, Repr

namespace Level

/-- the words that lead to a further level -/
def commands : Level → List (String × Level)
  | program => [("generate", generate), ("list", list), ("help", help)]
  | list => [("services", services), ("help", help)]
  | generate => []
  | services => []
  | help => []

def command? (l : Level) (word : String) : Option Level := l.commands.lookup word

/-- the options of every level -/
def commonOptions : List Opt :=
  [.value .color, .value .theme, .switch .verbose, .switch .quiet, .switch .help]

def options : Level → List Opt
  | program => commonOptions ++ [.switch .version]
  | generate =>
    commonOptions ++ [.value .descriptorSet, .value .param, .value .file, .value .output]
  | list => commonOptions
  | services => commonOptions ++ [.value .descriptorSet, .value .param]
  | help => []

def long? (l : Level) (name : String) : Option Opt := l.options.find? fun o => o.longName = name

def short? (l : Level) (c : Char) : Option Opt := l.options.find? fun o => o.shortName? = some c

end Level

/-! ## stopping -/

inductive Stop where
  | missingValue (o : ValueOption)
  | badValue (o : ValueOption) (value : String)
  | valueForSwitch (s : Switch)
  | repeatedValue (o : ValueOption)
  | repeatedSwitch (s : Switch)
  | unknownArgument (word : String)
  | unknownCommand (word : String)
  | missingOptions (os : List ValueOption)
  | missingCommand
  /-- nothing but the name of a group of commands -/
  | bareGroup
  /-- help on a level was asked for -/
  | help (l : Level)
  | version
  deriving DecidableEq, Repr

def flagText (name : String) : String := "--" ++ name

def Level.title : Level → String
  | program => "the program"
  | generate => "generate"
  | list => "list"
  | services => "list services"
  | help => "help"

/-- what can follow a level, one line for each word -/
def Level.usage (l : Level) : String :=
  "Usage of " ++ l.title ++ ":\n"
    ++ String.join (l.commands.map fun c => "  " ++ c.1 ++ "\n")
    ++ String.join (l.options.map fun o => "  " ++ flagText o.longName ++ "\n")

def Stop.message : Stop → String
  | missingValue o => "a value is required for '" ++ flagText o.longName ++ "'"
  | badValue o value => "invalid value '" ++ value ++ "' for '" ++ flagText o.longName ++ "'"
  | valueForSwitch s => "'" ++ flagText s.longName ++ "' takes no value"
  | repeatedValue o => "'" ++ flagText o.longName ++ "' cannot be given more than once"
  | repeatedSwitch s => "'" ++ flagText s.longName ++ "' cannot be given more than once"
  | unknownArgument word => "unexpected argument '" ++ word ++ "'"
  | unknownCommand word => "unrecognized command '" ++ word ++ "'"
  | missingOptions os =>
    "required: " ++ String.intercalate ", " (os.map fun o => flagText o.longName)
  | missingCommand => "a command is required"
  | bareGroup => Level.list.usage
  | help l => l.usage
  | version => ""

/-- whether what was asked for is there to read, rather than an error -/
def Stop.isAnswer : Stop → Bool
  | help _ => true
  | version => true
  | _ => false

end CommandLine

end RpcAdapters
