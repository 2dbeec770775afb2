import PrefixMatch.Number.Reading
import PrefixMatch.Vocabulary.Format

/-!
# Cli — Arguments

What a command line asks for.  Arguments are read from left to right; the first one that is wrong makes
the whole line wrong, unless the line asked for the version or for help before.  The options for the
configuration, the vocabulary and its format may stand before or after the command; after it they count
more.
-/

namespace PrefixMatch.Cli

/-- A command. -/
inductive Command where
  | lookup (input : String)
  | complete (input : String) (limit : Option Nat)
  | validate
  | genConfig (output : String)
  deriving DecidableEq, Repr

/-- What to do, with which configuration and vocabulary. -/
structure Invocation where
  config : Option String := none
  vocab : Option String := none
  format : Option Format := none
  command : Command
  deriving DecidableEq, Repr

/-- What a command line that is not wrong asks for. -/
inductive Request where
  | run (i : Invocation)
  | version
  | help
  deriving DecidableEq, Repr

/-- An option that takes a value. -/
inductive OptionName where
  | config
  | vocab
  | format
  | limit
  | output
  deriving DecidableEq, Repr

/-- The name of a command, as typed. -/
inductive CommandName where
  | lookup
  | complete
  | validate
  | genConfig
  deriving DecidableEq, Repr

namespace CommandName

/-- The typed form of a name. -/
def text : CommandName → String
  | .lookup => "lookup"
  | .complete => "complete"
  | .validate => "validate"
  | .genConfig => "gen-config"

/-- The name of a typed text, which is matched exactly. -/
def ofText? : String → Option CommandName
  | "lookup" => some .lookup
  | "complete" => some .complete
  | "validate" => some .validate
  | "gen-config" => some .genConfig
  | _ => none

/-- How many inputs a command takes. -/
def inputs : CommandName → Nat
  | .lookup | .complete => 1
  | .validate | .genConfig => 0

end CommandName

namespace Command

/-- The name of a command. -/
def name : Command → CommandName
  | .lookup _ => .lookup
  | .complete .. => .complete
  | .validate => .validate
  | .genConfig _ => .genConfig

end Command

/-- What an option stands for: one that takes a value, or a question that is answered at once. -/
inductive Switch where
  | valued (o : OptionName)
  | version
  | help
  deriving DecidableEq, Repr

/-- The options that only some commands have. -/
def ownSwitch? (command : Option CommandName) (long : String) : Option Switch :=
  match command, long with
  | some .complete, "limit" => some (.valued .limit)
  | some .genConfig, "output" => some (.valued .output)
  | none, "version" => some .version
  | _, _ => none

/-- The option with a long name, before a command or after one. -/
def longSwitch? (command : Option CommandName) (long : String) : Option Switch :=
  match long with
  | "config" => some (.valued .config)
  | "vocab" => some (.valued .vocab)
  | "format" => some (.valued .format)
  | "help" => some .help
  | _ => ownSwitch? command long

/-- The option with a short name, before a command or after one. -/
def shortSwitch? (command : Option CommandName) (short : Char) : Option Switch :=
  match short with
  | 'c' => longSwitch? command "config"
  | 'v' => longSwitch? command "vocab"
  | 'h' => longSwitch? command "help"
  | 'l' => longSwitch? command "limit"
  | 'o' => longSwitch? command "output"
  | 'V' => longSwitch? command "version"
  | _ => none

/-- The largest limit. -/
def maxLimit : Nat := UInt64.size - 1

/-- A limit: digits, which may follow a plus sign. -/
def readLimit? (s : String) : Option Nat :=
  let digits :=
    match s.toList with
    | '+' :: rest => rest
    | cs => cs
  if digits.isEmpty || !digits.all Char.isDigit then none
  else
    let n := Number.decimalValue digits
    if n ≤ maxLimit then some n else none

/-- Whether an option takes a text as its value. -/
def accepts (o : OptionName) (s : String) : Bool :=
  match o with
  | .config | .vocab | .output => !s.isEmpty
  | .format => (Format.ofName? s).isSome
  | .limit => (readLimit? s).isSome

/-- The values of options. -/
abbrev Values := List (OptionName × String)

/-- The value of an option. -/
def valueOf (o : OptionName) (values : Values) : Option String :=
  (values.find? fun v => v.1 == o).map Prod.snd

/-- A command line read in part. -/
structure Progress where
  /-- The values before the command. -/
  before : Values := []
  command : Option CommandName := none
  /-- The values after the command. -/
  after : Values := []
  /-- An option that still needs its value. -/
  pending : Option OptionName := none
  inputs : List String := []
  /-- Whether only inputs follow. -/
  inputsOnly : Bool := false
  deriving Repr

/-- Why reading ends before the last argument. -/
inductive Stop where
  | wrong
  | version
  | help
  deriving DecidableEq, Repr

namespace Progress

/-- Gives an option its value, which it may have once on each side of the command. -/
def setValue (p : Progress) (o : OptionName) (s : String) : Except Stop Progress :=
  let values := if p.command.isNone then p.before else p.after
  if !accepts o s || (valueOf o values).isSome then .error .wrong
  else if p.command.isNone then .ok { p with before := (o, s) :: p.before, pending := none }
  else .ok { p with after := (o, s) :: p.after, pending := none }

/-- An option with a long name, and perhaps its value after an equals sign. -/
def takeLong (p : Progress) (cs : List Char) : Except Stop Progress :=
  let name := String.ofList (cs.takeWhile (· ≠ '='))
  match longSwitch? p.command name, cs.dropWhile (· ≠ '=') with
  | some (.valued o), [] => .ok { p with pending := some o }
  | some (.valued o), _ :: value => p.setValue o (String.ofList value)
  | some .version, [] => .error .version
  | some .help, [] => .error .help
  | _, _ => .error .wrong

/-- An option with a short name, and perhaps its value directly after it. -/
def takeShort (p : Progress) (short : Char) (rest : List Char) : Except Stop Progress :=
  match shortSwitch? p.command short, rest with
  | some (.valued o), [] => .ok { p with pending := some o }
  | some (.valued o), '=' :: value => p.setValue o (String.ofList value)
  | some (.valued o), value => p.setValue o (String.ofList value)
  | some .version, _ => .error .version
  | some .help, _ => .error .help
  | none, _ => .error .wrong

/-- An argument that is no option: the command, or an input of it. -/
def takeWord (p : Progress) (s : String) : Except Stop Progress :=
  match p.command with
  | none =>
    if p.inputsOnly then .error .wrong
    else if s = "help" then .error .help
    else
      match CommandName.ofText? s with
      | none => .error .wrong
      | some c => .ok { p with command := some c }
  | some c =>
    if p.inputs.length < c.inputs then .ok { p with inputs := p.inputs ++ [s] } else .error .wrong

/-- Reads one more argument. -/
def take (p : Progress) (s : String) : Except Stop Progress :=
  if p.inputsOnly then p.takeWord s
  else
    match p.pending, s.toList with
    | some _, '-' :: _ :: _ => .error .wrong
    | some o, _ => p.setValue o s
    | none, ['-', '-'] => .ok { p with inputsOnly := true }
    | none, '-' :: '-' :: name => p.takeLong name
    | none, '-' :: short :: rest => p.takeShort short rest
    | none, _ => p.takeWord s

/-- The command that the arguments make up, if nothing is missing. -/
def command? (p : Progress) : Option Command := do
  match ← p.command with
  | .lookup => return .lookup (← p.inputs.head?)
  | .complete =>
    let limit := (valueOf .limit p.after).bind readLimit?
    return .complete (← p.inputs.head?) limit
  | .validate => return .validate
  | .genConfig => return .genConfig (← valueOf .output p.after)

/-- What the arguments ask for, if nothing is missing. -/
def finish (p : Progress) : Except Stop Request :=
  let shared := fun (o : OptionName) => (valueOf o p.after).or (valueOf o p.before)
  match p.pending, p.command? with
  | none, some command =>
    .ok (.run ⟨shared .config, shared .vocab, (shared .format).bind Format.ofName?, command⟩)
  | _, _ => .error .wrong

end Progress

/-- What a command line asks for; `none` when it is wrong. -/
def parse (args : List String) : Option Request :=
  match args.foldlM Progress.take {} >>= Progress.finish with
  | .ok r => some r
  | .error .version => some .version
  | .error .help => some .help
  | .error .wrong => none

end PrefixMatch.Cli
