import PrefixMatch.Cli.Arguments
import PrefixMatch.Config.Loader
import PrefixMatch.Config.Written
import PrefixMatch.Error.Report
import PrefixMatch.Vocabulary.Loader

/-!
# Cli — Run

A run of the program: from arguments, environment variables and files to an exit status, an output, the
events that are logged, and the files afterwards.  An error before logging starts is printed, any later
one is logged, and either way it is reported once.  A crash is no error: nothing reports it.
-/

namespace PrefixMatch.Cli

/-- The version of the program. -/
def version : String := "0.1.0"

/-- The name of the program. -/
def programName : String := "niihau"

/-- The exit status of a lookup that found nothing. -/
def noMatchStatus : Nat := 1

/-- The exit status after any error. -/
def errorStatus : Nat := 2

/-- The exit status after a crash. -/
def crashStatus : Nat := 101

/-- The variable that overrides the configured level. -/
def filterVariable : String := "RUST_LOG"

/-- What a command achieved. -/
structure Success where
  status : Nat := 0
  output : String := ""

/-- What a command came to, and the files afterwards. -/
structure Performed where
  result : Except Failure Success
  files : FileTree

/-- What a run leaves behind. -/
structure Outcome where
  status : Nat
  output : String := ""
  /-- What was printed on the console about an error or a crash. -/
  console : String := ""
  /-- How events are logged, once logging has started. -/
  log : Option LogSettings := none
  /-- The events that were logged. -/
  events : List Event := []
  files : FileTree

/-- A text as a line. -/
def line (s : String) : String :=
  s ++ "\n"

/-- The vocabulary file of an invocation. -/
def vocabularyPath? (i : Invocation) (c : Config) : Option String :=
  i.vocab.or c.vocabulary.path

/-- The vocabulary that an invocation asks for. -/
def loadTrie (lib : Libraries) (i : Invocation) (c : Config) (files : FileTree) :
    Logged (Except Failure Trie) :=
  match vocabularyPath? i c with
  | none =>
    pure (.error (.custom "No vocabulary given; use --vocab or set vocabulary.path"))
  | some path => do
    let loader := VocabularyLoader.ofConfig c
    let loader :=
      match i.format with
      | none => loader
      | some f => loader.withFormat f
    return (← loader.load lib files path).mapError Failure.vocabulary

/-- Answers under the trie of an invocation. -/
def onTrie (lib : Libraries) (i : Invocation) (c : Config) (files : FileTree)
    (answer : Trie → Logged Success) : Logged Performed := do
  match ← loadTrie lib i c files with
  | .error e => return ⟨.error e, files⟩
  | .ok t => return ⟨.ok (← answer t), files⟩

/-- Looks an input up. -/
def lookup (input : String) (t : Trie) : Logged Success :=
  match t.longestPrefixMatch input with
  | some found => pure { output := line found }
  | none => do
    Logged.emit (.noMatch input)
    return { status := noMatchStatus }

/-- The first entries of a list up to a limit, and all of them without one. -/
def upTo (limit : Option Nat) (found : List String) : List String :=
  match limit with
  | none => found
  | some n => found.take n

/-- Lists what an input resolves to, up to a limit. -/
def complete (input : String) (limit : Option Nat) (t : Trie) : Logged Success := do
  let found := t.matchCompletions input
  Logged.emit (.completionsListed input found.length)
  return { output := String.join ((upTo limit found).map line) }

/-- The files with the default configuration in one of them, in directories that are made as needed. -/
def writeDefault (output : String) (files : FileTree) : FileTree.Attempt :=
  let made := files.makeParents output
  match made.error with
  | some _ => made
  | none =>
    match made.files.write output ({} : Config).toToml.toUTF8 with
    | .error e => { made with error := some e }
    | .ok files => { files }

/-- Writes the default configuration to a file. -/
def genConfig (output : String) (files : FileTree) : Logged Performed :=
  let written := writeDefault output files
  match written.error with
  | some e => pure ⟨.error (.io e), written.files⟩
  | none => do
    Logged.emit (.configurationWritten (Text.quotedPath output))
    return ⟨.ok {}, written.files⟩

/-- Carries a command out. -/
def perform (lib : Libraries) (i : Invocation) (c : Config) (files : FileTree) : Logged Performed :=
  match i.command with
  | .lookup input => onTrie lib i c files (lookup input)
  | .complete input limit => onTrie lib i c files (complete input limit)
  | .validate => do
    Logged.emit .configurationValid
    return ⟨.ok { output := line "configuration is valid" }, files⟩
  | .genConfig output => genConfig output files

/-- The report of a failed command. -/
def reportOf (i : Invocation) (e : Failure) : Report :=
  ⟨e, programName, some ("command: " ++ i.command.name.text)⟩

/-- Which events a run logs: those that a variable asks for, or else those down to the configured level. -/
def filterOf (lib : Libraries) (c : Config) (env : Environment) : Event → Bool :=
  let configured := Event.atLeast ((Level.ofName? c.log.level).getD .error)
  match env.find? fun v => v.1 == filterVariable with
  | none => configured
  | some (_, s) => (lib.filter? s).getD configured

/-- The outcome of a report that was delivered, after earlier events. -/
def failed (log : Option LogSettings) (accepts : Event → Bool) (events : List Event)
    (files : FileTree) : Delivery → Outcome
  | .printed s => { status := errorStatus, console := s, log, events, files }
  | .emitted e => { status := errorStatus, log, events := events ++ [e].filter accepts, files }
  | .recorded .. => { status := errorStatus, log, events, files }

/-- Runs an invocation. -/
def runInvocation (lib : Libraries) (i : Invocation) (env : Environment) (files : FileTree) : Outcome :=
  let slots : Slots := {}
  let loader : ConfigLoader := ⟨i.config, Config.envName⟩
  match (loader.load lib files env).value with
  | .error .crash => { status := crashStatus, console := lib.crashText, files }
  | .error (.refused e) =>
    failed none (fun _ => false) [] files (slots.process.deliver (reportOf i (.config e)))
  | .ok c =>
    let accepts := filterOf lib c env
    let slots := (slots.step .process .init).1
    let performed := perform lib i c files
    let events := performed.events.filter accepts
    let files := performed.value.files
    match performed.value.result with
    | .error e => failed (some c.log) accepts events files (slots.process.deliver (reportOf i e))
    | .ok s => { status := s.status, output := s.output, log := some c.log, events, files }

/-- Runs the program. -/
def run (lib : Libraries) (args : List String) (env : Environment) (files : FileTree) : Outcome :=
  match parse args with
  | none => { status := errorStatus, files }
  | some .version => { status := 0, output := line (programName ++ " " ++ version), files }
  | some .help => { status := 0, files }
  | some (.run i) => runInvocation lib i env files

end PrefixMatch.Cli
