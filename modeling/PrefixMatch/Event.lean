import PrefixMatch.Vocabulary.Format

/-!
# Event

What the library reports about its work: events with a level, a message and fields.  `Logged` is a
value together with the events that its computation emitted, in order.
-/

namespace PrefixMatch

/-- How severe an event is, the most severe first. -/
inductive Level where
  | error | warn | info | debug | trace
  deriving DecidableEq, Repr, Inhabited

namespace Level

/-- The rank of a level: the more severe, the smaller. -/
def rank : Level → Nat
  | .error => 1
  | .warn => 2
  | .info => 3
  | .debug => 4
  | .trace => 5

/-- The name of a level. -/
def name : Level → String
  | .error => "error"
  | .warn => "warn"
  | .info => "info"
  | .debug => "debug"
  | .trace => "trace"

/-- The level of a name, which is matched exactly. -/
def ofName? : String → Option Level
  | "error" => some .error
  | "warn" => some .warn
  | "info" => some .info
  | "debug" => some .debug
  | "trace" => some .trace
  | _ => none

theorem ofName?_name (l : Level) : ofName? l.name = some l := by
  cases l <;> rfl

end Level

/-- An event. -/
inductive Event where
  /-- A word was entered into a trie. -/
  | keyInserted (input : String) (isNew : Bool)
  /-- A trie was built from a list of words. -/
  | trieBuilt (keys : Nat)
  /-- The text of a vocabulary was turned into a trie. -/
  | vocabularyParsed (format : Format) (entries : Nat)
  /-- A vocabulary file was read. -/
  | vocabularyLoaded (path : String) (format : Format) (entries : Nat)
  /-- A configuration was loaded; `path` is the quoted path of its file. -/
  | configurationLoaded (path : String)
  /-- An error was reported. -/
  | errorReported (error component details : String)
  /-- A lookup found nothing. -/
  | noMatch (input : String)
  /-- Completions were printed, out of `total` ones. -/
  | completionsListed (input : String) (total : Nat)
  /-- The configuration was found valid. -/
  | configurationValid
  /-- The default configuration was written; `path` is the quoted path of the file. -/
  | configurationWritten (path : String)
  deriving DecidableEq, Repr

/-- The value of a field of an event. -/
inductive FieldValue where
  | text (s : String)
  | number (n : Nat)
  | flag (b : Bool)
  deriving DecidableEq, Repr

namespace Event

/-- The level of an event. -/
def level : Event → Level
  | .keyInserted .. => .trace
  | .trieBuilt .. | .vocabularyParsed .. | .configurationLoaded .. => .debug
  | .vocabularyLoaded .. | .noMatch .. | .completionsListed .. | .configurationValid
  | .configurationWritten .. => .info
  | .errorReported .. => .error

/-- The message of an event. -/
def message : Event → String
  | .keyInserted .. => "inserted key"
  | .trieBuilt .. => "built prefix trie"
  | .vocabularyParsed .. => "parsed vocabulary"
  | .vocabularyLoaded .. => "vocabulary loaded"
  | .configurationLoaded .. => "configuration loaded"
  | .errorReported .. => "Error reported"
  | .noMatch .. => "no prefix match"
  | .completionsListed .. => "completions listed"
  | .configurationValid => "Configuration validated successfully"
  | .configurationWritten path => "Default configuration written to " ++ path

/-- The fields of an event besides its message. -/
def fields : Event → List (String × FieldValue)
  | .keyInserted input isNew => [("input", .text input), ("is_new", .flag isNew)]
  | .trieBuilt keys => [("keys", .number keys)]
  | .vocabularyParsed format entries =>
    [("format", .text format.label), ("entries", .number entries)]
  | .vocabularyLoaded path format entries =>
    [("path", .text path), ("format", .text format.label), ("entries", .number entries)]
  | .configurationLoaded path => [("path", .text path)]
  | .errorReported error component details =>
    [("error", .text error), ("component", .text component), ("details", .text details)]
  | .noMatch input => [("input", .text input)]
  | .completionsListed input total => [("input", .text input), ("total", .number total)]
  | .configurationValid => []
  | .configurationWritten _ => []

/-- The part of the program that an event comes from. -/
def target : Event → String
  | .keyInserted .. | .trieBuilt .. => "niihau_lib::data_structures::prefix_trie"
  | .vocabularyParsed .. | .vocabularyLoaded .. => "niihau_lib::vocabulary"
  | .configurationLoaded .. => "niihau_lib::config"
  | .errorReported .. => "niihau_lib::error"
  | .noMatch .. | .completionsListed .. | .configurationValid | .configurationWritten .. => "niihau"

/-- Whether an event is at least as severe as a level. -/
def atLeast (limit : Level) (e : Event) : Bool :=
  decide (e.level.rank ≤ limit.rank)

end Event

/-- A value and the events emitted on the way to it. -/
structure Logged (α : Type) where
  value : α
  events : List Event := []
  deriving DecidableEq, Repr

namespace Logged

/-- Emits one event. -/
def emit (e : Event) : Logged Unit :=
  ⟨(), [e]⟩

instance : Monad Logged where
  pure a := ⟨a, []⟩
  bind x f := ⟨(f x.value).value, x.events ++ (f x.value).events⟩

@[simp] theorem value_pure {α : Type} (a : α) : (pure a : Logged α).value = a := rfl

@[simp] theorem events_pure {α : Type} (a : α) : (pure a : Logged α).events = [] := rfl

@[simp] theorem value_bind {α β : Type} (x : Logged α) (f : α → Logged β) :
    (x >>= f).value = (f x.value).value := rfl

@[simp] theorem events_bind {α β : Type} (x : Logged α) (f : α → Logged β) :
    (x >>= f).events = x.events ++ (f x.value).events := rfl

@[simp] theorem events_emit (e : Event) : (emit e).events = [e] := rfl

end Logged

end PrefixMatch
