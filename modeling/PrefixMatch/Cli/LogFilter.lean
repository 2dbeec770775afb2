import PrefixMatch.Fields
import PrefixMatch.Libraries
import PrefixMatch.Text.Classes
import PrefixMatch.Text.Lines

/-!
# Cli — Log filter

Which events are logged.  A filter is a list of directives, each for the events of some part of the
program and down to some level; the one for the smallest part counts.  A filter is written with commas,
as in `info,niihau_lib::vocabulary=debug`.  With this reading of filters the program has its libraries
(`libraries`).
-/

namespace PrefixMatch.Cli

/-- A directive: down to which level the events of a part are logged. -/
structure LogDirective where
  /-- The start of the targets that are meant; all of them when empty. -/
  target : String := ""
  /-- The fields that events must have to be meant. -/
  fields : List String := []
  /-- The rank of the last level that is logged; zero for none. -/
  rank : Nat
  deriving DecidableEq, Repr

/-- A filter. -/
abbrev LogFilter := List LogDirective

/-- The rank of a level by its name in any case. -/
def rankOfName? (s : String) : Option Nat :=
  match String.ofList (s.toList.map Char.toLower) with
  | "off" => some 0
  | "error" => some 1
  | "warn" => some 2
  | "info" => some 3
  | "debug" => some 4
  | "trace" => some 5
  | _ => none

/-- The rank of a level by its name or by its number, which may follow a plus sign. -/
def readRank? (cs : List Char) : Option Nat :=
  let digits :=
    match cs with
    | '+' :: rest => rest
    | cs => cs
  if digits.isEmpty || !digits.all Char.isDigit then rankOfName? (String.ofList cs)
  else
    let n := Number.decimalValue digits
    if n ≤ Level.trace.rank then some n else none

namespace LogDirective

/-- The characters that a target may start with. -/
def startsTarget (c : Char) : Bool :=
  Text.isAlphanumeric c || c == '_' || c == ':' || c == '-'

/-- Whether a character ends a target. -/
def endsTarget (c : Char) : Bool :=
  c == '=' || c == '['

/-- The level after an equals sign; everything is logged when it is missing. -/
def levelAfter? (cs : List Char) : Option Nat :=
  if cs.isEmpty then some Level.trace.rank else readRank? cs

/-- The level after a span or a field in brackets, if there is one. -/
def levelAtEnd? (cs : List Char) : Option Nat :=
  match cs with
  | '=' :: level => levelAfter? level
  | cs => if cs.all Text.isWhite then some Level.trace.rank else none

/-- Whether a text is a pattern for values: no repetition stands where there is nothing to repeat, and every
parenthesis and bracket is closed.  `operand` tells whether there is something to repeat, and `depth` how many
parentheses are open. -/
def isPattern (operand : Bool) (depth : Nat) : List Char → Bool
  | [] => depth == 0
  | '(' :: cs => isPattern false (depth + 1) cs
  | ')' :: cs => decide (0 < depth) && isPattern true (depth - 1) cs
  | '|' :: cs => isPattern false depth cs
  | '\\' :: _ :: cs => isPattern true depth cs
  | c :: cs =>
    if c == '*' || c == '+' || c == '?' then operand && isPattern true depth cs
    else if c == '[' then cs.contains ']' && isPattern true depth cs
    else c != '\\' && c != '\x7b' && isPattern true depth cs

/-- Whether a field between braces is one: a name, and behind an equals sign perhaps a number or a pattern for
the value. -/
def isField (field : List Char) : Bool :=
  match field.dropWhile (· != '=') with
  | [] => true
  | _ :: rest =>
    let value := rest.takeWhile (· != '=')
    (Number.readDouble? value).isSome || isPattern false 0 value

/-- The directive after an opening bracket: for a span, or for a field between braces.  No event lies in a
span, and no span has a field with a value, so that such a directive gives `some none`. -/
def inBrackets? (target : List Char) (cs : List Char) : Option (Option LogDirective) :=
  let inName := fun (c : Char) => c != ']' && c != '\x7b'
  let span := cs.takeWhile inName
  match cs.dropWhile inName with
  | ']' :: rest => (levelAtEnd? rest).map fun _ => none
  | '\x7b' :: rest =>
    let field := rest.takeWhile (· != '\x7d')
    match rest.dropWhile (· != '\x7d') with
    | '\x7d' :: ']' :: rest =>
      if field.isEmpty || !isField field then none
      else
        (levelAtEnd? rest).map fun rank =>
          if span.isEmpty && !field.contains '=' then
            some ⟨String.ofList target, [String.ofList field], rank⟩
          else none
    | _ => none
  | _ => none

/-- Reads a directive: a level, or a target with a level after an equals sign, everything being logged
when the level is missing; a span or a field may stand behind the target or in its place.  A blank at the
start belongs to the target, and no level may follow then. -/
def read? (cs : List Char) : Option (Option LogDirective) :=
  let blanks := cs.takeWhile Text.isWhite
  match cs.dropWhile Text.isWhite with
  | [] => none
  | '[' :: rest => inBrackets? blanks rest
  | c :: rest =>
    if !startsTarget c then none
    else
      let target := blanks ++ c :: rest.takeWhile fun c => !endsTarget c
      match rest.dropWhile fun c => !endsTarget c with
      | '=' :: level =>
        if blanks.isEmpty then
          (levelAfter? level).map fun rank => some { target := String.ofList target, rank }
        else none
      | '[' :: rest => inBrackets? target rest
      | _ =>
        match readRank? cs with
        | some rank => some (some { rank })
        | none => some (some { target := String.ofList cs, rank := Level.trace.rank })

/-- Whether a directive is meant for an event. -/
def covers (d : LogDirective) (e : Event) : Bool :=
  d.target.toList.isPrefixOf e.target.toList &&
    d.fields.all fun field => field == "message" || Fields.has field e.fields

/-- How small the part is that a directive is meant for, against that of another one.  Of two with targets
of one length and as many fields, the one that comes later in the order of texts counts as smaller. -/
def comparePart (d other : LogDirective) : Ordering :=
  (compare d.target.utf8ByteSize other.target.utf8ByteSize).then <|
    (compare d.fields.length other.fields.length).then <|
      (compare d.target other.target).then (compare d.fields other.fields)

end LogDirective

namespace LogFilter

/-- The filter that logs errors only. -/
def errorsOnly : LogFilter :=
  [{ rank := Level.error.rank }]

/-- Reads a filter; one without directives logs errors only. -/
def read? (s : String) : Option LogFilter := do
  let parts := (Text.split ',' s.toList).filter fun part => !part.isEmpty
  let directives ← parts.mapM LogDirective.read?
  if directives.isEmpty then return errorsOnly else return directives.filterMap id

/-- The directive for an event: the one for the smallest part, and of several for one part the last. -/
def directiveFor? (f : LogFilter) (e : Event) : Option LogDirective :=
  (f.filter fun d => d.covers e).foldl
    (fun best d =>
      match best with
      | none => some d
      | some b => if b.comparePart d == .gt then some b else some d)
    none

/-- Whether an event is logged. -/
def accepts (f : LogFilter) (e : Event) : Bool :=
  match f.directiveFor? e with
  | none => false
  | some d => decide (e.level.rank ≤ d.rank)

end LogFilter

/-- The libraries of the program. -/
def libraries : Libraries :=
  { Libraries.plain with filter? := fun s => (LogFilter.read? s).map LogFilter.accepts }

end PrefixMatch.Cli
