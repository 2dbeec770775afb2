import PrefixMatch.Number.Reading

/-!
# Layer — Key path

A key at the top of a layer may be a path: a name, then names after dots and indices in brackets.  A key
that does not follow this form names itself as a whole.
-/

namespace PrefixMatch

/-- A step below the first name of a key path. -/
inductive KeyStep where
  | child (name : String)
  | index (n : Int)
  deriving DecidableEq, Repr

/-- A key path. -/
structure KeyPath where
  name : String
  steps : List KeyStep := []
  deriving DecidableEq, Repr

namespace KeyPath

/-- The characters of names in key paths. -/
def inName (c : Char) : Bool :=
  c.isAlphanum || c == ' ' || c == '_' || c == '-'

/-- A name, and what follows it. -/
def name? (cs : List Char) : Option (String × List Char) :=
  match cs.takeWhile inName with
  | [] => none
  | name => some (String.ofList name, cs.dropWhile inName)

/-- The blanks that may stand around an index. -/
def isSpace (c : Char) : Bool :=
  c == ' ' || c == '\t'

/-- An index after its opening bracket, and what follows its closing one. -/
def index? (cs : List Char) : Option (Int × List Char) := do
  let cs := cs.dropWhile isSpace
  let (negative, unsigned) :=
    match cs with
    | '-' :: rest => (true, rest)
    | rest => (false, rest)
  let digits := unsigned.takeWhile Char.isDigit
  if digits.isEmpty then failure
  let n : Int := Number.decimalValue digits
  let n := if negative then -n else n
  if !Number.fitsInt64 n then failure
  match (unsigned.dropWhile Char.isDigit).dropWhile isSpace with
  | ']' :: rest => return (n, rest)
  | _ => failure

/-- All steps of a text; `fuel` bounds their number. -/
def steps? : Nat → List Char → Option (List KeyStep)
  | _, [] => some []
  | 0, _ => none
  | fuel + 1, '.' :: cs => do
    let (name, rest) ← name? cs
    let steps ← steps? fuel rest
    return .child name :: steps
  | fuel + 1, '[' :: cs => do
    let (n, rest) ← index? cs
    let steps ← steps? fuel rest
    return .index n :: steps
  | _ + 1, _ => none

/-- The path that a key spells, if it has the form of one. -/
def read? (key : String) : Option KeyPath := do
  let (name, rest) ← name? key.toList
  let steps ← steps? rest.length rest
  return ⟨name, steps⟩

/-- The path that a key stands for. -/
def ofKey (key : String) : KeyPath :=
  (read? key).getD ⟨key, []⟩

end KeyPath

end PrefixMatch
