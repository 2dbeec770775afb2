import PrefixMatch.Fields
import PrefixMatch.Number.Double

/-!
# Toml — Value

The values of a TOML document, and the tables that fields with dotted keys make up: `Value.table? fields`
exists when no path of the fields starts another one.
-/

namespace PrefixMatch.Toml

/-- A value. -/
inductive Value where
  | text (s : String)
  | bool (b : Bool)
  | int (n : Int)
  | float (d : Double)
  /-- A date, a time, or both, in its written form. -/
  | moment (written : String)
  | array (items : List Value)
  | table (fields : List (String × Value))
  deriving Repr, Inhabited

/-- A field: the path that its dotted key spells, and its value. -/
abbrev Field := List String × Value

/-- Whether neither of two paths starts the other. -/
def apart (p q : List String) : Bool :=
  !p.isPrefixOf q && !q.isPrefixOf p

/-- Whether no path of a list starts another one. -/
def allApart : List (List String) → Bool
  | [] => true
  | p :: ps => ps.all (apart p) && allApart ps

/-- Puts a value at a path, through tables that are made where they are missing. -/
def putPath : List String → Value → List (String × Value) → List (String × Value)
  | [], _, fields => fields
  | [key], v, fields => Fields.put key v fields
  | key :: keys, v, fields =>
    let below :=
      match Fields.get? key fields with
      | some (.table below) => below
      | _ => []
    Fields.put key (.table (putPath keys v below)) fields

/-- The table that fields make up. -/
def Value.table? (fields : List Field) : Option (List (String × Value)) :=
  if allApart (fields.map Prod.fst) then
    some (fields.foldl (fun table (path, v) => putPath path v table) [])
  else none

end PrefixMatch.Toml
