import PrefixMatch.Json.Value
import PrefixMatch.Number.Reading
import PrefixMatch.Toml.Value

/-!
# Layer — Value

What a layer of settings may hold under a key, before it is known which setting the key names.  Values of
every file format and texts from the environment become layer values.
-/

namespace PrefixMatch

/-- A value in a layer of settings. -/
inductive LayerValue where
  /-- A setting that is deliberately without a value. -/
  | nil
  | bool (b : Bool)
  | int (n : Int)
  | float (d : Double)
  | text (s : String)
  | array (items : List LayerValue)
  | table (fields : List (String × LayerValue))
  deriving Repr, Inhabited

namespace LayerValue

/-- The fields of a table; nothing else has fields. -/
def fields : LayerValue → List (String × LayerValue)
  | .table fields => fields
  | _ => []

/-- The items of an array; nothing else has items. -/
def items : LayerValue → List LayerValue
  | .array items => items
  | _ => []

mutual

/-- A JSON value; integers beyond 64 bits with a sign lose digits. -/
def ofJson : Json → LayerValue
  | .null => .nil
  | .bool b => .bool b
  | .int n => if Number.fitsInt64 n then .int n else .float (Double.ofInt n)
  | .float d => .float d
  | .text s => .text s
  | .array items => .array (ofJsonItems items)
  | .object members => .table (ofJsonMembers members)

/-- The items of a JSON array. -/
def ofJsonItems : List Json → List LayerValue
  | [] => []
  | j :: js => ofJson j :: ofJsonItems js

/-- The members of a JSON object. -/
def ofJsonMembers : List (String × Json) → List (String × LayerValue)
  | [] => []
  | m :: ms => ofJsonMember m :: ofJsonMembers ms

/-- A member of a JSON object. -/
def ofJsonMember : String × Json → String × LayerValue
  | (key, j) => (key, ofJson j)

end

mutual

/-- A TOML value; a date or a time becomes its written form. -/
def ofToml : Toml.Value → LayerValue
  | .text s => .text s
  | .bool b => .bool b
  | .int n => .int n
  | .float d => .float d
  | .moment written => .text written
  | .array items => .array (ofTomlItems items)
  | .table fields => .table (ofTomlFields fields)

/-- The items of a TOML array. -/
def ofTomlItems : List Toml.Value → List LayerValue
  | [] => []
  | v :: vs => ofToml v :: ofTomlItems vs

/-- The fields of a TOML table. -/
def ofTomlFields : List (String × Toml.Value) → List (String × LayerValue)
  | [] => []
  | f :: fs => ofTomlField f :: ofTomlFields fs

/-- A field of a TOML table. -/
def ofTomlField : String × Toml.Value → String × LayerValue
  | (key, v) => (key, ofToml v)

end

end LayerValue

/-- A layer: keys, which may be paths, and their values. -/
abbrev Layer := List (String × LayerValue)

end PrefixMatch
