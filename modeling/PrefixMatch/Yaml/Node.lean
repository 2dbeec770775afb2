import PrefixMatch.Fields
import PrefixMatch.Number.Reading
import PrefixMatch.Text.Hex
import PrefixMatch.Yaml.Tag

/-!
# Yaml — Node

The values of a YAML document.  A plain scalar without a tag means what it looks like: a number, a truth
value, nothing, or else a text.
-/

namespace PrefixMatch.Yaml

/-- The key of a table entry.  Entries under keys of any other kind are left out. -/
inductive Key where
  | text (s : String)
  | int (n : Int)
  deriving DecidableEq, Repr

/-- A value. -/
inductive Node where
  | null
  | bool (b : Bool)
  | int (n : Int)
  /-- A number with a fraction, in its written form. -/
  | real (written : String)
  | text (s : String)
  | array (items : List Node)
  | table (entries : List (Key × Node))
  /-- A scalar that does not fit its tag, or an alias inside the node that it stands for. -/
  | invalid
  deriving Repr, Inhabited

namespace Node

/-- The digits of a number in another base. -/
def basedValue? (base : Nat) (digits : List Char) : Option Int := do
  let (negative, digits) := Number.splitSign digits
  if digits.isEmpty then failure
  let value? := fun c => (Text.hexValue? c).bind fun d => if d < base then some d else none
  let n : Int ← Text.digitsValue? base value? digits 0
  let n := if negative then -n else n
  if Number.fitsInt64 n then return n else failure

/-- The integer that a plain scalar spells in one of the forms with a mark before the digits. -/
def markedInt? : List Char → Option Int
  | '0' :: 'x' :: digits => basedValue? 16 digits
  | '0' :: 'o' :: digits => basedValue? 8 digits
  | '+' :: digits => Number.readInt64? digits
  | _ => none

/-- The words for infinity and for no number. -/
def specialReals : List String :=
  [".inf", ".Inf", ".INF", "+.inf", "+.Inf", "+.INF", "-.inf", "-.Inf", "-.INF", ".nan", "NaN", ".NAN"]

/-- Whether a plain scalar spells a number with a fraction, or stands for one. -/
def isReal (s : String) : Bool :=
  specialReals.contains s || (Number.readDouble? s.toList).isSome

/-- The value of a plain scalar. -/
def ofPlain (s : String) : Node :=
  match markedInt? s.toList with
  | some n => .int n
  | none =>
    match s with
    | "~" | "null" => .null
    | "true" => .bool true
    | "false" => .bool false
    | _ =>
      match Number.readInt64? s.toList with
      | some n => .int n
      | none => if isReal s then .real s else .text s

/-- The value of a plain scalar with a tag. -/
def ofTagged (t : Tag) (s : String) : Node :=
  if t.handle ≠ "!!" then .text s
  else
    match t.name with
    | "bool" => if s = "true" then .bool true else if s = "false" then .bool false else .invalid
    | "int" => ((Number.readInt64? s.toList).map .int).getD .invalid
    | "float" => if isReal s then .real s else .invalid
    | "null" => if s = "~" ∨ s = "null" then .null else .invalid
    | _ => .text s

/-- The value of a scalar; one that is not plain is a text whatever its tag. -/
def ofScalar (plain : Bool) (t : Option Tag) (s : String) : Node :=
  if !plain then .text s
  else
    match t with
    | none => ofPlain s
    | some t => ofTagged t s

/-- The key that a node makes. -/
def key? : Node → Option Key
  | .text s => some (.text s)
  | .int n => some (.int n)
  | _ => none

/-- Whether a node is no value. -/
def isInvalid : Node → Bool
  | .invalid => true
  | _ => false

/-- Sets an entry, in place of an earlier one with the same key. -/
def putEntry (k : Key) (v : Node) : List (Key × Node) → List (Key × Node)
  | [] => [(k, v)]
  | (k', v') :: rest => if k' = k then (k, v) :: rest else (k', v') :: putEntry k v rest

/-- The entries that keys and values in turn make up; a key that is no value is passed over, so that the
node after it becomes the key. -/
def entriesFrom : List Node → List (Key × Node) → List (Key × Node)
  | [], entries => entries
  | [_], entries => entries
  | k :: v :: rest, entries =>
    if k.isInvalid then entriesFrom (v :: rest) entries
    else
      match k.key? with
      | some k => entriesFrom rest (putEntry k v entries)
      | none => entriesFrom rest entries

/-- The table that keys and values in turn make up. -/
def ofPairs (nodes : List Node) : Node :=
  .table (entriesFrom nodes [])

end Node

end PrefixMatch.Yaml
