import PrefixMatch.Fields
import PrefixMatch.Number.Double

/-!
# JSON — Value

JSON values.  The members of an object have distinct keys; integers that fit into 64 bits, signed or
not, are kept apart from all other numbers.
-/

namespace PrefixMatch

/-- A JSON value. -/
inductive Json where
  | null
  | bool (b : Bool)
  | int (n : Int)
  | float (d : Double)
  | text (s : String)
  | array (items : List Json)
  | object (members : List (String × Json))
  deriving Repr, Inhabited

end PrefixMatch
