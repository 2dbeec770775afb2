import PrefixMatch.Text.Quoted

/-!
# Key material

A symmetric key, or a salt and a password to derive one from, and the texts that show it for
inspection.  The texts reveal the length of a key or the salt and nothing else.
-/

namespace PrefixMatch

/-- Key material for a cipher. -/
inductive KeyMaterial where
  /-- The bytes of a key. -/
  | raw (key : List UInt8)
  /-- A salt and a secret password. -/
  | password (salt secret : String)
  deriving DecidableEq, Repr

namespace KeyMaterial

/-- What stands in place of a password. -/
def redacted : String := "<redacted>"

/-- The key material on one line. -/
def inspect : KeyMaterial → String
  | .raw key => "Raw(" ++ toString key.length ++ " bytes)"
  | .password salt _ =>
    "Password \x7b salt: " ++ Text.quoted salt ++ ", password: " ++ Text.quoted redacted ++ " \x7d"

/-- The key material with one field per line. -/
def inspectLines : KeyMaterial → String
  | .raw key => "Raw(\n    " ++ toString key.length ++ " bytes,\n)"
  | .password salt _ =>
    "Password \x7b\n    salt: " ++ Text.quoted salt ++ ",\n    password: " ++ Text.quoted redacted ++
      ",\n\x7d"

end KeyMaterial

end PrefixMatch
