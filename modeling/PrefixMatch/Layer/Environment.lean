import PrefixMatch.Layer.Overlay
import PrefixMatch.Text.Lowercase

/-!
# Layer — Environment

The layer that environment variables make.  A variable counts when its name, in lower case, starts with
the prefix and two underscores; what follows names the key, with two underscores between its parts.
-/

namespace PrefixMatch

/-- Environment variables, a later one in place of an earlier one with the same key. -/
abbrev Environment := List (String × String)

namespace Environment

/-- A text with each pair of underscores replaced by a dot, from the left. -/
def dotted : List Char → List Char
  | '_' :: '_' :: cs => '.' :: dotted cs
  | c :: cs => c :: dotted cs
  | [] => []

/-- The key that a variable names under a prefix. -/
def key? (start name : String) : Option String :=
  let start := Text.lower (start.toList ++ ['_', '_'])
  let name := Text.lower name.toList
  if start.isPrefixOf name then some (String.ofList (dotted (name.drop start.length))) else none

/-- The value of a variable: a truth value in any case, a number, or else its text. -/
def value (s : String) : LayerValue :=
  let lower := String.ofList (Text.lower s.toList)
  if lower = "true" then .bool true
  else if lower = "false" then .bool false
  else
    match Number.readInt64? s.toList with
    | some n => .int n
    | none =>
      match Number.readDouble? s.toList with
      | some d => .float d
      | none => .text s

/-- The layer of the variables under a prefix. -/
def layer (start : String) (env : Environment) : Layer :=
  env.foldl
    (fun layer (name, s) =>
      match key? start name with
      | some key => Fields.put key (value s) layer
      | none => layer)
    []

end Environment

end PrefixMatch
