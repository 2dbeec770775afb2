import PrefixMatch.Text.Quoted
import PrefixMatch.Trie.Completions

/-!
# Trie — Inspect

The text that shows the state of an enumeration: its path and the size of its stack.
-/

namespace PrefixMatch.Completions

/-- The state of an enumeration on one line. -/
def inspect (it : Completions) : String :=
  "Completions \x7b path: " ++ Text.quoted (String.ofList it.path) ++ ", depth: " ++
    toString it.depth ++ " \x7d"

/-- The answer of one call for the next word on one line. -/
def inspectWord : Option (List Char) → String
  | none => "None"
  | some word => "Some(" ++ Text.quoted (String.ofList word) ++ ")"

end PrefixMatch.Completions
