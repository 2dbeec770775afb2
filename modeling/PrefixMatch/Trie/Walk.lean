import PrefixMatch.Trie.Node
import PrefixMatch.Text.Bytes

/-!
# Trie — Walk

A walk follows an input from the root until a character has no child or the input ends.  What it
reports are byte offsets into the input, which always fall between two characters.
-/

namespace PrefixMatch

/-- Where a walk stopped and what it crossed. -/
structure Walk where
  /-- The node at which the walk stopped. -/
  node : Node
  /-- The byte length of the part of the input that was followed. -/
  matched : Nat
  /-- The byte length of the longest part that led to a terminal node, the empty part left out. -/
  longestTerminal : Option Nat
  /-- Whether the whole input was followed. -/
  consumedAll : Bool
  deriving DecidableEq, Repr

namespace Walk

/-- Whether at least one character was followed. -/
def advanced (w : Walk) : Bool :=
  decide (0 < w.matched)

end Walk

namespace Node

/-- Follows the input, given the bytes followed so far and the last offset at which a terminal node
was crossed; gives the last node, and both numbers at that point. -/
def follow : Node → Nat → Option Nat → List Char → Node × Nat × Option Nat
  | n, matched, longest, [] => (n, matched, longest)
  | n, matched, longest, c :: cs =>
    match n.children.find? c with
    | none => (n, matched, longest)
    | some child =>
      let here := matched + c.utf8Size
      child.follow here (if child.terminal then some here else longest) cs

/-- The walk of an input from this node. -/
def walk (n : Node) (input : List Char) : Walk :=
  match n.follow 0 none input with
  | (stop, matched, longest) => ⟨stop, matched, longest, matched == Text.byteLength input⟩

end Node

end PrefixMatch
