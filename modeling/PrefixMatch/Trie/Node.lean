/-!
# Trie — Nodes

A node of the tree records whether the path to it was entered and holds its children, each under a
character of its own.  The order of the children carries no meaning: every answer of the library
either ignores it or is sorted.

`Children.strings` enumerates the entered words below a node, each before the longer words that run
through it.
-/

namespace PrefixMatch

/-- The children of a node, in some order: a character, whether the path to that child was entered,
the children of that child, and the remaining siblings. -/
inductive Children where
  | nil
  | cons (c : Char) (terminal : Bool) (below : Children) (rest : Children)
  deriving DecidableEq, Repr, Inhabited

/-- A node of the tree. -/
structure Node where
  /-- Whether the path from the root to this node was entered. -/
  terminal : Bool := false
  children : Children := .nil
  deriving DecidableEq, Repr, Inhabited

namespace Children

/-- The child under `c`. -/
def find? (c : Char) : Children → Option Node
  | .nil => none
  | .cons d terminal below rest => if d = c then some ⟨terminal, below⟩ else rest.find? c

/-- A single path that spells `c :: cs` and ends in a terminal node. -/
def path (c : Char) : List Char → Children
  | [] => .cons c true .nil .nil
  | d :: ds => .cons c false (path d ds) .nil

/-- Enters the word `c :: cs`: nodes that are missing on the way are created, the last one becomes
terminal. -/
def enter : Children → Char → List Char → Children
  | .nil, c, cs => path c cs
  | .cons d terminal below rest, c, cs =>
    if d = c then
      match cs with
      | [] => .cons d true below rest
      | e :: es => .cons d terminal (below.enter e es) rest
    else .cons d terminal below (rest.enter c cs)

/-- The number of terminal nodes. -/
def countTerminals : Children → Nat
  | .nil => 0
  | .cons _ terminal below rest => terminal.toNat + below.countTerminals + rest.countTerminals

/-- The number of nodes. -/
def size : Children → Nat
  | .nil => 0
  | .cons _ _ below rest => 1 + below.size + rest.size

/-- The entered words below a node: a terminal child gives its one character before the words that
run through it. -/
def strings : Children → List (List Char)
  | .nil => []
  | .cons c terminal below rest =>
    (if terminal then [[c]] else []) ++ below.strings.map (c :: ·) ++ rest.strings

/-- The characters of the children, in order. -/
def heads : Children → List Char
  | .nil => []
  | .cons c _ _ rest => c :: rest.heads

end Children

namespace Node

/-- The node that a word leads to from here. -/
def descend? (n : Node) : List Char → Option Node
  | [] => some n
  | c :: cs =>
    match n.children.find? c with
    | none => none
    | some child => child.descend? cs

/-- Enters a word; the empty word marks the node itself. -/
def enter (n : Node) : List Char → Node
  | [] => { n with terminal := true }
  | c :: cs => { n with children := n.children.enter c cs }

/-- The number of terminal nodes, this one included. -/
def countTerminals (n : Node) : Nat :=
  n.terminal.toNat + n.children.countTerminals

/-- All entered words from here, the empty one included. -/
def strings (n : Node) : List (List Char) :=
  (if n.terminal then [[]] else []) ++ n.children.strings

/-- Whether the word leads to a terminal node. -/
def accepts (n : Node) (word : List Char) : Bool :=
  match n.descend? word with
  | none => false
  | some m => m.terminal

end Node

end PrefixMatch
