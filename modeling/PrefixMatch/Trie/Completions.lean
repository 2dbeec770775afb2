import PrefixMatch.Trie.Node

/-!
# Trie — Completions

The lazy enumeration of the words below a node: a path, and a stack with one frame for each node
between the start and the current node.  One step either descends to the next child of the topmost
frame or leaves that frame.

* `Completions.pending_step_lt` — each step lowers the number of moves still to come, so the walk
  ends;
* `Completions.next` — the next word, if there is one;
* `Completions.toList` — all words still to come.
-/

namespace PrefixMatch

/-- One level of the walk: the children still to be visited, and whether entering the level added a
character to the path. -/
structure Frame where
  entries : Children
  pushed : Bool
  deriving DecidableEq, Repr

/-- A point of the enumeration. -/
structure Completions where
  path : List Char
  stack : List Frame
  deriving DecidableEq, Repr

/-- A move of the walk. -/
inductive Move where
  /-- To a child, which is terminal or not. -/
  | descend (terminal : Bool)
  /-- Back from a node whose children are all visited. -/
  | retreat
  deriving DecidableEq, Repr

namespace Completions

/-- The enumeration of what lies below a node that `path` leads to. -/
def start (path : List Char) (n : Node) : Completions :=
  ⟨path, [⟨n.children, false⟩]⟩

/-- The enumeration of nothing. -/
def empty : Completions :=
  ⟨[], []⟩

/-- One move, or `none` when the walk is over. -/
def step? (it : Completions) : Option (Move × Completions) :=
  match it.stack with
  | [] => none
  | ⟨.nil, pushed⟩ :: frames =>
    some (.retreat, ⟨if pushed then it.path.dropLast else it.path, frames⟩)
  | ⟨.cons c terminal below rest, pushed⟩ :: frames =>
    some (.descend terminal, ⟨it.path ++ [c], ⟨below, true⟩ :: ⟨rest, pushed⟩ :: frames⟩)

/-- The moves that a stack still allows: two for each node not yet visited, one for each frame. -/
def pendingMoves : List Frame → Nat
  | [] => 0
  | f :: fs => 2 * f.entries.size + 1 + pendingMoves fs

/-- The moves still to come. -/
def pending (it : Completions) : Nat :=
  pendingMoves it.stack

theorem pending_step_lt {it it' : Completions} {m : Move} (h : it.step? = some (m, it')) :
    it'.pending < it.pending := by
  unfold step? at h
  split at h
  · cases h
  · next hs =>
    cases h
    simp [pending, pendingMoves, hs, Children.size]
  · next hs =>
    cases h
    simp only [pending, pendingMoves, hs, Children.size]
    omega

/-- The next word, with the enumeration of those after it.  A word is reported when the walk descends
to its node. -/
def next (it : Completions) : Option (List Char) × Completions :=
  match _h : it.step? with
  | none => (none, it)
  | some (.descend true, it') => (some it'.path, it')
  | some (.descend false, it') => it'.next
  | some (.retreat, it') => it'.next
termination_by it.pending
decreasing_by all_goals exact pending_step_lt _h

theorem pending_next_lt {it it' : Completions} {w : List Char} (h : it.next = (some w, it')) :
    it'.pending < it.pending := by
  fun_induction next it generalizing w it' with
  | case1 => simp at h
  | case2 it it'' hs =>
    cases h
    exact pending_step_lt hs
  | case3 it it'' hs ih => exact Nat.lt_trans (ih h) (pending_step_lt hs)
  | case4 it it'' hs ih => exact Nat.lt_trans (ih h) (pending_step_lt hs)

/-- All words still to come, in order. -/
def toList (it : Completions) : List (List Char) :=
  match _h : it.next with
  | (none, _) => []
  | (some w, it') => w :: it'.toList
termination_by it.pending
decreasing_by exact pending_next_lt _h

/-- The size of the stack: one more than the number of characters below the start while the walk
runs, zero when it is over. -/
def depth (it : Completions) : Nat :=
  it.stack.length

end Completions

end PrefixMatch
