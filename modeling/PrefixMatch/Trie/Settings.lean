/-!
# Trie — Settings

How a trie answers: which part of an input a lookup reports, and in which order completions are
listed.
-/

namespace PrefixMatch

/-- Which entry a longest-match lookup reports. -/
inductive MatchPolicy where
  /-- Only the node at which the walk stops counts. -/
  | stopAtDivergence
  /-- The last terminal node that the walk crossed counts. -/
  | longestTerminal
  deriving DecidableEq, Repr, Inhabited

/-- The order of listed completions. -/
inductive CompletionOrder where
  /-- The order in which the tree holds its children. -/
  | unordered
  /-- Increasing order. -/
  | sorted
  deriving DecidableEq, Repr, Inhabited

namespace MatchPolicy

/-- The name under which a policy is written in configurations. -/
def name : MatchPolicy → String
  | .stopAtDivergence => "stop_at_divergence"
  | .longestTerminal => "longest_terminal"

/-- The policy of a name, which is matched exactly. -/
def ofName? : String → Option MatchPolicy
  | "stop_at_divergence" => some .stopAtDivergence
  | "longest_terminal" => some .longestTerminal
  | _ => none

theorem ofName?_name (p : MatchPolicy) : ofName? p.name = some p := by
  cases p <;> rfl

end MatchPolicy

namespace CompletionOrder

/-- The name under which an order is written in configurations. -/
def name : CompletionOrder → String
  | .unordered => "unordered"
  | .sorted => "sorted"

/-- The order of a name, which is matched exactly. -/
def ofName? : String → Option CompletionOrder
  | "unordered" => some .unordered
  | "sorted" => some .sorted
  | _ => none

theorem ofName?_name (o : CompletionOrder) : ofName? o.name = some o := by
  cases o <;> rfl

end CompletionOrder

/-- The settings of a trie. -/
structure TrieSettings where
  matchPolicy : MatchPolicy := .stopAtDivergence
  completionOrder : CompletionOrder := .unordered
  deriving DecidableEq, Repr, Inhabited

end PrefixMatch
