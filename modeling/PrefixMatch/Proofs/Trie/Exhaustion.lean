import PrefixMatch.Proofs.Trie.Arrangement
import PrefixMatch.Proofs.Trie.Enumeration

/-!
# Trie — the work of an enumeration

A call for the next word is a loop of moves (`Completions.Call`), and calls follow one another from state to state
(`Completions.Calls`).  What is left to do in a state is two moves for each node not yet visited and one for each
frame; a move lowers this, and the moves made and the moves left always add up to the same.

To tell which nodes a walk visits, the tree is read with every node marked as terminal (`Children.marked`): then the
words that the enumeration owes are the paths of all nodes still to be visited, and each visit takes one off.

* `Completions.step_accounts`, `Completions.Trail.accounts`: what one move does to the account, and many moves.
* `Completions.Trail.visits_append`: the nodes visited, then those still to be visited, are all nodes.
* `Completions.calls_visit_once`: calls end, and all calls together visit each node once and leave it once.
-/

namespace PrefixMatch

/-! ### Trees with every node marked -/

/-- The same tree with every node terminal. -/
def Children.marked : Children → Children
  | .nil => .nil
  | .cons c _ below rest => .cons c true below.marked rest.marked

/-- The same node and the nodes below it, all terminal. -/
def Node.marked (n : Node) : Node :=
  ⟨true, n.children.marked⟩

namespace Children

theorem heads_marked (ch : Children) : ch.marked.heads = ch.heads := by
  induction ch with
  | nil => rfl
  | cons c terminal below rest _ ih => rw [marked, heads, heads, ih]

theorem Distinct.marked {ch : Children} (hd : ch.Distinct) : ch.marked.Distinct := by
  induction ch with
  | nil => trivial
  | cons c terminal below rest ihb ihr =>
      obtain ⟨hc, hb, hr⟩ := hd
      exact ⟨heads_marked rest ▸ hc, ihb hb, ihr hr⟩

theorem Rearranged.marked {a b : Children} (h : a.Rearranged b) : a.marked.Rearranged b.marked := by
  induction h with
  | nil => exact .nil
  | cons c _ _ _ ihb ihr => exact .cons c true ihb ihr
  | swap c d _ _ _ _ _ => exact .swap c d true true _ _ _
  | trans _ _ ih₁ ih₂ => exact ih₁.trans ih₂

theorem find?_marked (ch : Children) (c : Char) : ch.marked.find? c = (ch.find? c).map Node.marked := by
  induction ch with
  | nil => rfl
  | cons d terminal below rest _ ih =>
      rw [marked, find?, find?, ih]
      split
      · rfl
      · rfl

/-- Marked nodes count as nodes. -/
theorem countTerminals_marked (ch : Children) : ch.marked.countTerminals = ch.size := by
  induction ch with
  | nil => rfl
  | cons c terminal below rest ihb ihr => rw [marked, countTerminals, size, ihb, ihr]; rfl

theorem length_strings_marked (ch : Children) : ch.marked.strings.length = ch.size := by
  rw [length_strings, countTerminals_marked]

/-- The order of the children does not change the number of nodes. -/
theorem Rearranged.size_eq {a b : Children} (h : a.Rearranged b) : b.size = a.size := by
  rw [← length_strings_marked, ← length_strings_marked, h.marked.strings_perm.length_eq]

end Children

namespace Node

theorem descend?_marked (n : Node) (w : List Char) :
    n.marked.descend? w = (n.descend? w).map marked := by
  induction w generalizing n with
  | nil => rfl
  | cons c cs ih =>
      rw [descend?, descend?, marked, Children.find?_marked]
      cases n.children.find? c with
      | none => rfl
      | some m => exact ih m

/-- **A marked tree accepts what the tree spells.** -/
theorem accepts_marked (n : Node) (w : List Char) : n.marked.accepts w = true ↔ n.Spells w := by
  rw [accepts, descend?_marked, Spells]
  cases n.descend? w with
  | none => simp
  | some m => simp [marked]

theorem Rearranged.spells_iff {n m : Node} (h : n.Rearranged m) (hd : n.children.Distinct) (w : List Char) :
    m.Spells w ↔ n.Spells w := by
  have hmarked : n.marked.Rearranged m.marked := ⟨rfl, h.children.marked⟩
  rw [← accepts_marked, ← accepts_marked, hmarked.accepts_iff hd.marked]

end Node

/-- Whether a move goes down. -/
def Move.isDescent : Move → Bool
  | .descend _ => true
  | .retreat => false

namespace Completions

/-! ### Calls as loops of moves -/

/-- The moves from one state to another, with the state that each leads to. -/
inductive Trail : Completions → List (Move × Completions) → Completions → Prop where
  | nil (it : Completions) : Trail it [] it
  | cons {it it' it'' : Completions} {m : Move} {l : List (Move × Completions)}
      (h : it.step? = some (m, it')) (t : Trail it' l it'') : Trail it ((m, it') :: l) it''

/-- The loop of one call: its moves, its answer, and the state after it.  It ends when no move is left, or with a
descent to a terminal node. -/
inductive Call : Completions → List (Move × Completions) → Option (List Char) → Completions → Prop where
  | ended {it : Completions} (h : it.step? = none) : Call it [] none it
  | found {it it' : Completions} (h : it.step? = some (.descend true, it')) :
      Call it [(.descend true, it')] (some it'.path) it'
  | onward {it it' it'' : Completions} {m : Move} {l : List (Move × Completions)} {w : Option (List Char)}
      (h : it.step? = some (m, it')) (hm : m ≠ .descend true) (t : Call it' l w it'') :
      Call it ((m, it') :: l) w it''

/-- Calls one after another: their answers, all their moves, and the state after them. -/
inductive Calls :
    Completions → List (Option (List Char)) → List (Move × Completions) → Completions → Prop where
  | nil (it : Completions) : Calls it [] [] it
  | call {it it' it'' : Completions} {l l' : List (Move × Completions)} {w : Option (List Char)}
      {ws : List (Option (List Char))} (h : Call it l w it') (t : Calls it' ws l' it'') :
      Calls it (w :: ws) (l ++ l') it''

variable {it it' it'' : Completions} {m : Move} {l l' : List (Move × Completions)} {w : Option (List Char)}
  {ws : List (Option (List Char))}

theorem Trail.append (h : Trail it l it') (t : Trail it' l' it'') : Trail it (l ++ l') it'' := by
  induction h with
  | nil => exact t
  | cons h _ ih => exact .cons h (ih t)

theorem Call.trail (h : Call it l w it') : Trail it l it' := by
  induction h with
  | ended h => exact .nil _
  | found h => exact .cons h (.nil _)
  | onward h _ _ ih => exact .cons h ih

theorem Calls.trail (h : Calls it ws l it') : Trail it l it' := by
  induction h with
  | nil => exact .nil _
  | call h _ ih => exact h.trail.append ih

/-- A call is such a loop. -/
theorem exists_call (it : Completions) : ∃ l, Call it l it.next.1 it.next.2 := by
  fun_induction next it with
  | case1 it h => exact ⟨[], .ended h⟩
  | case2 it it' h => exact ⟨_, .found h⟩
  | case3 it it' h ih =>
      obtain ⟨l, hl⟩ := ih
      exact ⟨_, .onward h (by decide) hl⟩
  | case4 it it' h ih =>
      obtain ⟨l, hl⟩ := ih
      exact ⟨_, .onward h (by decide) hl⟩

theorem next_of_ended (h : it.step? = none) : it.next = (none, it) := by
  rw [next]
  split <;> simp_all

theorem next_of_found (h : it.step? = some (.descend true, it')) : it.next = (some it'.path, it') := by
  rw [next]
  split <;> simp_all

/-- A move that reports nothing goes on to the next one in the same call. -/
theorem next_of_onward (h : it.step? = some (m, it')) (hm : m ≠ .descend true) : it.next = it'.next := by
  rw [next]
  split <;> simp_all

/-- Such a loop is the call, with its answer and the state after it. -/
theorem Call.next_eq (h : Call it l w it') : it.next = (w, it') := by
  induction h with
  | ended h => exact next_of_ended h
  | found h => exact next_of_found h
  | onward h hm _ ih => rw [next_of_onward h hm, ih]

/-- **Calls come to an end**: they give all words, and then nothing. -/
theorem exists_calls (it : Completions) : ∃ l it', Calls it (it.toList.map some ++ [none]) l it' := by
  fun_induction toList it with
  | case1 it it' h =>
      obtain ⟨l, hl⟩ := exists_call it
      rw [h] at hl
      exact ⟨_, it', .call hl (.nil it')⟩
  | case2 it w it' h ih =>
      obtain ⟨l, hl⟩ := exists_call it
      obtain ⟨l', it'', hrest⟩ := ih
      rw [h] at hl
      exact ⟨_, it'', .call hl hrest⟩

theorem Call.stack_eq_nil (h : Call it l none it') : it'.stack = [] := by
  generalize hw : (none : Option (List Char)) = w at h
  induction h with
  | ended h => exact step?_eq_none_iff.mp h
  | found => cases hw
  | onward _ _ _ ih => exact ih hw

/-- Calls on an enumeration that is over make no moves. -/
theorem Trail.eq_of_over (h : Trail it l it') (hover : it.stack = []) : it' = it := by
  cases h with
  | nil => rfl
  | cons h _ =>
      rw [step?_eq_none_iff.mpr hover] at h
      cases h

/-- Once a call gave nothing, the walk is over, whatever calls come later. -/
theorem Calls.stack_eq_nil (h : Calls it ws l it') (hnone : none ∈ ws) : it'.stack = [] := by
  induction h with
  | nil => cases hnone
  | call h t ih =>
      -- either the first call gave nothing, and the later ones stay where it left off, or a later one did
      rcases List.mem_cons.mp hnone with rfl | hlater
      · rw [t.trail.eq_of_over h.stack_eq_nil]
        exact h.stack_eq_nil
      · exact ih hlater

/-! ### The account of moves -/

/-- The nodes that are not visited yet: those in the frames and below them. -/
def unvisited : List Frame → Nat
  | [] => 0
  | f :: fs => f.entries.size + unvisited fs

/-- The descents among some moves. -/
def descents (l : List (Move × Completions)) : Nat :=
  l.countP fun p => p.1.isDescent

/-- The moves back among some moves. -/
def retreats (l : List (Move × Completions)) : Nat :=
  l.countP fun p => !p.1.isDescent

/-- **The moves still to come**: two for each node not visited, one for each frame. -/
theorem pending_eq (it : Completions) : it.pending = 2 * unvisited it.stack + it.depth := by
  have h : ∀ fs : List Frame, pendingMoves fs = 2 * unvisited fs + fs.length := by
    intro fs
    induction fs with
    | nil => rfl
    | cons f fs ih =>
        rw [pendingMoves, ih, unvisited, List.length_cons]
        omega
  exact h it.stack

/-- **What one move does to the account.**  A descent takes a node from those not visited and puts a frame on the
stack, and a move back takes a frame away. -/
theorem step_accounts (h : it.step? = some (m, it')) :
    (if m.isDescent then 1 else 0) + unvisited it'.stack = unvisited it.stack ∧
      (if m.isDescent then 0 else 1) + unvisited it'.stack + it'.depth = unvisited it.stack + it.depth := by
  rcases step_cases h with ⟨pushed, frames, hs, rfl, rfl⟩ |
      ⟨c, terminal, below, rest, pushed, frames, hs, rfl, rfl⟩
  · have hunvisited : unvisited it.stack = unvisited frames := by rw [hs, unvisited, Children.size, Nat.zero_add]
    have hlength : it.stack.length = frames.length + 1 := by rw [hs, List.length_cons]
    simp only [Move.isDescent, Bool.false_eq_true, if_false, depth]
    omega
  · have hunvisited : unvisited it.stack = 1 + below.size + rest.size + unvisited frames := by
      rw [hs, unvisited, Children.size]
    have hlength : it.stack.length = frames.length + 1 := by rw [hs, List.length_cons]
    simp only [Move.isDescent, if_true, depth, unvisited, List.length_cons]
    omega

/-- **Moves made and moves left add up to the same**, along every trail. -/
theorem Trail.accounts (h : Trail it l it') :
    descents l + unvisited it'.stack = unvisited it.stack ∧
      retreats l + unvisited it'.stack + it'.depth = unvisited it.stack + it.depth := by
  induction h with
  | nil => simp [descents, retreats]
  | @cons _ _ _ m _ h _ ih =>
      have hstep := step_accounts h
      simp only [descents, retreats, List.countP_cons] at ih ⊢
      cases hm : m.isDescent <;> simp only [hm, Bool.false_eq_true, Bool.not_true, Bool.not_false, if_true,
        if_false] at hstep ⊢ <;> omega

theorem length_eq_descents_add_retreats (l : List (Move × Completions)) :
    l.length = descents l + retreats l := by
  rw [descents, retreats, List.length_eq_countP_add_countP fun p : Move × Completions => p.1.isDescent]
  simp

/-- A trail is no longer than the moves that were still to come. -/
theorem Trail.length_add_pending (h : Trail it l it') : l.length + it'.pending = it.pending := by
  have haccounts := h.accounts
  rw [length_eq_descents_add_retreats, pending_eq, pending_eq]
  omega

/-! ### The nodes visited -/

/-- The paths of the nodes that some moves entered, in order. -/
def visits (l : List (Move × Completions)) : List (List Char) :=
  l.filterMap fun p => if p.1.isDescent then some p.2.path else none

/-- The same state of an enumeration, over the tree with every node marked. -/
def marked (it : Completions) : Completions :=
  ⟨it.path, it.stack.map fun f => ⟨f.entries.marked, f.pushed⟩⟩

/-- Over the marked tree a move is the same, and every descent reports. -/
theorem step?_marked (h : it.step? = some (m, it')) :
    ∃ m', it.marked.step? = some (m', it'.marked) ∧
      reported it'.path m' = if m.isDescent then [it'.path] else [] := by
  rcases step_cases h with ⟨pushed, frames, hs, rfl, rfl⟩ |
      ⟨c, terminal, below, rest, pushed, frames, hs, rfl, rfl⟩
  · exact ⟨.retreat, by rw [step?, marked, hs]; rfl, rfl⟩
  · exact ⟨.descend true, by rw [step?, marked, hs]; rfl, rfl⟩

/-- **The nodes visited, then those still to be visited, are all nodes**, along every trail. -/
theorem Trail.visits_append (h : Trail it l it') :
    visits l ++ it'.marked.remaining = it.marked.remaining := by
  induction h with
  | nil => rfl
  | @cons it it' it'' m l h _ ih =>
      obtain ⟨m', hstep, hreported⟩ := step?_marked h
      have hfront : it.marked.remaining = reported it'.path m' ++ it'.marked.remaining := remaining_step hstep
      rw [hfront, hreported, ← ih, visits, List.filterMap_cons]
      cases m.isDescent with
      | true => rfl
      | false => rfl

/-- Once a call gave nothing, the nodes visited are those of the marked tree. -/
theorem Calls.visits_eq {path : List Char} {n : Node} (h : Calls (start path n) ws l it') (hnone : none ∈ ws) :
    visits l = (start path n.marked).toList := by
  have hvisits := h.trail.visits_append
  have hover : it'.marked.remaining = [] := by
    rw [remaining, marked, h.stack_eq_nil hnone]
    rfl
  rw [hover, List.append_nil] at hvisits
  rw [hvisits, toList_eq_remaining]
  rfl

/-- **Each node below the start is visited once**, and no other. -/
theorem Calls.count_visits {path : List Char} {n : Node} (hd : n.children.Distinct)
    (h : Calls (start path n) ws l it') (hnone : none ∈ ws) (s : List Char) :
    (visits l).count (path ++ s) = if s ≠ [] ∧ n.Spells s then 1 else 0 := by
  have hmarked : n.marked.children.Distinct := hd.marked
  rw [h.visits_eq hnone, (nodup_toList hmarked path).count]
  congr 1
  rw [mem_toList_iff hmarked, eq_iff_iff]
  simp only [Node.accepts_marked]
  constructor
  · rintro ⟨v, hne, hv, he⟩
    cases List.append_cancel_left he
    exact ⟨hne, hv⟩
  · rintro ⟨hne, hs⟩
    exact ⟨s, hne, hs, rfl⟩

/-- **An enumeration ends, and touches each node once**, in any order of the children and however the calls are spread.
Each move lowers two for each node not yet visited and one for each frame, so a call makes no more moves than that,
and calls that go on give all words and then nothing.  All calls together on a fresh enumeration, once one of them gave
nothing, have descended as often as there are nodes below the start and moved back once more; and each of these
nodes was entered once. -/
theorem calls_visit_once :
    (∀ (it it' : Completions) (m : Move), it.step? = some (m, it') →
      2 * unvisited it'.stack + it'.depth < 2 * unvisited it.stack + it.depth) ∧
    (∀ it : Completions, (∃ l, Call it l it.next.1 it.next.2) ∧
      ∀ l w it', Call it l w it' → it.next = (w, it') ∧ l.length ≤ 2 * unvisited it.stack + it.depth) ∧
    (∀ it : Completions, ∃ l it', Calls it (it.toList.map some ++ [none]) l it') ∧
    ∀ (n n' : Node), n.Rearranged n' → ∀ path ws l it',
      Calls (start path n') ws l it' → none ∈ ws →
        descents l = n.children.size ∧ retreats l = n.children.size + 1 ∧
        (n.children.Distinct →
          (∀ v ∈ visits l, ∃ s, v = path ++ s) ∧
          ∀ s, (visits l).count (path ++ s) = if s ≠ [] ∧ n.Spells s then 1 else 0) := by
  refine ⟨fun it it' m h => ?_, fun it => ⟨exists_call it, fun l w it' h => ?_⟩, exists_calls,
    fun n n' hn path ws l it' h hnone => ?_⟩
  · rw [← pending_eq, ← pending_eq]
    exact pending_step_lt h
  · rw [← pending_eq]
    exact ⟨h.next_eq, Nat.le.intro h.trail.length_add_pending⟩
  · obtain ⟨hdescents, hretreats⟩ := h.trail.accounts
    have hfresh : unvisited (start path n').stack = n.children.size := hn.children.size_eq
    have hframes : (start path n').depth = 1 := rfl
    have hover : it'.stack = [] := h.stack_eq_nil hnone
    have hnodes : unvisited it'.stack = 0 := by rw [hover, unvisited]
    have hdepth : it'.depth = 0 := by rw [depth, hover, List.length_nil]
    refine ⟨by omega, by omega, fun hd => ⟨fun v hv => ?_, fun s => ?_⟩⟩
    · rw [h.visits_eq hnone, toList_eq_strings] at hv
      obtain ⟨s, -, rfl⟩ := List.mem_map.mp hv
      exact ⟨s, rfl⟩
    · rw [h.count_visits (hn.children.distinct hd) hnone]
      simp only [hn.spells_iff hd]

/-- Four nodes below `a`, one of them no entry, with the two children of `a` the other way round: a first call makes at
most nine moves, and all calls together make four descents and five moves back, and enter `abc`, which is no entry,
once. -/
theorem calls_visit_once_swapped :
    Node.Rearranged
      ⟨false, .cons 'b' true (.cons 'c' false (.cons 'd' true .nil .nil) .nil) (.cons 'e' true .nil .nil)⟩
      ⟨false, .cons 'e' true .nil (.cons 'b' true (.cons 'c' false (.cons 'd' true .nil .nil) .nil) .nil)⟩ ∧
    ∃ it, it = start ['a'] ⟨false, .cons 'e' true .nil
        (.cons 'b' true (.cons 'c' false (.cons 'd' true .nil .nil) .nil) .nil)⟩ ∧
      (∃ m it', it.step? = some (m, it') ∧ 2 * unvisited it'.stack + it'.depth < 9) ∧
      (∃ l, Call it l it.next.1 it.next.2 ∧ l.length ≤ 9) ∧
      ∃ ws l it', Calls it ws l it' ∧ none ∈ ws ∧
        descents l = 4 ∧ retreats l = 5 ∧ (visits l).count ['a', 'b', 'c'] = 1 := by
  obtain ⟨hmove, hcall, hends, htotal⟩ := calls_visit_once
  have hswap : Node.Rearranged
      ⟨false, .cons 'b' true (.cons 'c' false (.cons 'd' true .nil .nil) .nil) (.cons 'e' true .nil .nil)⟩
      ⟨false, .cons 'e' true .nil (.cons 'b' true (.cons 'c' false (.cons 'd' true .nil .nil) .nil) .nil)⟩ :=
    ⟨rfl, .swap 'b' 'e' true true _ .nil .nil⟩
  refine ⟨hswap, _, rfl, ?_, ?_, ?_⟩
  · have hstep : (start ['a'] ⟨false, .cons 'e' true .nil
        (.cons 'b' true (.cons 'c' false (.cons 'd' true .nil .nil) .nil) .nil)⟩).step? =
        some (.descend true, _) := rfl
    exact ⟨_, _, hstep, hmove _ _ _ hstep⟩
  · obtain ⟨⟨l, hl⟩, hbound⟩ := hcall _
    exact ⟨l, hl, (hbound l _ _ hl).2⟩
  · obtain ⟨l, it', hcalls⟩ := hends (start ['a'] _)
    have hnone (ws : List (Option (List Char))) : none ∈ ws ++ [none] :=
      List.mem_append_right ws (List.mem_singleton_self none)
    obtain ⟨hdescents, hretreats, hvisits⟩ := htotal _ _ hswap ['a'] _ l it' hcalls (hnone _)
    exact ⟨_, l, it', hcalls, hnone _, hdescents, hretreats, (hvisits (by decide)).2 ['b', 'c']⟩

end Completions

end PrefixMatch
