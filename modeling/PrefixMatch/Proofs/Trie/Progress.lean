import PrefixMatch.Proofs.Trie.Resolution

/-!
# Trie — the state of an enumeration

An enumeration has one path and a stack of frames, and a move changes both.  While the walk runs, the frames
are the nodes on the way from the start to the current node, the path leads there, and each frame holds
children of its node that are still to be visited (`Completions.Stands`).  Only the frame of the start was
entered without a character, so a move back never takes a character of the start (`Completions.At.step`).

* `Completions.Runs`: one state leads to another by moves; a call is a run of moves (`runs_next`), and so
  are several calls (`runs_take`).
* `Completions.take_eq`: the words of the first calls are the first words, and the others are still to come.
* `Trie.History.completions_enumerates`: the states of an enumeration and what its calls give, after any
  history and in any order of the children.
-/

namespace PrefixMatch

namespace Children

/-- All of `rest` are children in `all`, under distinct characters. -/
structure Within (rest all : Children) : Prop where
  distinct : rest.Distinct
  find? : ∀ c n, rest.find? c = some n → all.find? c = some n

theorem Distinct.within {ch : Children} (hd : ch.Distinct) : ch.Within ch :=
  ⟨hd, fun _ _ h => h⟩

/-- The first child is one of all, and so are its siblings. -/
theorem Within.of_cons {c : Char} {terminal : Bool} {below rest all : Children}
    (h : (Children.cons c terminal below rest).Within all) :
    all.find? c = some ⟨terminal, below⟩ ∧ below.Distinct ∧ rest.Within all := by
  obtain ⟨hc, hb, hr⟩ := h.distinct
  refine ⟨h.find? c _ (by rw [Children.find?, if_pos rfl]), hb, hr, fun d n hd => h.find? d n ?_⟩
  -- no sibling stands under the character of the first child
  have hne : c ≠ d := by
    rintro rfl
    rw [(find?_eq_none_iff rest).mpr hc] at hd
    cases hd
  rwa [Children.find?, if_neg hne]

end Children

namespace Completions

/-! ### Runs of moves -/

/-- One state leads to another by moves. -/
inductive Runs : Completions → Completions → Prop where
  | refl (it : Completions) : Runs it it
  | move {it it' it'' : Completions} {m : Move} (h : it.step? = some (m, it')) (t : Runs it' it'') :
      Runs it it''

theorem Runs.trans {it it' it'' : Completions} (h : Runs it it') (t : Runs it' it'') : Runs it it'' := by
  induction h with
  | refl => exact t
  | move h _ ih => exact .move h (ih t)

theorem runs_next (it : Completions) : Runs it it.next.2 := by
  fun_induction next it with
  | case1 it h => exact .refl it
  | case2 it it' h => exact .move h (.refl it')
  | case3 it it' h ih => exact .move h ih
  | case4 it it' h ih => exact .move h ih

theorem runs_take (k : Nat) (it : Completions) : Runs it (it.take k).2 := by
  induction k generalizing it with
  | zero => exact .refl it
  | succ k ih => exact (runs_next it).trans (ih it.next.2)

/-! ### Where a state stands -/

/-- The frames of a walk that started at the node `n` and stands `v` below it: one frame for each node on
the way, with children of that node that are still to be visited. -/
inductive Stands (n : Node) : List Char → List Frame → Prop where
  | start {rest : Children} (h : rest.Within n.children) : Stands n [] [⟨rest, false⟩]
  | child {v : List Char} {c : Char} {m : Node} {rest : Children} {frames : List Frame}
      (hm : n.descend? (v ++ [c]) = some m) (h : rest.Within m.children) (t : Stands n v frames) :
      Stands n (v ++ [c]) (⟨rest, true⟩ :: frames)

namespace Stands

variable {n : Node} {v : List Char} {rest rest' : Children} {pushed : Bool} {frames : List Frame}

theorem length_eq (h : Stands n v frames) : frames.length = v.length + 1 := by
  induction h with
  | start => rfl
  | child _ _ _ ih => simp [ih]

/-- The path leads to the node of the topmost frame. -/
theorem top (h : Stands n v (⟨rest, pushed⟩ :: frames)) :
    ∃ m, n.descend? v = some m ∧ rest.Within m.children := by
  cases h with
  | start h => exact ⟨n, rfl, h⟩
  | child hm h _ => exact ⟨_, hm, h⟩

/-- Children of the topmost frame may be visited. -/
theorem shrink (h : Stands n v (⟨rest, pushed⟩ :: frames))
    (hr : ∀ all, rest.Within all → rest'.Within all) : Stands n v (⟨rest', pushed⟩ :: frames) := by
  cases h with
  | start h => exact .start (hr _ h)
  | child hm h t => exact .child hm (hr _ h) t

theorem spells (h : Stands n v frames) : n.Spells v := by
  cases h with
  | start => rfl
  | child hm => exact Option.isSome_iff_exists.mpr ⟨_, hm⟩

end Stands

/-- A state of the walk that started behind `q` at the node `n`: it runs and stands below the start, or it is
over and back at the start. -/
inductive At (n : Node) (q : List Char) : Completions → Prop where
  | running {v : List Char} {frames : List Frame} (h : Stands n v frames) : At n q ⟨q ++ v, frames⟩
  | ended : At n q ⟨q, []⟩

variable {n : Node} {q : List Char} {it it' : Completions} {m : Move}

theorem At.start (hd : n.children.Distinct) (q : List Char) : At n q (start q n) := by
  have h := At.running (q := q) (Stands.start (n := n) hd.within)
  rwa [List.append_nil] at h

/-- **A move keeps path and frames together.**  Leaving a frame takes the character that entering it added,
and leaving the frame of the start takes none. -/
theorem At.step (h : At n q it) (hs : it.step? = some (m, it')) : At n q it' := by
  cases h with
  | ended => cases hs
  | @running v frames h =>
      rcases step_cases hs with ⟨pushed, frames', hframes, -, rfl⟩ |
          ⟨c, terminal, below, rest, pushed, frames', hframes, -, rfl⟩
      · simp only at hframes
        subst hframes
        cases h with
        | start => simp only [Bool.false_eq_true, if_false, List.append_nil]; exact .ended
        | child _ _ t =>
            rw [if_pos rfl, ← List.append_assoc, List.dropLast_concat]
            exact .running t
      · simp only at hframes
        subst hframes
        obtain ⟨m, hm, hwithin⟩ := h.top
        obtain ⟨hc, hbelow, -⟩ := hwithin.of_cons
        -- the child is found under its character, so the path leads to it
        have hchild : n.descend? (v ++ [c]) = some ⟨terminal, below⟩ := by
          rw [Node.descend?_append, hm, Option.bind_some, Node.descend?, hc]
          rfl
        rw [List.append_assoc]
        exact .running (.child hchild hbelow.within (h.shrink fun _ hall => hall.of_cons.2.2))

theorem At.runs (h : At n q it) (hr : Runs it it') : At n q it' := by
  induction hr with
  | refl => exact h
  | move hs _ ih => exact ih (h.step hs)

/-! ### Calls -/

theorem next_of_stack_eq_nil (h : it.stack = []) : it.next = (none, it) := by
  unfold next
  split
  · rfl
  all_goals
    next hs =>
    rw [step?_eq_none_iff.mpr h] at hs
    cases hs

/-- A call that gives nothing has emptied the stack. -/
theorem stack_next_of_eq_none (h : it.next.1 = none) : it.next.2.stack = [] := by
  fun_induction next it with
  | case1 it hs => exact step?_eq_none_iff.mp hs
  | case2 => cases h
  | case3 it it' hs ih => exact ih h
  | case4 it it' hs ih => exact ih h

/-- A call gives the path at which it ends. -/
theorem path_next_of_eq_some {w : List Char} (h : it.next.1 = some w) : w = it.next.2.path := by
  fun_induction next it with
  | case1 => cases h
  | case2 it it' hs => exact (Option.some.inj h).symm
  | case3 it it' hs ih => exact ih h
  | case4 it it' hs ih => exact ih h

/-- A call gives the first of the words still to come. -/
theorem toList_eq_next (it : Completions) : it.toList = it.next.1.toList ++ it.next.2.toList := by
  rw [toList_eq_remaining, toList_eq_remaining]
  exact (remaining_next it).1

theorem next_eq_none_iff : it.next.1 = none ↔ it.toList = [] := by
  constructor
  · intro h
    rw [toList_eq_next, h, toList_eq_remaining, (remaining_next it).2 h]
    rfl
  · intro h
    rw [toList_eq_next, List.append_eq_nil_iff] at h
    exact Option.toList_eq_nil_iff.mp h.1

/-- **The first calls give the first words**, and the other words are still to come. -/
theorem take_eq (k : Nat) (it : Completions) :
    (it.take k).1 = it.toList.take k ∧ (it.take k).2.toList = it.toList.drop k := by
  induction k generalizing it with
  | zero => exact ⟨rfl, rfl⟩
  | succ k ih =>
      obtain ⟨hgot, hrest⟩ := ih it.next.2
      rw [take, hgot, hrest]
      cases h : it.next.1 with
      | some w => simp [toList_eq_next it, h]
      | none =>
          have hover : it.next.2.toList = [] := by
            have hnil := next_eq_none_iff.mp h
            rw [toList_eq_next, List.append_eq_nil_iff] at hnil
            exact hnil.2
          simp [next_eq_none_iff.mp h, hover]

theorem take_add (j k : Nat) (it : Completions) :
    (it.take (j + k)).2 = ((it.take j).2.take k).2 := by
  induction j generalizing it with
  | zero => rw [Nat.zero_add]; rfl
  | succ j ih => rw [Nat.add_right_comm, take, take, ih]

/-- Calls on an enumeration that is over change nothing. -/
theorem take_of_stack_eq_nil (h : it.stack = []) (k : Nat) : it.take k = ([], it) := by
  induction k with
  | zero => rfl
  | succ k ih => rw [take, next_of_stack_eq_nil h, ih]; rfl

/-! ### Over any number of calls -/

/-- What holds of an enumeration of the words of `S` behind `q` in the tree of `root`, over any number of
moves and of calls. -/
structure Enumerates (root : Node) (S : Finset String) (q : List Char) (it : Completions) : Prop where
  /-- No move takes a character of `q` from the path. -/
  start : ∀ it', it.Runs it' → q <+: it'.path
  /-- While the walk runs, the path leads to a node, one character below the start for each frame but the
  first. -/
  path : ∀ it', it.Runs it' → it'.depth ≠ 0 →
    root.Spells it'.path ∧ it'.path.length = q.length + (it'.depth - 1)
  calls : ∀ k, it.Runs (it.take k).2
  word : ∀ k w, (it.take k).2.next.1 = some w →
    w = (it.take k).2.next.2.path ∧ String.ofList w ∈ S ∧ q <+: w ∧ q.length < w.length
  nodup : ∀ k, (it.take k).1.Nodup
  count : ∀ k, (it.take k).1.length + (it.take k).2.toList.length = it.toList.length
  /-- A call gives nothing just when all words were given. -/
  ends : ∀ k, (it.take k).2.next.1 = none ↔ it.toList.length ≤ k
  /-- After that the path is `q` again, and calls give nothing and change nothing. -/
  beyond : ∀ k, (it.take k).2.next.1 = none →
    ∀ j, k < j → (it.take j).2 = ⟨q, []⟩ ∧ (it.take j).2.next = (none, ⟨q, []⟩)

theorem At.prefix_path (h : At n q it) : q <+: it.path := by
  cases h with
  | running => exact List.prefix_append q _
  | ended => exact List.prefix_refl q

/-- The path below the start is as long as there are frames above the first. -/
theorem At.length_path (h : At n q it) (hd : it.depth ≠ 0) :
    it.path.length = q.length + (it.depth - 1) := by
  cases h with
  | ended => exact absurd rfl hd
  | running h => rw [depth, h.length_eq, List.length_append, Nat.add_sub_cancel]

theorem At.spells_path {root : Node} (hn : root.descend? q = some n) (h : At n q it) :
    root.Spells it.path := by
  cases h with
  | ended => exact Option.isSome_iff_exists.mpr ⟨n, hn⟩
  | running h =>
      rw [Node.Spells, Node.descend?_append, hn]
      exact h.spells

/-- When nothing comes any more, the walk is over and back at the start. -/
theorem At.next_of_eq_none (h : At n q it) (hnone : it.next.1 = none) : it.next.2 = ⟨q, []⟩ := by
  have hstack := stack_next_of_eq_none hnone
  have hat := h.runs (runs_next it)
  generalize it.next.2 = it' at hstack hat
  cases hat with
  | ended => rfl
  | running hs =>
      have hlength := hs.length_eq
      simp only at hstack
      rw [hstack] at hlength
      cases hlength

theorem next_take_eq_none_iff (k : Nat) :
    (it.take k).2.next.1 = none ↔ it.toList.length ≤ k := by
  rw [next_eq_none_iff, (take_eq k it).2, List.drop_eq_nil_iff]

end Completions

namespace Trie

open Completions (Enumerates runs_take take_eq)

variable {t : Trie} {S : Finset String} {q : String}

/-- The enumeration behind an input that is not empty and leads to a node. -/
theorem Holds.enumerates (h : t.Holds S) (hq : q ≠ "") (hs : t.root.Spells q.toList) :
    Enumerates t.root S q.toList (t.completions q) := by
  obtain ⟨n, hn, hstart⟩ : ∃ n, t.root.descend? q.toList = some n ∧
      t.completions q = .start q.toList n := by
    rcases t.completions_cases q with ⟨n, -, hn, hstart⟩ | ⟨hempty | hempty, -⟩
    · exact ⟨n, hn, hstart⟩
    · exact absurd (String.toList_eq_nil_iff.mp hempty) hq
    · exact absurd hs hempty
  have hat : ∀ it, (t.completions q).Runs it → Completions.At n q.toList it := fun it hr => by
    rw [hstart] at hr
    exact (Completions.At.start (Node.distinct_of_descend? h.distinct hn) q.toList).runs hr
  have hmem : ∀ k w, ((t.completions q).take k).2.next.1 = some w → w ∈ (t.completions q).toList := by
    intro k w hw
    have hcome := (take_eq k (t.completions q)).2
    rw [Completions.toList_eq_next, hw] at hcome
    exact List.mem_of_mem_drop (hcome ▸ List.mem_append_left _ (List.mem_singleton.mpr rfl))
  refine
    { start := fun it hr => (hat it hr).prefix_path
      path := fun it hr hd => ⟨(hat it hr).spells_path hn, (hat it hr).length_path hd⟩
      calls := fun k => runs_take k _
      word := fun k w hw => ?word
      nodup := fun k => ?nodup
      count := fun k => ?count
      ends := fun k => Completions.next_take_eq_none_iff k
      beyond := fun k hk j hj => ?beyond }
  case word =>
    obtain ⟨-, hacc, hp, hne⟩ := (Trie.mem_completions_iff h.distinct q w).mp (hmem k w hw)
    refine ⟨Completions.path_next_of_eq_some hw, (h.accepts_iff w).mp hacc, hp, ?_⟩
    exact Nat.lt_of_not_le fun hle => hne (hp.eq_of_length_le hle).symm
  case nodup =>
    rw [(take_eq k _).1]
    exact (List.take_sublist k _).nodup (nodup_completions h.distinct q)
  case count =>
    rw [(take_eq k _).1, (take_eq k _).2, ← List.length_append, List.take_append_drop]
  case beyond =>
    have hover := (hat _ (runs_take k _)).next_of_eq_none hk
    obtain ⟨i, rfl⟩ := Nat.exists_eq_add_of_lt hj
    have hlater : (⟨q.toList, []⟩ : Completions).take i = ([], ⟨q.toList, []⟩) :=
      Completions.take_of_stack_eq_nil rfl i
    have hstate : ((t.completions q).take (k + i + 1)).2 = ⟨q.toList, []⟩ := by
      rw [Nat.add_assoc, Completions.take_add, Completions.take, hover, hlater]
    rw [hstate]
    exact ⟨rfl, Completions.next_of_stack_eq_nil rfl⟩

/-- **The state of an enumeration stays consistent over every sequence of calls**, after any history and in
any order of the children.  If the input is not empty and leads to a node, then in every state of the walk
the path is the input and one more character for each frame but the first, and leads to a node.  A call
gives the path at which it ends, which was entered and is longer than the input; no word comes twice, and
the words got and those to come are always as many.  When all were given, the stack is empty, the path is
the input again, and calls give nothing and change nothing.  Behind any other input there is nothing from
the start. -/
theorem History.completions_enumerates (h : History) {u : Trie} (hu : h.trie.Rearranged u) (q : String) :
    (q ≠ "" → u.root.Spells q.toList →
      Enumerates u.root h.vocabulary q.toList (u.completions q)) ∧
    (q = "" ∨ ¬ u.root.Spells q.toList →
      (u.completions q).path = [] ∧ (u.completions q).depth = 0 ∧
        ∀ k, (u.completions q).take k = ([], u.completions q)) := by
  refine ⟨(h.holds.rearranged hu).enumerates, fun hq => ?_⟩
  have hempty : u.completions q = .empty := by
    rcases u.completions_cases q with ⟨n, hne, hn, -⟩ | ⟨-, he⟩
    · rcases hq with rfl | hs
      · exact absurd rfl hne
      · exact absurd (Option.isSome_iff_exists.mpr ⟨n, hn⟩) hs
    · exact he
  rw [hempty]
  exact ⟨rfl, rfl, Completions.take_of_stack_eq_nil rfl⟩

/-- With the children of `a` the other way round, the third call behind `a` finds the walk over. -/
theorem History.completions_enumerates_swapped :
    (sortedKeys ["aß", "ac", "acd"]).trie.Rearranged (sortedKeys ["acd", "aß", "ac"]).trie ∧
    ((sortedKeys ["acd", "aß", "ac"]).trie.completions "a").toList.length = 3 ∧
    (((sortedKeys ["acd", "aß", "ac"]).trie.completions "a").take 4).2 = ⟨['a'], []⟩ ∧
    ((sortedKeys ["acd", "aß", "ac"]).trie.completions "").depth = 0 := by
  have hswap : (sortedKeys ["aß", "ac", "acd"]).trie.Rearranged (sortedKeys ["acd", "aß", "ac"]).trie :=
    ⟨⟨rfl, .cons 'a' false (.swap 'ß' 'c' true true .nil (.cons 'd' true .nil .nil) .nil) .nil⟩, rfl⟩
  have hlength : ((sortedKeys ["acd", "aß", "ac"]).trie.completions "a").toList.length = 3 := by
    rw [Completions.toList_eq_remaining]
    decide
  obtain ⟨hrunning, -⟩ := completions_enumerates _ hswap "a"
  obtain ⟨-, hnothing⟩ := completions_enumerates _ hswap ""
  have henum := hrunning (by decide) (by decide)
  obtain ⟨hover, -⟩ := henum.beyond 3 ((henum.ends 3).mpr (Nat.le_of_eq hlength)) 4 (by decide)
  exact ⟨hswap, hlength, hover, (hnothing (.inl rfl)).2.1⟩

end Trie

end PrefixMatch
