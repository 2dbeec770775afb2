import PrefixMatch.Proofs.Trie.Listing
import PrefixMatch.Trie.Completions

/-!
# Trie — the lazy enumeration

The enumeration walks the tree with a stack of half-visited nodes and one path; the listing
(`Children.strings`) is a recursion on the tree.  What a state still owes (`Completions.remaining`) is
read off its stack: the words below each frame's unvisited children, behind the path as it will be
when that frame is the topmost one again.

* `Completions.remaining_step`: a move that reports a word takes that word off the front of what is
  owed, and any other move leaves it as it is.
* `Completions.toList_eq_remaining`: what comes out of a state is what it owes.
* `Completions.take_append_toList`: the words of the first calls, then the words still to come, are
  all words.
* `Completions.toList_start`: a fresh enumeration gives the listing of its node behind its path, each
  accepted word below the node once and never after a longer word that it starts.
-/

namespace PrefixMatch

namespace Completions

/-! ### One move -/

/-- Everything a move can be: it leaves a frame without unvisited children, or it enters the first
unvisited child of the topmost frame. -/
theorem step_cases {it it' : Completions} {m : Move} (h : it.step? = some (m, it')) :
    (∃ pushed frames, it.stack = ⟨.nil, pushed⟩ :: frames ∧ m = .retreat ∧
      it' = ⟨if pushed then it.path.dropLast else it.path, frames⟩) ∨
    (∃ c terminal below rest pushed frames,
      it.stack = ⟨.cons c terminal below rest, pushed⟩ :: frames ∧ m = .descend terminal ∧
      it' = ⟨it.path ++ [c], ⟨below, true⟩ :: ⟨rest, pushed⟩ :: frames⟩) := by
  unfold step? at h
  split at h
  · cases h
  · next hs => cases h; exact .inl ⟨_, _, hs, rfl, rfl⟩
  · next hs => cases h; exact .inr ⟨_, _, _, _, _, _, hs, rfl, rfl⟩

theorem step?_eq_none_iff {it : Completions} : it.step? = none ↔ it.stack = [] := by
  unfold step?
  split <;> simp_all

/-! ### What a state owes -/

/-- The words below the unvisited children of the frames, for the path at the topmost frame. -/
def owed : List Char → List Frame → List (List Char)
  | _, [] => []
  | path, f :: fs =>
    f.entries.strings.map (path ++ ·) ++ owed (if f.pushed then path.dropLast else path) fs

/-- The words that a state still has to give. -/
def remaining (it : Completions) : List (List Char) :=
  owed it.path it.stack

/-- The words that a move reports, for the path after it. -/
def reported (path : List Char) : Move → List (List Char)
  | .descend true => [path]
  | .descend false => []
  | .retreat => []

@[simp] theorem remaining_start (path : List Char) (n : Node) :
    (start path n).remaining = n.children.strings.map (path ++ ·) :=
  List.append_nil _

@[simp] theorem remaining_empty : empty.remaining = [] := rfl

/-- **One move reports the front of what is owed, or nothing.** -/
theorem remaining_step {it it' : Completions} {m : Move} (h : it.step? = some (m, it')) :
    it.remaining = reported it'.path m ++ it'.remaining := by
  rcases step_cases h with ⟨pushed, frames, hs, rfl, rfl⟩ |
      ⟨c, terminal, below, rest, pushed, frames, hs, rfl, rfl⟩
  · simp only [remaining, hs, owed, reported, Children.strings, List.map_nil, List.nil_append]
  · have hbelow : (below.strings.map (c :: ·)).map (it.path ++ ·) =
        below.strings.map (it.path ++ [c] ++ ·) := by
      rw [List.map_map]
      exact List.map_congr_left fun s _ => (List.append_cons it.path c s)
    have hown : (if terminal then [[c]] else []).map (it.path ++ ·) =
        reported (it.path ++ [c]) (.descend terminal) := by
      cases terminal with
      | true => rfl
      | false => rfl
    simp only [remaining, hs, owed, Children.strings, List.map_append, hown, hbelow, if_true,
      List.dropLast_concat, List.append_assoc]

theorem remaining_eq_nil_of_step?_eq_none {it : Completions} (h : it.step? = none) :
    it.remaining = [] := by
  rw [remaining, step?_eq_none_iff.mp h, owed]

/-! ### Whole calls -/

/-- A call gives the first word that is owed, and nothing just when nothing is owed. -/
theorem remaining_next (it : Completions) :
    it.remaining = it.next.1.toList ++ it.next.2.remaining ∧
      (it.next.1 = none → it.next.2.remaining = []) := by
  fun_induction next it with
  | case1 it h => exact ⟨rfl, fun _ => remaining_eq_nil_of_step?_eq_none h⟩
  | case2 it it' h => exact ⟨remaining_step h, fun hn => by cases hn⟩
  | case3 it it' h ih => exact ⟨(remaining_step h).trans ih.1, ih.2⟩
  | case4 it it' h ih => exact ⟨(remaining_step h).trans ih.1, ih.2⟩

/-- **The words that come out of a state are the words that it owes.** -/
theorem toList_eq_remaining (it : Completions) : it.toList = it.remaining := by
  fun_induction toList it with
  | case1 it it' h =>
      obtain ⟨h₁, h₂⟩ := remaining_next it
      rw [h] at h₁ h₂
      exact (h₁.trans (h₂ rfl)).symm
  | case2 it w it' h ih =>
      obtain ⟨h₁, -⟩ := remaining_next it
      rw [h] at h₁
      rw [ih]
      exact h₁.symm

/-- The words of the first `k` calls, and the state after them. -/
def take : Nat → Completions → List (List Char) × Completions
  | 0, it => ([], it)
  | k + 1, it => (it.next.1.toList ++ (take k it.next.2).1, (take k it.next.2).2)

/-- **The words of the first calls, then those still to come, are all words.** -/
theorem take_append_toList (k : Nat) (it : Completions) :
    (it.take k).1 ++ (it.take k).2.toList = it.toList := by
  induction k generalizing it with
  | zero => rfl
  | succ k ih =>
      rw [take, List.append_assoc, ih, toList_eq_remaining, toList_eq_remaining]
      exact (remaining_next it).1.symm

/-! ### A fresh enumeration -/

theorem toList_eq_strings (path : List Char) (n : Node) :
    (start path n).toList = n.children.strings.map (path ++ ·) := by
  rw [toList_eq_remaining, remaining_start]

/-- The word at the start is not given, only what properly extends it. -/
theorem path_not_mem_toList (path : List Char) (n : Node) : path ∉ (start path n).toList := by
  rw [toList_eq_strings]
  intro h
  obtain ⟨s, hs, he⟩ := List.mem_map.mp h
  cases List.append_cancel_left (he.trans (List.append_nil path).symm)
  exact Children.nil_not_mem_strings _ hs

theorem mem_toList_iff {n : Node} (hd : n.children.Distinct) (path w : List Char) :
    w ∈ (start path n).toList ↔ ∃ s, s ≠ [] ∧ n.accepts s = true ∧ w = path ++ s := by
  rw [toList_eq_strings, List.mem_map]
  constructor
  · rintro ⟨s, hs, rfl⟩
    cases s with
    | nil => exact absurd hs (Children.nil_not_mem_strings _)
    | cons c cs => exact ⟨c :: cs, nofun, (Children.cons_mem_strings hd n.terminal c cs).mp hs, rfl⟩
  · rintro ⟨s, hne, hs, rfl⟩
    cases s with
    | nil => exact absurd rfl hne
    | cons c cs => exact ⟨c :: cs, (Children.cons_mem_strings hd n.terminal c cs).mpr hs, rfl⟩

theorem pairwise_toList {n : Node} (hd : n.children.Distinct) (path : List Char) :
    (start path n).toList.Pairwise fun v w => ¬ w <+: v := by
  rw [toList_eq_strings, List.pairwise_map]
  exact (Children.pairwise_strings hd).imp fun h => by rwa [List.prefix_append_right_inj]

theorem nodup_toList {n : Node} (hd : n.children.Distinct) (path : List Char) :
    (start path n).toList.Nodup :=
  (pairwise_toList hd path).imp fun h => by rintro rfl; exact h (List.prefix_refl _)

/-- **A fresh enumeration gives the listing of its node, behind its path.**  The listing is the one
by recursion on the tree: for each child in turn its character, if it is terminal, and its character
before what is listed for the child.  However many calls are made first, their words and those still
to come are that list.  The word at the start is not in it; and as the children of a node are a map,
it holds each accepted word below the node once, and no word after a longer one that it starts. -/
theorem toList_start (path : List Char) (n : Node) :
    (start path n).toList = n.children.strings.map (path ++ ·) ∧
    (n.children.strings = n.children.toList.flatMap fun (c, m) =>
      (if m.terminal then [[c]] else []) ++ m.children.strings.map (c :: ·)) ∧
    (∀ k, ((start path n).take k).1 ++ ((start path n).take k).2.toList =
      n.children.strings.map (path ++ ·)) ∧
    path ∉ (start path n).toList ∧
    (n.children.Distinct →
      (∀ s, (start path n).toList.count (path ++ s) =
        if s ≠ [] ∧ n.accepts s = true then 1 else 0) ∧
      (∀ w ∈ (start path n).toList, ∃ s, w = path ++ s ∧ s ≠ [] ∧ n.accepts s = true) ∧
      (start path n).toList.Pairwise fun v w => ¬ w <+: v) := by
  refine ⟨toList_eq_strings path n, Children.strings_eq_flatMap _, fun k => ?_,
    path_not_mem_toList path n, fun hd => ⟨fun s => ?_, fun w hw => ?_, pairwise_toList hd path⟩⟩
  · rw [take_append_toList, toList_eq_strings]
  · rw [(nodup_toList hd path).count]
    congr 1
    rw [mem_toList_iff hd, eq_iff_iff]
    constructor
    · rintro ⟨v, hne, hv, he⟩
      cases List.append_cancel_left he
      exact ⟨hne, hv⟩
    · rintro ⟨hne, hs⟩
      exact ⟨s, hne, hs, rfl⟩
  · obtain ⟨s, hne, hs, rfl⟩ := (mem_toList_iff hd path w).mp hw
    exact ⟨s, rfl, hne, hs⟩

/-- Below `b`, with `bc` under it and `d` beside it, the word `abc` is given once behind `a`. -/
theorem count_toList_nested :
    (Children.cons 'b' true (.cons 'c' true .nil .nil) (.cons 'd' true .nil .nil)).Distinct ∧
      (start ['a'] ⟨false, .cons 'b' true (.cons 'c' true .nil .nil)
        (.cons 'd' true .nil .nil)⟩).toList.count ['a', 'b', 'c'] = 1 :=
  ⟨by decide, ((toList_start ['a'] ⟨false, _⟩).2.2.2.2 (by decide)).1 ['b', 'c']⟩

end Completions

end PrefixMatch
