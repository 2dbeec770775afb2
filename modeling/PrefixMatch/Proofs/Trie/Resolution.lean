import PrefixMatch.Proofs.Trie.Enumeration
import PrefixMatch.Proofs.Trie.Lookup

/-!
# Trie — what an input resolves to

In terms of the set `S` of words held, an input resolves to its divergence, if that is a non-empty word
of `S`; and if the input is not empty and is its own divergence, also to the words of `S` that properly
extend it (`Resolves`).  Neither the match policy nor the order of the children has a part in this.

* `Trie.completions_cases`: the enumeration is a fresh one at the node that the input leads to, or
  there is none.
* `Holds.mem_resolve_iff`, `Holds.nodup_resolve`: the resolution holds the words that it should, once
  each.
* `Holds.pairwise_matchCompletions`: under `sorted` they are strictly increasing, which no other list of
  them is (`Holds.eq_matchCompletions`), so that the list depends on the set alone
  (`Holds.matchCompletions_eq`).
* `Trie.History.matchCompletions_resolves`: all of this, after any history and in any order of the
  children.
-/

namespace PrefixMatch

/-! ### What is asked for -/

/-- `w` is a word of `S` that properly extends `q`. -/
structure IsExtension (S : Finset String) (q w : String) : Prop where
  mem : w ∈ S
  start : q.toList <+: w.toList
  ne : w ≠ q

/-- `w` is a word of `S` that `q` resolves to: its divergence, or an extension of a `q` that is its own
divergence. -/
def Resolves (S : Finset String) (q w : String) : Prop :=
  (IsDivergence S q w ∧ w ≠ "" ∧ w ∈ S) ∨ (q ≠ "" ∧ IsDivergence S q q ∧ IsExtension S q w)

namespace Trie

/-! ### The enumeration behind an input -/

/-- **The enumeration starts at the node of the input**, if the input is not empty and leads to one;
otherwise it is over from the start. -/
theorem completions_cases (t : Trie) (q : String) :
    (∃ m, q.toList ≠ [] ∧ t.root.descend? q.toList = some m ∧
      t.completions q = .start q.toList m) ∨
    ((q.toList = [] ∨ ¬ t.root.Spells q.toList) ∧ t.completions q = .empty) := by
  simp only [completions, completionsAfter, matchedPart_walk, Bool.and_eq_true, Node.advanced_walk,
    Node.consumedAll_walk]
  by_cases hs : t.root.Spells q.toList
  · have hself := Node.spelled_eq_self_iff.mpr hs
    have hnode := t.root.descend?_walk q.toList
    rw [hself] at hnode ⊢
    by_cases hq : q.toList = []
    · exact .inr ⟨.inl hq, if_neg fun h => h.1 hq⟩
    · exact .inl ⟨_, hq, hnode, if_pos ⟨hq, hs⟩⟩
  · exact .inr ⟨.inr hs, if_neg fun h => hs h.2⟩

theorem mem_completions_iff {t : Trie} (hd : t.root.children.Distinct) (q : String)
    (w : List Char) :
    w ∈ (t.completions q).toList ↔
      (q.toList ≠ [] ∧ t.root.Spells q.toList) ∧
        t.root.accepts w = true ∧ q.toList <+: w ∧ w ≠ q.toList := by
  rcases t.completions_cases q with ⟨m, hq, hm, he⟩ | ⟨hq, he⟩
  · have hs : t.root.Spells q.toList := Option.isSome_iff_exists.mpr ⟨m, hm⟩
    -- a word that the node of the input accepts is one that the root accepts behind the input
    rw [he, Completions.mem_toList_iff (Node.distinct_of_descend? hd hm)]
    constructor
    · rintro ⟨s, hne, hacc, rfl⟩
      refine ⟨⟨hq, hs⟩, (Node.accepts_append hm s).trans hacc, List.prefix_append _ _, ?_⟩
      rwa [Ne, List.append_right_eq_self]
    · rintro ⟨-, hacc, ⟨s, rfl⟩, hne⟩
      refine ⟨s, ?_, (Node.accepts_append hm s).symm.trans hacc, rfl⟩
      rwa [Ne, List.append_right_eq_self] at hne
  · rw [he, Completions.toList_eq_remaining, Completions.remaining_empty]
    refine ⟨fun h => absurd h List.not_mem_nil, ?_⟩
    rintro ⟨⟨hne, hs⟩, -⟩
    rcases hq with hq | hq
    · exact absurd hq hne
    · exact absurd hs hq

theorem nodup_completions {t : Trie} (hd : t.root.children.Distinct) (q : String) :
    (t.completions q).toList.Nodup := by
  rcases t.completions_cases q with ⟨m, -, hm, he⟩ | ⟨-, he⟩
  · rw [he]; exact Completions.nodup_toList (Node.distinct_of_descend? hd hm) q.toList
  · rw [he, Completions.toList_eq_remaining]; exact .nil

/-- The resolution in characters: the part followed, if it is an entry, and what the enumeration
gives. -/
theorem resolve_eq (t : Trie) (q : String) :
    t.resolve q =
      ((t.followedEntry q.toList).toList ++ (t.completions q).toList).map String.ofList := by
  simp only [resolve, completions, followedEntry, matchedPart_walk, Bool.and_eq_true,
    Node.advanced_walk, Node.terminal_walk, List.map_append]
  split
  · rfl
  · rfl

/-- A configured order lists the resolution in another order. -/
theorem matchCompletions_perm (t : Trie) (q : String) : (t.matchCompletions q).Perm (t.resolve q) := by
  rw [matchCompletions]
  cases t.settings.completionOrder with
  | unordered => exact .refl _
  | sorted => exact List.mergeSort_perm _ _

namespace Holds

variable {t u : Trie} {S : Finset String}

/-! ### The resolution -/

theorem mem_completions_iff (h : t.Holds S) (q w : String) :
    w.toList ∈ (t.completions q).toList ↔
      q ≠ "" ∧ IsDivergence S q q ∧ IsExtension S q w := by
  rw [Trie.mem_completions_iff h.distinct, h.isDivergence_iff, h.accepts_toList_iff,
    Node.spelled_eq_self_iff, Ne, String.toList_eq_nil_iff, Ne, String.toList_inj]
  constructor
  · rintro ⟨⟨hne, hs⟩, hmem, hstart, hw⟩
    exact ⟨hne, ⟨⟨w, hmem⟩, hs⟩, hmem, hstart, hw⟩
  · rintro ⟨hne, ⟨-, hs⟩, hmem, hstart, hw⟩
    exact ⟨⟨hne, hs⟩, hmem, hstart, hw⟩

/-- **The resolution holds just the words that the input resolves to.** -/
theorem mem_resolve_iff (h : t.Holds S) (q w : String) : w ∈ t.resolve q ↔ Resolves S q w := by
  have hmem : w ∈ t.resolve q ↔
      w.toList ∈ (t.followedEntry q.toList).toList ++ (t.completions q).toList := by
    rw [resolve_eq, List.mem_map]
    constructor
    · rintro ⟨v, hv, rfl⟩; rwa [String.toList_ofList]
    · intro hw; exact ⟨w.toList, hw, String.ofList_toList⟩
  rw [hmem, List.mem_append, Option.mem_toList, h.followedEntry_eq_some_iff,
    h.mem_completions_iff, Resolves]

/-- **No word is in the resolution twice**: the part that was followed is in the enumeration only if
it is the whole input, which the enumeration leaves out. -/
theorem nodup_resolve (h : t.Holds S) (q : String) : (t.resolve q).Nodup := by
  have hown : (t.followedEntry q.toList).toList.Nodup := by
    cases t.followedEntry q.toList with
    | none => exact .nil
    | some v => exact List.nodup_singleton v
  rw [resolve_eq]
  refine List.Nodup.map (fun _ _ => String.ofList_injective) ?_
  refine List.nodup_append.mpr ⟨hown, nodup_completions h.distinct q, ?_⟩
  rintro v hv w hw rfl
  obtain ⟨⟨-, hs⟩, -, -, hne⟩ := (Trie.mem_completions_iff h.distinct q v).mp hw
  have hv := Option.mem_toList.mp hv
  simp only [followedEntry, Node.spelled_eq_self_iff.mpr hs] at hv
  split at hv
  · exact hne (Option.some.inj hv).symm
  · cases hv

theorem mem_matchCompletions_iff (h : t.Holds S) (q w : String) :
    w ∈ t.matchCompletions q ↔ Resolves S q w :=
  (t.matchCompletions_perm q).mem_iff.trans (h.mem_resolve_iff q w)

theorem nodup_matchCompletions (h : t.Holds S) (q : String) : (t.matchCompletions q).Nodup :=
  (t.matchCompletions_perm q).nodup_iff.mpr (h.nodup_resolve q)

/-! ### The sorted order -/

/-- **Sorted answers are strictly increasing**, character by character. -/
theorem pairwise_matchCompletions (h : t.Holds S) (q : String)
    (ho : t.settings.completionOrder = .sorted) : (t.matchCompletions q).Pairwise (· < ·) := by
  have hle : (t.matchCompletions q).Pairwise fun a b => Text.bytesLE a b = true := by
    rw [matchCompletions, ho]
    refine List.pairwise_mergeSort (fun a b c hab hbc => ?_) (fun a b => ?_) _
    · rw [Text.bytesLE_iff] at hab hbc ⊢
      exact String.le_trans hab hbc
    · rw [Bool.or_eq_true, Text.bytesLE_iff, Text.bytesLE_iff]
      exact String.le_total a b
  refine (hle.and (h.nodup_matchCompletions q)).imp fun ⟨hab, hne⟩ => ?_
  rw [Text.bytesLE_iff] at hab
  exact String.not_le.mp fun hba => hne (String.le_antisymm hab hba)

/-- **Only one list holds what an input resolves to in increasing order**, so how the words are sorted does not
matter. -/
theorem eq_matchCompletions (h : t.Holds S) {q : String} (ho : t.settings.completionOrder = .sorted)
    {l : List String} (hl : l.Pairwise (· < ·)) (hmem : ∀ w, w ∈ l ↔ Resolves S q w) :
    l = t.matchCompletions q := by
  have hperm : l.Perm (t.matchCompletions q) := by
    rw [List.perm_ext_iff_of_nodup (hl.imp String.ne_of_lt) (h.nodup_matchCompletions q)]
    intro w
    rw [hmem, h.mem_matchCompletions_iff]
  refine hperm.eq_of_pairwise (fun a b _ _ hab hba => ?_) hl (h.pairwise_matchCompletions q ho)
  exact absurd hba (String.lt_asymm hab)

/-- **Sorted answers depend on the words held alone.** -/
theorem matchCompletions_eq (h : t.Holds S) (hu : u.Holds S) (q : String)
    (ho : t.settings.completionOrder = .sorted) (hou : u.settings.completionOrder = .sorted) :
    t.matchCompletions q = u.matchCompletions q :=
  hu.eq_matchCompletions hou (h.pairwise_matchCompletions q ho) (h.mem_matchCompletions_iff q)

end Holds

/-- **An input resolves as the set of words entered**, after any history and in any order of the
children.  The answer holds the divergence of the input, if it is non-empty and was entered, which is
what a lookup under `stopAtDivergence` reports, whatever the policy; and, if the input is not empty and
is its own divergence, each word entered that properly extends it.  It holds no word twice.  In sorted
order it is strictly increasing by characters, and it is the same list after any history that entered
the same words and in any order of the children. -/
theorem History.matchCompletions_resolves (h : History) {u : Trie} (hu : h.trie.Rearranged u)
    (q : String) :
    (u.matchCompletions q).Nodup ∧
    (∀ w, w ∈ u.matchCompletions q ↔ Resolves h.vocabulary q w) ∧
    (∀ w, (IsDivergence h.vocabulary q w ∧ w ≠ "" ∧ w ∈ h.vocabulary) ↔
      (u.setSettings ⟨.stopAtDivergence, u.settings.completionOrder⟩).longestPrefixMatch q =
        some w) ∧
    (u.settings.completionOrder = .sorted →
      (u.matchCompletions q).Pairwise (· < ·) ∧
      ∀ (g : History) (v : Trie), g.vocabulary = h.vocabulary → g.trie.Rearranged v →
        v.settings.completionOrder = .sorted → v.matchCompletions q = u.matchCompletions q) := by
  have holds : u.Holds h.vocabulary := h.holds.rearranged hu
  refine ⟨holds.nodup_matchCompletions q, holds.mem_matchCompletions_iff q, fun w => ?_,
    fun ho => ⟨holds.pairwise_matchCompletions q ho, fun g v hg hv hov => ?_⟩⟩
  · have hlookup := holds.setSettings ⟨.stopAtDivergence, u.settings.completionOrder⟩
    exact (hlookup.longestPrefixMatch_iff q w).symm
  · have hv : v.Holds h.vocabulary := hg ▸ g.holds.rearranged hv
    exact hv.matchCompletions_eq holds q hov ho

/-- The given words, to be listed in increasing order. -/
def History.sortedKeys (words : List String) : History :=
  ⟨.ofKeys words, [.setSettings ⟨.longestTerminal, .sorted⟩]⟩

/-- Entering `ac` before `ab` swaps two children, and the answer for `a` stays the same. -/
theorem History.matchCompletions_resolves_swapped :
    (sortedKeys ["ab", "ac"]).trie.Rearranged (sortedKeys ["ac", "ab"]).trie ∧
    (sortedKeys ["ab", "ac"]).trie ≠ (sortedKeys ["ac", "ab"]).trie ∧
    ((sortedKeys ["ac", "ab"]).trie.matchCompletions "a").Pairwise (· < ·) ∧
    (sortedKeys ["ab", "ac"]).trie.matchCompletions "a" =
      (sortedKeys ["ac", "ab"]).trie.matchCompletions "a" := by
  have hswap : (sortedKeys ["ab", "ac"]).trie.Rearranged (sortedKeys ["ac", "ab"]).trie :=
    ⟨⟨rfl, .cons 'a' false (.swap 'b' 'c' true true .nil .nil .nil) .nil⟩, rfl⟩
  have hback : (sortedKeys ["ac", "ab"]).trie.Rearranged (sortedKeys ["ab", "ac"]).trie :=
    ⟨⟨rfl, .cons 'a' false (.swap 'c' 'b' true true .nil .nil .nil) .nil⟩, rfl⟩
  obtain ⟨-, -, -, hsorted⟩ := matchCompletions_resolves _ hswap "a"
  obtain ⟨hlt, heq⟩ := hsorted rfl
  exact ⟨hswap, by decide, hlt, heq _ _ (by decide) hback rfl⟩

end Trie

end PrefixMatch
