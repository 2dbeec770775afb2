import PrefixMatch.Proofs.Trie.Resolution

/-!
# Trie — the order of sorted answers

Sorted answers are put in order by the bytes of their words.  A list *rises* (`Rises`) when each word comes before
the later ones, by bytes and by scalar values alike, and stands before every word of the list that extends it.
Both comparisons are the order of texts by characters, in which a start of a text is smaller than the text, so a
strictly increasing list rises (`Rises.of_pairwise`).

* `Trie.History.matchCompletions_rises`: encodings compare as scalar values do, and after any history and in any
  order of the children a sorted answer is the one list of what the input resolves to that rises.
-/

namespace PrefixMatch

/-- The words of the list are in strictly increasing order, compared by bytes and compared by scalar values, and
none of them stands after a word that extends it. -/
structure Rises (l : List String) : Prop where
  bytes : l.Pairwise fun v w => Text.compareBytes v w = .lt
  scalars : l.Pairwise fun v w => Text.compareScalars v w = .lt
  extension : ∀ {i j : Nat} {v w : String}, l[i]? = some v → l[j]? = some w →
    v.toList <+: w.toList → v ≠ w → i < j

/-- In a strictly increasing list the smaller one of two words stands first. -/
theorem index_lt_of_lt {l : List String} (hl : l.Pairwise (· < ·)) {i j : Nat} {v w : String}
    (hi : l[i]? = some v) (hj : l[j]? = some w) (h : v < w) : i < j := by
  obtain ⟨hil, hi⟩ := List.getElem?_eq_some_iff.mp hi
  obtain ⟨hjl, hj⟩ := List.getElem?_eq_some_iff.mp hj
  refine Nat.lt_of_not_le fun hji => ?_
  rcases Nat.eq_or_lt_of_le hji with rfl | hji
  · obtain rfl : v = w := hi.symm.trans hj
    exact String.lt_irrefl v h
  · have hwv := List.pairwise_iff_getElem.mp hl j i hjl hil hji
    rw [hi, hj] at hwv
    exact String.lt_asymm h hwv

theorem Rises.of_pairwise {l : List String} (hl : l.Pairwise (· < ·)) : Rises l where
  bytes := hl.imp fun h => (Text.compareBytes_eq_lt_iff _ _).mpr h
  scalars := hl.imp fun h => (Text.compareScalars_eq_lt_iff _ _).mpr h
  extension hi hj hstart hne := index_lt_of_lt hl hi hj (Text.lt_of_start hstart hne)

namespace Trie.History

/-- **Sorting by bytes is sorting by scalar values.**  Two texts compare by the bytes of their encodings as they do
by their scalar values, and sorting goes by this comparison.  So after any history and in any order of the children
a sorted answer is strictly increasing by both, and each of its words stands before those that extend it; no other
list of what the input resolves to is strictly increasing by bytes. -/
theorem matchCompletions_rises :
    (∀ a b : String, Text.compareBytes a b = Text.compareScalars a b ∧
      Text.bytesLE a b = (Text.compareBytes a b).isLE) ∧
    ∀ (h : History) {u : Trie}, h.trie.Rearranged u → u.settings.completionOrder = .sorted → ∀ q,
      Rises (u.matchCompletions q) ∧
      ∀ l : List String, l.Pairwise (fun v w => Text.compareBytes v w = .lt) →
        (∀ w, w ∈ l ↔ Resolves h.vocabulary q w) → l = u.matchCompletions q := by
  refine ⟨fun a b => ⟨Text.compareBytes_eq_compareScalars a b, Text.bytesLE_eq_isLE a b⟩,
    fun h u hu ho q => ?_⟩
  have holds : u.Holds h.vocabulary := h.holds.rearranged hu
  refine ⟨.of_pairwise (holds.pairwise_matchCompletions q ho), fun l hl hmem => ?_⟩
  have hlt : l.Pairwise (· < ·) := hl.imp fun h => (Text.compareBytes_eq_lt_iff _ _).mp h
  exact holds.eq_matchCompletions ho hlt hmem

/-- In the answer for `a`, the three bytes of `～` come before the four of `😀`, whose scalar value is the larger
one; in units of 16 bits it would begin with the smaller one. -/
theorem matchCompletions_rises_wide :
    (sortedKeys ["a～", "a😀", "a"]).trie.Rearranged (sortedKeys ["a😀", "a～", "a"]).trie ∧
    Rises ((sortedKeys ["a😀", "a～", "a"]).trie.matchCompletions "a") ∧
    ["a", "a～", "a😀"] = (sortedKeys ["a😀", "a～", "a"]).trie.matchCompletions "a" := by
  have hswap : (sortedKeys ["a～", "a😀", "a"]).trie.Rearranged (sortedKeys ["a😀", "a～", "a"]).trie :=
    ⟨⟨rfl, .cons 'a' true (.swap '～' '😀' true true .nil .nil .nil) .nil⟩, rfl⟩
  obtain ⟨-, hsorted⟩ := matchCompletions_rises
  obtain ⟨hrises, hunique⟩ := hsorted _ hswap rfl "a"
  refine ⟨hswap, hrises, hunique _ (by decide) fun w => ?_⟩
  have hresolve : (sortedKeys ["a～", "a😀", "a"]).trie.resolve "a" = ["a", "a～", "a😀"] := by
    rw [resolve_eq, Completions.toList_eq_remaining]
    decide
  rw [← hresolve, (sortedKeys ["a～", "a😀", "a"]).holds.mem_resolve_iff]

end Trie.History

end PrefixMatch
