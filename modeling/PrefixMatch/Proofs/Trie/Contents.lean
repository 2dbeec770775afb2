import Mathlib.Data.Finset.Card
import PrefixMatch.Proofs.Trie.Arrangement
import PrefixMatch.Proofs.Trie.Walk

/-!
# Trie — the set of words that a trie holds

`Trie.Holds` relates a trie to a finite set of words: the tree is well formed and accepts just these
words.  Entering a word puts it into the set (`Holds.insert`); neither the settings nor the order of
the children matter (`Holds.setSettings`, `Holds.rearranged`).  Whatever a trie answers about its
entries follows from the set that it holds.

* `Holds.isNew_iff`, `Holds.contains_iff`, `Holds.mem_entries_iff`: newness and membership.
* `Holds.size_eq`, `Holds.isEmpty_iff`: the number of words, and whether there are any.
* `Holds.spells_iff`: the paths of the tree are the starts of the words.
-/

namespace PrefixMatch

namespace Node

/-- Entering a word keeps the keys of children distinct. -/
theorem distinct_enter {n : Node} (hd : n.children.Distinct) (w : List Char) :
    (n.enter w).children.Distinct := by
  cases w with
  | nil => exact hd
  | cons c cs => exact hd.enter c cs

/-- Entering a word ends in a terminal node, and so makes no dead branch. -/
theorem live_enter {n : Node} (hl : n.children.Live) (w : List Char) :
    (n.enter w).children.Live := by
  cases w with
  | nil => exact hl
  | cons c cs => exact hl.enter c cs

end Node

namespace Trie

/-- The trie holds just the words of `S`, in a tree of maps without dead branches. -/
structure Holds (t : Trie) (S : Finset String) : Prop where
  distinct : t.root.children.Distinct
  live : t.root.children.Live
  accepts_iff : ∀ w : List Char, t.root.accepts w = true ↔ String.ofList w ∈ S

namespace Holds

variable {t u : Trie} {S : Finset String}

/-! ### Operations -/

/-- A new trie holds nothing. -/
theorem empty (settings : TrieSettings) : (withSettings settings).Holds ∅ where
  distinct := trivial
  live := trivial
  accepts_iff w := by
    rw [withSettings, Node.accepts_default]
    simp

/-- **Entering a word puts it into the set.** -/
theorem insert (h : t.Holds S) (word : String) : (t.insert word).Holds (S ∪ {word}) where
  distinct := Node.distinct_enter h.distinct word.toList
  live := Node.live_enter h.live word.toList
  accepts_iff w := by
    rw [Trie.insert, Node.accepts_enter, h.accepts_iff, Finset.mem_union, Finset.mem_singleton,
      ← String.toList_inj, String.toList_ofList, or_comm]

/-- Settings are no part of what is held. -/
theorem setSettings (h : t.Holds S) (settings : TrieSettings) : (t.setSettings settings).Holds S :=
  ⟨h.distinct, h.live, h.accepts_iff⟩

/-- Neither is the order of children. -/
theorem rearranged (h : t.Holds S) (hu : t.Rearranged u) : u.Holds S where
  distinct := hu.root.children.distinct h.distinct
  live := hu.root.children.live h.live
  accepts_iff w := (hu.root.accepts_iff h.distinct w).trans (h.accepts_iff w)

/-! ### Answers -/

theorem accepts_toList_iff (h : t.Holds S) (word : String) :
    t.root.accepts word.toList = true ↔ word ∈ S := by
  rw [h.accepts_iff, String.ofList_toList]

/-- A word is new when it is not held. -/
theorem isNew_iff (h : t.Holds S) (word : String) : t.isNew word = true ↔ word ∉ S := by
  rw [← h.accepts_toList_iff, isNew, Bool.not_eq_true', Bool.not_eq_true]

/-- A word is contained when it is held. -/
theorem contains_iff (h : t.Holds S) (word : String) : t.contains word = true ↔ word ∈ S := by
  rw [contains_eq_accepts, h.accepts_toList_iff]

/-- **The entries are the words held.** -/
theorem mem_entries_iff (h : t.Holds S) (word : String) : word ∈ t.entries ↔ word ∈ S := by
  rw [← h.accepts_toList_iff, ← Node.mem_strings_iff h.distinct, entries, List.mem_map]
  constructor
  · rintro ⟨w, hw, rfl⟩; rwa [String.toList_ofList]
  · intro hw; exact ⟨word.toList, hw, String.ofList_toList⟩

/-- No word is an entry twice. -/
theorem nodup_entries (h : t.Holds S) : t.entries.Nodup :=
  (Node.nodup_strings h.distinct).map fun _ _ => String.ofList_injective

/-- **The count of terminal nodes is the number of words held.** -/
theorem size_eq (h : t.Holds S) : t.size = S.card := by
  have hS : t.entries.toFinset = S := by
    ext word
    rw [List.mem_toFinset, h.mem_entries_iff]
  rw [← hS, List.toFinset_card_of_nodup h.nodup_entries, entries, List.length_map,
    Node.length_strings, size]

/-- **What the tree spells**: the empty word, and the starts of the words held. -/
theorem spells_iff (h : t.Holds S) (p : List Char) :
    t.root.Spells p ↔ p = [] ∨ ∃ s ∈ S, p <+: s.toList := by
  rw [Node.spells_iff h.live]
  refine or_congr_right ⟨?_, ?_⟩
  · rintro ⟨w, hw, hp⟩
    exact ⟨String.ofList w, (h.accepts_iff w).mp hw, by rwa [String.toList_ofList]⟩
  · rintro ⟨s, hs, hp⟩
    exact ⟨s.toList, (h.accepts_toList_iff s).mpr hs, hp⟩

/-- **A root without children that is not terminal means that no word is held**: a child, where there
is one, leads to a word. -/
theorem isEmpty_iff (h : t.Holds S) : t.isEmpty = true ↔ S = ∅ := by
  rw [isEmpty, Bool.and_eq_true, beq_iff_eq, Bool.not_eq_true', Finset.eq_empty_iff_forall_notMem]
  constructor
  · rintro ⟨hc, ht⟩ word hw
    rw [← h.accepts_toList_iff] at hw
    cases hl : word.toList with
    | nil => rw [hl, Node.accepts_nil, ht] at hw; cases hw
    | cons c cs => rw [hl, Node.accepts_cons, hc] at hw; cases hw
  · intro hS
    -- only because no branch is dead does an empty set leave the root without children
    refine ⟨Classical.byContradiction fun hc => ?_, ?_⟩
    · obtain ⟨w, hw⟩ := Node.exists_accepts_of_children h.live hc
      exact hS _ ((h.accepts_iff w).mp hw)
    · cases ht : t.root.terminal with
      | false => rfl
      | true => exact absurd ((h.accepts_iff []).mp ht) (hS _)

end Holds

end Trie

end PrefixMatch
