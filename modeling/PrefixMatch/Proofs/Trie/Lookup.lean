import PrefixMatch.Proofs.Trie.History

/-!
# Trie — longest-prefix lookup

What a lookup answers, in terms of the set `S` of words held.  The *divergence* of an input is the
longest of its starts that is also a start of a word of `S` (`IsDivergence`); it is what the walk
follows (`Holds.isDivergence_iff`).

* `MatchPolicy.Answers`: under `stopAtDivergence` the divergence itself, if it is a non-empty word of
  `S`; under `longestTerminal` the longest non-empty word of `S` that starts the input.
* `Trie.History.longestPrefixMatch_eq_some_iff`: after any history, a lookup answers just that.
-/

namespace PrefixMatch

/-! ### What is asked for -/

/-- `d` is the longest start of `q` that is also a start of a word of `S`. -/
structure IsDivergence (S : Finset String) (q d : String) : Prop where
  start : d.toList <+: q.toList
  shared : ∃ s ∈ S, d.toList <+: s.toList
  longest : ∀ p : String, p.toList <+: q.toList → (∃ s ∈ S, p.toList <+: s.toList) →
    p.length ≤ d.length

/-- `w` is the longest non-empty word of `S` that starts `q`. -/
structure IsLongestEntry (S : Finset String) (q w : String) : Prop where
  ne_empty : w ≠ ""
  mem : w ∈ S
  start : w.toList <+: q.toList
  longest : ∀ v ∈ S, v ≠ "" → v.toList <+: q.toList → v.length ≤ w.length

/-- The word that a policy asks a lookup to report, over the words of `S`. -/
def MatchPolicy.Answers (S : Finset String) (q : String) : MatchPolicy → String → Prop
  | .stopAtDivergence, w => IsDivergence S q w ∧ w ≠ "" ∧ w ∈ S
  | .longestTerminal, w => IsLongestEntry S q w

namespace Trie

/-! ### What a lookup reports -/

/-- The part of an input that the walk follows, if it is a non-empty entry. -/
def followedEntry (t : Trie) (input : List Char) : Option (List Char) :=
  if t.root.spelled input ≠ [] ∧ t.root.accepts (t.root.spelled input) = true then
    some (t.root.spelled input)
  else none

/-- The part of an input that a lookup reports, in characters. -/
def reported (t : Trie) (input : List Char) : Option (List Char) :=
  match t.settings.matchPolicy with
  | .stopAtDivergence => t.followedEntry input
  | .longestTerminal => t.root.lastAccepted input

/-- A lookup never cuts the input inside a character or behind its end. -/
theorem longestPrefixMatch_eq (t : Trie) (input : String) :
    t.longestPrefixMatch input = (t.reported input.toList).map String.ofList := by
  have hcut := Text.before?_byteLength (t.root.spelled_prefix_self input.toList)
  cases hp : t.settings.matchPolicy with
  | stopAtDivergence =>
      simp only [longestPrefixMatch, reported, followedEntry, hp, Bool.and_eq_true,
        Node.advanced_walk, Node.terminal_walk, Node.matched_walk]
      split
      · rw [Option.bind_eq_bind, Option.bind_some, hcut]
      · rfl
  | longestTerminal =>
      simp only [longestPrefixMatch, reported, hp, Node.longestTerminal_walk]
      cases hl : t.root.lastAccepted input.toList with
      | none => rfl
      | some w =>
          rw [Option.map_some, Option.bind_eq_bind, Option.bind_some,
            Text.before?_byteLength (Node.of_lastAccepted_eq_some hl).2.1]

namespace Holds

variable {t : Trie} {S : Finset String}

/-- **The walk follows the divergence**, where there is one at all. -/
theorem isDivergence_iff (h : t.Holds S) {q d : String} :
    IsDivergence S q d ↔ S.Nonempty ∧ t.root.spelled q.toList = d.toList := by
  constructor
  · rintro ⟨hstart, ⟨s, hs, hds⟩, hlong⟩
    have hd : d.toList <+: t.root.spelled q.toList :=
      Node.prefix_spelled_iff.mpr ⟨hstart, (h.spells_iff _).mpr (.inr ⟨s, hs, hds⟩)⟩
    -- what is followed is no longer than the divergence, as it starts a word held or is empty
    refine ⟨⟨s, hs⟩, (hd.eq_of_length_le ?_).symm⟩
    rcases (h.spells_iff _).mp (t.root.spells_spelled q.toList) with hnil | hshared
    · rw [hnil]; exact Nat.zero_le _
    · have hle := hlong (String.ofList (t.root.spelled q.toList))
      simp only [String.toList_ofList, String.length_ofList] at hle
      exact hle (t.root.spelled_prefix_self _) hshared
  · rintro ⟨⟨s, hs⟩, hd⟩
    refine ⟨hd ▸ t.root.spelled_prefix_self _, ?_, fun p hp hshared => ?_⟩
    · rw [← hd]
      rcases (h.spells_iff _).mp (t.root.spells_spelled q.toList) with hnil | hshared
      · rw [hnil]; exact ⟨s, hs, List.nil_prefix⟩
      · exact hshared
    · have hspells := (h.spells_iff p.toList).mpr (.inr hshared)
      rw [← String.length_toList, ← String.length_toList, ← hd]
      exact (Node.prefix_spelled_iff.mpr ⟨hp, hspells⟩).length_le

/-- The longest non-empty start that the tree accepts is the longest non-empty word held that starts
the input. -/
theorem isLongestEntry_iff (h : t.Holds S) {q w : String} :
    IsLongestEntry S q w ↔ t.root.lastAccepted q.toList = some w.toList := by
  rw [Node.lastAccepted_eq_some_iff, h.accepts_toList_iff, Ne, String.toList_eq_nil_iff]
  constructor
  · rintro ⟨hne, hmem, hstart, hlong⟩
    refine ⟨hne, hstart, hmem, fun v hv hacc => ?_⟩
    refine List.prefix_of_prefix_length_le hv hstart ?_
    by_cases hv' : v = []
    · rw [hv']; exact Nat.zero_le _
    · have hle := hlong (String.ofList v) ((h.accepts_iff v).mp hacc)
      simp only [String.toList_ofList, ← String.length_toList, Ne, String.ofList_eq_empty_iff] at hle
      exact hle hv' hv
  · rintro ⟨hne, hstart, hmem, hlong⟩
    refine ⟨hne, hmem, hstart, fun v hv _ hvq => ?_⟩
    rw [← String.length_toList, ← String.length_toList]
    exact (hlong v.toList hvq ((h.accepts_toList_iff v).mpr hv)).length_le

/-- **The walk ends at a non-empty entry just when the divergence is one.** -/
theorem followedEntry_eq_some_iff (h : t.Holds S) {q w : String} :
    t.followedEntry q.toList = some w.toList ↔ IsDivergence S q w ∧ w ≠ "" ∧ w ∈ S := by
  rw [h.isDivergence_iff, ← h.accepts_toList_iff, Ne, ← String.toList_eq_nil_iff, followedEntry]
  constructor
  · intro hw
    split at hw
    · next hs =>
      have hw := Option.some.inj hw
      rw [hw] at hs
      exact ⟨⟨⟨w, (h.accepts_toList_iff w).mp hs.2⟩, hw⟩, hs⟩
    · cases hw
  · rintro ⟨⟨-, hw⟩, hs⟩
    rw [hw, if_pos hs]

theorem longestPrefixMatch_iff (h : t.Holds S) (q w : String) :
    t.longestPrefixMatch q = some w ↔ t.settings.matchPolicy.Answers S q w := by
  have hofList : ∀ v : List Char, String.ofList v = w ↔ v = w.toList := fun v => by
    rw [← String.toList_inj, String.toList_ofList]
  rw [longestPrefixMatch_eq, Option.map_eq_some_iff]
  simp only [hofList, exists_eq_right]
  cases hp : t.settings.matchPolicy with
  | stopAtDivergence =>
      simp only [reported, hp]
      exact h.followedEntry_eq_some_iff
  | longestTerminal =>
      simp only [reported, hp]
      exact h.isLongestEntry_iff.symm

end Holds

/-- **A lookup answers as the set of words entered**, after any history.  It reports a word just when
the policy asks for that word: under `stopAtDivergence` the divergence of the input, if it is non-empty
and was entered, and under `longestTerminal` the longest non-empty word entered that starts the input.
When the policy asks for no word it reports none, and it never reports the empty word. -/
theorem History.longestPrefixMatch_eq_some_iff (h : History) (q : String) :
    (∀ w, h.trie.longestPrefixMatch q = some w ↔
      h.trie.settings.matchPolicy.Answers h.vocabulary q w) ∧
    (h.trie.longestPrefixMatch q = none ↔
      ∀ w, ¬ h.trie.settings.matchPolicy.Answers h.vocabulary q w) ∧
    h.trie.longestPrefixMatch q ≠ some "" := by
  have hiff := h.holds.longestPrefixMatch_iff q
  refine ⟨hiff, ?_, fun he => ?_⟩
  · rw [Option.eq_none_iff_forall_ne_some]
    exact forall_congr' fun w => not_congr (hiff w)
  · have ha := (hiff "").mp he
    cases hp : h.trie.settings.matchPolicy with
    | stopAtDivergence => rw [hp] at ha; exact ha.2.1 rfl
    | longestTerminal => rw [hp] at ha; exact ha.ne_empty rfl

end Trie

end PrefixMatch
