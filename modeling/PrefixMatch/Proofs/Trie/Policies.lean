import PrefixMatch.Proofs.Trie.Lookup

/-!
# Trie — the two match policies

One tree is asked under both policies (`Trie.lookupUnder`).  What the walk stops at is also the last
terminal node that it crossed, so whatever `stopAtDivergence` reports, `longestTerminal` reports too.  How
far a word reaches along an input is told in characters (`Text.agreement`).

* `Trie.Holds.lookupUnder_of_stop`: the policy that stops at the divergence reports nothing else.
* `Trie.Holds.stop_eq_none_iff`: of a longest entry it reports nothing just when a word goes on along the
  input behind that entry.
* `Trie.History.policies_differ`: both, after any history, with the vocabularies under which the policies
  never differ.
-/

namespace PrefixMatch

namespace Text

/-! ### How far two texts agree -/

/-- The number of characters on which two texts agree before they part or one of them ends. -/
def agreement : List Char → List Char → Nat
  | a :: as, b :: bs => if a = b then agreement as bs + 1 else 0
  | _, _ => 0

/-- **A start of one text is a start of the other one just as far as they agree.** -/
theorem length_le_agreement_iff {p as bs : List Char} (hp : p <+: bs) :
    p.length ≤ agreement as bs ↔ p <+: as := by
  induction as generalizing p bs with
  | nil => cases p <;> simp [agreement]
  | cons a as ih =>
      cases p with
      | nil => simp
      | cons c cs =>
          cases bs with
          | nil => cases List.prefix_nil.mp hp
          | cons b bs =>
              obtain ⟨rfl, hcs⟩ := List.cons_prefix_cons.mp hp
              rw [List.cons_prefix_cons, agreement, List.length_cons]
              by_cases hac : a = c
              · rw [if_pos hac, Nat.succ_le_succ_iff, ih hcs]
                simp [hac]
              · rw [if_neg hac]
                simp [Ne.symm hac]

theorem agreement_le_length (as bs : List Char) : agreement as bs ≤ bs.length := by
  fun_induction agreement as bs with
  | case1 as b bs ih => exact Nat.succ_le_succ ih
  | case2 | case3 => exact Nat.zero_le _

/-- The part on which two texts agree starts both. -/
theorem take_agreement_prefix (as bs : List Char) : bs.take (agreement as bs) <+: as := by
  refine (length_le_agreement_iff (List.take_prefix _ bs)).mp ?_
  rw [List.length_take]
  exact Nat.min_le_left _ _

/-- What two texts agree on beyond some length is a common start that is longer. -/
theorem lt_agreement_iff {n : Nat} {as bs : List Char} :
    n < agreement as bs ↔ ∃ p, p <+: bs ∧ p <+: as ∧ n < p.length := by
  constructor
  · intro h
    refine ⟨_, List.take_prefix _ bs, take_agreement_prefix as bs, ?_⟩
    rwa [List.length_take, Nat.min_eq_left (agreement_le_length as bs)]
  · rintro ⟨p, hp, hpa, hn⟩
    exact Nat.lt_of_lt_of_le hn ((length_le_agreement_iff hp).mpr hpa)

end Text

/-- No non-empty word of `S` starts another one. -/
def PrefixFree (S : Finset String) : Prop :=
  ∀ v ∈ S, v ≠ "" → ∀ s ∈ S, v.toList <+: s.toList → s = v

namespace Trie

/-- What a lookup reports on the same tree under a given policy. -/
def lookupUnder (t : Trie) (policy : MatchPolicy) (input : String) : Option String :=
  (t.setSettings { t.settings with matchPolicy := policy }).longestPrefixMatch input

namespace Holds

variable {t : Trie} {S : Finset String} {q v w : String}

theorem lookupUnder_iff (h : t.Holds S) (policy : MatchPolicy) (q w : String) :
    t.lookupUnder policy q = some w ↔ policy.Answers S q w :=
  (h.setSettings _).longestPrefixMatch_iff q w

/-- **What the walk stops at is the longest entry.** -/
theorem lookupUnder_of_stop (h : t.Holds S) (hw : t.lookupUnder .stopAtDivergence q = some w) :
    t.lookupUnder .longestTerminal q = some w := by
  rw [h.lookupUnder_iff] at hw ⊢
  obtain ⟨hd, hne, hmem⟩ := hw
  exact ⟨hne, hmem, hd.start, fun v hv _ hvq => hd.longest v hvq ⟨v, hv, List.prefix_refl _⟩⟩

/-- **The walk goes on behind the longest entry** just when a word held does, and then the node at which it
stops is no entry. -/
theorem stop_eq_none_iff (h : t.Holds S) (hw : t.lookupUnder .longestTerminal q = some w) :
    t.lookupUnder .stopAtDivergence q = none ↔
      ∃ s ∈ S, w.length < Text.agreement s.toList q.toList := by
  obtain ⟨hne, hmem, hstart, -⟩ := (h.lookupUnder_iff .longestTerminal q w).mp hw
  constructor
  · intro hnone
    -- a divergence that is an entry would be reported, so a longer start is shared with a word
    have hnot : ¬ IsDivergence S q w := fun hd => by
      rw [(h.lookupUnder_iff .stopAtDivergence q w).mpr ⟨hd, hne, hmem⟩] at hnone
      cases hnone
    refine Classical.byContradiction fun hno => hnot ⟨hstart, ⟨w, hmem, List.prefix_refl _⟩, ?_⟩
    rintro p hp ⟨s, hs, hps⟩
    refine Nat.le_of_not_lt fun hlt => hno ⟨s, hs, Text.lt_agreement_iff.mpr ⟨_, hp, hps, ?_⟩⟩
    rwa [String.length_toList]
  · rintro ⟨s, hs, hlt⟩
    obtain ⟨p, hpq, hps, hlt⟩ := Text.lt_agreement_iff.mp hlt
    refine Option.eq_none_iff_forall_ne_some.mpr fun v hv => ?_
    -- what it would report is the longest entry, which is no longer than the shared start
    obtain rfl : v = w := Option.some.inj ((h.lookupUnder_of_stop hv).symm.trans hw)
    have hle := ((h.lookupUnder_iff .stopAtDivergence q v).mp hv).1.longest (String.ofList p)
    simp only [String.toList_ofList, String.length_ofList] at hle
    exact absurd (hle hpq ⟨s, hs, hps⟩) (Nat.not_le.mpr hlt)

/-- Where no entry starts another one, no word goes on behind an entry. -/
theorem lookupUnder_eq_of_prefixFree (h : t.Holds S) (hS : PrefixFree S) (q : String) :
    t.lookupUnder .stopAtDivergence q = t.lookupUnder .longestTerminal q := by
  cases hstop : t.lookupUnder .stopAtDivergence q with
  | some w => exact (h.lookupUnder_of_stop hstop).symm
  | none =>
      refine (Option.eq_none_iff_forall_ne_some.mpr fun w hw => ?_).symm
      obtain ⟨s, hs, hlt⟩ := (h.stop_eq_none_iff hw).mp hstop
      obtain ⟨hne, hmem, hstart, -⟩ := (h.lookupUnder_iff .longestTerminal q w).mp hw
      have hws : w.toList <+: s.toList := by
        refine (Text.length_le_agreement_iff hstart).mp ?_
        rw [String.length_toList]
        exact Nat.le_of_lt hlt
      cases hS w hmem hne s hs hws
      obtain ⟨p, -, hp, hlt⟩ := Text.lt_agreement_iff.mp hlt
      rw [← String.length_toList] at hlt
      exact absurd hp.length_le (Nat.not_le.mpr hlt)

end Holds

/-- **The policies differ just where a word goes on behind the longest entry**, after any history and on the
same tree.  What `stopAtDivergence` reports, `longestTerminal` reports too.  The first reports nothing while
the second reports `w` just when `w` is the longest non-empty word entered that starts the input and some
word entered agrees with the input on more characters than `w` has.  So they never differ when no non-empty
word entered starts another one. -/
theorem History.policies_differ (h : History) :
    (∀ q w, h.trie.lookupUnder .stopAtDivergence q = some w →
      h.trie.lookupUnder .longestTerminal q = some w) ∧
    (∀ q w,
      (h.trie.lookupUnder .stopAtDivergence q = none ∧ h.trie.lookupUnder .longestTerminal q = some w) ↔
        IsLongestEntry h.vocabulary q w ∧
          ∃ s ∈ h.vocabulary, w.length < Text.agreement s.toList q.toList) ∧
    (PrefixFree h.vocabulary →
      ∀ q, h.trie.lookupUnder .stopAtDivergence q = h.trie.lookupUnder .longestTerminal q) := by
  refine ⟨fun q w => h.holds.lookupUnder_of_stop, fun q w => ?_, h.holds.lookupUnder_eq_of_prefixFree⟩
  have hlongest : h.trie.lookupUnder .longestTerminal q = some w ↔ IsLongestEntry h.vocabulary q w :=
    h.holds.lookupUnder_iff .longestTerminal q w
  rw [and_comm, ← hlongest]
  exact and_congr_right fun hw => h.holds.stop_eq_none_iff hw

/-- Behind `a`, the word `abc` goes on along `abd`; and of `ab`, `ac` and the empty word only the empty one
starts another. -/
theorem History.policies_differ_nested :
    (⟨.ofKeys ["a", "abc"], []⟩ : History).trie.lookupUnder .stopAtDivergence "abd" = none ∧
    (⟨.ofKeys ["a", "abc"], []⟩ : History).trie.lookupUnder .longestTerminal "abd" = some "a" ∧
    PrefixFree (⟨.ofKeys ["", "ab", "ac"], []⟩ : History).vocabulary ∧
    (⟨.ofKeys ["", "ab", "ac"], []⟩ : History).trie.lookupUnder .stopAtDivergence "acb" =
      (⟨.ofKeys ["", "ab", "ac"], []⟩ : History).trie.lookupUnder .longestTerminal "acb" := by
  obtain ⟨-, hdiffer, -⟩ := policies_differ ⟨.ofKeys ["a", "abc"], []⟩
  obtain ⟨-, -, hagree⟩ := policies_differ ⟨.ofKeys ["", "ab", "ac"], []⟩
  have hlongest : IsLongestEntry (⟨.ofKeys ["a", "abc"], []⟩ : History).vocabulary "abd" "a" :=
    ⟨by decide, by decide, by decide, by decide⟩
  have hfree : PrefixFree (⟨.ofKeys ["", "ab", "ac"], []⟩ : History).vocabulary := by
    unfold PrefixFree
    decide
  obtain ⟨hnone, hsome⟩ := (hdiffer "abd" "a").mpr ⟨hlongest, "abc", by decide, by decide⟩
  exact ⟨hnone, hsome, hfree, hagree hfree "acb"⟩

end Trie

end PrefixMatch
