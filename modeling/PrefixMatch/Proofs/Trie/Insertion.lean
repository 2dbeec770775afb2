import PrefixMatch.Proofs.Trie.Policies

/-!
# Trie — the effect of one insertion on every lookup

Entering a word `s` changes how an input `q` is followed only where `s` agrees with `q` beyond the point at
which the walk stopped before; it then stops where they part.

* `Node.spells_enter`: the new paths are the starts of the word.
* `Node.spelled_enter`: the walk of any input, before and after.
* `Trie.followedEntry_insert`, `Trie.Holds.longest_insert`: what either policy finds, before and after.
* `Trie.History.lookupUnder_insert`: the answers of a lookup under both policies, after any history.
-/

namespace PrefixMatch

open Text (agreement)

namespace Node

/-! ### The paths of the tree -/

@[simp] theorem spells_nil (n : Node) : n.Spells [] := rfl

theorem spells_cons (n : Node) (c : Char) (cs : List Char) :
    n.Spells (c :: cs) ↔ ∃ m, n.children.find? c = some m ∧ m.Spells cs := by
  simp only [Spells, descend?]
  cases n.children.find? c with
  | none => simp
  | some m => simp

/-- **Entering a word adds the paths that start it**, and no others. -/
theorem spells_enter (n : Node) (w p : List Char) :
    (n.enter w).Spells p ↔ p <+: w ∨ n.Spells p := by
  induction w generalizing n p with
  | nil =>
      cases p with
      | nil => simp
      | cons d ds => simp [enter, spells_cons]
  | cons c cs ih =>
      cases p with
      | nil => simp
      | cons d ds =>
          rw [spells_cons, spells_cons, enter, Children.find?_enter, List.cons_prefix_cons]
          by_cases hcd : c = d
          · subst hcd
            have hfresh : ∀ ps, ({} : Node).Spells ps ↔ ps = [] := fun ps => by
              cases ps with
              | nil => simp
              | cons e es => simp [spells_cons, Children.find?]
            simp only [if_true, Option.some.injEq, exists_eq_left', ih, true_and]
            cases n.children.find? c with
            | none =>
                simp only [Option.getD_none, hfresh, reduceCtorEq, false_and, exists_false, or_false]
                exact ⟨fun h => h.elim id fun h => h ▸ List.nil_prefix, .inl⟩
            | some m => simp
          · simp [hcd, Ne.symm hcd]

/-- **What the walk follows after an insertion**: what it followed before, unless the new word agrees with
the input on more than that, and then all on which they agree. -/
theorem spelled_enter (n : Node) (w cs : List Char) :
    (n.enter w).spelled cs =
      if agreement w cs ≤ (n.spelled cs).length then n.spelled cs else cs.take (agreement w cs) := by
  have hgrows : n.spelled cs <+: (n.enter w).spelled cs :=
    prefix_spelled_iff.mpr ⟨n.spelled_prefix_self cs, (spells_enter n w _).mpr (.inr (n.spells_spelled cs))⟩
  have hshared : cs.take (agreement w cs) <+: (n.enter w).spelled cs :=
    prefix_spelled_iff.mpr ⟨List.take_prefix _ cs,
      (spells_enter n w _).mpr (.inl (Text.take_agreement_prefix w cs))⟩
  have hlength : (cs.take (agreement w cs)).length = agreement w cs := by
    rw [List.length_take, Nat.min_eq_left (Text.agreement_le_length w cs)]
  -- what is followed now is a start of the word, or was followed before
  have hcases : ((n.enter w).spelled cs).length ≤ agreement w cs ∨
      (n.enter w).spelled cs <+: n.spelled cs := by
    refine ((spells_enter n w _).mp ((n.enter w).spells_spelled cs)).imp (fun hw => ?_) fun hn => ?_
    · exact (Text.length_le_agreement_iff ((n.enter w).spelled_prefix_self cs)).mpr hw
    · exact prefix_spelled_iff.mpr ⟨(n.enter w).spelled_prefix_self cs, hn⟩
  split
  · next hle =>
    refine (hgrows.eq_of_length_le ?_).symm
    exact hcases.elim (fun h => Nat.le_trans h hle) List.IsPrefix.length_le
  · next hlt =>
    refine (hshared.eq_of_length_le ?_).symm
    rw [hlength]
    rcases hcases with h | h
    · exact h
    · exact absurd (hlength ▸ (hshared.trans h).length_le) hlt

end Node

namespace Trie

/-! ### Stopping at the divergence -/

/-- The number of characters of an input that the walk follows. -/
def followedLength (t : Trie) (input : String) : Nat :=
  (matchedPart (t.root.walk input.toList) input.toList).length

@[simp] theorem followedLength_eq (t : Trie) (input : String) :
    t.followedLength input = (t.root.spelled input.toList).length := by
  rw [followedLength, matchedPart_walk]

theorem lookupUnder_stop_eq (t : Trie) (input : String) :
    t.lookupUnder .stopAtDivergence input = (t.followedEntry input.toList).map String.ofList :=
  longestPrefixMatch_eq _ input

variable {t : Trie} {s : String} {cs : List Char}

/-- The part followed after an insertion is an entry if it is the new word or was an entry before. -/
theorem followedEntry_insert (t : Trie) (s : String) (cs : List Char) :
    (t.insert s).followedEntry cs =
      if (t.insert s).root.spelled cs ≠ [] ∧
          ((t.insert s).root.spelled cs = s.toList ∨
            t.root.accepts ((t.insert s).root.spelled cs) = true) then
        some ((t.insert s).root.spelled cs)
      else none := by
  rw [followedEntry]
  exact if_congr (and_congr_right fun _ => Node.accepts_enter t.root s.toList _) rfl rfl

/-- A word that leaves the input earlier than the walk did has no part in where the walk stops. -/
theorem followedEntry_insert_of_lt (h : agreement s.toList cs < (t.root.spelled cs).length) :
    (t.insert s).followedEntry cs = t.followedEntry cs := by
  have hd : (t.insert s).root.spelled cs = t.root.spelled cs := by
    rw [insert, Node.spelled_enter, if_pos (Nat.le_of_lt h)]
  have hne : t.root.spelled cs ≠ s.toList := fun heq => by
    have hstart : t.root.spelled cs <+: s.toList := by rw [heq]
    have hle := (Text.length_le_agreement_iff (t.root.spelled_prefix_self cs)).mpr hstart
    exact absurd hle (Nat.not_le.mpr h)
  rw [followedEntry_insert, hd, followedEntry]
  simp only [hne, false_or]

/-- A word that leaves the input where the walk stopped matters only when it ends there. -/
theorem followedEntry_insert_of_eq (h : agreement s.toList cs = (t.root.spelled cs).length) :
    (t.insert s).followedEntry cs =
      if s.toList ≠ [] ∧ s.toList = cs.take (t.root.spelled cs).length then some s.toList
      else t.followedEntry cs := by
  have hd : (t.insert s).root.spelled cs = t.root.spelled cs := by
    rw [insert, Node.spelled_enter, if_pos (Nat.le_of_eq h)]
  have htake : cs.take (t.root.spelled cs).length = t.root.spelled cs :=
    (List.prefix_iff_eq_take.mp (t.root.spelled_prefix_self cs)).symm
  rw [followedEntry_insert, hd, htake]
  by_cases hs : s.toList = t.root.spelled cs
  · by_cases hnil : t.root.spelled cs = []
    · simp [hs, hnil, followedEntry]
    · simp [hs, hnil]
  · simp [hs, Ne.symm hs, followedEntry]

/-- A word that goes on along the input behind the walk takes the walk with it, and the walk then ends at an
entry only when the word ends there too. -/
theorem followedEntry_insert_of_gt (h : (t.root.spelled cs).length < agreement s.toList cs) :
    (t.insert s).followedEntry cs = if s.toList <+: cs then some s.toList else none := by
  have hd : (t.insert s).root.spelled cs = cs.take (agreement s.toList cs) := by
    rw [insert, Node.spelled_enter, if_neg (Nat.not_le.mpr h)]
  have hlength : (cs.take (agreement s.toList cs)).length = agreement s.toList cs := by
    rw [List.length_take, Nat.min_eq_left (Text.agreement_le_length _ _)]
  have hne : cs.take (agreement s.toList cs) ≠ [] := fun hnil => by
    rw [hnil] at hlength
    exact Nat.not_lt_zero _ (hlength ▸ h)
  -- what lies behind the old walk was no path, so it was no entry
  have hnew : t.root.accepts (cs.take (agreement s.toList cs)) = false := by
    refine Bool.eq_false_iff.mpr fun hacc => ?_
    have hle := (Node.prefix_spelled_iff.mpr ⟨List.take_prefix _ cs, .of_accepts hacc⟩).length_le
    rw [hlength] at hle
    exact absurd hle (Nat.not_le.mpr h)
  have hwhole : cs.take (agreement s.toList cs) = s.toList ↔ s.toList <+: cs := by
    constructor
    · intro heq
      exact heq ▸ List.take_prefix _ cs
    · intro hp
      refine (Text.take_agreement_prefix s.toList cs).eq_of_length_le ?_
      rw [hlength]
      exact (Text.length_le_agreement_iff hp).mpr (List.prefix_refl _)
  rw [followedEntry_insert, hd]
  simp only [hne, hnew, hwhole, ne_eq, not_false_iff, true_and, Bool.false_eq_true, or_false]
  split
  · next hp => rw [hwhole.mpr hp]
  · rfl

/-! The same for the answers of a lookup. -/

variable {q : String}

theorem stop_insert_of_lt (h : agreement s.toList q.toList < t.followedLength q) :
    (t.insert s).lookupUnder .stopAtDivergence q = t.lookupUnder .stopAtDivergence q := by
  rw [followedLength_eq] at h
  rw [lookupUnder_stop_eq, lookupUnder_stop_eq, followedEntry_insert_of_lt h]

theorem stop_insert_of_eq (h : agreement s.toList q.toList = t.followedLength q) :
    (t.insert s).lookupUnder .stopAtDivergence q =
      if s ≠ "" ∧ s.toList = q.toList.take (t.followedLength q) then some s
      else t.lookupUnder .stopAtDivergence q := by
  have hempty : s.toList ≠ [] ↔ s ≠ "" := not_congr String.toList_eq_nil_iff
  rw [followedLength_eq] at h ⊢
  rw [lookupUnder_stop_eq, lookupUnder_stop_eq, followedEntry_insert_of_eq h,
    apply_ite (Option.map String.ofList), Option.map_some, String.ofList_toList]
  exact if_congr (and_congr_left fun _ => hempty) rfl rfl

theorem stop_insert_of_gt (h : t.followedLength q < agreement s.toList q.toList) :
    (t.insert s).lookupUnder .stopAtDivergence q =
      if s.toList <+: q.toList then some s else none := by
  rw [followedLength_eq] at h
  rw [lookupUnder_stop_eq, followedEntry_insert_of_gt h, apply_ite (Option.map String.ofList),
    Option.map_some, Option.map_none, String.ofList_toList]

/-! ### The longest entry -/

theorem lookupUnder_longest_eq (t : Trie) (input : String) :
    t.lookupUnder .longestTerminal input =
      (t.root.lastAccepted input.toList).map String.ofList :=
  longestPrefixMatch_eq _ input

namespace Holds

variable {S : Finset String} {q w v : String}

/-- A word held that starts the input is no longer than the longest entry. -/
theorem exists_longest_of_mem (h : t.Holds S) (hv : v ∈ S) (hne : v ≠ "") (hp : v.toList <+: q.toList) :
    ∃ w, t.lookupUnder .longestTerminal q = some w ∧ v.length ≤ w.length := by
  have hword := (h.accepts_toList_iff v).mpr hv
  rw [lookupUnder_longest_eq]
  cases hw : t.root.lastAccepted q.toList with
  | none =>
      rw [Ne, ← String.toList_eq_nil_iff] at hne
      exact absurd ((Node.accepts_of_lastAccepted_eq_none hw hne hp).symm.trans hword) nofun
  | some w =>
      refine ⟨String.ofList w, rfl, ?_⟩
      obtain ⟨-, -, -, hmax⟩ := Node.of_lastAccepted_eq_some hw
      rw [String.length_ofList, ← String.length_toList]
      exact (hmax v.toList hp hword).length_le

/-- **The longest entry after an insertion** is the new word, if that starts the input and is longer than
the longest entry before, and is as before otherwise. -/
theorem longest_insert (h : t.Holds S) (s q : String) :
    (t.insert s).lookupUnder .longestTerminal q =
      if s ≠ "" ∧ s.toList <+: q.toList ∧
          ∀ w ∈ t.lookupUnder .longestTerminal q, w.length < s.length then some s
      else t.lookupUnder .longestTerminal q := by
  have hlongest : ∀ w, t.lookupUnder .longestTerminal q = some w ↔ IsLongestEntry S q w :=
    h.lookupUnder_iff .longestTerminal q
  have hinsert : ∀ w, (t.insert s).lookupUnder .longestTerminal q = some w ↔
      IsLongestEntry (S ∪ {s}) q w := (h.insert s).lookupUnder_iff .longestTerminal q
  have hmem : ∀ {w}, w ∈ S ∪ {s} ↔ w ∈ S ∨ w = s := by simp [or_comm]
  split
  · next hs =>
    obtain ⟨hne, hp, hlonger⟩ := hs
    refine (hinsert s).mpr ⟨hne, hmem.mpr (.inr rfl), hp, fun v hv hvne hvp => ?_⟩
    rcases hmem.mp hv with hv | rfl
    · obtain ⟨w, hw, hle⟩ := h.exists_longest_of_mem hv hvne hvp
      exact Nat.le_of_lt (Nat.lt_of_le_of_lt hle (hlonger w hw))
    · exact Nat.le_refl _
  · next hs =>
    -- the new word, where it starts the input, is no longer than a word that was reported before
    have hold : s ≠ "" → s.toList <+: q.toList →
        ∃ w, t.lookupUnder .longestTerminal q = some w ∧ s.length ≤ w.length := by
      intro hne hp
      refine Classical.byContradiction fun hno => hs ⟨hne, hp, fun w hw => ?_⟩
      exact Nat.lt_of_not_le fun hle => hno ⟨w, hw, hle⟩
    refine Option.ext fun w => ?_
    rw [hinsert, hlongest]
    constructor
    · rintro ⟨hne, hw, hp, hmax⟩
      refine ⟨hne, ?_, hp, fun v hv => hmax v (hmem.mpr (.inl hv))⟩
      rcases hmem.mp hw with hw | rfl
      · exact hw
      · obtain ⟨u, hu, hle⟩ := hold hne hp
        obtain ⟨hune, hum, hup, -⟩ := (hlongest u).mp hu
        -- two starts of the input of one length are one word
        have heq : w.toList = u.toList := by
          refine (List.prefix_of_prefix_length_le hp hup ?_).eq_of_length_le ?_
          · rwa [String.length_toList, String.length_toList]
          · rw [String.length_toList, String.length_toList]
            exact hmax u (hmem.mpr (.inl hum)) hune hup
        rwa [String.toList_inj.mp heq]
    · rintro ⟨hne, hw, hp, hmax⟩
      refine ⟨hne, hmem.mpr (.inl hw), hp, fun v hv hvne hvp => ?_⟩
      rcases hmem.mp hv with hv | rfl
      · exact hmax v hv hvne hvp
      · obtain ⟨u, hu, hle⟩ := hold hvne hvp
        obtain ⟨hune, hum, hup, -⟩ := (hlongest u).mp hu
        exact Nat.le_trans hle (hmax u hum hune hup)

end Holds

/-! ### Both policies -/

/-- **One insertion has a known effect on every lookup**, after any history.  Under `stopAtDivergence` it
turns on how far the new word `s` agrees with the input, compared with what the walk followed before.  If
it leaves the input earlier, the answer stays; if it leaves the input just there, the answer stays unless
`s` is the part followed; and if it goes on behind that, the answer is `s` if `s` starts the input, and none
otherwise.  Under `longestTerminal` the answer becomes `s` if `s` starts the input and is longer than the
answer before, and stays otherwise.  So this answer never gets shorter or is lost, and the other one is lost
just when `s` goes on behind the walk without starting the input. -/
theorem History.lookupUnder_insert (h : History) (s q : String) :
    (agreement s.toList q.toList < h.trie.followedLength q →
      (h.trie.insert s).lookupUnder .stopAtDivergence q = h.trie.lookupUnder .stopAtDivergence q) ∧
    (agreement s.toList q.toList = h.trie.followedLength q →
      (h.trie.insert s).lookupUnder .stopAtDivergence q =
        if s ≠ "" ∧ s.toList = q.toList.take (h.trie.followedLength q) then some s
        else h.trie.lookupUnder .stopAtDivergence q) ∧
    (h.trie.followedLength q < agreement s.toList q.toList →
      (h.trie.insert s).lookupUnder .stopAtDivergence q =
        if s.toList <+: q.toList then some s else none) ∧
    (h.trie.insert s).lookupUnder .longestTerminal q =
      (if s ≠ "" ∧ s.toList <+: q.toList ∧
          ∀ w ∈ h.trie.lookupUnder .longestTerminal q, w.length < s.length then some s
        else h.trie.lookupUnder .longestTerminal q) ∧
    (∀ w, h.trie.lookupUnder .longestTerminal q = some w →
      ∃ v, (h.trie.insert s).lookupUnder .longestTerminal q = some v ∧ w.length ≤ v.length) ∧
    (∀ w, h.trie.lookupUnder .stopAtDivergence q = some w →
      ((h.trie.insert s).lookupUnder .stopAtDivergence q = none ↔
        h.trie.followedLength q < agreement s.toList q.toList ∧ ¬ s.toList <+: q.toList)) := by
  have hlongest := h.holds.longest_insert s q
  refine ⟨stop_insert_of_lt, stop_insert_of_eq, stop_insert_of_gt, hlongest, fun w hw => ?_,
    fun w hw => ⟨fun hlost => ?_, fun ⟨hbeyond, hp⟩ => ?_⟩⟩
  · rw [hlongest]
    split
    · next hs => exact ⟨s, rfl, Nat.le_of_lt (hs.2.2 w hw)⟩
    · exact ⟨w, hw, Nat.le_refl _⟩
  · rcases Nat.lt_trichotomy (agreement s.toList q.toList) (h.trie.followedLength q) with hk | hk | hk
    · rw [stop_insert_of_lt hk, hw] at hlost
      cases hlost
    · rw [stop_insert_of_eq hk, hw] at hlost
      split at hlost <;> cases hlost
    · refine ⟨hk, fun hp => ?_⟩
      rw [stop_insert_of_gt hk, if_pos hp] at hlost
      cases hlost
  · rw [stop_insert_of_gt hbeyond, if_neg hp]

end Trie

end PrefixMatch
