import PrefixMatch.Proofs.Trie.Insertion
import PrefixMatch.Proofs.Trie.Resolution

/-!
# Trie — the offsets of a walk

A walk counts bytes while it follows characters, and what is answered is cut from the input at the offsets that
it reports.  `Trie.Follows` says what the walk reports, that the input can be cut at each offset, and what the
answers are that are cut there.

* `Trie.Holds.longestTerminal_eq_some_iff`, `Trie.Holds.longestTerminal_eq_none_iff`: the offset of the last
  terminal node, in terms of the words held.
* `Trie.Holds.follows`: all of it, for a trie that holds a set of words.
* `Trie.History.walk_follows`: after any history and in any order of the children.
-/

namespace PrefixMatch

namespace Trie

/-- What a walk of `q` reports, and what is cut from `q` at its offsets, when the trie holds the words of `S` and
`p` is the part of `q` that the walk follows. -/
structure Follows (t : Trie) (S : Finset String) (q : String) (w : Walk) (p : String) : Prop where
  start : p.toList <+: q.toList
  spells : t.root.Spells p.toList
  /-- No longer start of `q` leads to a node. -/
  longest : ∀ v : String, v.toList <+: q.toList → t.root.Spells v.toList → v.length ≤ p.length
  node : t.root.descend? p.toList = some w.node
  matched : w.matched = p.utf8ByteSize
  consumedAll : w.consumedAll = true ↔ p = q
  /-- Comparing byte lengths tells whether every character was followed. -/
  bytes : w.matched = q.utf8ByteSize ↔ p = q
  longestTerminal : ∀ k, w.longestTerminal = some k ↔ ∃ e, IsLongestEntry S q e ∧ e.utf8ByteSize = k
  noTerminal : w.longestTerminal = none ↔ ∀ e ∈ S, e ≠ "" → ¬ e.toList <+: q.toList
  cutsMatched : Text.CutsAt q w.matched p
  cutsTerminal : ∀ k, w.longestTerminal = some k → ∃ e, IsLongestEntry S q e ∧ Text.CutsAt q k e ∧
    t.lookupUnder .longestTerminal q = some e
  stop : t.lookupUnder .stopAtDivergence q = if w.advanced && w.node.terminal then some p else none
  completions : t.completions q = completionsAfter w p.toList
  resolve : t.resolve q = (if w.advanced && w.node.terminal then [p] else []) ++
    (completionsAfter w p.toList).toList.map String.ofList

namespace Holds

variable {t : Trie} {S : Finset String}

/-! ### The last terminal node -/

theorem longestTerminal_eq_some_iff (h : t.Holds S) (q : String) (k : Nat) :
    (t.root.walk q.toList).longestTerminal = some k ↔ ∃ e, IsLongestEntry S q e ∧ e.utf8ByteSize = k := by
  rw [Node.longestTerminal_walk, Option.map_eq_some_iff]
  simp only [h.isLongestEntry_iff]
  constructor
  · rintro ⟨e, he, rfl⟩
    exact ⟨String.ofList e, by rwa [String.toList_ofList], by
      rw [← Text.byteLength_toList, String.toList_ofList]⟩
  · rintro ⟨e, he, rfl⟩
    exact ⟨e.toList, he, Text.byteLength_toList e⟩

theorem longestTerminal_eq_none_iff (h : t.Holds S) (q : String) :
    (t.root.walk q.toList).longestTerminal = none ↔ ∀ e ∈ S, e ≠ "" → ¬ e.toList <+: q.toList := by
  rw [Node.longestTerminal_walk, Option.map_eq_none_iff]
  constructor
  · intro hnone e he hne hp
    have hacc := Node.accepts_of_lastAccepted_eq_none hnone (mt String.toList_eq_nil_iff.mp hne) hp
    rw [(h.accepts_toList_iff e).mpr he] at hacc
    cases hacc
  · intro hno
    refine Option.eq_none_iff_forall_ne_some.mpr fun e he => ?_
    rw [← String.toList_ofList (l := e), ← h.isLongestEntry_iff] at he
    exact hno _ he.mem he.ne_empty he.start

/-! ### The walk as a whole -/

theorem follows (h : t.Holds S) (q : String) : ∃ p, Follows t S q (t.root.walk q.toList) p := by
  obtain ⟨p, hp⟩ : ∃ p : String, t.root.spelled q.toList = p.toList :=
    ⟨String.ofList (t.root.spelled q.toList), String.toList_ofList.symm⟩
  have hstart : p.toList <+: q.toList := hp ▸ t.root.spelled_prefix_self q.toList
  have hmatched : (t.root.walk q.toList).matched = p.utf8ByteSize := by
    rw [Node.matched_walk, hp, Text.byteLength_toList]
  refine ⟨p,
    { start := hstart
      spells := hp ▸ t.root.spells_spelled q.toList
      longest := fun v hv hs => ?longest
      node := hp ▸ t.root.descend?_walk q.toList
      matched := hmatched
      consumedAll := ?consumedAll
      bytes := ?bytes
      longestTerminal := h.longestTerminal_eq_some_iff q
      noTerminal := h.longestTerminal_eq_none_iff q
      cutsMatched := hmatched ▸ Text.cutsAt_of_start hstart
      cutsTerminal := fun k hk => ?cutsTerminal
      stop := ?stop
      completions := ?completions
      resolve := ?resolve }⟩
  case longest =>
    have hle := (Node.prefix_spelled_iff.mpr ⟨hv, hs⟩).length_le
    rwa [hp, String.length_toList, String.length_toList] at hle
  case consumedAll =>
    rw [Node.consumedAll_walk, ← Node.spelled_eq_self_iff, hp, String.toList_inj]
  case bytes =>
    rw [hmatched, ← Text.byteLength_toList, ← Text.byteLength_toList]
    exact ⟨fun hb => String.toList_inj.mp (Text.eq_of_prefix_of_byteLength_eq hstart hb), fun hq => by rw [hq]⟩
  case cutsTerminal =>
    obtain ⟨e, he, rfl⟩ := (h.longestTerminal_eq_some_iff q k).mp hk
    exact ⟨e, he, Text.cutsAt_of_start he.start, (h.lookupUnder_iff .longestTerminal q e).mpr he⟩
  case stop =>
    rw [lookupUnder_stop_eq, followedEntry, apply_ite (Option.map String.ofList), Option.map_some,
      Option.map_none]
    simp only [hp, String.ofList_toList, Bool.and_eq_true, Node.advanced_walk, Node.terminal_walk]
  case completions =>
    rw [Trie.completions, matchedPart_walk, hp]
  case resolve =>
    rw [Trie.resolve, matchedPart_walk, hp, String.ofList_toList]

end Holds

/-- **A walk reports exact offsets, and each of them is a place to cut**, after any history and in any order of the
children.  The part that it follows is the longest start of the input that leads to a node; its byte length and
that node are reported, and the byte length is that of the input just when all of the input was followed.  The
last terminal offset is the byte length of the longest non-empty word entered that starts the input, if there is
one.  Both offsets lie in the input and between two characters, so no cut fails, and lookups, completions and
resolutions use just these parts. -/
theorem History.walk_follows (h : History) {u : Trie} (hu : h.trie.Rearranged u) (q : String) :
    ∃ p, Follows u h.vocabulary q (u.root.walk q.toList) p :=
  (h.holds.rearranged hu).follows q

/-- In `aß😀` the walk follows three bytes, two characters, and the last entry that it crosses ends after one. -/
theorem History.walk_follows_wide :
    (⟨.ofKeys ["a", "aß漢", "ab"], []⟩ : History).trie.Rearranged
      (⟨.ofKeys ["ab", "a", "aß漢"], []⟩ : History).trie ∧
    (∃ p, p.utf8ByteSize = 3 ∧ Text.CutsAt "aß😀" 3 p) ∧
    ∃ e, Text.CutsAt "aß😀" 1 e ∧
      (⟨.ofKeys ["ab", "a", "aß漢"], []⟩ : History).trie.lookupUnder .longestTerminal "aß😀" = some e := by
  have hswap : (⟨.ofKeys ["a", "aß漢", "ab"], []⟩ : History).trie.Rearranged
      (⟨.ofKeys ["ab", "a", "aß漢"], []⟩ : History).trie :=
    ⟨⟨rfl, .cons 'a' true (.swap 'ß' 'b' false true (.cons '漢' true .nil .nil) .nil .nil) .nil⟩, rfl⟩
  obtain ⟨p, hp⟩ := walk_follows _ hswap "aß😀"
  have hthree : ((⟨.ofKeys ["ab", "a", "aß漢"], []⟩ : History).trie.root.walk "aß😀".toList).matched = 3 := by
    decide
  obtain ⟨e, -, hcut, hlookup⟩ := hp.cutsTerminal 1 (by decide)
  have hcuts := hp.cutsMatched
  rw [hthree] at hcuts
  exact ⟨hswap, ⟨p, hp.matched.symm.trans hthree, hcuts⟩, e, hcut, hlookup⟩

end Trie

end PrefixMatch
