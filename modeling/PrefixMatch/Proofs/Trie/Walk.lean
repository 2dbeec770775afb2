import PrefixMatch.Proofs.Text.Bytes
import PrefixMatch.Proofs.Trie.Tree
import PrefixMatch.Trie.Basic

/-!
# Trie — what a walk follows

A walk reports byte offsets.  In characters, it follows the longest start of the input that the node
spells (`Node.spelled`), and the last terminal node that it crosses ends the longest non-empty start
of the input that the node accepts (`Node.lastAccepted`).

* `Node.prefix_spelled_iff`, `Node.lastAccepted_eq_some_iff`: both are what their names say.
* `Node.follow_eq`: the loop, from any offset and any terminal crossed before.
* `Node.descend?_walk`, `Node.matched_walk`, `Node.longestTerminal_walk`, `Node.consumedAll_walk`: the
  four parts of a walk.
* `Trie.contains_eq_accepts`: a word is an entry just when the tree accepts it.
-/

namespace PrefixMatch

open Text (byteLength)

namespace Node

/-! ### The starts of an input -/

/-- The longest start of a text that the node spells. -/
def spelled : Node → List Char → List Char
  | _, [] => []
  | n, c :: cs =>
    match n.children.find? c with
    | none => []
    | some m => c :: m.spelled cs

/-- The longest start of a text, the empty one left out, that the node accepts. -/
def lastAccepted : Node → List Char → Option (List Char)
  | _, [] => none
  | n, c :: cs =>
    match n.children.find? c with
    | none => none
    | some m => ((m.lastAccepted cs).or (if m.terminal then some [] else none)).map (c :: ·)

/-- **`spelled` is the longest start that is spelled.** -/
theorem prefix_spelled_iff {n : Node} {p cs : List Char} :
    p <+: n.spelled cs ↔ p <+: cs ∧ n.Spells p := by
  induction cs generalizing n p with
  | nil =>
      simp only [spelled, List.prefix_nil]
      exact ⟨fun h => ⟨h, by rw [h]; rfl⟩, fun h => h.1⟩
  | cons c cs ih =>
      cases p with
      | nil => exact ⟨fun _ => ⟨List.nil_prefix, rfl⟩, fun _ => List.nil_prefix⟩
      | cons d ds =>
          simp only [spelled]
          cases hf : n.children.find? c with
          | none =>
              constructor
              · intro h; cases List.prefix_nil.mp h
              · rintro ⟨h, hs⟩
                rw [(List.cons_prefix_cons.mp h).1] at hs
                simp [Spells, descend?, hf] at hs
          | some m =>
              rw [List.cons_prefix_cons, List.cons_prefix_cons, ih, and_assoc]
              refine and_congr_right fun hdc => and_congr_right fun _ => ?_
              simp only [Spells, descend?, hdc, hf]

theorem spelled_prefix_self (n : Node) (cs : List Char) : n.spelled cs <+: cs :=
  (prefix_spelled_iff.mp (List.prefix_refl _)).1

theorem spells_spelled (n : Node) (cs : List Char) : n.Spells (n.spelled cs) :=
  (prefix_spelled_iff.mp (List.prefix_refl _)).2

theorem spelled_eq_self_iff {n : Node} {cs : List Char} : n.spelled cs = cs ↔ n.Spells cs := by
  constructor
  · intro h; rw [← h]; exact spells_spelled n cs
  · intro h
    exact ((prefix_spelled_iff.mpr ⟨List.prefix_refl cs, h⟩).eq_of_length_le
      (spelled_prefix_self n cs).length_le).symm

/-- When `lastAccepted` gives nothing, no start but the empty one is accepted. -/
theorem accepts_of_lastAccepted_eq_none {n : Node} {cs v : List Char}
    (h : n.lastAccepted cs = none) (hne : v ≠ []) (hp : v <+: cs) : n.accepts v = false := by
  induction cs generalizing n v with
  | nil => exact absurd (List.prefix_nil.mp hp) hne
  | cons c cs ih =>
      rcases List.prefix_cons_iff.mp hp with rfl | ⟨u, rfl, hu⟩
      · exact absurd rfl hne
      · rw [accepts_cons]
        cases hf : n.children.find? c with
        | none => rfl
        | some m =>
            simp only [lastAccepted, hf, Option.map_eq_none_iff, Option.or_eq_none_iff] at h
            obtain ⟨hl, ht⟩ := h
            by_cases hu' : u = []
            · subst hu'
              cases hm : m.terminal with
              | true => simp [hm] at ht
              | false => exact hm
            · exact ih hl hu' hu

/-- What `lastAccepted` gives is accepted, and no accepted start is longer. -/
theorem of_lastAccepted_eq_some {n : Node} {cs w : List Char} (h : n.lastAccepted cs = some w) :
    w ≠ [] ∧ w <+: cs ∧ n.accepts w = true ∧
      ∀ v, v <+: cs → n.accepts v = true → v <+: w := by
  induction cs generalizing n w with
  | nil => cases h
  | cons c cs ih =>
      cases hf : n.children.find? c with
      | none => simp only [lastAccepted, hf] at h; cases h
      | some m =>
          have hacc : ∀ u, n.accepts (c :: u) = m.accepts u := fun u => by simp [accepts_cons, hf]
          simp only [lastAccepted, hf, Option.map_eq_some_iff] at h
          obtain ⟨u, hu, rfl⟩ := h
          have below : u <+: cs ∧ m.accepts u = true ∧
              ∀ v, v <+: cs → m.accepts v = true → v <+: u := by
            cases hl : m.lastAccepted cs with
            | some u' =>
                rw [hl, Option.some_or] at hu
                cases hu
                exact (ih hl).2
            | none =>
                -- the child itself is the last terminal node crossed
                rw [hl, Option.none_or] at hu
                cases ht : m.terminal with
                | false => simp [ht] at hu
                | true =>
                    simp only [ht, if_true] at hu
                    cases hu
                    refine ⟨List.nil_prefix, ht, fun v hp hv => ?_⟩
                    by_cases hne : v = []
                    · subst hne; exact List.prefix_refl _
                    · rw [accepts_of_lastAccepted_eq_none hl hne hp] at hv; cases hv
          obtain ⟨hp, hm, hmax⟩ := below
          refine ⟨nofun, List.cons_prefix_cons.mpr ⟨rfl, hp⟩, (hacc u).trans hm, fun v hv hn => ?_⟩
          rcases List.prefix_cons_iff.mp hv with rfl | ⟨v', rfl, hv'⟩
          · exact List.nil_prefix
          · exact List.cons_prefix_cons.mpr ⟨rfl, hmax v' hv' ((hacc v').symm.trans hn)⟩

/-- **`lastAccepted` is the longest non-empty start that is accepted.** -/
theorem lastAccepted_eq_some_iff {n : Node} {cs w : List Char} :
    n.lastAccepted cs = some w ↔ w ≠ [] ∧ w <+: cs ∧ n.accepts w = true ∧
      ∀ v, v <+: cs → n.accepts v = true → v <+: w := by
  refine ⟨of_lastAccepted_eq_some, fun ⟨hne, hp, hw, hmax⟩ => ?_⟩
  cases hl : n.lastAccepted cs with
  | none => rw [accepts_of_lastAccepted_eq_none hl hne hp] at hw; cases hw
  | some u =>
      obtain ⟨-, hpu, hu, humax⟩ := of_lastAccepted_eq_some hl
      rw [(hmax u hpu hu).eq_of_length_le (humax w hp hw).length_le]

/-! ### The loop -/

/-- **The loop follows what is spelled**, adds its bytes to the offset, and keeps the offset of the
last terminal node unless it crosses another one. -/
theorem follow_eq (n : Node) (k : Nat) (l : Option Nat) (cs : List Char) :
    ∃ m, n.descend? (n.spelled cs) = some m ∧
      n.follow k l cs = (m, k + byteLength (n.spelled cs),
        ((n.lastAccepted cs).map fun w => k + byteLength w).or l) := by
  induction cs generalizing n k l with
  | nil => exact ⟨n, rfl, rfl⟩
  | cons c cs ih =>
      cases hf : n.children.find? c with
      | none =>
          refine ⟨n, ?_, ?_⟩
          · simp only [spelled, hf]; rfl
          · simp only [follow, spelled, lastAccepted, hf]; rfl
      | some m =>
          obtain ⟨stop, hstop, heq⟩ :=
            ih m (k + c.utf8Size) (if m.terminal then some (k + c.utf8Size) else l)
          refine ⟨stop, ?_, ?_⟩
          · simp only [spelled, descend?, hf]; exact hstop
          · simp only [follow, spelled, lastAccepted, hf, heq, Text.byteLength_cons, Nat.add_assoc]
            cases m.lastAccepted cs with
            | some u => simp
            | none => cases m.terminal <;> simp

/-! ### The parts of a walk -/

theorem descend?_walk (n : Node) (cs : List Char) :
    n.descend? (n.spelled cs) = some (n.walk cs).node := by
  obtain ⟨m, hm, heq⟩ := follow_eq n 0 none cs
  simp only [walk, heq]
  exact hm

@[simp] theorem matched_walk (n : Node) (cs : List Char) :
    (n.walk cs).matched = byteLength (n.spelled cs) := by
  obtain ⟨m, -, heq⟩ := follow_eq n 0 none cs
  simp only [walk, heq, Nat.zero_add]

@[simp] theorem longestTerminal_walk (n : Node) (cs : List Char) :
    (n.walk cs).longestTerminal = (n.lastAccepted cs).map byteLength := by
  obtain ⟨m, -, heq⟩ := follow_eq n 0 none cs
  simp only [walk, heq, Nat.zero_add, Option.or_none]

/-- Comparing byte lengths tells whether every character was followed. -/
@[simp] theorem consumedAll_walk (n : Node) (cs : List Char) :
    (n.walk cs).consumedAll = true ↔ n.Spells cs := by
  have h : (n.walk cs).consumedAll = ((n.walk cs).matched == byteLength cs) := by simp only [walk]
  rw [h, matched_walk, beq_iff_eq, ← spelled_eq_self_iff]
  exact ⟨Text.eq_of_prefix_of_byteLength_eq (spelled_prefix_self n cs), congrArg byteLength⟩

@[simp] theorem advanced_walk (n : Node) (cs : List Char) :
    (n.walk cs).advanced = true ↔ n.spelled cs ≠ [] := by
  rw [Walk.advanced, matched_walk, decide_eq_true_iff, Nat.pos_iff_ne_zero, Ne,
    Text.byteLength_eq_zero_iff]

@[simp] theorem terminal_walk (n : Node) (cs : List Char) :
    (n.walk cs).node.terminal = n.accepts (n.spelled cs) := by
  rw [accepts, descend?_walk]

end Node

namespace Trie

@[simp] theorem matchedPart_walk (n : Node) (cs : List Char) :
    matchedPart (n.walk cs) cs = n.spelled cs := by
  rw [matchedPart, Node.matched_walk, Text.before?_byteLength (n.spelled_prefix_self cs),
    Option.getD_some]

theorem contains_eq_accepts (t : Trie) (word : String) :
    t.contains word = t.root.accepts word.toList := by
  rw [contains, Bool.eq_iff_iff, Bool.and_eq_true, Node.consumedAll_walk, Node.terminal_walk,
    ← Node.spelled_eq_self_iff]
  constructor
  · rintro ⟨hs, h⟩; rwa [hs] at h
  · intro h
    have hs := Node.spelled_eq_self_iff.mpr (Node.Spells.of_accepts h)
    exact ⟨hs, by rwa [hs]⟩

end Trie

end PrefixMatch
