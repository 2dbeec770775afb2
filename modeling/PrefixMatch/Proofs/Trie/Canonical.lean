import PrefixMatch.Proofs.Trie.History

/-!
# Trie — the tree as a canonical form

The tree of a trie is fixed by the words that it holds, up to the order in which the maps yield their
children.

* `Children.rearranged_of_accepts`: two trees of maps without dead branches that accept the same words
  are rearrangements of each other.
* `Holds.rearranged_iff`: two tries have the same tree just when they hold the same words.
* `Trie.History.tree_canonical`: what the nodes of the tree are, and which histories lead to the same
  tree.
-/

namespace PrefixMatch

namespace Children

/-- The children without the one under `c`. -/
def erase (c : Char) : Children → Children
  | .nil => .nil
  | .cons d terminal below rest =>
    if d = c then rest else .cons d terminal below (rest.erase c)

/-! ### Taking a child out of a map -/

theorem Rearranged.refl (ch : Children) : ch.Rearranged ch := by
  induction ch with
  | nil => exact .nil
  | cons c terminal below rest ihb ihr => exact .cons c terminal ihb ihr

theorem Rearranged.symm {a b : Children} (h : a.Rearranged b) : b.Rearranged a := by
  induction h with
  | nil => exact .nil
  | cons c terminal _ _ ihb ihr => exact .cons c terminal ihb ihr
  | swap c d terminal terminal' below below' rest => exact .swap d c terminal' terminal below' below rest
  | trans _ _ ih₁ ih₂ => exact .trans ih₂ ih₁

/-- **A child can stand in front of its siblings.** -/
theorem rearranged_cons_erase {ch : Children} {c : Char} {n : Node} (h : ch.find? c = some n) :
    ch.Rearranged (.cons c n.terminal n.children (ch.erase c)) := by
  induction ch with
  | nil => cases h
  | cons d terminal below rest _ ih =>
      simp only [find?] at h
      by_cases hdc : d = c
      · rw [if_pos hdc] at h
        cases h
        rw [erase, if_pos hdc, hdc]
        exact .refl _
      · rw [if_neg hdc] at h
        rw [erase, if_neg hdc]
        exact .trans (.cons d terminal (.refl below) (ih h))
          (.swap d c terminal n.terminal below n.children (rest.erase c))

/-- A child under another character stays. -/
theorem find?_erase_of_ne {c d : Char} (hdc : d ≠ c) (ch : Children) :
    (ch.erase c).find? d = ch.find? d := by
  induction ch with
  | nil => rfl
  | cons e terminal below rest _ ih =>
      by_cases hec : e = c
      · have hed : e ≠ d := by rw [hec]; exact Ne.symm hdc
        rw [erase, if_pos hec, find?, if_neg hed]
      · rw [erase, if_neg hec, find?, find?, ih]

/-! ### Words decide the tree -/

/-- A tree that accepts no word but the empty one has no children, as no branch is dead. -/
theorem eq_nil_of_accepts {ch : Children} (hl : ch.Live) (terminal : Bool)
    (h : ∀ c cs, (⟨terminal, ch⟩ : Node).accepts (c :: cs) = false) : ch = .nil := by
  refine Classical.byContradiction fun hne => ?_
  -- with a root that is not terminal, the word that a live branch leads to is not empty
  obtain ⟨w, hw⟩ := Node.exists_accepts_of_children (n := ⟨false, ch⟩) hl hne
  cases w with
  | nil => cases hw
  | cons c cs =>
      have hc := h c cs
      rw [Node.accepts_cons] at hw hc
      rw [hw] at hc
      cases hc

/-- A child leads to an accepted word. -/
theorem exists_accepts_cons {ch : Children} (hl : ch.Live) {c : Char} {n : Node}
    (h : ch.find? c = some n) : ∃ cs, n.accepts cs = true := by
  obtain ⟨ht, hln⟩ := hl.find? h
  cases hterm : n.terminal with
  | true => exact ⟨[], hterm⟩
  | false => exact Node.exists_accepts_of_children hln (ht hterm)

/-- **Trees without dead branches that accept the same words are the same maps**, up to the order of
their children. -/
theorem rearranged_of_accepts {a b : Children} (ha : a.Distinct) (hla : a.Live) (hb : b.Distinct)
    (hlb : b.Live) (terminal : Bool)
    (h : ∀ c cs, (⟨terminal, a⟩ : Node).accepts (c :: cs) = (⟨terminal, b⟩ : Node).accepts (c :: cs)) :
    a.Rearranged b := by
  induction a generalizing b terminal with
  | nil =>
      have hnil : b = .nil := eq_nil_of_accepts hlb terminal fun c cs => by
        rw [← h c cs, Node.accepts_cons]
        rfl
      rw [hnil]
      exact .nil
  | cons c t below rest ihb ihr =>
      have hfind : (Children.cons c t below rest).find? c = some ⟨t, below⟩ := by
        rw [find?, if_pos rfl]
      -- the branch under `c` leads to a word, so the other tree has a child under `c` too
      obtain ⟨m, hm⟩ : ∃ m, b.find? c = some m := by
        obtain ⟨cs, hcs⟩ := exists_accepts_cons hla hfind
        have hcs' := h c cs
        rw [Node.accepts_cons, hfind, Node.accepts_cons, Option.map_some, Option.getD_some, hcs] at hcs'
        cases hm : b.find? c with
        | none => rw [hm] at hcs'; cases hcs'
        | some m => exact ⟨m, rfl⟩
      obtain ⟨hc, hdb, hdr⟩ := ha
      obtain ⟨-, hlbelow, hlr⟩ := hla
      have hsame : ∀ cs, (⟨t, below⟩ : Node).accepts cs = m.accepts cs := fun cs => by
        have hcs := h c cs
        rwa [Node.accepts_cons, hfind, Node.accepts_cons, hm] at hcs
      have hterm : t = m.terminal := hsame []
      have hbelow : below.Rearranged m.children :=
        ihb hdb hlbelow (hb.find? hm) (hlb.find? hm).2 t fun d ds => by
          rw [hsame (d :: ds), hterm]
      -- what is left of the other tree is compared with the siblings, under other characters
      have hfront := rearranged_cons_erase hm
      obtain ⟨hce, -, hde⟩ := hfront.distinct hb
      obtain ⟨-, -, hle⟩ := hfront.live hlb
      have hrest : rest.Rearranged (b.erase c) := by
        refine ihr hdr hlr hde hle terminal fun d ds => ?_
        by_cases hdc : d = c
        · subst hdc
          rw [Node.accepts_cons, Node.accepts_cons, (find?_eq_none_iff rest).mpr hc,
            (find?_eq_none_iff _).mpr hce]
        · have hd := h d ds
          rw [Node.accepts_cons, find?, if_neg (Ne.symm hdc)] at hd
          rw [Node.accepts_cons, hd, Node.accepts_cons, Node.accepts_cons, find?_erase_of_ne hdc]
      rw [hterm]
      exact .trans (.cons c m.terminal hbelow hrest) hfront.symm

end Children

namespace Trie

namespace Holds

variable {t u : Trie} {S T : Finset String}

/-- **The tree is a canonical form of the words held.** -/
theorem rearranged_iff (h : t.Holds S) (hu : u.Holds T) : t.root.Rearranged u.root ↔ S = T := by
  constructor
  · intro hr
    ext word
    rw [← h.accepts_toList_iff, ← hu.accepts_toList_iff]
    exact (hr.accepts_iff h.distinct word.toList).symm
  · rintro rfl
    have hsame : ∀ w, t.root.accepts w = u.root.accepts w := fun w => by
      rw [Bool.eq_iff_iff, h.accepts_iff, hu.accepts_iff]
    have hterm : t.root.terminal = u.root.terminal := hsame []
    refine ⟨hterm, Children.rearranged_of_accepts h.distinct h.live hu.distinct hu.live
      t.root.terminal fun c cs => ?_⟩
    rw [hsame (c :: cs), hterm]

/-- The node that a sequence of characters leads to is terminal just when the sequence is a word
held. -/
theorem terminal_iff (h : t.Holds S) {p : List Char} {n : Node} (hp : t.root.descend? p = some n) :
    n.terminal = true ↔ String.ofList p ∈ S := by
  rw [← h.accepts_iff, Node.accepts, hp]

/-- A leaf other than the root is terminal. -/
theorem terminal_of_leaf (h : t.Holds S) {p : List Char} {n : Node}
    (hp : t.root.descend? p = some n) (hne : p ≠ []) (hleaf : n.children = .nil) :
    n.terminal = true := by
  obtain ⟨ht, -⟩ := Node.live_of_descend? h.live hne hp
  exact Bool.of_not_eq_false fun hf => ht hf hleaf

end Holds

/-- **The tree is a canonical form of the words entered**, after any history.  A sequence of characters
leads to a node just when it is empty or starts a word entered, that node is terminal just when the
sequence was itself entered, and every leaf but the root is terminal.  Two histories lead to the same
tree, with the children of every node compared as a map, just when they entered the same words.  So
entering a word again changes nothing, two words can be entered in either order, a map gives the same
tree in whatever order it yields its keys, and entering all entries of a trie, in whatever order its
maps yield them, builds its tree again. -/
theorem History.tree_canonical (h : History) :
    (∀ p, h.trie.root.Spells p ↔ p = [] ∨ ∃ s ∈ h.vocabulary, p <+: s.toList) ∧
    (∀ p n, h.trie.root.descend? p = some n →
      (n.terminal = true ↔ String.ofList p ∈ h.vocabulary) ∧
      (p ≠ [] → n.children = .nil → n.terminal = true)) ∧
    (∀ g : History, h.trie.root.Rearranged g.trie.root ↔ h.vocabulary = g.vocabulary) ∧
    (∀ word, ((h.trie.insert word).insert word).root.Rearranged (h.trie.insert word).root) ∧
    (∀ v w, ((h.trie.insert v).insert w).root.Rearranged ((h.trie.insert w).insert v).root) ∧
    (∀ (α : Type) (table table' : List (String × α)), table.Perm table' →
      (ofMap table).value.root.Rearranged (ofMap table').value.root) ∧
    (∀ u, h.trie.Rearranged u → (ofKeys u.entries).value.root.Rearranged h.trie.root) := by
  have holds := h.holds
  refine ⟨holds.spells_iff, fun p n hp => ⟨holds.terminal_iff hp, holds.terminal_of_leaf hp⟩,
    fun g => holds.rearranged_iff g.holds, fun word => ?_, fun v w => ?_, fun α table table' hperm => ?_,
    fun u hu => ?_⟩
  · have hword := holds.insert word
    refine ((hword.insert word).rearranged_iff hword).mpr ?_
    rw [Finset.union_assoc, Finset.union_self]
  · refine (((holds.insert v).insert w).rearranged_iff ((holds.insert w).insert v)).mpr ?_
    exact Finset.union_right_comm _ _ _
  · refine ((grows_ofKeys _).holds.rearranged_iff (grows_ofKeys _).holds).mpr ?_
    exact List.toFinset_eq_of_perm _ _ (hperm.map Prod.fst)
  · refine ((grows_ofKeys _).holds.rearranged_iff holds).mpr ?_
    ext word
    rw [List.mem_toFinset, (holds.rearranged hu).mem_entries_iff]

end Trie

end PrefixMatch
