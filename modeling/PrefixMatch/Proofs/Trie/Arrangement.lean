import PrefixMatch.Proofs.Trie.Listing
import PrefixMatch.Trie.Basic

/-!
# Trie — the order of the children

A map yields its entries in an order of its own.  Two trees are *rearranged* when they are the same
maps, at every level, with their entries in any two orders (`Children.Rearranged`).  A rearranged tree
is well formed when the other one is, lists the same words up to their order
(`Children.Rearranged.strings_perm`) and accepts the same words (`Node.Rearranged.accepts_iff`).
-/

namespace PrefixMatch

/-- The same children at every level, in any two orders. -/
inductive Children.Rearranged : Children → Children → Prop where
  | nil : Rearranged .nil .nil
  | cons (c : Char) (terminal : Bool) {below below' rest rest' : Children}
      (hb : Rearranged below below') (hr : Rearranged rest rest') :
      Rearranged (.cons c terminal below rest) (.cons c terminal below' rest')
  | swap (c d : Char) (terminal terminal' : Bool) (below below' rest : Children) :
      Rearranged (.cons c terminal below (.cons d terminal' below' rest))
        (.cons d terminal' below' (.cons c terminal below rest))
  | trans {a b c : Children} (hab : Rearranged a b) (hbc : Rearranged b c) : Rearranged a c

namespace Children.Rearranged

theorem heads_perm {a b : Children} (h : a.Rearranged b) : a.heads.Perm b.heads := by
  induction h with
  | nil => exact .nil
  | cons c _ _ _ _ ihr => exact ihr.cons c
  | swap c d _ _ _ _ _ => exact .swap d c _
  | trans _ _ ih₁ ih₂ => exact ih₁.trans ih₂

theorem distinct {a b : Children} (h : a.Rearranged b) (hd : a.Distinct) : b.Distinct := by
  induction h with
  | nil => exact trivial
  | cons c _ _ hr ihb ihr =>
      obtain ⟨hc, hdb, hdr⟩ := hd
      exact ⟨fun h => hc (hr.heads_perm.mem_iff.mpr h), ihb hdb, ihr hdr⟩
  | swap c d _ _ _ _ _ =>
      obtain ⟨hc, hb, hd, hb', hr⟩ := hd
      simp only [heads, List.mem_cons, not_or] at hc
      refine ⟨?_, hb', hc.2, hb, hr⟩
      simp only [heads, List.mem_cons, not_or]
      exact ⟨Ne.symm hc.1, hd⟩
  | trans _ _ ih₁ ih₂ => exact ih₂ (ih₁ hd)

theorem ne_nil {a b : Children} (h : a.Rearranged b) (ha : a ≠ .nil) : b ≠ .nil := by
  induction h with
  | nil => exact absurd rfl ha
  | cons => exact nofun
  | swap => exact nofun
  | trans _ _ ih₁ ih₂ => exact ih₂ (ih₁ ha)

theorem live {a b : Children} (h : a.Rearranged b) (hl : a.Live) : b.Live := by
  induction h with
  | nil => exact trivial
  | cons _ _ hb _ ihb ihr =>
      obtain ⟨ht, hlb, hlr⟩ := hl
      exact ⟨fun h => hb.ne_nil (ht h), ihb hlb, ihr hlr⟩
  | swap _ _ _ _ _ _ _ =>
      obtain ⟨ht, hb, ht', hb', hr⟩ := hl
      exact ⟨ht', hb', ht, hb, hr⟩
  | trans _ _ ih₁ ih₂ => exact ih₂ (ih₁ hl)

/-- The same words are listed, in another order. -/
theorem strings_perm {a b : Children} (h : a.Rearranged b) : a.strings.Perm b.strings := by
  induction h with
  | nil => exact .nil
  | cons c terminal _ _ ihb ihr => exact ((ihb.map (c :: ·)).append_left _).append ihr
  | swap c d terminal terminal' below below' rest => exact List.perm_append_comm_assoc _ _ _
  | trans _ _ ih₁ ih₂ => exact ih₁.trans ih₂

end Children.Rearranged

/-- The same node, with the children of the nodes from here on in any two orders. -/
structure Node.Rearranged (n m : Node) : Prop where
  terminal : n.terminal = m.terminal
  children : n.children.Rearranged m.children

theorem Node.Rearranged.accepts_iff {n m : Node} (h : n.Rearranged m) (hd : n.children.Distinct)
    (w : List Char) : m.accepts w = true ↔ n.accepts w = true := by
  rw [← Node.mem_strings_iff hd, ← Node.mem_strings_iff (h.children.distinct hd), Node.strings,
    Node.strings, h.terminal, List.mem_append, List.mem_append, h.children.strings_perm.mem_iff]

/-- The same trie under the same settings, with the children of its nodes in any two orders. -/
structure Trie.Rearranged (t u : Trie) : Prop where
  root : t.root.Rearranged u.root
  settings : t.settings = u.settings

end PrefixMatch
