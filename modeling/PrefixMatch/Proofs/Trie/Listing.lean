import PrefixMatch.Proofs.Trie.Tree

/-!
# Trie — the listing of a tree

`Children.strings` lists the accepted words below a node by recursion on the tree.

* `Children.strings_eq_flatMap`: the listing in terms of the children one after another.
* `Children.cons_mem_strings`: in a tree of maps, the listing holds just the accepted words.
* `Children.pairwise_strings`: no word is listed after a word that it starts, so that none is listed
  twice either (`Children.nodup_strings`).
* `Node.length_strings`: the listing is as long as the count of terminal nodes.
-/

namespace PrefixMatch

namespace Children

/-- The children one after another. -/
def toList : Children → List (Char × Node)
  | .nil => []
  | .cons c terminal below rest => (c, ⟨terminal, below⟩) :: rest.toList

/-- The listing of the children is the listing of each child in turn: its character, if it is
terminal, and its character before each word below it. -/
theorem strings_eq_flatMap (ch : Children) :
    ch.strings = ch.toList.flatMap fun (c, n) =>
      (if n.terminal then [[c]] else []) ++ n.children.strings.map (c :: ·) := by
  induction ch with
  | nil => rfl
  | cons c terminal below rest _ ih => rw [strings, toList, List.flatMap_cons, ih]

/-! ### What is listed -/

theorem mem_strings_cons {c : Char} {terminal : Bool} {below rest : Children} {w : List Char} :
    w ∈ (Children.cons c terminal below rest).strings ↔
      (terminal = true ∧ w = [c]) ∨ (∃ v ∈ below.strings, w = c :: v) ∨ w ∈ rest.strings := by
  cases terminal with
  | true => simp [strings, eq_comm]
  | false => simp [strings, eq_comm]

theorem nil_not_mem_strings (ch : Children) : [] ∉ ch.strings := by
  induction ch with
  | nil => exact List.not_mem_nil
  | cons c terminal below rest _ ih => rw [mem_strings_cons]; simp [ih]

/-- A listed word begins with the character of a child. -/
theorem head_of_mem_strings {ch : Children} {c : Char} {cs : List Char}
    (h : c :: cs ∈ ch.strings) : c ∈ ch.heads := by
  induction ch with
  | nil => cases h
  | cons d terminal below rest _ ih =>
      rcases mem_strings_cons.mp h with ⟨-, h⟩ | ⟨v, -, h⟩ | h
      · cases h; exact List.mem_cons_self
      · cases h; exact List.mem_cons_self
      · exact List.mem_cons_of_mem d (ih h)

/-- **The listing holds just the accepted words.** -/
theorem cons_mem_strings {ch : Children} (hd : ch.Distinct) (terminal : Bool) (c : Char)
    (cs : List Char) :
    c :: cs ∈ ch.strings ↔ (⟨terminal, ch⟩ : Node).accepts (c :: cs) = true := by
  induction ch generalizing terminal c cs with
  | nil => simp [strings, Node.accepts_cons, find?]
  | cons d t below rest ihb ihr =>
      obtain ⟨hh, hb, hr⟩ := hd
      rw [mem_strings_cons, Node.accepts_cons, find?]
      by_cases hdc : d = c
      · subst hdc
        have hrest : d :: cs ∉ rest.strings := fun h => hh (head_of_mem_strings h)
        rw [if_pos rfl, Option.map_some, Option.getD_some]
        cases cs with
        | nil => simp [hrest, nil_not_mem_strings]
        | cons e es => simp [hrest, ← ihb hb t e es]
      · rw [if_neg hdc, ihr hr terminal c cs, Node.accepts_cons]
        simp [Ne.symm hdc]

/-- **No word is listed after a word that it starts.** -/
theorem pairwise_strings {ch : Children} (hd : ch.Distinct) :
    ch.strings.Pairwise fun v w => ¬ w <+: v := by
  induction ch with
  | nil => exact .nil
  | cons c terminal below rest ihb ihr =>
      obtain ⟨hh, hb, hr⟩ := hd
      have hown : (if terminal then [[c]] else []).Pairwise fun v w : List Char => ¬ w <+: v := by
        cases terminal with
        | true => exact List.pairwise_singleton _ _
        | false => exact .nil
      have hbelow : (below.strings.map (c :: ·)).Pairwise fun v w => ¬ w <+: v := by
        rw [List.pairwise_map]
        exact (ihb hb).imp fun h => by rwa [List.prefix_cons_inj]
      -- a word that runs through the child is longer than its own one character
      have hlonger : ∀ v ∈ (if terminal then [[c]] else []), ∀ w ∈ below.strings.map (c :: ·),
          ¬ w <+: v := by
        intro v hv w hw hp
        obtain ⟨s, hs, rfl⟩ := List.mem_map.mp hw
        have hv : v = [c] := by
          cases terminal with
          | true => exact List.mem_singleton.mp hv
          | false => cases hv
        subst hv
        rw [List.prefix_cons_inj, List.prefix_nil] at hp
        exact nil_not_mem_strings below (hp ▸ hs)
      -- the siblings' words begin with other characters
      have hother : ∀ v ∈ (if terminal then [[c]] else []) ++ below.strings.map (c :: ·),
          ∀ w ∈ rest.strings, ¬ w <+: v := by
        intro v hv w hw hp
        have hv : ∃ s, v = c :: s := by
          rcases List.mem_append.mp hv with hv | hv
          · cases terminal with
            | true => exact ⟨[], List.mem_singleton.mp hv⟩
            | false => cases hv
          · obtain ⟨s, -, rfl⟩ := List.mem_map.mp hv
            exact ⟨s, rfl⟩
        obtain ⟨s, rfl⟩ := hv
        cases w with
        | nil => exact nil_not_mem_strings rest hw
        | cons d ds =>
            obtain ⟨rfl, -⟩ := List.cons_prefix_cons.mp hp
            exact hh (head_of_mem_strings hw)
      rw [strings, List.pairwise_append, List.pairwise_append]
      exact ⟨⟨hown, hbelow, hlonger⟩, ihr hr, hother⟩

theorem nodup_strings {ch : Children} (hd : ch.Distinct) : ch.strings.Nodup :=
  (pairwise_strings hd).imp fun h => by rintro rfl; exact h (List.prefix_refl _)

theorem length_strings (ch : Children) : ch.strings.length = ch.countTerminals := by
  induction ch with
  | nil => rfl
  | cons c terminal below rest ihb ihr =>
      cases terminal with
      | true => simp [strings, countTerminals, ihb, ihr]; omega
      | false => simp [strings, countTerminals, ihb, ihr]

end Children

namespace Node

/-! ### The listing of a node -/

theorem mem_strings_iff {n : Node} (hd : n.children.Distinct) (w : List Char) :
    w ∈ n.strings ↔ n.accepts w = true := by
  obtain ⟨t, ch⟩ := n
  cases w with
  | nil => cases t <;> simp [strings, Children.nil_not_mem_strings]
  | cons c cs =>
      rw [← Children.cons_mem_strings hd t c cs]
      cases t <;> simp [strings]

theorem nodup_strings {n : Node} (hd : n.children.Distinct) : n.strings.Nodup := by
  rw [strings, List.nodup_append]
  refine ⟨by cases n.terminal <;> simp, Children.nodup_strings hd, ?_⟩
  rintro v hv w hw rfl
  have hv : v = [] := by cases ht : n.terminal <;> simp_all
  exact Children.nil_not_mem_strings _ (hv ▸ hw)

theorem length_strings (n : Node) : n.strings.length = n.countTerminals := by
  rw [strings, countTerminals, List.length_append, Children.length_strings]
  cases n.terminal <;> rfl

end Node

end PrefixMatch
