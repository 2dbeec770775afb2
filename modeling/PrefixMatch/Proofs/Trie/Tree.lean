import PrefixMatch.Trie.Node

/-!
# Trie — the tree as nested maps

Two facts hold of every tree that is built by entering words: the children of a node are a map, with
at most one child under a character (`Children.Distinct`), and no branch is dead, so that a child
without children of its own is terminal (`Children.Live`).  Entering a word keeps both.

* `Children.find?_enter`: entering a word changes the child under its first character alone.
* `Node.accepts_enter`: entering a word adds that word, and nothing else, to the words accepted.
* `Node.spells_iff`: in a tree without dead branches, a sequence of characters leads to a node just
  when it is empty or starts an accepted word.
-/

namespace PrefixMatch

namespace Children

/-! ### Children as a map -/

/-- Siblings stand under different characters, at every level. -/
def Distinct : Children → Prop
  | .nil => True
  | .cons c _ below rest => c ∉ rest.heads ∧ below.Distinct ∧ rest.Distinct

/-- Every branch leads to a terminal node: a child that is not terminal has children. -/
def Live : Children → Prop
  | .nil => True
  | .cons _ terminal below rest => (terminal = false → below ≠ .nil) ∧ below.Live ∧ rest.Live

instance decidableDistinct : (ch : Children) → Decidable ch.Distinct
  | .nil => .isTrue trivial
  | .cons c _ below rest =>
    have : Decidable below.Distinct := decidableDistinct below
    have : Decidable rest.Distinct := decidableDistinct rest
    inferInstanceAs (Decidable (c ∉ rest.heads ∧ below.Distinct ∧ rest.Distinct))

/-- There is no child under a character that heads none. -/
theorem find?_eq_none_iff {c : Char} (ch : Children) : ch.find? c = none ↔ c ∉ ch.heads := by
  induction ch with
  | nil => simp [find?, heads]
  | cons d terminal below rest _ ih =>
      by_cases h : d = c
      · simp [find?, heads, h]
      · simp [find?, heads, h, Ne.symm h, ih]

/-- A child of a distinct map is itself distinct. -/
theorem Distinct.find? {ch : Children} (hd : ch.Distinct) {c : Char} {n : Node}
    (h : ch.find? c = some n) : n.children.Distinct := by
  induction ch with
  | nil => cases h
  | cons d terminal below rest _ ih =>
      obtain ⟨-, hb, hr⟩ := hd
      simp only [Children.find?] at h
      split at h
      · cases h; exact hb
      · exact ih hr h

/-- A child of a live map has live children, and has some if it is not terminal. -/
theorem Live.find? {ch : Children} (hl : ch.Live) {c : Char} {n : Node}
    (h : ch.find? c = some n) : (n.terminal = false → n.children ≠ .nil) ∧ n.children.Live := by
  induction ch with
  | nil => cases h
  | cons d terminal below rest _ ih =>
      obtain ⟨ht, hb, hr⟩ := hl
      simp only [Children.find?] at h
      split at h
      · cases h; exact ⟨ht, hb⟩
      · exact ih hr h

/-! ### Entering a word -/

/-- A fresh path is what entering the word into no children gives. -/
theorem path_eq_enter (c : Char) (cs : List Char) :
    path c cs = .cons c (({} : Node).enter cs).terminal (({} : Node).enter cs).children .nil := by
  cases cs with
  | nil => rfl
  | cons d ds => rfl

/-- **Entering a word changes the child under its first character alone**: that child, made afresh if
it was missing, has the rest of the word entered. -/
theorem find?_enter (ch : Children) (c d : Char) (cs : List Char) :
    (ch.enter c cs).find? d =
      if c = d then some (((ch.find? c).getD {}).enter cs) else ch.find? d := by
  induction ch with
  | nil => simp only [enter, path_eq_enter, find?, Option.getD_none]
  | cons e terminal below rest _ ih =>
      by_cases hec : e = c
      · -- the word runs through this child, and the siblings behind it stay as they are
        subst hec
        cases cs with
        | nil => simp only [enter, if_true, find?, Option.getD_some, Node.enter]; split <;> rfl
        | cons f fs => simp only [enter, if_true, find?, Option.getD_some, Node.enter]; split <;> rfl
      · simp only [enter, if_neg hec, find?, ih]
        by_cases hcd : c = d
        · subst hcd; simp [hec]
        · simp [hcd]

theorem mem_heads_enter (ch : Children) (c d : Char) (cs : List Char) :
    d ∈ (ch.enter c cs).heads ↔ d = c ∨ d ∈ ch.heads := by
  have h : ∀ ch : Children, d ∈ ch.heads ↔ ch.find? d ≠ none := fun ch =>
    (not_congr (find?_eq_none_iff ch)).trans Decidable.not_not |>.symm
  rw [h, h, find?_enter]
  by_cases hcd : c = d
  · simp [hcd]
  · simp [hcd, Ne.symm hcd]

theorem enter_ne_nil (ch : Children) (c : Char) (cs : List Char) : ch.enter c cs ≠ .nil := by
  intro h
  have hc := (mem_heads_enter ch c c cs).mpr (.inl rfl)
  rw [h] at hc
  cases hc

theorem distinct_path (c : Char) (cs : List Char) : (path c cs).Distinct := by
  induction cs generalizing c with
  | nil => simp [path, Distinct, heads]
  | cons d ds ih => exact ⟨List.not_mem_nil, ih d, trivial⟩

theorem live_path (c : Char) (cs : List Char) : (path c cs).Live := by
  induction cs generalizing c with
  | nil => simp [path, Live]
  | cons d ds ih => exact ⟨fun _ => by rw [path_eq_enter]; nofun, ih d, trivial⟩

theorem Distinct.enter {ch : Children} (hd : ch.Distinct) (c : Char) (cs : List Char) :
    (ch.enter c cs).Distinct := by
  induction ch generalizing c cs with
  | nil => exact distinct_path c cs
  | cons e terminal below rest ihb ihr =>
      obtain ⟨he, hb, hr⟩ := hd
      by_cases hec : e = c
      · cases cs with
        | nil => simp only [Children.enter, if_pos hec]; exact ⟨he, hb, hr⟩
        | cons f fs => simp only [Children.enter, if_pos hec]; exact ⟨he, ihb hb f fs, hr⟩
      · simp only [Children.enter, if_neg hec]
        exact ⟨fun h => ((mem_heads_enter rest c e cs).mp h).elim hec he, hb, ihr hr c cs⟩

theorem Live.enter {ch : Children} (hl : ch.Live) (c : Char) (cs : List Char) :
    (ch.enter c cs).Live := by
  induction ch generalizing c cs with
  | nil => exact live_path c cs
  | cons e terminal below rest ihb ihr =>
      obtain ⟨ht, hb, hr⟩ := hl
      by_cases hec : e = c
      · cases cs with
        | nil => simp only [Children.enter, if_pos hec]; exact ⟨nofun, hb, hr⟩
        | cons f fs =>
            simp only [Children.enter, if_pos hec]
            exact ⟨fun _ => enter_ne_nil below f fs, ihb hb f fs, hr⟩
      · simp only [Children.enter, if_neg hec]
        exact ⟨ht, hb, ihr hr c cs⟩

end Children

namespace Node

/-! ### The words that a node spells and accepts -/

/-- The word leads to a node from here. -/
def Spells (n : Node) (w : List Char) : Prop := (n.descend? w).isSome = true

instance (n : Node) (w : List Char) : Decidable (n.Spells w) :=
  inferInstanceAs (Decidable (_ = true))

theorem descend?_append (n : Node) (u v : List Char) :
    n.descend? (u ++ v) = (n.descend? u).bind fun m => m.descend? v := by
  induction u generalizing n with
  | nil => rfl
  | cons c cs ih =>
      simp only [List.cons_append, descend?]
      cases n.children.find? c with
      | none => rfl
      | some m => exact ih m

@[simp] theorem accepts_nil (n : Node) : n.accepts [] = n.terminal := rfl

theorem accepts_cons (n : Node) (c : Char) (cs : List Char) :
    n.accepts (c :: cs) = ((n.children.find? c).map fun m => m.accepts cs).getD false := by
  simp only [accepts, descend?]
  cases n.children.find? c with
  | none => rfl
  | some m => rfl

theorem accepts_append {n m : Node} {u : List Char} (h : n.descend? u = some m) (v : List Char) :
    n.accepts (u ++ v) = m.accepts v := by
  simp only [accepts, descend?_append, h, Option.bind_some]

@[simp] theorem accepts_default (w : List Char) : ({} : Node).accepts w = false := by
  cases w with
  | nil => rfl
  | cons c cs => rfl

/-- A node spells what starts a word that it spells. -/
theorem Spells.of_start {n : Node} {u w : List Char} (h : n.Spells w) (hu : u <+: w) :
    n.Spells u := by
  obtain ⟨v, rfl⟩ := hu
  simp only [Spells, descend?_append] at h ⊢
  cases hn : n.descend? u with
  | none => simp [hn] at h
  | some m => rfl

theorem Spells.of_accepts {n : Node} {w : List Char} (h : n.accepts w = true) : n.Spells w := by
  simp only [accepts] at h
  simp only [Spells]
  cases hn : n.descend? w with
  | none => simp [hn] at h
  | some m => rfl

/-- **Entering a word adds that word and no other.** -/
theorem accepts_enter (n : Node) (w v : List Char) :
    (n.enter w).accepts v = true ↔ v = w ∨ n.accepts v = true := by
  induction w generalizing n v with
  | nil =>
      cases v with
      | nil => simp [enter]
      | cons d ds => simp [enter, accepts_cons]
  | cons c cs ih =>
      cases v with
      | nil => simp [enter]
      | cons d ds =>
          rw [accepts_cons, accepts_cons, enter, Children.find?_enter]
          by_cases hcd : c = d
          · subst hcd
            simp only [if_true, Option.map_some, Option.getD_some, ih, List.cons.injEq, true_and]
            cases n.children.find? c with
            | none => simp
            | some m => simp
          · simp [hcd, Ne.symm hcd]

/-- A node inside a tree of maps has a tree of maps below it. -/
theorem distinct_of_descend? {n m : Node} {w : List Char} (hd : n.children.Distinct)
    (h : n.descend? w = some m) : m.children.Distinct := by
  induction w generalizing n with
  | nil => cases h; exact hd
  | cons c cs ih =>
      simp only [descend?] at h
      cases hf : n.children.find? c with
      | none => simp [hf] at h
      | some k =>
          simp only [hf] at h
          exact ih (hd.find? hf) h

/-! ### Trees without dead branches -/

/-- A live map that is not empty holds a word. -/
theorem exists_accepts_of_children {n : Node} (hl : n.children.Live) (hn : n.children ≠ .nil) :
    ∃ w, n.accepts w = true := by
  obtain ⟨t, ch⟩ := n
  simp only at hl hn
  induction ch generalizing t with
  | nil => exact absurd rfl hn
  | cons c terminal below rest ihb _ =>
      obtain ⟨ht, hb, -⟩ := hl
      have hc : ∀ cs, (⟨t, .cons c terminal below rest⟩ : Node).accepts (c :: cs) =
          (⟨terminal, below⟩ : Node).accepts cs := fun cs => by simp [accepts_cons, Children.find?]
      cases terminal with
      | true => exact ⟨[c], by rw [hc]; rfl⟩
      | false =>
          obtain ⟨w, hw⟩ := ihb false hb (ht rfl)
          exact ⟨c :: w, by rw [hc]; exact hw⟩

/-- A node that a non-empty word leads to in a live tree is terminal or has live children. -/
theorem live_of_descend? {n m : Node} {w : List Char} (hl : n.children.Live) (hw : w ≠ [])
    (h : n.descend? w = some m) : (m.terminal = false → m.children ≠ .nil) ∧ m.children.Live := by
  induction w generalizing n with
  | nil => exact absurd rfl hw
  | cons c cs ih =>
      simp only [descend?] at h
      cases hf : n.children.find? c with
      | none => simp [hf] at h
      | some k =>
          simp only [hf] at h
          cases cs with
          | nil => cases h; exact hl.find? hf
          | cons d ds => exact ih (hl.find? hf).2 (List.cons_ne_nil d ds) h

/-- **What a tree without dead branches spells**: the empty word, and what starts an accepted word. -/
theorem spells_iff {n : Node} (hl : n.children.Live) (p : List Char) :
    n.Spells p ↔ p = [] ∨ ∃ w, n.accepts w = true ∧ p <+: w := by
  constructor
  · intro hp
    by_cases hne : p = []
    · exact .inl hne
    · obtain ⟨m, hm⟩ := Option.isSome_iff_exists.mp hp
      obtain ⟨ht, hml⟩ := live_of_descend? hl hne hm
      have : ∃ v, m.accepts v = true := by
        cases hmt : m.terminal with
        | true => exact ⟨[], hmt⟩
        | false => exact exists_accepts_of_children hml (ht hmt)
      obtain ⟨v, hv⟩ := this
      exact .inr ⟨p ++ v, (accepts_append hm v).trans hv, List.prefix_append p v⟩
  · rintro (rfl | ⟨w, hw, hp⟩)
    · rfl
    · exact (Spells.of_accepts hw).of_start hp

end Node

end PrefixMatch
