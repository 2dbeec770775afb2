import PrefixMatch.Proofs.Trie.Contents

/-!
# Trie — histories

A history is a way in which a trie comes into being and the operations on it after that, in any number
and order (`Trie.History`).  The words that a history entered (`Trie.History.entered`), as a set
(`Trie.History.vocabulary`), are what its trie holds (`Trie.History.holds`).

Each operation *grows* a trie from one set of words to another, with one event of a new entry for each
word that comes in (`Trie.Grows`); growths compose, which gives the whole run.

* `Trie.History.answers_as_set`: newness, membership, size and emptiness are those of the set of words
  entered, the size is also the number of entries that were new, and settings change none of this.
-/

namespace PrefixMatch

/-! ### Events of new entries -/

/-- Whether an event says that a word was entered and was new. -/
def Event.isNewEntry : Event → Bool
  | .keyInserted _ isNew => isNew
  | _ => false

namespace Logged

variable {α β : Type}

/-- The number of words that were entered and were new. -/
def newEntries (r : Logged α) : Nat :=
  r.events.countP Event.isNewEntry

@[simp] theorem newEntries_bind (r : Logged α) (f : α → Logged β) :
    (r >>= f).newEntries = r.newEntries + (f r.value).newEntries := by
  rw [newEntries, events_bind, List.countP_append]; rfl

end Logged

namespace Trie

/-! ### Histories -/

/-- How a trie comes into being.  A map is given by its entries, in the order in which it yields
them. -/
inductive Origin : Type 1 where
  | empty
  | withSettings (settings : TrieSettings)
  | ofKeys (words : List String)
  | ofMap {α : Type} (table : List (String × α))

/-- An operation that changes a trie. -/
inductive Step where
  | insert (word : String)
  | extend (words : List String)
  | setSettings (settings : TrieSettings)

/-- The trie of an origin. -/
def Origin.build : Origin → Logged Trie
  | .empty => pure Trie.empty
  | .withSettings settings => pure (Trie.withSettings settings)
  | .ofKeys words => Trie.ofKeys words
  | .ofMap table => Trie.ofMap table

/-- The words that an origin enters, in order. -/
def Origin.entered : Origin → List String
  | .empty => []
  | .withSettings _ => []
  | .ofKeys words => words
  | .ofMap table => Fields.keys table

/-- The trie after an operation. -/
def apply (t : Trie) : Step → Logged Trie
  | .insert word => do
    let (_, t) ← t.insertLogged word
    return t
  | .extend words => t.extend words
  | .setSettings settings => pure (t.setSettings settings)

/-- The words that an operation enters, in order. -/
def Step.entered : Step → List String
  | .insert word => [word]
  | .extend words => words
  | .setSettings _ => []

/-- An origin and the operations after it. -/
structure History where
  origin : Origin
  steps : List Step

namespace History

/-- The run of a history. -/
def run (h : History) : Logged Trie := do
  let t ← h.origin.build
  h.steps.foldlM apply t

/-- The trie that a history leads to. -/
def trie (h : History) : Trie :=
  h.run.value

/-- The words that a history enters, in order and with repetitions. -/
def entered (h : History) : List String :=
  h.origin.entered ++ h.steps.flatMap Step.entered

/-- The set of words that a history enters. -/
def vocabulary (h : History) : Finset String :=
  h.entered.toFinset

end History

/-! ### Growth -/

/-- From a trie that holds `S`, the computation leads to one that holds `T`, with one event of a new
entry for each word that `T` has more. -/
structure Grows (r : Logged Trie) (S T : Finset String) : Prop where
  holds : r.value.Holds T
  newEntries : S.card + r.newEntries = T.card

namespace Grows

variable {t : Trie} {r : Logged Trie} {S T U : Finset String}

theorem pure (h : t.Holds S) : Grows (pure t) S S :=
  ⟨h, rfl⟩

theorem bind (h : Grows r S T) {f : Trie → Logged Trie} (hf : Grows (f r.value) T U) :
    Grows (r >>= f) S U where
  holds := hf.holds
  newEntries := by
    rw [Logged.newEntries_bind, ← Nat.add_assoc, h.newEntries, hf.newEntries]

end Grows

variable {t : Trie} {S : Finset String}

theorem newEntries_insertLogged (t : Trie) (word : String) :
    (t.insertLogged word).newEntries = if t.isNew word then 1 else 0 := by
  rw [Logged.newEntries]
  cases h : t.isNew word <;> simp [insertLogged, Event.isNewEntry, h]

theorem Holds.grows_insert (h : t.Holds S) (word : String) :
    Grows (t.apply (.insert word)) S (S ∪ {word}) where
  holds := h.insert word
  newEntries := by
    have hnew : (t.apply (.insert word)).newEntries = if t.isNew word then 1 else 0 := by
      rw [apply, Logged.newEntries_bind, newEntries_insertLogged]; rfl
    rw [hnew]
    by_cases hw : word ∈ S
    · have hS : S ∪ {word} = S := Finset.union_eq_left.mpr (Finset.singleton_subset_iff.mpr hw)
      rw [if_neg fun hn => (h.isNew_iff word).mp hn hw, hS, Nat.add_zero]
    · have hS : Disjoint S {word} := Finset.disjoint_singleton_right.mpr hw
      rw [if_pos ((h.isNew_iff word).mpr hw), Finset.card_union_of_disjoint hS,
        Finset.card_singleton]

/-- Entering several words is entering the first one and then the others. -/
theorem extend_cons (t : Trie) (word : String) (words : List String) :
    t.extend (word :: words) = t.apply (.insert word) >>= fun u => u.extend words := rfl

theorem Holds.grows_extend (h : t.Holds S) (words : List String) :
    Grows (t.extend words) S (S ∪ words.toFinset) := by
  induction words generalizing t S with
  | nil =>
      rw [List.toFinset_nil, Finset.union_empty]
      exact .pure h
  | cons word words ih =>
      rw [extend_cons, List.toFinset_cons, Finset.insert_eq, ← Finset.union_assoc]
      exact (h.grows_insert word).bind (ih (h.insert word))

theorem grows_ofKeys (words : List String) : Grows (ofKeys words) ∅ words.toFinset := by
  have h := (Holds.empty {}).grows_extend words
  rw [Finset.empty_union] at h
  refine ⟨h.holds, ?_⟩
  rw [← h.newEntries, ofKeys, Logged.newEntries_bind]
  rfl

/-- Each operation grows a trie by the words that it enters. -/
theorem Holds.grows_apply (h : t.Holds S) (s : Step) :
    Grows (t.apply s) S (S ∪ s.entered.toFinset) := by
  cases s with
  | insert word => exact h.grows_insert word
  | extend words => exact h.grows_extend words
  | setSettings settings =>
      rw [Step.entered, List.toFinset_nil, Finset.union_empty]
      exact .pure (h.setSettings settings)

theorem Origin.grows_build (o : Origin) : Grows o.build ∅ o.entered.toFinset := by
  cases o with
  | empty => exact .pure (.empty {})
  | withSettings settings => exact .pure (.empty settings)
  | ofKeys words => exact grows_ofKeys words
  | ofMap table => exact grows_ofKeys (Fields.keys table)

theorem Holds.grows_steps (h : t.Holds S) (steps : List Step) :
    Grows (steps.foldlM apply t) S (S ∪ (steps.flatMap Step.entered).toFinset) := by
  induction steps generalizing t S with
  | nil =>
      rw [List.flatMap_nil, List.toFinset_nil, Finset.union_empty]
      exact .pure h
  | cons s steps ih =>
      rw [List.foldlM_cons, List.flatMap_cons, List.toFinset_append, ← Finset.union_assoc]
      exact (h.grows_apply s).bind (ih (h.grows_apply s).holds)

namespace History

theorem grows_run (h : History) : Grows h.run ∅ h.vocabulary := by
  rw [vocabulary, entered, List.toFinset_append]
  exact h.origin.grows_build.bind (h.origin.grows_build.holds.grows_steps h.steps)

/-- **The trie of a history holds the words that the history entered.** -/
theorem holds (h : History) : h.trie.Holds h.vocabulary :=
  h.grows_run.holds

/-- **A trie answers as the set of words entered**, after any history: a word is reported as new just
when it is not in the set and as contained just when it is, the size is the number of words in the set
and the number of entries that were new, and the trie is empty just when the set is.  Settings change
no such answer. -/
theorem answers_as_set (h : History) :
    (∀ word, (h.trie.insertLogged word).value.1 = true ↔ word ∉ h.vocabulary) ∧
    (∀ word, h.trie.contains word = true ↔ word ∈ h.vocabulary) ∧
    h.trie.size = h.vocabulary.card ∧
    h.trie.size = h.run.newEntries ∧
    (h.trie.isEmpty = true ↔ h.vocabulary = ∅) ∧
    ∀ settings,
      (∀ word, ((h.trie.setSettings settings).insertLogged word).value.1 =
        (h.trie.insertLogged word).value.1) ∧
      (∀ word, (h.trie.setSettings settings).contains word = h.trie.contains word) ∧
      (h.trie.setSettings settings).size = h.trie.size ∧
      (h.trie.setSettings settings).isEmpty = h.trie.isEmpty := by
  refine ⟨h.holds.isNew_iff, h.holds.contains_iff, h.holds.size_eq, ?_, h.holds.isEmpty_iff,
    fun settings => ⟨fun _ => rfl, fun _ => rfl, rfl, rfl⟩⟩
  have hnew := h.grows_run.newEntries
  rw [Finset.card_empty, Nat.zero_add] at hnew
  rw [h.holds.size_eq, hnew]

end History

end Trie

end PrefixMatch
