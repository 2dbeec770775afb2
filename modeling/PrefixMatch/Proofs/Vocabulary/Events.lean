import PrefixMatch.Proofs.Vocabulary.RootKeys

/-!
# Vocabulary — the events of loading

Entering words gives an account of them: one event for each, in order, which says that the word is new just
when it did not come before (`Trie.events_extend`).  So the words that were new are as many as the trie holds
(`Trie.Account.countP_new`).

* `VocabularyLoader.load_accounts`: a load that succeeds accounts for every line that is kept, or every key at
  the top, and then gives the number of entries three times; a load that fails emits nothing.
-/

namespace PrefixMatch

/-- Watching at the trace level misses no event. -/
@[simp] theorem Event.filter_atLeast_trace (events : List Event) :
    events.filter (·.atLeast .trace) = events := by
  refine List.filter_eq_self.mpr fun e _ => ?_
  cases e <;> rfl

/-! ### Accounts -/

namespace Trie

/-- An account of words that are entered into a trie that holds `S`: each of them in order, with whether it was
new. -/
structure Account (S : Finset String) (words : List String) (account : List (String × Bool)) : Prop where
  words_eq : account.map Prod.fst = words
  isNew_iff : ∀ before word isNew after, account = before ++ (word, isNew) :: after →
    (isNew = true ↔ word ∉ S ∧ ∀ e ∈ before, e.1 ≠ word)

/-- The event of an entry of an account. -/
def entered (e : String × Bool) : Event :=
  .keyInserted e.1 e.2

variable {t : Trie} {S : Finset String} {words : List String} {account : List (String × Bool)}

theorem Account.nil (S : Finset String) : Account S [] [] where
  words_eq := rfl
  isNew_iff before word isNew after h := by
    rw [List.nil_eq, List.append_eq_nil_iff] at h
    exact nomatch h.2

/-- A word that is entered is there for the words that follow. -/
theorem Account.cons (word : String) {isNew : Bool} (hnew : isNew = true ↔ word ∉ S)
    (h : Account (S ∪ {word}) words account) : Account S (word :: words) ((word, isNew) :: account) where
  words_eq := by rw [List.map_cons, h.words_eq]
  isNew_iff before w b after heq := by
    cases before with
    | nil =>
        cases heq
        exact hnew.trans (and_iff_left nofun).symm
    | cons e before =>
        obtain ⟨rfl, htail⟩ := List.cons.inj heq
        rw [h.isNew_iff before w b after htail, List.forall_mem_cons, Finset.mem_union, Finset.mem_singleton,
          not_or, and_assoc, ne_comm]

/-- **Entering words accounts for each of them.** -/
theorem events_extend (h : t.Holds S) (words : List String) :
    ∃ account, Account S words account ∧ (t.extend words).events = account.map entered := by
  induction words generalizing t S with
  | nil => exact ⟨[], .nil S, rfl⟩
  | cons word words ih =>
      obtain ⟨account, haccount, hevents⟩ := ih (h.insert word)
      refine ⟨(word, t.isNew word) :: account, .cons word (h.isNew_iff word) haccount, ?_⟩
      rw [extend_cons, Logged.events_bind, List.map_cons, ← hevents]
      rfl

/-- Words that are distinct and not there before are all new. -/
theorem Account.all_new (h : Account ∅ words account) (hd : words.Nodup) : ∀ e ∈ account, e.2 = true := by
  rintro ⟨word, isNew⟩ he
  obtain ⟨before, after, heq⟩ := List.append_of_mem he
  refine (h.isNew_iff before word isNew after heq).mpr ⟨Finset.notMem_empty word, fun e hmem hword => ?_⟩
  rw [← h.words_eq, heq, List.map_append, List.nodup_append] at hd
  exact hd.2.2 e.1 (List.mem_map_of_mem hmem) word (by simp) hword

/-- The words that are new are as many as there are different ones. -/
theorem countP_new (hevents : (empty.extend words).events = account.map entered) :
    account.countP Prod.snd = words.toFinset.card := by
  have hcount := ((Holds.empty {}).grows_extend words).newEntries
  rw [Finset.card_empty, Nat.zero_add, Finset.empty_union] at hcount
  rw [← hcount]
  show _ = (empty.extend words).events.countP Event.isNewEntry
  rw [hevents, List.countP_map]
  rfl

end Trie

namespace VocabularyLoader

variable {lib : Libraries} {l : VocabularyLoader} {files : FileTree} {path origin text : String} {f : Format}
  {words : List String}

instance (l : VocabularyLoader) (line : List Char) : Decidable (l.Skips line) :=
  decidable_of_iff _ skips_iff.symm

/-- The lines of a text that are kept, in order. -/
theorem map_toList_lineEntries (l : VocabularyLoader) (text : String) :
    (l.lineEntries text).map String.toList = (Text.lines text.toList).filter fun line => ¬ l.Skips line := by
  have hid : String.toList ∘ String.ofList = id := funext fun _ => String.toList_ofList
  rw [lineEntries, List.map_map, hid, List.map_id]
  refine List.filter_congr fun line _ => ?_
  by_cases h : l.Skips line
  · simp [h, skips_iff.mp h]
  · simp [h, Bool.eq_false_iff.mpr (mt skips_iff.mpr h)]

/-- The keys at the top of a document are read once each. -/
theorem nodup_words (hf : f ≠ .lines) (h : l.words lib origin f text = .ok words) : words.Nodup := by
  cases f with
  | lines => exact absurd rfl hf
  | json =>
      obtain ⟨fields, hread, rfl⟩ := words_json_eq_ok_iff.mp h
      obtain ⟨members, -, rfl⟩ := Json.rootMembers_of_read? hread
      exact (Fields.IsMap.foldl_put (P := fun _ => True) Fields.isMap_nil fun _ _ => trivial).nodup
  | toml =>
      obtain ⟨lines, -, hd, -⟩ := Toml.rootKeys?_names (words_toml_eq_ok_iff.mp h)
      exact hd

/-- A load that succeeds enters the words that it finds, and then tells three times how many entries there
are. -/
theorem events_load_of_words (hf : l.formatFor? path = some f) (htext : files.readText path = .ok text)
    (hwords : l.words lib path f text = .ok words) :
    ∃ t, (l.load lib files path).value = .ok t ∧ t.Holds words.toFinset ∧
      (l.load lib files path).events = (Trie.empty.extend words).events ++
        [.trieBuilt t.size, .vocabularyParsed f t.size, .vocabularyLoaded path f t.size] := by
  refine ⟨(Trie.ofKeys words).value.setSettings l.trieSettings, ?_,
    (Trie.grows_ofKeys words).holds.setSettings l.trieSettings, ?_⟩
  · simp only [load, hf, htext, parse, hwords]
    rfl
  · simp only [load, hf, htext, parse, hwords, Trie.ofKeys, Logged.events_bind, Logged.value_bind,
      Logged.events_emit, Logged.events_pure, Logged.value_pure, List.append_assoc]
    rfl

/-- **The events of a load account for every entry.**  Watched at the trace level, a load that succeeds emits
an event for each line that is kept, in order, or for each key at the top of the document, and it says that a
word is new just when no event before says the same word, so that every key is new.  Then it gives three times
the number of entries, which is also the number of words that are new.  A load that fails emits nothing. -/
theorem load_accounts (l : VocabularyLoader) (lib : Libraries) (files : FileTree) (path : String) :
    (∀ t, (l.load lib files path).value = .ok t →
      ∃ f text, l.formatFor? path = some f ∧ files.readText path = .ok text ∧
        ∃ account : List (String × Bool),
          (l.load lib files path).events.filter (·.atLeast .trace) =
            account.map (fun e => .keyInserted e.1 e.2) ++
              [.trieBuilt t.size, .vocabularyParsed f t.size, .vocabularyLoaded path f t.size] ∧
          t.size = account.countP Prod.snd ∧
          (∀ before word isNew after, account = before ++ (word, isNew) :: after →
            (isNew = true ↔ ∀ e ∈ before, e.1 ≠ word)) ∧
          (f = .lines → account.map (·.1.toList) =
            (Text.lines text.toList).filter fun line => ¬ l.Skips line) ∧
          (f ≠ .lines → f.RootKeys text (account.map Prod.fst).toFinset ∧ (account.map Prod.fst).Nodup ∧
            ∀ e ∈ account, e.2 = true)) ∧
    ∀ e, (l.load lib files path).value = .error e → (l.load lib files path).events = [] := by
  refine ⟨fun t ht => ?loaded, fun e he => ?failed⟩
  case failed => rw [load_of_fails (load_eq_error_iff.mp he), Logged.events_pure]
  case loaded =>
    rcases l.finds_or_fails lib files path with ⟨words, f, text, hf, htext, hwords⟩ | ⟨e, he⟩
    swap
    · rw [load_of_fails he] at ht
      cases ht
    obtain ⟨u, hu, hholds, hevents⟩ := events_load_of_words hf htext hwords
    cases hu.symm.trans ht
    obtain ⟨account, haccount, hextend⟩ := Trie.events_extend (.empty {}) words
    refine ⟨f, text, hf, htext, account, ?events, ?size, ?new, ?lines, ?keys⟩
    case events =>
      rw [Event.filter_atLeast_trace, hevents]
      exact congrArg (· ++ _) hextend
    case size => rw [hholds.size_eq, Trie.countP_new hextend]
    case new =>
      intro before word isNew after heq
      rw [haccount.isNew_iff before word isNew after heq]
      exact and_iff_right (Finset.notMem_empty word)
    case lines =>
      rintro rfl
      cases hwords
      rw [← map_toList_lineEntries, ← haccount.words_eq, List.map_map]
      rfl
    case keys =>
      intro hlines
      have hd := nodup_words hlines hwords
      rw [haccount.words_eq]
      exact ⟨rootKeys_of_words hlines hwords, hd, haccount.all_new hd⟩

/-- A file with a word that comes twice, around a blank line. -/
def repeatedFiles : FileTree :=
  { entries := [(["w.txt"], .file "b\n\na\nb\n".toUTF8)] }

/-- The second time a word is not new; a file that cannot be read emits nothing. -/
theorem load_accounts_repeated :
    (∃ t, (({} : VocabularyLoader).load .plain repeatedFiles "w.txt").value = .ok t ∧ t.size = 2) ∧
    (({} : VocabularyLoader).load .plain repeatedFiles "w.txt").events.filter (·.atLeast .trace) =
      [.keyInserted "b" true, .keyInserted "a" true, .keyInserted "b" false, .trieBuilt 2,
        .vocabularyParsed .lines 2, .vocabularyLoaded "w.txt" .lines 2] ∧
    (({} : VocabularyLoader).load .plain oddFiles "b.txt").value = .error (.unreadable "b.txt" .notUtf8) ∧
    (({} : VocabularyLoader).load .plain oddFiles "b.txt").events = [] := by
  have htext : repeatedFiles.readText "w.txt" = .ok "b\n\na\nb\n" :=
    FileTree.readText_eq_ok_iff.mpr ⟨_, rfl, by decide⟩
  have hodd : (({} : VocabularyLoader).load .plain oddFiles "b.txt").value =
      .error (.unreadable "b.txt" .notUtf8) :=
    (load_eq_unreadable_iff (f := .lines) rfl).mpr
      ⟨rfl, FileTree.readText_eq_error_iff.mpr (.inr ⟨_, rfl, by decide, rfl⟩)⟩
  have hread : ({} : VocabularyLoader).words .plain "w.txt" .lines "b\n\na\nb\n" = .ok ["b", "a", "b"] := by rfl
  obtain ⟨t, ht, hholds, -⟩ := events_load_of_words rfl htext hread
  have hsize : t.size = 2 := hholds.size_eq.trans (by decide)
  obtain ⟨f, text, hf, htext', account, hevents, -, hnew, hlines, -⟩ :=
    (load_accounts {} .plain repeatedFiles "w.txt").1 t ht
  cases hf
  cases htext.symm.trans htext'
  have hwords : account.map Prod.fst = ["b", "a", "b"] :=
    (List.map_injective_iff.mpr fun _ _ => String.toList_inj.mp) <| by
      rw [List.map_map]
      exact (hlines rfl).trans (by decide)
  obtain ⟨⟨_, isNew⟩, rest, rfl, rfl, hafter⟩ := List.map_eq_cons_iff.mp hwords
  obtain ⟨⟨_, isNew'⟩, rest, rfl, rfl, hlast⟩ := List.map_eq_cons_iff.mp hafter
  obtain ⟨⟨_, isNew''⟩, rest, rfl, rfl, hnil⟩ := List.map_eq_cons_iff.mp hlast
  cases List.map_eq_nil_iff.mp hnil
  have hb : isNew = true := (hnew [] _ _ _ rfl).mpr nofun
  have ha : isNew' = true := (hnew [_] _ _ _ rfl).mpr (by simp)
  have hb' : isNew'' = false := Bool.eq_false_iff.mpr fun h => (hnew [_, _] _ _ _ rfl).mp h _ (.head _) rfl
  refine ⟨⟨t, ht, hsize⟩, ?_, hodd, (load_accounts {} .plain oddFiles "b.txt").2 _ hodd⟩
  rw [hevents, hsize, hb, ha, hb']
  rfl

end VocabularyLoader

end PrefixMatch
