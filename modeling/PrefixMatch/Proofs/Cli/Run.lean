import PrefixMatch.Cli.Run
import PrefixMatch.Proofs.Vocabulary.Loading

/-!
# Cli — how runs end

The words that an invocation asks for come from the file and in the format that the arguments name, or else
the configuration (`Invocation.Reads`); the trie of an invocation holds them (`loadTrie_of_reads`), and is
missing for the reasons that the words are (`loadTrie_eq_error_iff`).  A run ends in one of four ways: it
crashes (`runInvocation_of_crash`), its configuration is refused (`runInvocation_of_refused`), its command fails
(`runInvocation_of_error`), or its command is carried out (`runInvocation_of_ok`).
-/

namespace PrefixMatch.Cli

variable {lib : Libraries} {i : Invocation} {c : Config} {env : Environment} {files : FileTree}
  {words : List String}

/-! ### The vocabulary of an invocation -/

/-- The words that an invocation asks for under a configuration: those of the file that the arguments name,
or else the configuration, in the format of the arguments, or else of the configuration, or else of the
path. -/
def Invocation.Reads (i : Invocation) (lib : Libraries) (c : Config) (files : FileTree)
    (words : List String) : Prop :=
  ∃ path f text, i.vocab.or c.vocabulary.path = some path ∧
    i.format.or (c.vocabulary.format.or (Format.ofPath? path)) = some f ∧
    files.readText path = .ok text ∧ (VocabularyLoader.ofConfig c).words lib path f text = .ok words

/-- The loader of an invocation. -/
def Invocation.loader (i : Invocation) (c : Config) : VocabularyLoader :=
  match i.format with
  | none => .ofConfig c
  | some f => (VocabularyLoader.ofConfig c).withFormat f

theorem Invocation.formatFor?_loader (i : Invocation) (c : Config) (path : String) :
    (i.loader c).formatFor? path = i.format.or (c.vocabulary.format.or (Format.ofPath? path)) := by
  rw [loader]
  cases i.format with
  | none => rfl
  | some f => rfl

theorem Invocation.words_loader (i : Invocation) (c : Config) (path : String) (f : Format) (text : String) :
    (i.loader c).words lib path f text = (VocabularyLoader.ofConfig c).words lib path f text := by
  rw [loader]
  cases i.format with
  | none => rfl
  | some g => cases f <;> rfl

theorem Invocation.settings_loader (i : Invocation) (c : Config) : (i.loader c).trieSettings = c.trie := by
  rw [loader]
  cases i.format with
  | none => rfl
  | some g => rfl

/-- An invocation asks for the words that its loader finds at its path. -/
theorem Invocation.reads_iff :
    i.Reads lib c files words ↔
      ∃ path, vocabularyPath? i c = some path ∧ (i.loader c).Finds lib files path words := by
  constructor
  · rintro ⟨path, f, text, hpath, hf, htext, hwords⟩
    refine ⟨path, hpath, f, text, ?_, htext, ?_⟩
    · rw [i.formatFor?_loader, hf]
    · rw [i.words_loader, hwords]
  · rintro ⟨path, hpath, f, text, hf, htext, hwords⟩
    rw [i.formatFor?_loader] at hf
    rw [i.words_loader] at hwords
    exact ⟨path, f, text, hpath, hf, htext, hwords⟩

theorem loadTrie_of_path {path : String} (h : vocabularyPath? i c = some path) :
    loadTrie lib i c files =
      (do return (← (i.loader c).load lib files path).mapError Failure.vocabulary) := by
  rw [loadTrie, h]
  rfl

theorem value_loadTrie_of_path {path : String} (h : vocabularyPath? i c = some path) :
    (loadTrie lib i c files).value = ((i.loader c).load lib files path).value.mapError Failure.vocabulary := by
  rw [loadTrie_of_path h]
  rfl

/-- **The trie of an invocation holds the words that it asks for**, under the configured settings. -/
theorem loadTrie_of_reads (h : i.Reads lib c files words) :
    ∃ t, (loadTrie lib i c files).value = .ok t ∧ t.Holds words.toFinset ∧ t.settings = c.trie := by
  obtain ⟨path, hpath, hfinds⟩ := Invocation.reads_iff.mp h
  obtain ⟨t, ht, hholds, hs⟩ := VocabularyLoader.load_of_finds hfinds
  exact ⟨t, by rw [value_loadTrie_of_path hpath, ht]; rfl, hholds, hs.trans (i.settings_loader c)⟩

/-- What keeps an invocation from having words: no path is given, or the loader fails. -/
inductive Invocation.LacksWords (i : Invocation) (lib : Libraries) (c : Config) (files : FileTree) :
    Failure → Prop where
  | noPath (hpath : vocabularyPath? i c = none) :
      LacksWords i lib c files (.custom "No vocabulary given; use --vocab or set vocabulary.path")
  | fails {path : String} {e : VocabularyError} (hpath : vocabularyPath? i c = some path)
      (h : (i.loader c).Fails lib files path e) : LacksWords i lib c files (.vocabulary e)

theorem Invocation.reads_or_lacks (i : Invocation) (lib : Libraries) (c : Config) (files : FileTree) :
    (∃ words, i.Reads lib c files words) ∨ ∃ e, i.LacksWords lib c files e := by
  cases hpath : vocabularyPath? i c with
  | none => exact .inr ⟨_, .noPath hpath⟩
  | some path =>
      rcases (i.loader c).finds_or_fails lib files path with ⟨words, h⟩ | ⟨e, h⟩
      · exact .inl ⟨words, reads_iff.mpr ⟨path, hpath, h⟩⟩
      · exact .inr ⟨_, .fails hpath h⟩

theorem value_loadTrie_of_lacks {e : Failure} (h : i.LacksWords lib c files e) :
    (loadTrie lib i c files).value = .error e := by
  cases h with
  | noPath hpath =>
      rw [loadTrie, hpath]
      rfl
  | fails hpath h =>
      rw [value_loadTrie_of_path hpath, VocabularyLoader.load_eq_error_iff.mpr h]
      rfl

theorem loadTrie_eq_error_iff {e : Failure} :
    (loadTrie lib i c files).value = .error e ↔ i.LacksWords lib c files e := by
  refine ⟨fun he => ?_, value_loadTrie_of_lacks⟩
  rcases i.reads_or_lacks lib c files with ⟨words, h⟩ | ⟨d, h⟩
  · obtain ⟨t, ht, -⟩ := loadTrie_of_reads h
    exact absurd (ht.symm.trans he) nofun
  · exact Except.error.inj ((value_loadTrie_of_lacks h).symm.trans he) ▸ h

theorem isLoading_of_mem_loadTrie (lib : Libraries) (i : Invocation) (c : Config) (files : FileTree) :
    ∀ e ∈ (loadTrie lib i c files).events, e.isLoading = true := by
  cases hpath : vocabularyPath? i c with
  | none =>
      rw [loadTrie, hpath]
      exact fun _ hmem => absurd hmem List.not_mem_nil
  | some path =>
      rw [loadTrie_of_path hpath, Logged.events_bind, Logged.events_pure, List.append_nil]
      exact (i.loader c).isLoading_of_mem_load lib files path

/-! ### Commands on a vocabulary -/

theorem perform_lookup {input : String} (h : i.command = .lookup input) (lib : Libraries) (c : Config) :
    perform lib i c files = onTrie lib i c files (lookup input) := by
  rw [perform, h]

theorem perform_complete {input : String} {limit : Option Nat} (h : i.command = .complete input limit)
    (lib : Libraries) (c : Config) :
    perform lib i c files = onTrie lib i c files (complete input limit) := by
  rw [perform, h]

theorem onTrie_of_ok {t : Trie} (answer : Trie → Logged Success)
    (h : (loadTrie lib i c files).value = .ok t) :
    (onTrie lib i c files answer).value = ⟨.ok (answer t).value, files⟩ ∧
      (onTrie lib i c files answer).events = (loadTrie lib i c files).events ++ (answer t).events := by
  rw [onTrie, Logged.value_bind, Logged.events_bind, h]
  exact ⟨rfl, by rw [Logged.events_bind, Logged.events_pure, List.append_nil]⟩

theorem onTrie_of_error {e : Failure} (answer : Trie → Logged Success)
    (h : (loadTrie lib i c files).value = .error e) :
    (onTrie lib i c files answer).value = ⟨.error e, files⟩ ∧
      (onTrie lib i c files answer).events = (loadTrie lib i c files).events := by
  rw [onTrie, Logged.value_bind, Logged.events_bind, h]
  exact ⟨rfl, by rw [Logged.events_pure, List.append_nil]⟩

/-! ### Runs -/

/-- The configuration that a run of an invocation starts from. -/
def Invocation.config? (i : Invocation) (lib : Libraries) (env : Environment) (files : FileTree) :
    Except LoadFailure Config :=
  (({ path := i.config } : ConfigLoader).load lib files env).value

theorem run_of_parse {args : List String} (hparse : parse args = some (.run i)) (lib : Libraries)
    (env : Environment) (files : FileTree) : run lib args env files = runInvocation lib i env files := by
  rw [run, hparse]

/-- A run that crashes on its configuration says nothing but what the crash prints. -/
theorem runInvocation_of_crash (hconfig : i.config? lib env files = .error .crash) :
    runInvocation lib i env files = { status := crashStatus, console := lib.crashText, files } := by
  rw [Invocation.config?] at hconfig
  simp only [runInvocation, hconfig]

/-- A run whose configuration is refused prints the error, and nothing is logged. -/
theorem runInvocation_of_refused {e : ConfigError} (hconfig : i.config? lib env files = .error (.refused e)) :
    runInvocation lib i env files =
      { status := errorStatus, console := "Error: " ++ (reportOf i (.config e)).text ++ "\n", files } := by
  rw [Invocation.config?] at hconfig
  simp only [runInvocation, hconfig]
  rfl

/-- A run whose command fails logs the report behind the events of the command. -/
theorem runInvocation_of_error {e : Failure} (hconfig : i.config? lib env files = .ok c)
    (he : (perform lib i c files).value.result = .error e) :
    runInvocation lib i env files =
      { status := errorStatus, log := some c.log, files := (perform lib i c files).value.files,
        events := (perform lib i c files).events.filter (filterOf lib c env) ++
          [(reportOf i e).event].filter (filterOf lib c env) } := by
  rw [Invocation.config?] at hconfig
  simp only [runInvocation, hconfig, he]
  rfl

/-- A run whose command is carried out ends as the command does. -/
theorem runInvocation_of_ok {s : Success} (hconfig : i.config? lib env files = .ok c)
    (hs : (perform lib i c files).value.result = .ok s) :
    runInvocation lib i env files =
      { status := s.status, output := s.output, log := some c.log,
        files := (perform lib i c files).value.files,
        events := (perform lib i c files).events.filter (filterOf lib c env) } := by
  rw [Invocation.config?] at hconfig
  simp only [runInvocation, hconfig, hs]

end PrefixMatch.Cli
