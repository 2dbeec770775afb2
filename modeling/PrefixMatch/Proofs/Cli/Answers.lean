import Mathlib
import PrefixMatch.Cli.LogFilter
import PrefixMatch.Proofs.Cli.Run
import PrefixMatch.Proofs.Config.Crash
import PrefixMatch.Proofs.Config.RoundTrip
import PrefixMatch.Proofs.Trie.Resolution

/-!
# Cli — answers

What lookups and completions print, in terms of the words that the invocation asks for.  Both answer under
a trie that holds these words (`run_of_loads`), and say nothing when something cannot be loaded
(`run_of_not_loads`) or the configuration crashes the run (`run_of_crash`).

* `run_lookup`: a lookup prints the word that the policy asks for, and its status tells whether there is
  one, there is none, or something could not be loaded.
* `run_complete`: completions are the words that the input resolves to, up to the limit; in sorted order the
  smallest of them, so that a larger limit only adds to the output.  Their total is reported whatever the
  limit.
* `lookup_crashes`, `complete_crashes`: not every run that lacks something has the status of an error.
-/

namespace PrefixMatch

/-- Whether an event tells how many completions there are. -/
def Event.isListing : Event → Bool
  | .completionsListed .. => true
  | _ => false

theorem Event.isListing_of_isLoading {e : Event} (h : e.isLoading = true) : e.isListing = false := by
  cases e with
  | completionsListed => cases h
  | keyInserted | trieBuilt | vocabularyParsed | vocabularyLoaded | configurationLoaded | errorReported
  | noMatch | configurationValid | configurationWritten => rfl

namespace Cli

variable {lib : Libraries} {i : Invocation} {c : Config} {env : Environment} {files : FileTree}
  {words : List String} {input : String} {limit limit' : Option Nat}

/-! ### Commands on a vocabulary -/

/-- Everything that an invocation needs can be loaded: its configuration, and the words of its
vocabulary. -/
structure Invocation.Loads (i : Invocation) (lib : Libraries) (env : Environment) (files : FileTree)
    (c : Config) (words : List String) : Prop where
  config : i.config? lib env files = .ok c
  reads : i.Reads lib c files words

variable {answer : Trie → Logged Success}

/-- **A run answers under a trie that holds the words**, after the events of loading them. -/
theorem run_of_loads (hperform : ∀ lib c, perform lib i c files = onTrie lib i c files answer)
    (h : i.Loads lib env files c words) :
    ∃ t : Trie, t.Holds words.toFinset ∧ t.settings = c.trie ∧
      (runInvocation lib i env files).status = (answer t).value.status ∧
      (runInvocation lib i env files).output = (answer t).value.output ∧
      ∃ before, (∀ e ∈ before, Event.isLoading e = true) ∧
        (runInvocation lib i env files).events =
          (before ++ (answer t).events).filter (filterOf lib c env) := by
  obtain ⟨t, ht, hholds, hs⟩ := loadTrie_of_reads h.reads
  obtain ⟨hvalue, hevents⟩ := onTrie_of_ok answer ht
  rw [← hperform] at hvalue hevents
  rw [runInvocation_of_ok h.config (congrArg Performed.result hvalue), hevents]
  exact ⟨t, hholds, hs, rfl, rfl, _, isLoading_of_mem_loadTrie lib i c files, rfl⟩

/-- A run that lacks something prints no answer. -/
theorem run_of_not_loads (hperform : ∀ lib c, perform lib i c files = onTrie lib i c files answer)
    (hcrash : i.config? lib env files ≠ .error .crash) (h : ¬ ∃ c words, i.Loads lib env files c words) :
    (runInvocation lib i env files).status = errorStatus ∧ (runInvocation lib i env files).output = "" := by
  cases hc : i.config? lib env files with
  | error e =>
      cases e with
      | crash => exact absurd hc hcrash
      | refused e =>
          rw [runInvocation_of_refused hc]
          exact ⟨rfl, rfl⟩
  | ok c =>
      have hlacks := (i.reads_or_lacks lib c files).resolve_left fun ⟨words, hwords⟩ => h ⟨c, words, hc, hwords⟩
      obtain ⟨e, he⟩ := hlacks
      obtain ⟨hvalue, -⟩ := onTrie_of_error answer (loadTrie_eq_error_iff.mpr he)
      rw [← hperform] at hvalue
      rw [runInvocation_of_error hc (congrArg Performed.result hvalue)]
      exact ⟨rfl, rfl⟩

/-- A run that crashes prints no answer, and what it needs is not loaded. -/
theorem run_of_crash (hcrash : i.config? lib env files = .error .crash) :
    (runInvocation lib i env files).status = crashStatus ∧ (runInvocation lib i env files).output = "" ∧
      ¬ ∃ c words, i.Loads lib env files c words := by
  refine ⟨by rw [runInvocation_of_crash hcrash], by rw [runInvocation_of_crash hcrash], ?_⟩
  rintro ⟨c, words, h⟩
  exact absurd (hcrash.symm.trans h.config) nofun

/-! ### Lookups -/

/-- A lookup finds the word that the policy asks for, if there is one, and prints it. -/
theorem lookup_of_loads (hcommand : i.command = .lookup input) (h : i.Loads lib env files c words) :
    ∃ found : Option String,
      (∀ w, found = some w ↔ c.trie.matchPolicy.Answers words.toFinset input w) ∧
      (∀ w, found = some w → (runInvocation lib i env files).status = 0 ∧
        (runInvocation lib i env files).output = line w) ∧
      (found = none → (runInvocation lib i env files).status = noMatchStatus ∧
        (runInvocation lib i env files).output = "") := by
  obtain ⟨t, hholds, hs, hstatus, houtput, -⟩ := run_of_loads (perform_lookup hcommand) h
  rw [hstatus, houtput, ← hs]
  refine ⟨t.longestPrefixMatch input, hholds.longestPrefixMatch_iff input, fun w hw => ?_, fun hnone => ?_⟩
  · rw [lookup, hw]
    exact ⟨rfl, rfl⟩
  · rw [lookup, hnone]
    exact ⟨rfl, rfl⟩

/-- A lookup for which everything loads has status 0 or 1. -/
theorem status_lt_of_loads (hcommand : i.command = .lookup input) (h : i.Loads lib env files c words) :
    (runInvocation lib i env files).status < errorStatus := by
  obtain ⟨found, -, hsome, hnone⟩ := lookup_of_loads hcommand h
  cases found with
  | none =>
      rw [(hnone rfl).1]
      decide
  | some w =>
      rw [(hsome w rfl).1]
      decide

/-- **The status of a lookup tells how far it came**: everything loads, the configuration crashes the run, or
something cannot be loaded otherwise. -/
theorem lookup_status (hcommand : i.command = .lookup input) :
    ((runInvocation lib i env files).status < errorStatus ↔ ∃ c words, i.Loads lib env files c words) ∧
    ((runInvocation lib i env files).status = crashStatus ↔ i.config? lib env files = .error .crash) ∧
    ((runInvocation lib i env files).status = errorStatus ↔
      i.config? lib env files ≠ .error .crash ∧ ¬ ∃ c words, i.Loads lib env files c words) := by
  by_cases hcrash : i.config? lib env files = .error .crash
  · obtain ⟨hstatus, -, hloads⟩ := run_of_crash hcrash
    rw [hstatus]
    exact ⟨iff_of_false (by decide) hloads, iff_of_true rfl hcrash,
      iff_of_false (by decide) fun h => h.1 hcrash⟩
  · by_cases hloads : ∃ c words, i.Loads lib env files c words
    · obtain ⟨c, words, h⟩ := hloads
      have hlt := status_lt_of_loads hcommand h
      have hbelow : errorStatus < crashStatus := by decide
      exact ⟨iff_of_true hlt ⟨c, words, h⟩, iff_of_false (hlt.trans hbelow).ne hcrash,
        iff_of_false hlt.ne fun hlacks => hlacks.2 ⟨c, words, h⟩⟩
    · rw [(run_of_not_loads (perform_lookup hcommand) hcrash hloads).1]
      exact ⟨iff_of_false (Nat.lt_irrefl _) hloads, iff_of_false (by decide) hcrash,
        iff_of_true rfl ⟨hcrash, hloads⟩⟩

/-- **A lookup tells a match, no match and a failure apart.**  It prints a word with status 0 just when
everything loads and the policy asks for that word over the words of the vocabulary; the status is 1 just
when everything loads and the policy asks for no word; it is 101 just when the configuration crashes the run,
and 2 just when something cannot be loaded otherwise, and none of these times anything is printed.  No run
crashes unless a key path leads outside an array. -/
theorem run_lookup {args : List String} (hparse : parse args = some (.run i))
    (hcommand : i.command = .lookup input) (lib : Libraries) (env : Environment) (files : FileTree) :
    (∀ w, ((run lib args env files).status = 0 ∧ (run lib args env files).output = w ++ "\n") ↔
      ∃ c words, i.Loads lib env files c words ∧ c.trie.matchPolicy.Answers words.toFinset input w) ∧
    (((run lib args env files).status = 1 ∧ (run lib args env files).output = "") ↔
      ∃ c words, i.Loads lib env files c words ∧
        ∀ w, ¬ c.trie.matchPolicy.Answers words.toFinset input w) ∧
    (((run lib args env files).status = 101 ∧ (run lib args env files).output = "") ↔
      i.config? lib env files = .error .crash) ∧
    (((run lib args env files).status = 2 ∧ (run lib args env files).output = "") ↔
      i.config? lib env files ≠ .error .crash ∧ ¬ ∃ c words, i.Loads lib env files c words) ∧
    (({ path := i.config } : ConfigLoader).KeysFit lib files env →
      i.config? lib env files ≠ .error .crash) := by
  rw [run_of_parse hparse]
  obtain ⟨hloads, hcrash, herror⟩ := lookup_status hcommand
  refine ⟨fun w => ⟨?_, ?_⟩, ⟨?_, ?_⟩, ⟨fun h => hcrash.mp h.1, fun h => ⟨hcrash.mpr h, (run_of_crash h).2.1⟩⟩,
    ⟨fun h => herror.mp h.1, fun h => run_of_not_loads (perform_lookup hcommand) h.1 h.2⟩,
    ConfigLoader.load_ne_crash⟩
  · rintro ⟨hstatus, houtput⟩
    obtain ⟨c, words, h⟩ := hloads.mp (by rw [hstatus]; decide)
    obtain ⟨found, hfound, hsome, hnone⟩ := lookup_of_loads hcommand h
    cases found with
    | none => exact absurd ((hnone rfl).1.symm.trans hstatus) (by decide)
    | some v =>
        obtain rfl : v = w := (String.append_left_inj "\n").mp ((hsome v rfl).2.symm.trans houtput)
        exact ⟨c, words, h, (hfound v).mp rfl⟩
  · rintro ⟨c, words, h, hw⟩
    obtain ⟨found, hfound, hsome, -⟩ := lookup_of_loads hcommand h
    exact hsome w ((hfound w).mpr hw)
  · rintro ⟨hstatus, -⟩
    obtain ⟨c, words, h⟩ := hloads.mp (by rw [hstatus]; decide)
    obtain ⟨found, hfound, hsome, -⟩ := lookup_of_loads hcommand h
    refine ⟨c, words, h, fun w hw => ?_⟩
    exact absurd ((hsome w ((hfound w).mpr hw)).1.symm.trans hstatus) (by decide)
  · rintro ⟨c, words, h, hw⟩
    obtain ⟨found, hfound, -, hnone⟩ := lookup_of_loads hcommand h
    exact hnone (Option.eq_none_iff_forall_ne_some.mpr fun w hsome => hw w ((hfound w).mp hsome))

/-- A vocabulary of lines in a file that is named otherwise. -/
def lineFiles : FileTree := ConfigLoader.singleFile "w.json" "ac\na\nabc\n"

/-- Variables that name that file, and ask for the longest word and for sorted completions. -/
def lineEnv : Environment :=
  [ ("NIIHAU__VOCABULARY__PATH", "w.json"), ("NIIHAU__TRIE__MATCH_POLICY", "longest_terminal"),
    ("NIIHAU__TRIE__COMPLETION_ORDER", "sorted") ]

/-- The configuration that these variables give. -/
def lineConfig : Config :=
  { trie := ⟨.longestTerminal, .sorted⟩, vocabulary := { path := some "w.json" } }

/-- The arguments name the format of the file, which its path does not. -/
theorem loads_lines (command : Command) : Invocation.Loads { format := some .lines, command } libraries
    lineEnv lineFiles lineConfig ["ac", "a", "abc"] where
  config := by
    have henv : Environment.NamesSettings Config.envName lineEnv := by decide
    exact (ConfigLoader.load_eq_ok_iff_takes_text rfl henv _).mpr ⟨fun s => by cases s <;> cbv, by rfl⟩
  reads := ⟨"w.json", .lines, "ac\na\nabc\n", rfl, rfl, ConfigLoader.readText_of_read rfl, by cbv⟩

/-- The input shares two characters with a longer word, but starts with a word of one character only. -/
theorem run_lookup_shorter :
    parse ["--format", "lines", "lookup", "abx"] =
      some (.run { format := some .lines, command := .lookup "abx" }) ∧
    (run libraries ["--format", "lines", "lookup", "abx"] lineEnv lineFiles).status = 0 ∧
    (run libraries ["--format", "lines", "lookup", "abx"] lineEnv lineFiles).output = "a\n" := by
  have hparse : parse ["--format", "lines", "lookup", "abx"] =
      some (.run { format := some .lines, command := .lookup "abx" }) := by decide
  have hanswer : lineConfig.trie.matchPolicy.Answers ["ac", "a", "abc"].toFinset "abx" "a" :=
    ⟨by decide, by decide, by decide, by decide⟩
  obtain ⟨hmatch, -⟩ := run_lookup hparse rfl libraries lineEnv lineFiles
  exact ⟨hparse, (hmatch "a").mpr ⟨_, _, loads_lines _, hanswer⟩⟩

/-- A variable that names the last item of an array that is not there. -/
def lastItemEnv : Environment := [("NIIHAU__FOO[-1]", "1")]

theorem config?_lastItemEnv (lib : Libraries) (files : FileTree) (hdefault : i.config = none) :
    i.config? lib lastItemEnv files = .error .crash := by
  have hkey : Environment.key? "NIIHAU" "NIIHAU__FOO[-1]" = some "foo[-1]" := by decide
  have hvalue : Environment.value "1" = .int 1 := by rfl
  have hlayer : Environment.layer "NIIHAU" lastItemEnv = [("foo[-1]", .int 1)] := by
    simp only [Environment.layer, lastItemEnv, List.foldl_cons, List.foldl_nil, hkey, hvalue, Fields.put]
  have hpath : KeyPath.ofKey "foo[-1]" = ⟨"foo", [.index (-1)]⟩ := by decide
  exact ConfigLoader.load_of_before_start hdefault hlayer hpath (by decide) (by decide)

/-- A lookup that lacks something need not end with the status of an error. -/
theorem lookup_crashes :
    ¬ ∀ (args : List String) (i : Invocation) (input : String) (env : Environment) (files : FileTree),
      parse args = some (.run i) → i.command = .lookup input →
      (¬ ∃ c words, i.Loads libraries env files c words) → (run libraries args env files).status = 2 := by
  intro h
  have hparse : parse ["lookup", "a"] = some (.run { command := .lookup "a" }) := by decide
  obtain ⟨hcrash, -, hloads⟩ := run_of_crash (config?_lastItemEnv libraries {}
    (rfl : Invocation.config { command := .lookup "a" } = none))
  have hstatus := h _ _ _ lastItemEnv {} hparse rfl hloads
  rw [run_of_parse hparse, hcrash] at hstatus
  exact absurd hstatus (by decide)

/-! ### Completions -/

theorem upTo_start (limit : Option Nat) (found : List String) : upTo limit found <+: found := by
  cases limit with
  | none => exact List.prefix_rfl
  | some n => exact List.take_prefix n found

/-- A larger limit only adds entries; no limit is the largest one. -/
theorem upTo_start_upTo (h : ∀ n, limit' = some n → ∃ m, limit = some m ∧ m ≤ n) (found : List String) :
    upTo limit found <+: upTo limit' found := by
  cases limit' with
  | none => exact upTo_start limit found
  | some n =>
      obtain ⟨m, rfl, hm⟩ := h n rfl
      exact List.take_prefix_take_left hm

/-- What is left out of a list in increasing order is larger than what is kept. -/
theorem lt_of_mem_upTo {found : List String} (h : found.Pairwise (· < ·)) {v w : String}
    (hv : v ∈ upTo limit found) (hw : w ∈ found) (hout : w ∉ upTo limit found) : v < w := by
  obtain ⟨rest, hrest⟩ := upTo_start limit found
  rw [← hrest] at h hw
  exact (List.pairwise_append.mp h).2.2 v hv w ((List.mem_append.mp hw).resolve_left hout)

theorem lines_start {found more : List String} (h : found <+: more) :
    (String.join (found.map line)).toList <+: (String.join (more.map line)).toList := by
  rw [String.toList_join, String.toList_join]
  exact (h.map line).flatMap String.toList

/-- The number of words of `S` that an input resolves to. -/
noncomputable def total (S : Finset String) (input : String) : Nat :=
  {w | Resolves S input w}.ncard

theorem length_matchCompletions {t : Trie} {S : Finset String} (h : t.Holds S) (input : String) :
    (t.matchCompletions input).length = total S input := by
  have hset : {w | Resolves S input w} = ((t.matchCompletions input).toFinset : Set String) := by
    ext w
    rw [Set.mem_ofPred_eq, Finset.mem_coe, List.mem_toFinset, h.mem_matchCompletions_iff]
  rw [total, hset, Set.ncard_coe_finset, List.toFinset_card_of_nodup (h.nodup_matchCompletions input)]

/-- A listing of words of `S` that an input resolves to: as many of them as the limit allows, each once. -/
structure ListsUpTo (S : Finset String) (input : String) (limit : Option Nat) (printed : List String) :
    Prop where
  nodup : printed.Nodup
  resolves : ∀ w ∈ printed, Resolves S input w
  length : printed.length = limit.elim (total S input) fun n => min n (total S input)
  all : limit = none → ∀ w, Resolves S input w → w ∈ printed

theorem listsUpTo_matchCompletions {t : Trie} {S : Finset String} (h : t.Holds S) (input : String)
    (limit : Option Nat) : ListsUpTo S input limit (upTo limit (t.matchCompletions input)) where
  nodup := (h.nodup_matchCompletions input).sublist (upTo_start limit _).sublist
  resolves w hw := (h.mem_matchCompletions_iff input w).mp ((upTo_start limit _).subset hw)
  length := by
    rw [← length_matchCompletions h]
    cases limit with
    | none => rfl
    | some n => exact List.length_take
  all hnone w hw := by
    subst hnone
    exact (h.mem_matchCompletions_iff input w).mpr hw

theorem complete_of_loads (hcommand : i.command = .complete input limit)
    (h : i.Loads lib env files c words) :
    ∃ t : Trie, t.Holds words.toFinset ∧ t.settings = c.trie ∧
      (runInvocation lib i env files).status = 0 ∧
      (runInvocation lib i env files).output =
        String.join ((upTo limit (t.matchCompletions input)).map line) ∧
      (runInvocation lib i env files).events.filter Event.isListing =
        [Event.completionsListed input (total words.toFinset input)].filter (filterOf lib c env) := by
  obtain ⟨t, hholds, hs, hstatus, houtput, before, hbefore, hevents⟩ :=
    run_of_loads (perform_complete hcommand) h
  refine ⟨t, hholds, hs, hstatus, houtput, ?_⟩
  have hloading : before.filter Event.isListing = [] :=
    List.filter_eq_nil_iff.mpr fun e he => by simp [Event.isListing_of_isLoading (hbefore e he)]
  rw [hevents, List.filter_comm, List.filter_append, hloading, List.nil_append,
    ← length_matchCompletions hholds]
  rfl

/-- **Completions are listed up to the limit.**  When everything loads, the status is 0 and the output has
as many of the words that the input resolves to as the limit allows, each once and on a line of its own; all
of them without a limit.  Their total over the whole vocabulary is reported once, whatever the limit.  In
sorted order the words are the smallest ones in increasing order, and the output for a limit starts the
output for every larger one, of any run over the same words.  When something cannot be loaded, nothing is
printed; the status is 101 if the configuration crashes the run, for which a key path must lead outside an
array, and 2 otherwise. -/
theorem run_complete {args : List String} (hparse : parse args = some (.run i))
    (hcommand : i.command = .complete input limit) (lib : Libraries) (env : Environment)
    (files : FileTree) :
    (∀ c words, i.Loads lib env files c words →
      ∃ printed, ListsUpTo words.toFinset input limit printed ∧
        (run lib args env files).status = 0 ∧
        (run lib args env files).output = String.join (printed.map (· ++ "\n")) ∧
        (run lib args env files).events.filter Event.isListing =
          [Event.completionsListed input (total words.toFinset input)].filter (filterOf lib c env) ∧
        (c.trie.completionOrder = .sorted →
          printed.Pairwise (· < ·) ∧
          (∀ v ∈ printed, ∀ w, Resolves words.toFinset input w → w ∉ printed → v < w) ∧
          ∀ {args' i' limit' lib' env' files' c' words'}, parse args' = some (.run i') →
            i'.command = .complete input limit' → Invocation.Loads i' lib' env' files' c' words' →
            c'.trie.completionOrder = .sorted → words'.toFinset = words.toFinset →
            (∀ n, limit' = some n → ∃ m, limit = some m ∧ m ≤ n) →
            (run lib args env files).output.toList <+: (run lib' args' env' files').output.toList)) ∧
    (i.config? lib env files ≠ .error .crash → (¬ ∃ c words, i.Loads lib env files c words) →
      (run lib args env files).status = 2 ∧ (run lib args env files).output = "") ∧
    (i.config? lib env files = .error .crash →
      (run lib args env files).status = 101 ∧ (run lib args env files).output = "") ∧
    (({ path := i.config } : ConfigLoader).KeysFit lib files env →
      i.config? lib env files ≠ .error .crash) := by
  rw [run_of_parse hparse]
  refine ⟨fun c words h => ?_, run_of_not_loads (perform_complete hcommand),
    fun h => ⟨(run_of_crash h).1, (run_of_crash h).2.1⟩, ConfigLoader.load_ne_crash⟩
  obtain ⟨t, hholds, hs, hstatus, houtput, hevents⟩ := complete_of_loads hcommand h
  refine ⟨upTo limit (t.matchCompletions input), listsUpTo_matchCompletions hholds input limit, hstatus,
    houtput, hevents, fun hsorted => ?_⟩
  have hlt := hholds.pairwise_matchCompletions input (hs ▸ hsorted)
  refine ⟨hlt.sublist (upTo_start limit _).sublist, fun v hv w hw hout => ?_,
    fun hparse' hcommand' h' hsorted' hwords hlimit => ?_⟩
  · exact lt_of_mem_upTo hlt hv ((hholds.mem_matchCompletions_iff input w).mpr hw) hout
  · -- in sorted order the words alone determine the list
    obtain ⟨u, hholds', hs', -, houtput', -⟩ := complete_of_loads hcommand' h'
    rw [hwords] at hholds'
    rw [run_of_parse hparse', houtput, houtput',
      hholds.matchCompletions_eq hholds' input (hs ▸ hsorted) (hs' ▸ hsorted')]
    exact lines_start (upTo_start_upTo hlimit _)

/-- The first of three completions is also the first of two. -/
theorem run_complete_first :
    parse ["complete", "a", "--format", "lines", "-l", "1"] =
      some (.run { format := some .lines, command := .complete "a" (some 1) }) ∧
    parse ["complete", "a", "--format", "lines", "-l", "+2"] =
      some (.run { format := some .lines, command := .complete "a" (some 2) }) ∧
    (run libraries ["complete", "a", "--format", "lines", "-l", "1"] lineEnv lineFiles).status = 0 ∧
    (run libraries ["complete", "a", "--format", "lines", "-l", "1"] lineEnv lineFiles).output.toList <+:
      (run libraries ["complete", "a", "--format", "lines", "-l", "+2"] lineEnv lineFiles).output.toList := by
  have hparse : parse ["complete", "a", "--format", "lines", "-l", "1"] =
      some (.run { format := some .lines, command := .complete "a" (some 1) }) := by decide
  have hmore : parse ["complete", "a", "--format", "lines", "-l", "+2"] =
      some (.run { format := some .lines, command := .complete "a" (some 2) }) := by decide
  obtain ⟨hloads, -⟩ := run_complete hparse rfl libraries lineEnv lineFiles
  obtain ⟨_, -, hstatus, -, -, hsorted⟩ := hloads _ _ (loads_lines _)
  obtain ⟨-, -, hlimit⟩ := hsorted rfl
  exact ⟨hparse, hmore, hstatus,
    hlimit hmore rfl (loads_lines _) rfl rfl fun n hn => ⟨1, rfl, by cases hn; decide⟩⟩

/-- A listing that lacks something need not end with the status of an error. -/
theorem complete_crashes :
    ¬ ∀ (args : List String) (i : Invocation) (input : String) (limit : Option Nat) (env : Environment)
      (files : FileTree), parse args = some (.run i) → i.command = .complete input limit →
      (¬ ∃ c words, i.Loads libraries env files c words) → (run libraries args env files).status = 2 := by
  intro h
  have hparse : parse ["complete", "a"] = some (.run { command := .complete "a" none }) := by decide
  obtain ⟨hcrash, -, hloads⟩ := run_of_crash (config?_lastItemEnv libraries {}
    (rfl : Invocation.config { command := .complete "a" none } = none))
  have hstatus := h _ _ _ _ lastItemEnv {} hparse rfl hloads
  rw [run_of_parse hparse, hcrash] at hstatus
  exact absurd hstatus (by decide)

end Cli

end PrefixMatch
