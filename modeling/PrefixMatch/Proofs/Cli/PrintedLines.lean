import PrefixMatch.Proofs.Cli.Answers
import PrefixMatch.Proofs.Text.Lines
import PrefixMatch.Proofs.Vocabulary.Lines

/-!
# Cli — printed lines

Completions are printed with a newline behind each, so what a reader finds between the newlines is the pieces
of the words.

* `run_complete_cut`: the pieces are the words themselves just when no word that is printed has a newline
  inside, and in a vocabulary of lines none has.
* `complete_cut_key`: a key of a document may have a newline inside.
-/

namespace PrefixMatch

namespace Cli

variable {lib : Libraries} {i : Invocation} {c : Config} {env : Environment} {files : FileTree}
  {words printed : List String}
  {input : String} {limit : Option Nat} {args : List String}

/-! ### Newlines in words -/

/-- The vocabulary that the invocation asks for is read line by line. -/
def Invocation.ReadsLines (i : Invocation) (c : Config) : Prop :=
  ∃ path, i.vocab.or c.vocabulary.path = some path ∧
    i.format.or (c.vocabulary.format.or (Format.ofPath? path)) = some .lines

/-- The words of a vocabulary of lines have no newlines inside. -/
theorem not_mem_newline_of_readsLines (hlines : i.ReadsLines c) (h : i.Reads lib c files words) :
    ∀ w ∈ words, '\n' ∉ w.toList := by
  obtain ⟨path, hpath, hformat⟩ := hlines
  obtain ⟨path', f, text, hpath', hf, -, hwords⟩ := h
  cases hpath.symm.trans hpath'
  cases hformat.symm.trans hf
  cases hwords
  intro w hw
  exact (VocabularyLoader.mem_lineEntries_iff.mp hw).1.not_mem_newline

/-- A word that an input resolves to is a word. -/
theorem mem_of_resolves {S : Finset String} {w : String} (h : Resolves S input w) : w ∈ S := by
  rcases h with ⟨-, -, h⟩ | ⟨-, -, h⟩
  · exact h
  · exact h.mem

/-- An invocation determines what it loads. -/
theorem Invocation.Loads.unique {c' : Config} {words' : List String} (h : i.Loads lib env files c words)
    (h' : i.Loads lib env files c' words') : c' = c ∧ words' = words := by
  cases h.config.symm.trans h'.config
  obtain ⟨path, f, text, hpath, hf, htext, hwords⟩ := h.reads
  obtain ⟨path', f', text', hpath', hf', htext', hwords'⟩ := h'.reads
  cases hpath.symm.trans hpath'
  cases hf.symm.trans hf'
  cases htext.symm.trans htext'
  exact ⟨rfl, Except.ok.inj (hwords'.symm.trans hwords)⟩

/-! ### What is printed -/

theorem toList_printed (printed : List String) : (String.join (printed.map (· ++ "\n"))).toList =
    ((printed.map String.toList).map (· ++ ['\n'])).flatten := by
  rw [String.toList_join, List.flatMap_map, List.map_map, List.flatMap_def]
  refine congrArg List.flatten (List.map_congr_left fun w _ => ?_)
  rw [String.toList_append]
  rfl

/-- What is found between the newlines is the pieces of the words. -/
theorem split_printed (printed : List String) :
    Text.split '\n' (String.join (printed.map (· ++ "\n"))).toList =
      printed.flatMap (fun w => Text.split '\n' w.toList) ++ [[]] := by
  rw [toList_printed, Text.split_flatten_eq, List.flatMap_map]

theorem split_printed_iff (printed : List String) :
    Text.split '\n' (String.join (printed.map (· ++ "\n"))).toList = printed.map String.toList ++ [[]] ↔
      ∀ w ∈ printed, '\n' ∉ w.toList := by
  rw [toList_printed, Text.split_flatten_iff, List.forall_mem_map]

theorem count_printed_iff (printed : List String) :
    (String.join (printed.map (· ++ "\n"))).toList.count '\n' = printed.length ↔
      ∀ w ∈ printed, '\n' ∉ w.toList := by
  have hcount := Text.count_flatten_iff '\n' (printed.map String.toList)
  rwa [← toList_printed, List.length_map, List.forall_mem_map] at hcount

theorem status_of_loads (hparse : parse args = some (.run i)) (hcommand : i.command = .complete input limit)
    (h : i.Loads lib env files c words) : (run lib args env files).status = 0 := by
  obtain ⟨t, -, -, hstatus, -⟩ := complete_of_loads hcommand h
  rw [run_of_parse hparse, hstatus]

/-- A listing with status 0 has loaded everything. -/
theorem lists_of_status (hparse : parse args = some (.run i)) (hcommand : i.command = .complete input limit)
    (hstatus : (run lib args env files).status = 0) :
    ∃ c words printed, i.Loads lib env files c words ∧ ListsUpTo words.toFinset input limit printed ∧
      (run lib args env files).output = String.join (printed.map (· ++ "\n")) := by
  rw [run_of_parse hparse] at hstatus ⊢
  obtain ⟨c, words, h⟩ : ∃ c words, i.Loads lib env files c words := by
    by_contra hnone
    by_cases hcrash : i.config? lib env files = .error .crash
    · exact absurd (hstatus.symm.trans (run_of_crash hcrash).1) (by decide)
    · have herror := (run_of_not_loads (perform_complete hcommand) hcrash hnone).1
      exact absurd (hstatus.symm.trans herror) (by decide)
  obtain ⟨t, hholds, -, -, houtput, -⟩ := complete_of_loads hcommand h
  exact ⟨c, words, _, h, listsUpTo_matchCompletions hholds input limit, houtput⟩

/-- **A listing can be cut into its words just when none of them has a newline inside.**  When the status is
0, the output is as many of the words that the input resolves to as the limit allows, with a newline behind
each.  What is found between the newlines is the pieces of these words; it is the words themselves, and there
are as many lines as words, just when no word that is printed has a newline inside.  In a vocabulary of lines
none has. -/
theorem run_complete_cut (hparse : parse args = some (.run i)) (hcommand : i.command = .complete input limit)
    (hstatus : (run lib args env files).status = 0) :
    ∃ c words printed, i.Loads lib env files c words ∧ ListsUpTo words.toFinset input limit printed ∧
      (run lib args env files).output = String.join (printed.map (· ++ "\n")) ∧
      Text.split '\n' (run lib args env files).output.toList =
        printed.flatMap (fun w => Text.split '\n' w.toList) ++ [[]] ∧
      (Text.split '\n' (run lib args env files).output.toList = printed.map String.toList ++ [[]] ↔
        ∀ w ∈ printed, '\n' ∉ w.toList) ∧
      ((run lib args env files).output.toList.count '\n' = printed.length ↔
        ∀ w ∈ printed, '\n' ∉ w.toList) ∧
      (i.ReadsLines c → ∀ w ∈ printed, '\n' ∉ w.toList) := by
  obtain ⟨c, words, printed, hloads, hlists, houtput⟩ := lists_of_status hparse hcommand hstatus
  refine ⟨c, words, printed, hloads, hlists, houtput, ?_⟩
  rw [houtput]
  refine ⟨split_printed printed, split_printed_iff printed, count_printed_iff printed,
    fun hlines w hw => ?_⟩
  have hword : w ∈ words := List.mem_toFinset.mp (mem_of_resolves (hlists.resolves w hw))
  exact not_mem_newline_of_readsLines hlines hloads.reads w hword

/-- The words of a vocabulary of lines come back from the output. -/
theorem run_complete_cut_lines :
    parse ["--format", "lines", "complete", "a"] =
      some (.run { format := some .lines, command := .complete "a" none }) ∧
    (run libraries ["--format", "lines", "complete", "a"] lineEnv lineFiles).status = 0 ∧
    ∃ printed, ListsUpTo ["ac", "a", "abc"].toFinset "a" none printed ∧
      Text.split '\n' (run libraries ["--format", "lines", "complete", "a"] lineEnv lineFiles).output.toList =
        printed.map String.toList ++ [[]] := by
  have hparse : parse ["--format", "lines", "complete", "a"] =
      some (.run { format := some .lines, command := .complete "a" none }) := by decide
  have hstatus := status_of_loads hparse rfl (loads_lines (.complete "a" none))
  obtain ⟨c, words, printed, hloads, hlists, -, -, hcut, -, hlines⟩ := run_complete_cut hparse rfl hstatus
  obtain ⟨rfl, rfl⟩ := (loads_lines (.complete "a" none)).unique hloads
  exact ⟨hparse, hstatus, printed, hlists, hcut.mpr (hlines ⟨"w.json", rfl, rfl⟩)⟩

/-- A document with a newline inside a key. -/
def newlineFiles : FileTree := ConfigLoader.singleFile "v.json" "\x7b\"a\\nb\": 1\x7d"

theorem loads_newline (command : Command) : Invocation.Loads { vocab := some "v.json", command } libraries []
    newlineFiles {} ["a\nb"] where
  config := by
    have henv : Environment.NamesSettings Config.envName [] := by decide
    exact (ConfigLoader.load_eq_ok_iff_takes_text rfl henv _).mpr ⟨fun s => by cases s <;> rfl, by rfl⟩
  reads := ⟨"v.json", .json, "\x7b\"a\\nb\": 1\x7d", rfl, rfl, ConfigLoader.readText_of_read rfl, by cbv⟩

/-- The entries of a listing need not come back from the output. -/
theorem complete_cut_key :
    ¬ ∀ (args : List String) (env : Environment) (files : FileTree) (i : Invocation) (input : String)
      (limit : Option Nat), parse args = some (.run i) → i.command = .complete input limit →
      (run libraries args env files).status = 0 →
      ∃ c words printed, i.Loads libraries env files c words ∧
        ListsUpTo words.toFinset input limit printed ∧
        Text.split '\n' (run libraries args env files).output.toList = printed.map String.toList ++ [[]] := by
  intro h
  have hparse : parse ["--vocab", "v.json", "complete", "a"] =
      some (.run { vocab := some "v.json", command := .complete "a" none }) := by decide
  have hstatus := status_of_loads hparse rfl (loads_newline (.complete "a" none))
  obtain ⟨c, words, printed, hloads, hlists, hcut⟩ := h _ _ _ _ _ _ hparse rfl hstatus
  obtain ⟨rfl, rfl⟩ := (loads_newline (.complete "a" none)).unique hloads
  have hresolves : Resolves ["a\nb"].toFinset "a" "a\nb" := by
    have hself : IsDivergence ["a\nb"].toFinset "a" "a" :=
      ⟨List.prefix_rfl, ⟨"a\nb", by decide, by decide⟩, fun p hp _ => hp.length_le⟩
    exact .inr ⟨by decide, hself, by decide, by decide, by decide⟩
  have hmem : "a\nb" ∈ printed := hlists.all rfl _ hresolves
  -- what stands between newlines has none inside
  have hpiece : "a\nb".toList ∈
      Text.split '\n' (run libraries ["--vocab", "v.json", "complete", "a"] [] newlineFiles).output.toList := by
    rw [hcut]
    exact List.mem_append_left _ (List.mem_map_of_mem hmem)
  exact Text.not_mem_of_mem_split hpiece (by decide)

end Cli
end PrefixMatch
