import Mathlib
import PrefixMatch.Proofs.Cli.Reports
import PrefixMatch.Proofs.Config.Validity
import PrefixMatch.Proofs.Error.Messages
import PrefixMatch.Proofs.Vocabulary.Outcomes

/-!
# Cli — the vocabulary that a configuration names

A configuration is only loaded when the format of its vocabulary is known (`Config.names_usable_of_valid`), so
a loader that it asks for never lacks one, whatever the files hold, and neither does a run that is given no
other vocabulary (`configured_vocabulary`).
-/

namespace PrefixMatch

/-! ### Loaders -/

namespace VocabularyLoader

variable {l : VocabularyLoader} {path : String}

theorem load_ne_unknownFormat (h : l.formatFor? path ≠ none) (lib : Libraries) (files : FileTree)
    (q : String) : (l.load lib files path).value ≠ .error (.unknownFormat q) := by
  intro hload
  exact h (load_eq_unknownFormat_iff.mp hload).2

/-- A format that is given does for every path. -/
theorem formatFor?_withFormat (l : VocabularyLoader) (f : Format) (path : String) :
    (l.withFormat f).formatFor? path = some f := rfl

end VocabularyLoader

namespace Cli

variable {lib : Libraries} {i : Invocation} {c : Config} {env : Environment} {files : FileTree} {e : Failure}

/-! ### Runs -/

/-- The error that a run of an invocation ends in: its configuration is refused, or its command fails. -/
inductive Invocation.EndsIn (i : Invocation) (lib : Libraries) (env : Environment) (files : FileTree) :
    Failure → Prop where
  | refused {e : ConfigError} (hconfig : i.config? lib env files = .error (.refused e)) :
      EndsIn i lib env files (.config e)
  | failed {c : Config} {e : Failure} (hconfig : i.config? lib env files = .ok c)
      (h : (perform lib i c files).value.result = .error e) : EndsIn i lib env files e

theorem fails_of_perform (h : (perform lib i c files).value.result = .error e) : i.Fails lib c files e := by
  rcases (perform_cases lib i c files).2 with ⟨d, hd⟩ | ⟨s, hs, -⟩
  · cases (result_perform_of_fails hd).symm.trans h
    exact hd
  · cases hs.symm.trans h

/-- A valid configuration leaves no invocation without a format for its vocabulary, unless the arguments
name another one. -/
theorem not_fails_unknownFormat (hc : c.validate = .ok ()) (hvocab : i.vocab = none) (q : String) :
    ¬ i.Fails lib c files (.vocabulary (.unknownFormat q)) := by
  intro hfails
  cases hfails with
  | vocabulary huses h =>
      cases h with
      | @fails path _ hpath h =>
          rw [vocabularyPath?, hvocab, Option.none_or] at hpath
          have hformat : (i.loader c).formatFor? path ≠ none := by
            rw [i.formatFor?_loader]
            intro hnone
            exact (Config.names_usable_of_valid hc hpath).2 (Option.or_eq_none_iff.mp hnone).2
          exact VocabularyLoader.load_ne_unknownFormat hformat lib files q
            (VocabularyLoader.load_eq_error_iff.mpr h)

theorem not_endsIn_unknownFormat (hvocab : i.vocab = none) (q : String) :
    ¬ i.EndsIn lib env files (.vocabulary (.unknownFormat q)) := by
  intro hends
  cases hends with
  | failed hconfig h =>
      exact not_fails_unknownFormat (ConfigLoader.validate_of_load hconfig) hvocab q (fails_of_perform h)

/-- A failure with the wording of an unknown format is one. -/
theorem Invocation.Fails.eq_unknownFormat (h : i.Fails lib c files e) {q : String}
    (hmessage : e.message = (Failure.vocabulary (.unknownFormat q)).message) :
    e = .vocabulary (.unknownFormat q) := by
  rcases Failure.eq_unknownFormat_of_message hmessage with he | ⟨text, rfl⟩
  · exact he
  · cases h with
    | vocabulary huses h =>
        cases h with
        | noPath hpath =>
            have hvocabulary : "Vocabulary error: ".toList <+:
                "No vocabulary given; use --vocab or set vocabulary.path".toList := by
              rw [show "No vocabulary given; use --vocab or set vocabulary.path" = _ from hmessage]
              exact toList_start_append _ _
            exact absurd List.prefix_rfl (not_start_of_heads hvocabulary rfl)

/-- Every report that a run logs is that of the failure of its command. -/
theorem exists_fails_of_mem_events {message component details : String}
    (h : .errorReported message component details ∈ (runInvocation lib i env files).events) :
    ∃ c e, i.config? lib env files = .ok c ∧ i.Fails lib c files e ∧ message = e.message := by
  have herror : Event.isError (.errorReported message component details) = true := by rfl
  cases hconfig : i.config? lib env files with
  | error e =>
      cases e with
      | crash =>
          rw [runInvocation_of_crash hconfig] at h
          cases h
      | refused e =>
          rw [runInvocation_of_refused hconfig] at h
          cases h
  | ok c =>
      -- a report is at the level of errors, and there is one event at most at that level
      have hmem := List.mem_filter.mpr ⟨h, herror⟩
      by_cases hfails : ∃ e, i.Fails lib c files e
      · obtain ⟨e, he⟩ := hfails
        rw [filter_isError_of_fails hconfig he] at hmem
        have hevent := List.mem_singleton.mp (List.mem_of_mem_filter hmem)
        rw [Invocation.failureEvent, Event.errorReported.injEq] at hevent
        exact ⟨c, e, rfl, he, hevent.1⟩
      · rw [not_exists] at hfails
        rw [(run_of_not_fails hconfig hfails).2.2] at hmem
        cases hmem

/-- **A loaded configuration names a usable vocabulary, or none.**  Its path is not empty, and whatever the
files hold, its loader has a format for it, also when it is told one.  So a run without a vocabulary of its
own never ends in an unknown format, and reports none. -/
theorem configured_vocabulary (l : ConfigLoader) (lib : Libraries) (files : FileTree) (env : Environment) :
    (∀ c path, (l.load lib files env).value = .ok c → c.vocabulary.path = some path →
      path ≠ "" ∧ ∀ (lib' : Libraries) (files' : FileTree) (q : String),
        ((VocabularyLoader.ofConfig c).load lib' files' path).value ≠ .error (.unknownFormat q) ∧
        ∀ f, (((VocabularyLoader.ofConfig c).withFormat f).load lib' files' path).value ≠
          .error (.unknownFormat q)) ∧
    ∀ (args : List String) (i : Invocation), parse args = some (.run i) → i.vocab = none → ∀ q,
      ¬ i.EndsIn lib env files (.vocabulary (.unknownFormat q)) ∧
      ∀ component details,
        .errorReported (Failure.message (.vocabulary (.unknownFormat q))) component details ∉
          (run lib args env files).events := by
  constructor
  · intro c path hload hpath
    obtain ⟨hne, hformat⟩ := Config.names_usable_of_valid (ConfigLoader.validate_of_load hload) hpath
    refine ⟨hne, fun lib' files' q =>
      ⟨VocabularyLoader.load_ne_unknownFormat hformat lib' files' q, fun f => ?_⟩⟩
    refine VocabularyLoader.load_ne_unknownFormat ?_ lib' files' q
    rw [VocabularyLoader.formatFor?_withFormat]
    exact Option.some_ne_none f
  · intro args i hparse hvocab q
    refine ⟨not_endsIn_unknownFormat hvocab q, fun component details hmem => ?_⟩
    rw [run_of_parse hparse] at hmem
    obtain ⟨c, e, hconfig, hfails, hmessage⟩ := exists_fails_of_mem_events hmem
    rw [hfails.eq_unknownFormat hmessage.symm] at hfails
    exact not_fails_unknownFormat (ConfigLoader.validate_of_load hconfig) hvocab q hfails

/-- A variable that names a hidden file, with more behind its name. -/
def hiddenEnv : Environment := [("niihau__Vocabulary__PATH", "d/../.w.txt/.")]

/-- The configuration that this variable gives. -/
def hiddenConfig : Config := { vocabulary := { path := some "d/../.w.txt/." } }

theorem load_hiddenEnv : (({} : ConfigLoader).load libraries {} hiddenEnv).value = .ok hiddenConfig := by
  have henv : Environment.NamesSettings Config.envName hiddenEnv := by decide
  exact (ConfigLoader.load_eq_ok_iff_takes_text rfl henv _).mpr ⟨fun s => by cases s <;> cbv, by rfl⟩

/-- A hidden file has an extension like any other, and nothing lies where the path leads. -/
theorem configured_vocabulary_hidden :
    (({} : ConfigLoader).load libraries {} hiddenEnv).value = .ok hiddenConfig ∧
    ((VocabularyLoader.ofConfig hiddenConfig).load libraries {} "d/../.w.txt/.").value ≠
      .error (.unknownFormat "d/../.w.txt/.") ∧
    parse ["complete", "a"] = some (.run { command := .complete "a" none }) ∧
    ¬ Invocation.EndsIn { command := .complete "a" none } libraries hiddenEnv {}
      (.vocabulary (.unknownFormat "d/../.w.txt/.")) := by
  obtain ⟨hloaded, hruns⟩ := configured_vocabulary {} libraries {} hiddenEnv
  obtain ⟨-, hload⟩ := hloaded _ _ load_hiddenEnv rfl
  have hparse : parse ["complete", "a"] = some (.run { command := .complete "a" none }) := by decide
  exact ⟨load_hiddenEnv, (hload libraries {} _).1, hparse, (hruns _ _ hparse rfl _).1⟩

end Cli

end PrefixMatch
