import PrefixMatch.Cli.LogFilter
import PrefixMatch.Proofs.Cli.Run
import PrefixMatch.Proofs.Config.Layers

/-!
# Cli — reports of errors

A run fails because its configuration is refused, or for one of the reasons in `Invocation.Fails`.  Carrying
a command out emits no event at the level of errors (`perform_cases`), and a run logs every such event unless a
variable asks for a filter that does not let it through (`filterOf_iff`), whatever texts are filters and
whatever they let through.  So an error is reported once (`run_reports`): on the console when the
configuration is refused, and afterwards as the last event, if the variable does not silence it.
-/

namespace PrefixMatch

/-- Whether an event is at the level of errors. -/
def Event.isError (e : Event) : Bool :=
  e.level == .error

theorem Event.isError_of_isLoading {e : Event} (h : e.isLoading = true) : e.isError = false := by
  cases e with
  | errorReported => cases h
  | keyInserted | trieBuilt | vocabularyParsed | vocabularyLoaded | configurationLoaded | noMatch
  | completionsListed | configurationValid | configurationWritten => rfl

namespace Cli

variable {lib : Libraries} {i : Invocation} {c : Config} {env : Environment} {files : FileTree} {e : Failure}
  {x : Event}

/-! ### Failing commands -/

/-- Whether a command works on a vocabulary. -/
def Command.usesVocabulary : Command → Bool
  | .lookup _ | .complete .. => true
  | .validate | .genConfig _ => false

/-- What can go wrong with a command under a configuration: it has no vocabulary to work on, or cannot write
its file. -/
inductive Invocation.Fails (i : Invocation) (lib : Libraries) (c : Config) (files : FileTree) :
    Failure → Prop where
  | vocabulary {e : Failure} (huses : i.command.usesVocabulary = true) (h : i.LacksWords lib c files e) :
      Fails i lib c files e
  | output {path : String} {e : IoError} (hcommand : i.command = .genConfig path)
      (h : (writeDefault path files).error = some e) : Fails i lib c files (.io e)

/-- A command that works on a vocabulary answers under its trie.  No answer has the status of an error, or
emits one. -/
theorem perform_of_usesVocabulary (h : i.command.usesVocabulary = true) (files : FileTree) :
    ∃ answer : Trie → Logged Success,
      (∀ lib c, perform lib i c files = onTrie lib i c files answer) ∧
      ∀ t, (answer t).value.status ≠ errorStatus ∧ ∀ e ∈ (answer t).events, Event.isError e = false := by
  have hsuccess : 0 ≠ errorStatus := by decide
  have hnoMatch : noMatchStatus ≠ errorStatus := by decide
  cases hcommand : i.command with
  | lookup input =>
      refine ⟨_, perform_lookup hcommand, fun t => ?_⟩
      rw [lookup]
      cases t.longestPrefixMatch input with
      | none => exact ⟨hnoMatch, List.forall_mem_singleton.mpr rfl⟩
      | some w => exact ⟨hsuccess, fun _ hmem => absurd hmem List.not_mem_nil⟩
  | complete input limit =>
      exact ⟨_, perform_complete hcommand, fun t => ⟨hsuccess, List.forall_mem_singleton.mpr rfl⟩⟩
  | validate | genConfig =>
      rw [hcommand] at h
      cases h

theorem perform_of_write_error {path : String} {e : IoError} (hcommand : i.command = .genConfig path)
    (h : (writeDefault path files).error = some e) (lib : Libraries) (c : Config) :
    perform lib i c files = pure ⟨.error (.io e), (writeDefault path files).files⟩ := by
  simp only [perform, hcommand, genConfig, h]

theorem perform_of_written {path : String} (hcommand : i.command = .genConfig path)
    (h : (writeDefault path files).error = none) (lib : Libraries) (c : Config) :
    perform lib i c files =
      ⟨⟨.ok {}, (writeDefault path files).files⟩, [.configurationWritten (Text.quotedPath path)]⟩ := by
  simp only [perform, hcommand, genConfig, h]
  rfl

theorem result_perform_of_fails (h : i.Fails lib c files e) :
    (perform lib i c files).value.result = .error e := by
  cases h with
  | vocabulary huses h =>
      obtain ⟨answer, hperform, -⟩ := perform_of_usesVocabulary huses files
      rw [hperform, (onTrie_of_error _ (loadTrie_eq_error_iff.mpr h)).1]
  | output hcommand h =>
      rw [perform_of_write_error hcommand h]
      rfl

theorem isError_of_mem_loadTrie (lib : Libraries) (i : Invocation) (c : Config) (files : FileTree) :
    ∀ e ∈ (loadTrie lib i c files).events, e.isError = false :=
  fun e he => Event.isError_of_isLoading (isLoading_of_mem_loadTrie lib i c files e he)

/-- **A command fails or is carried out**, and either way it emits no error by itself. -/
theorem perform_cases (lib : Libraries) (i : Invocation) (c : Config) (files : FileTree) :
    (∀ e ∈ (perform lib i c files).events, e.isError = false) ∧
      ((∃ e, i.Fails lib c files e) ∨
        ∃ s, (perform lib i c files).value.result = .ok s ∧ s.status ≠ errorStatus) := by
  have hsuccess : 0 ≠ errorStatus := by decide
  have hloading := isError_of_mem_loadTrie lib i c files
  cases huses : i.command.usesVocabulary with
  | true =>
      obtain ⟨answer, hperform, hanswer⟩ := perform_of_usesVocabulary huses files
      rw [hperform]
      rcases i.reads_or_lacks lib c files with ⟨words, h⟩ | ⟨e, h⟩
      · obtain ⟨t, ht, -⟩ := loadTrie_of_reads h
        obtain ⟨hvalue, hevents⟩ := onTrie_of_ok answer ht
        obtain ⟨hstatus, hquiet⟩ := hanswer t
        rw [hevents]
        exact ⟨List.forall_mem_append.mpr ⟨hloading, hquiet⟩,
          .inr ⟨_, congrArg Performed.result hvalue, hstatus⟩⟩
      · rw [(onTrie_of_error _ (loadTrie_eq_error_iff.mpr h)).2]
        exact ⟨hloading, .inl ⟨e, .vocabulary huses h⟩⟩
  | false =>
      cases hcommand : i.command with
      | lookup | complete =>
          rw [hcommand] at huses
          cases huses
      | validate =>
          rw [perform, hcommand]
          exact ⟨List.forall_mem_singleton.mpr rfl, .inr ⟨_, rfl, hsuccess⟩⟩
      | genConfig path =>
          cases h : (writeDefault path files).error with
          | some e =>
              rw [perform_of_write_error hcommand h]
              exact ⟨fun _ hmem => absurd hmem List.not_mem_nil, .inl ⟨_, .output hcommand h⟩⟩
          | none =>
              rw [perform_of_written hcommand h]
              exact ⟨List.forall_mem_singleton.mpr rfl, .inr ⟨_, rfl, hsuccess⟩⟩

/-! ### Filters -/

/-- Every level lets errors through. -/
theorem atLeast_of_isError (h : Event.isError x = true) (l : Level) : x.atLeast l = true := by
  have hlevel : x.level = .error := eq_of_beq h
  rw [Event.atLeast, hlevel]
  cases l <;> rfl

/-- The filter that the variable for the level asks for, if it holds one. -/
def askedFilter? (lib : Libraries) (env : Environment) : Option (Event → Bool) :=
  (env.find? fun v => v.1 == filterVariable).bind fun v => lib.filter? v.2

theorem filterOf_eq (lib : Libraries) (c : Config) (env : Environment) :
    filterOf lib c env =
      (askedFilter? lib env).getD (Event.atLeast ((Level.ofName? c.log.level).getD .error)) := by
  rw [filterOf, askedFilter?]
  cases env.find? fun v => v.1 == filterVariable with
  | none => rfl
  | some v => rfl

/-- The variable asks for a filter that does not let an event through. -/
def Silences (lib : Libraries) (env : Environment) (x : Event) : Prop :=
  ∃ accepts, askedFilter? lib env = some accepts ∧ accepts x = false

/-- **Only the variable can silence errors**: whatever level is configured lets them through. -/
theorem filterOf_iff (lib : Libraries) (c : Config) (env : Environment) (h : Event.isError x = true) :
    filterOf lib c env x = true ↔ ¬ Silences lib env x := by
  rw [filterOf_eq, Silences]
  cases askedFilter? lib env with
  | none => exact iff_of_true (atLeast_of_isError h _) nofun
  | some accepts => simp

/-! ### Reports -/

/-- The event that reports the failure of a command. -/
def Invocation.failureEvent (i : Invocation) (e : Failure) : Event :=
  .errorReported e.message "niihau" ("command: " ++ i.command.name.text)

theorem filter_isError_perform (lib : Libraries) (i : Invocation) (c : Config) (files : FileTree)
    (accepts : Event → Bool) :
    ((perform lib i c files).events.filter accepts).filter Event.isError = [] := by
  obtain ⟨hquiet, -⟩ := perform_cases lib i c files
  refine List.filter_eq_nil_iff.mpr fun e he => ?_
  rw [hquiet e (List.mem_of_mem_filter he)]
  decide

/-- A run whose command fails logs the report of the failure behind what came before, if the filter lets it
through. -/
theorem run_of_fails (hconfig : i.config? lib env files = .ok c) (h : i.Fails lib c files e) :
    runInvocation lib i env files =
      { status := errorStatus, log := some c.log, files := (perform lib i c files).value.files,
        events := (perform lib i c files).events.filter (filterOf lib c env) ++
          [i.failureEvent e].filter (filterOf lib c env) } :=
  runInvocation_of_error hconfig (result_perform_of_fails h)

theorem filter_isError_of_fails (hconfig : i.config? lib env files = .ok c) (h : i.Fails lib c files e) :
    (runInvocation lib i env files).events.filter Event.isError =
      [i.failureEvent e].filter (filterOf lib c env) := by
  rw [run_of_fails hconfig h, List.filter_append, filter_isError_perform, List.nil_append,
    List.filter_comm]
  rfl

/-- A run whose command does not fail ends otherwise and reports nothing. -/
theorem run_of_not_fails (hconfig : i.config? lib env files = .ok c) (h : ∀ e, ¬ i.Fails lib c files e) :
    (runInvocation lib i env files).status ≠ errorStatus ∧ (runInvocation lib i env files).console = "" ∧
      (runInvocation lib i env files).events.filter Event.isError = [] := by
  obtain ⟨s, hs, hstatus⟩ := (perform_cases lib i c files).2.resolve_left fun ⟨e, he⟩ => h e he
  rw [runInvocation_of_ok hconfig hs]
  exact ⟨hstatus, rfl, filter_isError_perform lib i c files _⟩

/-- **A failing run reports its error once.**  The status is 2 after any error.  When the configuration is
refused, the error is printed on the console and nothing is logged.  When the command fails under a loaded
configuration, whatever its level, nothing is printed on the console, and one event at the level of errors
is logged, the last one, which has the message of the error; only the variable for the level can silence it,
by a filter that does not let this event through.  A run that does not fail has another status and reports no
error anywhere, and neither has one that crashes. -/
theorem run_reports {args : List String} (hparse : parse args = some (.run i)) (lib : Libraries)
    (env : Environment) (files : FileTree) :
    (∀ e, i.config? lib env files = .error (.refused e) →
      (run lib args env files).status = 2 ∧
      (run lib args env files).console = "Error: Error in niihau: " ++ (Failure.config e).message ++
        "\nDetails: command: " ++ i.command.name.text ++ "\n" ∧
      (run lib args env files).events = []) ∧
    (∀ c, i.config? lib env files = .ok c →
      (∀ e, i.Fails lib c files e →
        (run lib args env files).status = 2 ∧ (run lib args env files).console = "" ∧
        (¬ Silences lib env (i.failureEvent e) →
          (run lib args env files).events.filter Event.isError = [i.failureEvent e] ∧
          (run lib args env files).events.getLast? = some (i.failureEvent e)) ∧
        (Silences lib env (i.failureEvent e) → (run lib args env files).events.filter Event.isError = [])) ∧
      ((∀ e, ¬ i.Fails lib c files e) →
        (run lib args env files).status ≠ 2 ∧ (run lib args env files).console = "" ∧
        (run lib args env files).events.filter Event.isError = [])) ∧
    (i.config? lib env files = .error .crash →
      (run lib args env files).status ≠ 2 ∧ (run lib args env files).console = lib.crashText ∧
      (run lib args env files).events = []) := by
  rw [run_of_parse hparse]
  refine ⟨fun e he => ?refused, fun c hc => ⟨fun e he => ?fails, run_of_not_fails hc⟩, fun hcrash => ?crash⟩
  case refused =>
    rw [runInvocation_of_refused he]
    refine ⟨rfl, ?_, rfl⟩
    simp only [reportOf, Report.text, String.append_assoc, programName]
    rfl
  case fails =>
    have haccepts : filterOf lib c env (i.failureEvent e) = true ↔ ¬ Silences lib env (i.failureEvent e) :=
      filterOf_iff lib c env rfl
    rw [filter_isError_of_fails hc he, run_of_fails hc he]
    refine ⟨rfl, rfl, fun hheard => ?_, fun hsilent => ?_⟩
    · rw [List.filter_cons_of_pos (haccepts.mpr hheard), List.filter_nil]
      exact ⟨rfl, List.getLast?_concat⟩
    · exact List.filter_cons_of_neg fun h => haccepts.mp h hsilent
  case crash =>
    rw [runInvocation_of_crash hcrash]
    exact ⟨(by decide : crashStatus ≠ errorStatus), rfl, rfl⟩

/-- The variable for the level is no setting. -/
theorem config?_filterVariable (lib : Libraries) (files : FileTree) (filter : String)
    (hdefault : i.config = none) : i.config? lib [(filterVariable, filter)] files = .ok {} := by
  have hnone : ∀ v ∈ [(filterVariable, filter)], ¬ Environment.Counts Config.envName v.1 :=
    List.forall_mem_singleton.mpr (by decide : ¬ Environment.Counts Config.envName filterVariable)
  have henv := Environment.NamesSettings.of_none hnone
  refine (ConfigLoader.load_eq_ok_iff_takes_text hdefault henv _).mpr ⟨fun s => ?_, by rfl⟩
  rw [Setting.envText?_of_none hnone]
  rfl

/-- A filter that drops everything but the errors that are reported. -/
def reportsOnly : Environment := [(filterVariable, "off,niihau_lib::error=error")]

/-- A vocabulary whose format is unknown is reported under that filter. -/
theorem run_reports_unknownFormat :
    parse ["lookup", "a", "-v", "w.dat"] = some (.run { vocab := some "w.dat", command := .lookup "a" }) ∧
    (run libraries ["lookup", "a", "-v", "w.dat"] reportsOnly {}).status = 2 ∧
    (run libraries ["lookup", "a", "-v", "w.dat"] reportsOnly {}).console = "" ∧
    (run libraries ["lookup", "a", "-v", "w.dat"] reportsOnly {}).events.getLast? =
      some (.errorReported "Vocabulary error: Cannot determine vocabulary format for w.dat" "niihau"
        "command: lookup") := by
  have hparse : parse ["lookup", "a", "-v", "w.dat"] =
      some (.run { vocab := some "w.dat", command := .lookup "a" }) := by decide
  have hfails : Invocation.Fails { vocab := some "w.dat", command := .lookup "a" } libraries {} {}
      (.vocabulary (.unknownFormat "w.dat")) := .vocabulary rfl (.fails rfl (.unknownFormat (by rfl)))
  obtain ⟨-, hloaded, -⟩ := run_reports hparse libraries reportsOnly {}
  obtain ⟨hfailed, -⟩ := hloaded _ (config?_filterVariable libraries {} _ rfl)
  obtain ⟨hstatus, hconsole, hheard, -⟩ := hfailed _ hfails
  exact ⟨hparse, hstatus, hconsole, (hheard ((filterOf_iff libraries {} _ rfl).mp (by decide))).2⟩

/-- The variable silences reports, too: a failing run may log nothing. -/
theorem run_silenced :
    ¬ ∀ (args : List String) (i : Invocation) (c : Config) (env : Environment) (files : FileTree)
      (e : Failure), parse args = some (.run i) → i.config? libraries env files = .ok c →
      i.Fails libraries c files e →
      (run libraries args env files).events.filter Event.isError = [i.failureEvent e] := by
  intro h
  have hparse : parse ["lookup", "a"] = some (.run { command := .lookup "a" }) := by decide
  have hfails : Invocation.Fails { command := .lookup "a" } libraries {} {}
      (.custom "No vocabulary given; use --vocab or set vocabulary.path") := .vocabulary rfl (.noPath rfl)
  have hconfig : Invocation.config? { command := .lookup "a" } libraries [(filterVariable, "off")] {} =
      .ok {} := config?_filterVariable libraries {} _ rfl
  have hreported := h _ _ _ _ _ _ hparse hconfig hfails
  rw [run_of_parse hparse, filter_isError_of_fails hconfig hfails] at hreported
  exact absurd hreported (by decide)

end Cli

end PrefixMatch
