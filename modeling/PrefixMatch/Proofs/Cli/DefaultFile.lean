import PrefixMatch.Proofs.Cli.Reports
import PrefixMatch.Proofs.Config.KeyOrder
import PrefixMatch.Proofs.Config.Neutral

/-!
# Cli — the file of the default configuration

A run that generates a file writes the defaults into it, whatever its own configuration is, unless that cannot
be loaded (`run_genConfig`).  The file changes nothing for the runs that load it.
-/

namespace PrefixMatch.Cli

variable {lib : Libraries} {i : Invocation} {env : Environment} {files : FileTree} {output : String}

theorem readText_of_written (h : (writeDefault output files).error = none) :
    (writeDefault output files).files.readText output = .ok ({} : Config).toToml := by
  rw [writeDefault] at h ⊢
  cases hmade : (files.makeParents output).error with
  | some e =>
      simp only [hmade] at h
      cases h
  | none =>
      simp only [hmade] at h ⊢
      cases hwrite : (files.makeParents output).files.write output ({} : Config).toToml.toUTF8 with
      | error e =>
          rw [hwrite] at h
          cases h
      | ok after => exact ConfigLoader.readText_of_read (FileTree.read_write hwrite)

/-- A run that ends well has written the file. -/
theorem written_of_status (hcommand : i.command = .genConfig output)
    (h : (runInvocation lib i env files).status = 0) :
    (writeDefault output files).error = none ∧
      (runInvocation lib i env files).files = (writeDefault output files).files := by
  have herror : errorStatus ≠ 0 := by decide
  have hcrash : crashStatus ≠ 0 := by decide
  cases hconfig : i.config? lib env files with
  | error e =>
      cases e with
      | refused e =>
          rw [runInvocation_of_refused hconfig] at h
          exact absurd h herror
      | crash =>
          rw [runInvocation_of_crash hconfig] at h
          exact absurd h hcrash
  | ok c =>
      cases hwritten : (writeDefault output files).error with
      | some e =>
          rw [runInvocation_of_error hconfig (result_perform_of_fails (.output hcommand hwritten))] at h
          exact absurd h herror
      | none =>
          have hs : (perform lib i c files).value = ⟨.ok {}, (writeDefault output files).files⟩ := by
            rw [perform_of_written hcommand hwritten]
          rw [runInvocation_of_ok hconfig (congrArg Performed.result hs), hs]
          exact ⟨rfl, rfl⟩

/-- The arguments of a run that generates a file in a directory that does not exist. -/
def generating : List String := ["gen-config", "-o", "d/o.toml"]

/-- The libraries of the program with layers that give out their keys from the last one to the first. -/
def reversing : Libraries :=
  { libraries with order := List.reverse, order_perm := List.reverse_perm }

/-- Two variables that put an array and a table in the place of a text. -/
def nesting : Environment := [("NIIHAU__LOG__LEVEL[0]", "x"), ("NIIHAU__VOCABULARY__PATH__A", "y")]

end PrefixMatch.Cli
