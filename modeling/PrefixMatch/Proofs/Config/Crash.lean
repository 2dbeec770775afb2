import PrefixMatch.Proofs.Config.Layers

/-!
# Config — crashes

A load crashes when its layers cannot be laid over each other (`ConfigLoader.load_eq_crash_iff`).  That takes a
key path with an index that leads outside an array: without one no load crashes (`ConfigLoader.load_ne_crash`).
An index that counts from the end of an array leads outside one that is not there
(`ConfigLoader.load_of_before_start`).
-/

namespace PrefixMatch.ConfigLoader

variable {l : ConfigLoader} {lib : Libraries} {files : FileTree} {env : Environment}

theorem settle_eq_crash_iff {layers : List Layer} :
    settle lib layers = .error .crash ↔ Layer.combine? lib layers = none := by
  rw [settle]
  cases Layer.combine? lib layers with
  | none => simp
  | some settings =>
      cases hc : Config.ofSettings? settings with
      | none => simp [hc]
      | some c => cases hv : c.validate <;> simp [hc, hv, Except.map, Except.mapError]

/-- **A load crashes just when its layers cannot be laid over each other.** -/
theorem load_eq_crash_iff :
    (l.load lib files env).value = .error .crash ↔
      ∃ layers, l.layers lib files env = .ok layers ∧ Layer.combine? lib layers = none := by
  rw [value_load]
  cases hlayers : l.layers lib files env with
  | error e =>
      rw [resolve, hlayers]
      simp [Except.mapError, bind, Except.bind]
  | ok layers => simp [resolve_of_layers hlayers, settle_eq_crash_iff]

/-- No key path of a file or of the environment leads outside an array. -/
structure KeysFit (l : ConfigLoader) (lib : Libraries) (files : FileTree) (env : Environment) : Prop where
  file : ∀ path layer, l.path = some path → fileLayer lib files path = .ok layer →
    layer.Fits lib.maxItems
  environment : (Environment.layer l.envName env).Fits lib.maxItems

/-- **Where no key path leads outside an array no load crashes.** -/
theorem load_ne_crash (h : l.KeysFit lib files env) : (l.load lib files env).value ≠ .error .crash := by
  rw [Ne, load_eq_crash_iff]
  rintro ⟨layers, hlayers, hnone⟩
  obtain ⟨file, hfits, rfl⟩ : ∃ file : Layer, file.Fits lib.maxItems ∧
      layers = [({} : Config).layer, file, Environment.layer l.envName env] := by
    cases hpath : l.path with
    | none =>
        rw [layers_of_none hpath] at hlayers
        exact ⟨[], Layer.fits_nil lib.maxItems, (Except.ok.inj hlayers).symm⟩
    | some path =>
        cases hfile : fileLayer lib files path with
        | error e =>
            simp only [ConfigLoader.layers, hpath, hfile] at hlayers
            cases hlayers
        | ok file =>
            rw [layers_of_fileLayer hpath hfile] at hlayers
            exact ⟨file, h.file path file hpath hfile, (Except.ok.inj hlayers).symm⟩
  obtain ⟨settings, hsettings⟩ := Layer.exists_combine_of_fits hfits h.environment
  exact Option.some_ne_none settings (hsettings.symm.trans hnone)

/-- **A variable that names a place before the start of an array crashes every load without a file.** -/
theorem load_of_before_start {key name : String} {n : Int} {steps : List KeyStep} {v : LayerValue}
    (hnone : l.path = none) (hlayer : Environment.layer l.envName env = [(key, v)])
    (hpath : KeyPath.ofKey key = ⟨name, .index n :: steps⟩) (hn : n < 0)
    (hname : ∀ other ∈ Fields.keys ({} : Config).layer, (KeyPath.ofKey other).name ≠ name) :
    (l.load lib files env).value = .error .crash := by
  refine load_eq_crash_iff.mpr ⟨_, layers_of_none hnone, ?_⟩
  obtain ⟨base, hbase, -⟩ := Layer.exists_addTo_default lib
  have horder : lib.order [(key, v)] = [(key, v)] := List.perm_singleton.mp (lib.order_perm _)
  -- nothing makes the array before its index is asked for
  have hnew : Fields.get? name base = none := Layer.get?_addTo_of_apart hbase hname
  have hkey : Layer.addKey? lib.maxItems base (key, v) = none :=
    Layer.addKey?_of_before_start hpath hn hnew
  rw [Layer.combine?_of_nothing hbase, hlayer, Layer.addTo?, horder, Layer.addKeys?, List.foldlM_cons,
    hkey]
  rfl

end PrefixMatch.ConfigLoader
