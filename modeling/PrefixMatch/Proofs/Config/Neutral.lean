import PrefixMatch.Proofs.Config.RoundTrip

/-!
# Config — the written defaults as a layer

A written configuration says nothing that its own layer does not (`Config.has_documentLayer`), so laying it
over that layer changes nothing.  The defaults are the lowest layer of all: loading a file that holds them is
the same as loading no file, under all variables (`ConfigLoader.load_of_default_file`).
-/

namespace PrefixMatch

namespace Config

/-- A section of plain values that settings hold under its name. -/
theorem has_section {settings : List (String × LayerValue)} {name : String} {old : List (String × LayerValue)}
    {fields : List (String × Toml.Value)} (hbare : KeyPath.ofKey name = ⟨name, []⟩)
    (hold : Fields.get? name settings = some (.table old))
    (h : ∀ f ∈ fields, (LayerValue.ofToml f.2).IsPlain ∧ Fields.get? f.1 old = some (.ofToml f.2)) :
    Layer.Has settings (name, .ofToml (.table fields)) := by
  refine ⟨hbare, _, old, rfl, hold, ?_⟩
  rw [Toml.ofTomlFields_eq_map, List.forall_mem_map]
  exact h

theorem forall_mem_optionalField {name : String} {value : Option String} {P : String × Toml.Value → Prop}
    (h : ∀ text, value = some text → P (name, .text text)) : ∀ f ∈ optionalField name value, P f := by
  cases value with
  | none => exact List.forall_mem_nil P
  | some text => exact List.forall_mem_singleton.mpr (h text rfl)

/-- What a configuration is written as is in the groups of its own layer already: an option that is left out
has no value there either. -/
theorem has_documentLayer {c : Config} {settings : List (String × LayerValue)}
    (h : ∀ s : Setting, Fields.get? s.group settings = Fields.get? s.group c.layer) :
    ∀ e ∈ c.documentLayer, Layer.Has settings e := by
  rw [documentLayer, Toml.ofTomlFields_eq_map, List.map_map, List.forall_mem_map]
  simp only [document, List.forall_mem_cons, Function.comp]
  refine ⟨has_section rfl (h .matchPolicy) ?trie, has_section rfl (h .path) ?vocabulary,
    has_section rfl (h .level) ?log, List.forall_mem_nil _⟩
  case trie =>
    simp only [List.forall_mem_cons]
    exact ⟨⟨trivial, rfl⟩, ⟨trivial, rfl⟩, List.forall_mem_nil _⟩
  case vocabulary =>
    simp only [List.forall_mem_append]
    refine ⟨⟨forall_mem_optionalField fun text htext => ⟨trivial, ?_⟩,
      forall_mem_optionalField fun text htext => ⟨trivial, ?_⟩⟩,
      List.forall_mem_singleton.mpr ⟨trivial, rfl⟩⟩
    · rw [htext]
      rfl
    · rw [htext]
      rfl
  case log =>
    simp only [List.forall_mem_cons]
    exact ⟨⟨trivial, rfl⟩, ⟨trivial, rfl⟩, ⟨trivial, rfl⟩, List.forall_mem_nil _⟩

end Config

namespace ConfigLoader

variable {lib : Libraries} {l : ConfigLoader} {files : FileTree} {path : String}

/-- The layer of the written defaults is neutral between the defaults and any other layer. -/
theorem combine?_documentLayer (lib : Libraries) (env : Layer) :
    Layer.combine? lib [({} : Config).layer, ({} : Config).documentLayer, env] =
      Layer.combine? lib [({} : Config).layer, [], env] := by
  obtain ⟨base, hbase, hdefault⟩ := Layer.exists_addTo_default lib
  have hdocument : Layer.addTo? lib base ({} : Config).documentLayer = some base :=
    Layer.addTo?_of_has (Config.has_documentLayer fun s => hdefault s.group)
  rw [Layer.combine?_of_nothing hbase]
  simp only [Layer.combine?, List.foldlM_cons, List.foldlM_nil, hbase, hdocument, Option.bind_eq_bind,
    Option.bind_some, Option.pure_def, Option.bind_fun_some]

theorem layers_of_default_file (hpath : l.path = some path)
    (hext : Path.extension? path.toList = some "toml".toList)
    (hfile : files.readText path = .ok ({} : Config).toToml) (env : Environment) :
    l.layers lib files env =
      .ok [({} : Config).layer, ({} : Config).documentLayer, Environment.layer l.envName env] := by
  have hformat : formatOf? path = some .toml := by
    rw [formatOf?, hext]
    rfl
  exact layers_of_fileLayer hpath (fileLayer_of_readText hformat hfile (Config.ofText?_toToml {}))

/-- **A file with the written defaults is a neutral layer.** -/
theorem load_of_default_file (hpath : l.path = some path)
    (hext : Path.extension? path.toList = some "toml".toList)
    (hfile : files.readText path = .ok ({} : Config).toToml) (bare : FileTree) (env : Environment) :
    (l.load lib files env).value = (({ l with path := none } : ConfigLoader).load lib bare env).value := by
  rw [value_load, value_load, resolve_of_layers (layers_of_default_file hpath hext hfile env),
    resolve_of_layers (layers_of_none rfl), settle, settle, combine?_documentLayer]

end ConfigLoader

end PrefixMatch
