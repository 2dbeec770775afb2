import PrefixMatch.Config.Written
import PrefixMatch.Proofs.Config.Layers
import PrefixMatch.Proofs.Files.Tree
import PrefixMatch.Proofs.Toml.Tables

/-!
# Config — the written configuration

A written configuration is a document of three sections (`Config.document`), each value of which stands on
its line in one of its written forms.  It is read as these sections (`read?_toToml`), they hold each
setting as a value that converts back (`takes_document`), and so a valid configuration is loaded from the
text that it is written as (`ConfigLoader.load_toToml`).
-/

namespace PrefixMatch

open Toml (WritesSection)

namespace Config

/-! ### Written values -/

/-- A field and its written form: one line for the key and the value. -/
structure WritesSetting (f : String × Toml.Value) (setting : String × String) : Prop where
  key : f.1 = setting.1
  bare : Toml.IsBareName setting.1
  value : Toml.Tolerant.dialect.IsValueText f.2 setting.2.toList
  noReturn : '\r' ∉ setting.2.toList

theorem isValueText_writeText (s : String) :
    Toml.Tolerant.dialect.IsValueText (.text s) (Toml.writeText s).toList := by
  obtain ⟨mark, hmark, rest, hrest⟩ : ∃ mark, (mark = '"' ∨ mark = '\'') ∧
      ∃ rest, (Toml.writeText s).toList = mark :: rest := by
    rw [Toml.writeText, String.toList_ofList]
    obtain ⟨mark, hmark, ⟨_, -, heq⟩ | ⟨_, -, heq⟩⟩ := Toml.writeAs_cases s.toList
    · exact ⟨mark, hmark, _, heq⟩
    · exact ⟨mark, hmark, _, heq⟩
  refine ⟨⟨mark, rest, hrest, ?_⟩, fun more => ?_⟩
  · rcases hmark with rfl | rfl
    · exact ⟨rfl, by decide, by decide⟩
    · exact ⟨rfl, by decide, by decide⟩
  · have hread := Toml.readText?_writeText s (d := '\n') (by decide) more
    rw [hrest, List.cons_append] at hread ⊢
    rw [Toml.Dialect.leaf?_of_mark _ hmark, hread, Option.map_some]
    exact congrArg (fun s => some (Toml.Value.text s, '\n' :: more)) String.ofList_toList

/-- A word for a truth value ends with its line. -/
theorem scalar?_writeBool (b : Bool) (more : List Char) :
    Toml.Tolerant.scalar? ((writeBool b).toList ++ '\n' :: more) = some (.bool b, '\n' :: more) := by
  have hword : ∀ b, Toml.Tolerant.word? ((writeBool b).toList ++ '\n' :: more) =
      some ((writeBool b).toList, '\n' :: more) := by
    intro b
    cases b with
    | false => rfl
    | true => rfl
  have hplus : ∀ rest, (writeBool b).toList ++ '\n' :: more ≠ '+' :: rest := by
    cases b with
    | false => exact fun _ h => absurd (List.cons.inj h).1 (by decide)
    | true => exact fun _ h => absurd (List.cons.inj h).1 (by decide)
  unfold Toml.Tolerant.scalar?
  split
  · next h => exact absurd h (hplus _)
  · rw [hword, Option.bind_eq_bind, Option.bind_some]
    cases b with
    | false => rfl
    | true => rfl

theorem isValueText_writeBool (b : Bool) :
    Toml.Tolerant.dialect.IsValueText (.bool b) (writeBool b).toList := by
  refine ⟨?_, fun more => ?_⟩
  · cases b with
    | false => exact ⟨'f', _, rfl, rfl, by decide, by decide⟩
    | true => exact ⟨'t', _, rfl, rfl, by decide, by decide⟩
  · cases b with
    | false => exact scalar?_writeBool false more
    | true => exact scalar?_writeBool true more

theorem writesSetting_text {name : String} (hn : Toml.IsBareName name) (s : String) :
    WritesSetting (name, .text s) (name, Toml.writeText s) where
  key := rfl
  bare := hn
  value := isValueText_writeText s
  noReturn := fun hmem => absurd (Toml.isPlain_of_writeText s _ hmem) (by decide)

theorem writesSetting_bool {name : String} (hn : Toml.IsBareName name) (b : Bool) :
    WritesSetting (name, .bool b) (name, writeBool b) where
  key := rfl
  bare := hn
  value := isValueText_writeBool b
  noReturn := by
    cases b with
    | false => exact (by decide : '\r' ∉ "false".toList)
    | true => exact (by decide : '\r' ∉ "true".toList)

/-! ### Sections -/

/-- A field that is there only when it has a value. -/
def optionalField (name : String) : Option String → List (String × Toml.Value)
  | none => []
  | some s => [(name, .text s)]

/-- The sections of a written configuration, with their values. -/
def document (c : Config) : List (String × List (String × Toml.Value)) :=
  [ ("trie",
      [ ("match_policy", .text c.trie.matchPolicy.name),
        ("completion_order", .text c.trie.completionOrder.name) ]),
    ("vocabulary",
      optionalField "path" c.vocabulary.path ++
        optionalField "format" (c.vocabulary.format.map Format.name) ++
        [("skip_blank_lines", .bool c.vocabulary.skipBlankLines)]),
    ("log",
      [ ("level", .text c.log.level),
        ("json", .bool c.log.json),
        ("source_location", .bool c.log.sourceLocation) ]) ]

/-- A section and its written form. -/
structure WritesGroup (s : String × List (String × Toml.Value)) (w : WrittenSection) : Prop where
  name : s.1 = w.name
  bare : Toml.IsBareName w.name
  settings : List.Forall₂ WritesSetting s.2 w.settings

theorem writes_optional {name : String} (hn : Toml.IsBareName name) (value : Option String) :
    List.Forall₂ WritesSetting (optionalField name value) (writeOptional name value) := by
  cases value with
  | none => exact .nil
  | some s => exact .cons (writesSetting_text hn s) .nil

/-- The sections are written one by one. -/
theorem writes_document (c : Config) : List.Forall₂ WritesGroup c.document c.writtenSections := by
  refine .cons ⟨rfl, (by decide : Toml.IsBareName "trie"), ?_⟩
    (.cons ⟨rfl, (by decide : Toml.IsBareName "vocabulary"), ?_⟩
      (.cons ⟨rfl, (by decide : Toml.IsBareName "log"), ?_⟩ .nil))
  · exact .cons (writesSetting_text (by decide) _) (.cons (writesSetting_text (by decide) _) .nil)
  · refine List.rel_append (List.rel_append ?_ ?_) ?_
    · exact writes_optional (by decide) _
    · exact writes_optional (by decide) _
    · exact .cons (writesSetting_bool (by decide) _) .nil
  · exact .cons (writesSetting_text (by decide) _)
      (.cons (writesSetting_bool (by decide) _) (.cons (writesSetting_bool (by decide) _) .nil))

/-! ### The text -/

/-- The lines of a written section. -/
def sectionBlocks (w : WrittenSection) : List (List Char) :=
  Toml.Dialect.headerText w.name.toList ::
    w.settings.map fun (name, value) => Toml.Dialect.fieldText name.toList value.toList

theorem toList_sectionText (w : WrittenSection) : w.text.toList = (sectionBlocks w).flatten := by
  have hrow : ∀ setting : String × String,
      (setting.1 ++ " = " ++ setting.2 ++ "\n").toList =
        Toml.Dialect.fieldText setting.1.toList setting.2.toList := by
    intro setting
    simp [Toml.Dialect.fieldText]
  simp [WrittenSection.text, sectionBlocks, Toml.Dialect.headerText, String.toList_join, List.flatMap_map,
    List.flatten_eq_flatMap, hrow]

theorem writesSection_of_writesGroup {s : String × List (String × Toml.Value)} {w : WrittenSection}
    (h : WritesGroup s w) : WritesSection s (sectionBlocks w) := by
  have hlimit : Toml.Tolerant.dialect.limit ≠ some 0 := by decide
  refine .cons ?_ ?_
  · rw [h.name]
    exact Toml.Dialect.writes_table hlimit h.bare
  · rw [List.map_map, List.forall₂_map_left_iff, List.forall₂_map_right_iff]
    refine h.settings.imp fun f setting hf => ?_
    obtain ⟨key, v⟩ := f
    obtain ⟨name, value⟩ := setting
    obtain rfl : key = name := hf.key
    exact Toml.Dialect.writes_field hlimit (Toml.isKeyText_bare hf.bare) hf.value

/-- What is written has a property that all its parts have as written forms. -/
theorem forall_mem_of_forall₂ {α β : Type} {R : α → β → Prop} {P : β → Prop} {as : List α} {bs : List β}
    (h : List.Forall₂ R as bs) (hP : ∀ {a b}, R a b → P b) : ∀ b ∈ bs, P b := by
  induction h with
  | nil => exact fun _ hmem => absurd hmem List.not_mem_nil
  | cons hab _ ih => exact List.forall_mem_cons.mpr ⟨hP hab, ih⟩

theorem not_mem_return_sectionText {s : String × List (String × Toml.Value)} {w : WrittenSection}
    (h : WritesGroup s w) : '\r' ∉ w.text.toList := by
  have hbare : ∀ {name : String}, Toml.IsBareName name → '\r' ∉ name.toList := fun hn hmem =>
    absurd (hn.2 _ hmem) (by decide)
  have hsettings : ∀ setting ∈ w.settings, '\r' ∉ setting.1.toList ∧ '\r' ∉ setting.2.toList :=
    forall_mem_of_forall₂ h.settings fun hf => ⟨hbare hf.bare, hf.noReturn⟩
  rw [toList_sectionText]
  intro hmem
  obtain ⟨block, hblock, hmem⟩ := List.mem_flatten.mp hmem
  rcases List.mem_cons.mp hblock with rfl | hblock
  · simp [Toml.Dialect.headerText, hbare h.bare] at hmem
  · obtain ⟨setting, hsetting, rfl⟩ := List.mem_map.mp hblock
    simp [Toml.Dialect.fieldText, hsettings setting hsetting] at hmem

/-- Texts are put together with a newline between each two just as their lines are. -/
theorem flatten_intercalate (blocks : List (List (List Char))) :
    ([['\n']].intercalate blocks).flatten = ['\n'].intercalate (blocks.map List.flatten) := by
  induction blocks with
  | nil => rfl
  | cons bs blocks ih =>
      cases blocks with
      | nil => rw [List.map_cons, List.map_nil, List.intercalate_singleton, List.intercalate_singleton]
      | cons cs blocks =>
          rw [List.map_cons, List.map_cons, List.intercalate_cons_cons, List.intercalate_cons_cons,
            List.flatten_append, List.flatten_append, ih, List.map_cons]
          rfl

theorem toList_toToml (c : Config) :
    c.toToml.toList = ([['\n']].intercalate (c.writtenSections.map sectionBlocks)).flatten := by
  rw [flatten_intercalate, toToml, String.toList_intercalate, List.map_map, List.map_map]
  refine congrArg _ (List.map_congr_left fun w _ => ?_)
  exact toList_sectionText w

theorem not_mem_intercalate {sep : List Char} {texts : List (List Char)} {c : Char} (hs : c ∉ sep)
    (ht : ∀ t ∈ texts, c ∉ t) : c ∉ sep.intercalate texts := by
  induction texts with
  | nil => exact List.not_mem_nil
  | cons t texts ih =>
      rw [List.forall_mem_cons] at ht
      cases texts with
      | nil => rw [List.intercalate_singleton]; exact ht.1
      | cons u texts =>
          rw [List.intercalate_cons_cons, List.mem_append, List.mem_append, not_or, not_or]
          exact ⟨⟨ht.1, hs⟩, ih ht.2⟩

theorem not_mem_return_toToml (c : Config) : '\r' ∉ c.toToml.toList := by
  rw [toToml, String.toList_intercalate]
  refine not_mem_intercalate (by decide) fun t ht => ?_
  rw [List.map_map] at ht
  obtain ⟨w, hw, rfl⟩ := List.mem_map.mp ht
  exact forall_mem_of_forall₂ c.writes_document not_mem_return_sectionText w hw

/-- The sections of a configuration have distinct names, and their settings distinct keys. -/
theorem nodup_document (c : Config) :
    (Fields.keys c.document).Nodup ∧ ∀ s ∈ c.document, (Fields.keys s.2).Nodup := by
  have hnames : (Fields.keys c.document).Nodup := by
    show ["trie", "vocabulary", "log"].Nodup
    decide
  refine ⟨hnames, ?_⟩
  simp only [document, List.forall_mem_cons]
  refine ⟨?_, ?_, ?_, fun _ h => absurd h List.not_mem_nil⟩
  · show ["match_policy", "completion_order"].Nodup
    decide
  · cases c.vocabulary.path <;> cases c.vocabulary.format <;> simp [Fields.keys, optionalField]
  · show ["level", "json", "source_location"].Nodup
    decide

/-- **A written configuration is read as its sections.** -/
theorem read?_toToml (c : Config) :
    Toml.read? c.toToml.toList = some (c.document.map fun s => (s.1, .table s.2)) := by
  have hwrites : List.Forall₂ WritesSection c.document (c.writtenSections.map sectionBlocks) := by
    rw [List.forall₂_map_right_iff]
    exact c.writes_document.imp fun _ _ h => writesSection_of_writesGroup h
  have hreturn := c.not_mem_return_toToml
  obtain ⟨hnames, hkeys⟩ := c.nodup_document
  rw [toList_toToml] at hreturn ⊢
  exact Toml.read?_of_sections hwrites hnames hkeys hreturn
    fun h => absurd (Option.some.inj h) (by decide)

/-! ### The layer -/

/-- The layer of a written configuration. -/
def documentLayer (c : Config) : Layer :=
  LayerValue.ofTomlFields (c.document.map fun s => (s.1, .table s.2))

/-- A configuration has a table under the name of each group. -/
theorem get?_documentLayer (c : Config) (s : Setting) :
    ∃ fields, Fields.get? s.group c.documentLayer = some (.table fields) := by
  cases s <;> exact ⟨_, rfl⟩

/-- The value of a setting in the layer: the setting as it is written, if it has a value. -/
def writtenValue? (c : Config) : Setting → Option LayerValue
  | .matchPolicy => some (.text c.trie.matchPolicy.name)
  | .completionOrder => some (.text c.trie.completionOrder.name)
  | .path => c.vocabulary.path.map .text
  | .format => (c.vocabulary.format.map Format.name).map .text
  | .skipBlankLines => some (.bool c.vocabulary.skipBlankLines)
  | .level => some (.text c.log.level)
  | .json => some (.bool c.log.json)
  | .sourceLocation => some (.bool c.log.sourceLocation)

theorem valueIn?_documentLayer (c : Config) (s : Setting) :
    s.valueIn? c.documentLayer = c.writtenValue? s := by
  obtain ⟨trie, ⟨path, format, skip⟩, log⟩ := c
  cases s with
  | matchPolicy | completionOrder | level | json | sourceLocation => rfl
  | path =>
      cases path with
      | some path => rfl
      | none =>
          cases format with
          | none => rfl
          | some format => rfl
  | format | skipBlankLines =>
      cases path with
      | none =>
          cases format with
          | none => rfl
          | some format => rfl
      | some path =>
          cases format with
          | none => rfl
          | some format => rfl

theorem hasTables_documentLayer (c : Config) : c.documentLayer.HasTables where
  tables s v hv := by
    obtain ⟨fields, hget⟩ := c.get?_documentLayer s
    exact ⟨fields, Option.some.inj (hv.symm.trans hget)⟩
  plain s v hv := by
    rw [valueIn?_documentLayer] at hv
    cases s with
    | matchPolicy | completionOrder | skipBlankLines | level | json | sourceLocation => cases hv; trivial
    | path =>
        obtain ⟨text, -, rfl⟩ := Option.map_eq_some_iff.mp hv
        trivial
    | format =>
        obtain ⟨text, -, rfl⟩ := Option.map_eq_some_iff.mp hv
        trivial

theorem keepsApart_documentLayer (c : Config) : c.documentLayer.KeepsApart := by
  show ∀ key ∈ ["trie", "vocabulary", "log"], ∀ s : Setting, (KeyPath.ofKey key).name = s.group →
    key = s.group
  decide

theorem fits_documentLayer (c : Config) (maxItems : Nat) : c.documentLayer.Fits maxItems :=
  Layer.fits_of_bare (by decide : ∀ key ∈ ["trie", "vocabulary", "log"], (KeyPath.ofKey key).steps = [])

theorem ofText?_toToml (c : Config) : Layer.ofText? .toml c.toToml.toList = some c.documentLayer := by
  rw [Layer.ofText?, read?_toToml]
  rfl

/-- **Each setting converts back**, and one without a value is missing by default. -/
theorem takes_document (c : Config) (s : Setting) : s.Takes c (s.valueIn? c.documentLayer) := by
  rw [valueIn?_documentLayer]
  cases s with
  | matchPolicy => exact c.trie.matchPolicy.ofName?_name
  | completionOrder => exact c.trie.completionOrder.ofName?_name
  | path =>
      simp only [writtenValue?]
      cases h : c.vocabulary.path with
      | none => exact h
      | some path => exact congrArg some h.symm
  | format =>
      simp only [writtenValue?]
      cases h : c.vocabulary.format with
      | none => exact h
      | some format =>
          have hread : Setting.format.read? (.text format.name) = (Format.ofName? format.name).map some :=
            rfl
          exact hread.trans ((congrArg _ format.ofName?_name).trans (congrArg some h.symm))
  | skipBlankLines | level | json | sourceLocation => rfl

end Config

/-! ### Loading -/

namespace ConfigLoader

/-- A file whose text can be read lies at its path, and its content is that text. -/
theorem hasPath_of_readText {files : FileTree} {path text : String}
    (h : files.readText path = .ok text) :
    files.hasPath path = true ∧
      ∃ content, files.read path = .ok content ∧ String.fromUTF8? content = some text := by
  obtain ⟨content, hread, htext⟩ := FileTree.readText_eq_ok_iff.mp h
  refine ⟨?_, content, hread, htext⟩
  simp only [FileTree.read, bind, Except.bind] at hread
  rw [FileTree.hasPath]
  cases hplace : files.locate path with
  | error e =>
      rw [hplace] at hread
      cases hread
  | ok place => rfl

/-- The layer of a file that can be read. -/
theorem fileLayer_of_readText {lib : Libraries} {files : FileTree} {path text : String} {f : LayerFormat}
    {layer : Layer} (hext : formatOf? path = some f) (hread : files.readText path = .ok text)
    (hlayer : Layer.ofText? f text.toList = some layer) : fileLayer lib files path = .ok layer := by
  obtain ⟨hpath, content, hcontent, htext⟩ := hasPath_of_readText hread
  simp only [fileLayer, hpath, hext, fileText?, hcontent, htext, Option.bind_some, hlayer,
    Bool.not_true, Bool.false_eq_true, if_false]

/-- **A valid configuration is loaded from the text that it is written as**, whatever its path holds, when
no environment variable counts. -/
theorem load_toToml (l : ConfigLoader) (lib : Libraries) (files : FileTree) (env : Environment) (c : Config)
    (path : String) (hvalid : c.validate = .ok ()) (hpath : l.path = some path)
    (hext : Path.extension? path.toList = some "toml".toList)
    (hfile : files.readText path = .ok c.toToml)
    (henv : ∀ v ∈ env, ¬ Environment.Counts l.envName v.1) :
    (l.load lib files env).value = .ok c := by
  have hformat : formatOf? path = some .toml := by
    rw [formatOf?, hext]
    rfl
  have hlayer : fileLayer lib files path = .ok c.documentLayer :=
    fileLayer_of_readText hformat hfile c.ofText?_toToml
  rw [load_eq_ok_iff_takes hpath hlayer c.hasTables_documentLayer c.keepsApart_documentLayer
    (c.fits_documentLayer _) (.of_none henv)]
  refine ⟨fun s => ?_, hvalid⟩
  rw [Setting.source?, Setting.envText?_of_none henv]
  exact c.takes_document s

/-- A file tree with one file below the root. -/
def singleFile (name text : String) : FileTree :=
  { entries := [([name], .file text.toUTF8)] }

theorem readText_of_read {files : FileTree} {path text : String}
    (h : files.read path = .ok text.toUTF8) : files.readText path = .ok text := by
  have htext : String.fromUTF8? text.toUTF8 = some text := dif_pos text.isValidUTF8
  exact FileTree.readText_eq_ok_iff.mpr ⟨_, h, htext⟩

/-- A configuration with a path that no form shows without escapes, and that says its format. -/
def quotedConfig : Config :=
  { trie := { matchPolicy := .longestTerminal }
    vocabulary := { path := some "\t'''\"\\\n\x7f.json", skipBlankLines := false }
    log := { level := "trace" } }

/-- A path with marks, a newline and control characters is loaded back. -/
theorem load_toToml_quoted :
    quotedConfig.validate = .ok () ∧
    (singleFile "c.toml" quotedConfig.toToml).readText "/c.toml" = .ok quotedConfig.toToml ∧
    (∀ v ∈ [("HOME", "/"), ("NIIHAU_LOG", "off")], ¬ Environment.Counts "NIIHAU" v.1) ∧
    (({ path := some "/c.toml" } : ConfigLoader).load .plain (singleFile "c.toml" quotedConfig.toToml)
      [("HOME", "/"), ("NIIHAU_LOG", "off")]).value = .ok quotedConfig := by
  have hvalid : quotedConfig.validate = .ok () := by rfl
  have hfile : (singleFile "c.toml" quotedConfig.toToml).readText "/c.toml" = .ok quotedConfig.toToml :=
    readText_of_read rfl
  have henv : ∀ v ∈ [("HOME", "/"), ("NIIHAU_LOG", "off")],
      ¬ Environment.Counts "NIIHAU" v.1 := by decide
  exact ⟨hvalid, hfile, henv, load_toToml _ _ _ _ quotedConfig "/c.toml" hvalid rfl rfl hfile henv⟩

end ConfigLoader

end PrefixMatch
