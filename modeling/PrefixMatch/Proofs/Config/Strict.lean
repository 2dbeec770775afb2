import Mathlib
import PrefixMatch.Config.Strict
import PrefixMatch.Proofs.Config.RoundTrip

/-!
# Config — strict and layered reading

A JSON object can be read as a configuration in two ways: strictly, each value having just the type of its
setting, and as a layer over the defaults, whose values convert.  What is read strictly is also what the
layer gives: each setting is read alone (`Setting.takesStrictly_of_ofJson?`), the value of a setting that is
laid over its default converts to the same (`Setting.read?_laidOver_default`), and so a file with the object
is loaded as the configuration that the object is read as (`ConfigLoader.load_of_ofJson?`).
-/

namespace PrefixMatch

/-! ### Strict reading, setting by setting -/

namespace Setting

/-- The strict reading of a JSON value as the setting. -/
def ofJson? : (s : Setting) → Json → Option s.Value
  | .matchPolicy => fun j => j.choice?.bind MatchPolicy.ofName?
  | .completionOrder => fun j => j.choice?.bind CompletionOrder.ofName?
  | .path => Json.optional? Json.text?
  | .format => Json.optional? fun j => j.choice?.bind Format.ofName?
  | .skipBlankLines => Json.bool?
  | .level => Json.text?
  | .json => Json.bool?
  | .sourceLocation => Json.bool?

/-- The JSON value that an object has for the setting, in the object of its group. -/
def jsonIn? (s : Setting) (members : List (String × Json)) : Option Json :=
  match Fields.get? s.group members with
  | some (.object inner) => Fields.get? s.key inner
  | _ => none

/-- A configuration has the setting as a JSON value is read strictly, and the default without one. -/
def TakesStrictly (s : Setting) (c : Config) : Option Json → Prop
  | some j => s.ofJson? j = some (s.get c)
  | none => s.get c = s.get {}

variable {members inner : List (String × Json)} {c : Config}

theorem trie_of_ofJson? {t : TrieSettings} (h : TrieSettings.ofJson? (.object inner) = some t) :
    Json.memberOr (ofJson? .matchPolicy) MatchPolicy.stopAtDivergence "match_policy" inner =
        some t.matchPolicy ∧
      Json.memberOr (ofJson? .completionOrder) CompletionOrder.unordered "completion_order" inner =
        some t.completionOrder := by
  simp only [TrieSettings.ofJson?, Json.members?, Option.bind_eq_bind, Option.bind_some,
    Option.bind_eq_some_iff, Option.pure_def, Option.some.injEq] at h
  obtain ⟨policy, hpolicy, order, horder, rfl⟩ := h
  exact ⟨hpolicy, horder⟩

theorem vocabulary_of_ofJson? {v : VocabularySettings}
    (h : VocabularySettings.ofJson? (.object inner) = some v) :
    Json.memberOr (ofJson? .path) (none : Option String) "path" inner = some v.path ∧
      Json.memberOr (ofJson? .format) (none : Option Format) "format" inner = some v.format ∧
      Json.memberOr (ofJson? .skipBlankLines) true "skip_blank_lines" inner = some v.skipBlankLines := by
  simp only [VocabularySettings.ofJson?, Json.members?, Option.bind_eq_bind, Option.bind_some,
    Option.bind_eq_some_iff, Option.pure_def, Option.some.injEq] at h
  obtain ⟨path, hpath, format, hformat, skip, hskip, rfl⟩ := h
  exact ⟨hpath, hformat, hskip⟩

theorem log_of_ofJson? {l : LogSettings} (h : LogSettings.ofJson? (.object inner) = some l) :
    Json.memberOr (ofJson? .level) "warn" "level" inner = some l.level ∧
      Json.memberOr (ofJson? .json) false "json" inner = some l.json ∧
      Json.memberOr (ofJson? .sourceLocation) true "source_location" inner = some l.sourceLocation := by
  simp only [LogSettings.ofJson?, Json.members?, Option.bind_eq_bind, Option.bind_some,
    Option.bind_eq_some_iff, Option.pure_def, Option.some.injEq] at h
  obtain ⟨level, hlevel, json, hjson, location, hlocation, rfl⟩ := h
  exact ⟨hlevel, hjson, hlocation⟩

/-- The groups that an object has are objects. -/
def HasObjects (members : List (String × Json)) : Prop :=
  ∀ (s : Setting) (j : Json), Fields.get? s.group members = some j → ∃ inner, j = .object inner

/-- The setting of a group that is read strictly: the default if the group is missing, and otherwise what
the object of the group has for it. -/
theorem takesStrictly_of_group {s : Setting} {α : Type} {read : Json → Option α} {standard a : α}
    (hobjects : HasObjects members) (hgroup : Json.memberOr read standard s.group members = some a)
    (hmissing : a = standard → s.get c = s.get {})
    (hread : ∀ inner, read (.object inner) = some a →
      Json.memberOr s.ofJson? (s.get {}) s.key inner = some (s.get c)) :
    s.TakesStrictly c (s.jsonIn? members) := by
  rw [jsonIn?]
  rw [Json.memberOr] at hgroup
  cases hget : Fields.get? s.group members with
  | none =>
      rw [hget] at hgroup
      exact hmissing (Option.some.inj hgroup).symm
  | some j =>
      obtain ⟨inner, rfl⟩ := hobjects s j hget
      rw [hget] at hgroup
      have hmember := hread inner hgroup
      rw [Json.memberOr] at hmember
      show s.TakesStrictly c (Fields.get? s.key inner)
      cases hkey : Fields.get? s.key inner with
      | none =>
          rw [hkey] at hmember
          exact (Option.some.inj hmember).symm
      | some j =>
          rw [hkey] at hmember
          exact hmember

/-- **An object that is read strictly is read setting by setting.** -/
theorem takesStrictly_of_ofJson? (hobjects : HasObjects members)
    (h : Config.ofJson? (.object members) = some c) (s : Setting) :
    s.TakesStrictly c (s.jsonIn? members) := by
  simp only [Config.ofJson?, Json.members?, Option.bind_eq_bind, Option.bind_some,
    Option.bind_eq_some_iff, Option.pure_def, Option.some.injEq] at h
  obtain ⟨trie, htrie, vocabulary, hvocabulary, log, hlog, rfl⟩ := h
  cases s with
  | matchPolicy =>
      exact takesStrictly_of_group hobjects htrie (congrArg TrieSettings.matchPolicy)
        fun _ h => (trie_of_ofJson? h).1
  | completionOrder =>
      exact takesStrictly_of_group hobjects htrie (congrArg TrieSettings.completionOrder)
        fun _ h => (trie_of_ofJson? h).2
  | path =>
      exact takesStrictly_of_group hobjects hvocabulary (congrArg VocabularySettings.path)
        fun _ h => (vocabulary_of_ofJson? h).1
  | format =>
      exact takesStrictly_of_group hobjects hvocabulary (congrArg VocabularySettings.format)
        fun _ h => (vocabulary_of_ofJson? h).2.1
  | skipBlankLines =>
      exact takesStrictly_of_group hobjects hvocabulary (congrArg VocabularySettings.skipBlankLines)
        fun _ h => (vocabulary_of_ofJson? h).2.2
  | level =>
      exact takesStrictly_of_group hobjects hlog (congrArg LogSettings.level)
        fun _ h => (log_of_ofJson? h).1
  | json =>
      exact takesStrictly_of_group hobjects hlog (congrArg LogSettings.json)
        fun _ h => (log_of_ofJson? h).2.1
  | sourceLocation =>
      exact takesStrictly_of_group hobjects hlog (congrArg LogSettings.sourceLocation)
        fun _ h => (log_of_ofJson? h).2.2

/-! ### Strict values over defaults -/

theorem choice_laidOver {old : LayerValue} (hold : old.fields = []) {j : Json} {name : String}
    (h : j.choice? = some name) :
    LayerValue.laidOver (some old) (.ofJson j) = .text name ∨
      LayerValue.laidOver (some old) (.ofJson j) = .table [(name, .nil)] := by
  unfold Json.choice? at h
  split at h
  · cases h
    exact .inl rfl
  · cases h
    exact .inr (LayerValue.laidOver_single hold _ _)
  · cases h

/-- A choice between names is converted as it is read strictly. -/
theorem choice?_laidOver {α : Type} {ofName? : String → Option α} {old : LayerValue}
    (hold : old.fields = []) {j : Json} {a : α} (h : j.choice?.bind ofName? = some a) :
    (LayerValue.laidOver (some old) (.ofJson j)).choice?.bind ofName? = some a ∧
      LayerValue.laidOver (some old) (.ofJson j) ≠ .nil := by
  obtain ⟨name, hname, ha⟩ := Option.bind_eq_some_iff.mp h
  rcases choice_laidOver hold hname with hlaid | hlaid
  · rw [hlaid]
    exact ⟨ha, nofun⟩
  · rw [hlaid]
    exact ⟨ha, nofun⟩

/-- **A value that is read strictly is converted to the same** when it is laid over the default. -/
theorem read?_laidOver_default {s : Setting} {j : Json} {v : s.Value} (h : s.ofJson? j = some v) :
    s.read? (LayerValue.laidOver (s.valueIn? ({} : Config).layer) (.ofJson j)) = some v := by
  cases s with
  | matchPolicy | completionOrder => exact (choice?_laidOver rfl h).1
  | path =>
      cases j with
      | null => exact h
      | text p => exact h
      | bool | int | float | array | object => cases h
  | format =>
      by_cases hnull : j = .null
      · subst hnull
        exact h
      · -- what is not null is a name, and no name becomes a value that is missing
        have hsome : (j.choice?.bind Format.ofName?).map some = some v := by
          cases j with
          | null => exact absurd rfl hnull
          | text | bool | int | float | array | object => exact h
        obtain ⟨f, hf, rfl⟩ := Option.map_eq_some_iff.mp hsome
        have hfields : LayerValue.nil.fields = [] := rfl
        obtain ⟨hread, hnil⟩ := choice?_laidOver hfields hf
        show LayerValue.optional? _ (LayerValue.laidOver (some .nil) (.ofJson j)) = _
        cases hv : LayerValue.laidOver (some .nil) (.ofJson j) with
        | nil => exact absurd hv hnil
        | text | bool | int | float | array | table =>
            rw [hv] at hread
            exact congrArg (Option.map some) hread
  | level =>
      cases j with
      | text => exact h
      | null | bool | int | float | array | object => cases h
  | skipBlankLines | json | sourceLocation =>
      cases j with
      | bool => exact h
      | null | text | int | float | array | object => cases h

/-- A layer holds a setting as the object that it comes from does. -/
theorem valueIn?_ofJsonMembers (s : Setting) (members : List (String × Json)) :
    s.valueIn? (LayerValue.ofJsonMembers members) = (s.jsonIn? members).map .ofJson := by
  rw [valueIn?, jsonIn?, Json.ofJsonMembers_eq_map, Fields.get?_map]
  cases Fields.get? s.group members with
  | none => rfl
  | some j =>
      cases j with
      | object inner =>
          show Fields.get? s.key (LayerValue.ofJsonMembers inner) = _
          rw [Json.ofJsonMembers_eq_map, Fields.get?_map]
      | int n =>
          show Fields.get? s.key (LayerValue.ofJson (.int n)).fields = none
          rw [LayerValue.ofJson]
          split
          · rfl
          · rfl
      | null | bool | float | text | array => rfl

end Setting

/-! ### Loading -/

/-- A key without a dot and without an opening bracket names itself. -/
theorem KeyPath.ofKey_of_undotted {key : String} (hdot : '.' ∉ key.toList) (hbracket : '[' ∉ key.toList) :
    KeyPath.ofKey key = ⟨key, []⟩ := by
  have hread : read? key = none ∨ read? key = some ⟨key, []⟩ := by
    rw [read?, name?]
    cases htake : key.toList.takeWhile inName with
    | nil => exact .inl rfl
    | cons c cs =>
        have hrest : ∀ d ∈ key.toList.dropWhile inName, d ≠ '.' ∧ d ≠ '[' := fun d hd =>
          have hmem := (List.dropWhile_suffix inName).subset hd
          ⟨fun h => hdot (h ▸ hmem), fun h => hbracket (h ▸ hmem)⟩
        have hkey := List.takeWhile_append_dropWhile (p := inName) (l := key.toList)
        rw [htake] at hkey
        cases hdrop : key.toList.dropWhile inName with
        | nil =>
            rw [hdrop, List.append_nil] at hkey
            refine .inr ?_
            show some (⟨String.ofList (c :: cs), []⟩ : KeyPath) = _
            rw [hkey, String.ofList_toList]
        | cons d ds =>
            obtain ⟨hd, hb⟩ := hrest d (hdrop ▸ List.mem_cons_self)
            refine .inl ?_
            simp [steps?, hd, hb]
  rcases hread with hread | hread
  · rw [ofKey, hread]
    rfl
  · rw [ofKey, hread]
    rfl

namespace ConfigLoader

/-- **A JSON object that is read strictly as a configuration is loaded as this configuration from a file**,
when no environment variable counts: as it is if it is valid, and otherwise with the error that says what
is wrong with it.  No key of the object may be a path, and the groups that it has must be objects. -/
theorem load_of_ofJson? (l : ConfigLoader) (lib : Libraries) (files : FileTree) (env : Environment)
    {path text : String} {members : List (String × Json)} {c : Config} (hpath : l.path = some path)
    (hext : Path.extension? path.toList = some "json".toList) (hfile : files.readText path = .ok text)
    (hread : Json.read? text.toList = some (.object members))
    (hkeys : ∀ key ∈ Fields.keys members, '.' ∉ key.toList ∧ '[' ∉ key.toList)
    (hobjects : Setting.HasObjects members) (henv : ∀ v ∈ env, ¬ Environment.Counts l.envName v.1)
    (hstrict : Config.ofJson? (.object members) = some c) :
    (l.load lib files env).value = (c.validate.map fun _ => c).mapError .refused := by
  have hformat : formatOf? path = some .json := by
    rw [formatOf?, hext]
    rfl
  have hlayer : fileLayer lib files path = .ok (LayerValue.ofJsonMembers members) :=
    fileLayer_of_readText hformat hfile (by rw [Layer.ofText?, hread]; rfl)
  have hmembers : LayerValue.ofJsonMembers members = members.map fun m => (m.1, .ofJson m.2) :=
    Json.ofJsonMembers_eq_map members
  have htables : ∀ (s : Setting) (v : LayerValue),
      Fields.get? s.group (LayerValue.ofJsonMembers members) = some v → ∃ fields, v = .table fields := by
    intro s v hv
    rw [hmembers, Fields.get?_map] at hv
    obtain ⟨j, hj, rfl⟩ := Option.map_eq_some_iff.mp hv
    obtain ⟨inner, rfl⟩ := hobjects s j hj
    exact ⟨_, rfl⟩
  have hbare : ∀ key ∈ Fields.keys (LayerValue.ofJsonMembers members), KeyPath.ofKey key = ⟨key, []⟩ := by
    rw [hmembers, Fields.keys_map]
    exact fun key hkey => KeyPath.ofKey_of_undotted (hkeys key hkey).1 (hkeys key hkey).2
  have hapart : Layer.KeepsApart (LayerValue.ofJsonMembers members) := fun key hkey s hname => by
    rwa [hbare key hkey] at hname
  have hnames := Environment.NamesSettings.of_none henv
  obtain ⟨settings, hcombine⟩ := Layer.exists_combine_of_fits
    (Layer.fits_of_bare fun key hkey => by rw [hbare key hkey]) (hnames.isPathed.fits lib.maxItems)
  obtain ⟨base, next, hdefault, hnext, hlast⟩ := Layer.steps_of_combine hcombine
  obtain ⟨hcomplete, hvalue⟩ := Layer.valueIn?_addTo hnext htables hapart (isMap_of_fileLayer hlayer)
    (Setting.complete_default.congr hdefault)
  have hlast := hnames.isPathed.overrides hlast hcomplete
  -- each setting is what the object says, laid over its default
  have hsettings : Config.ofSettings? settings = some c := by
    rw [Setting.ofSettings?_eq_some_iff hlast.complete]
    intro s
    have htakes := Setting.takesStrictly_of_ofJson? hobjects hstrict s
    rw [hlast.valueIn?_eq, hnames.get?_layer, Setting.envText?_of_none henv, Option.map_none,
      Option.none_or, hvalue, Setting.valueIn?_ofJsonMembers, Setting.valueIn?_congr (hdefault s.group)]
    cases hj : s.jsonIn? members with
    | none =>
        rw [hj] at htakes
        exact s.read?_default.trans (congrArg some htakes.symm)
    | some j =>
        rw [hj] at htakes
        exact Setting.read?_laidOver_default htakes
  rw [value_load, resolve_of_layers (layers_of_fileLayer hpath hlayer)]
  simp only [settle, hcombine, hsettings]

/-- A part of a configuration: a name as the only key of an object, null for a setting without a value, and
keys that no setting has. -/
def partialText : String :=
  "\x7b\"trie\": \x7b\"match_policy\": \x7b\"longest_terminal\": null\x7d, \"x\": [1]\x7d," ++
    "\"vocabulary\": \x7b\"path\": \"w.dat\", \"format\": null\x7d, \"a-b\": \x7b\"log\": 1\x7d\x7d"

/-- The members of that object. -/
def partialMembers : List (String × Json) :=
  [ ("trie", .object [("match_policy", .object [("longest_terminal", .null)]), ("x", .array [.int 1])]),
    ("vocabulary", .object [("path", .text "w.dat"), ("format", .null)]),
    ("a-b", .object [("log", .int 1)]) ]

theorem hasObjects_partialMembers : Setting.HasObjects partialMembers := by
  intro s j hj
  cases s <;> cases hj
  all_goals exact ⟨_, rfl⟩

/-- Both readings find that the path does not say its format. -/
theorem load_of_ofJson?_partial :
    (singleFile "c.json" partialText).readText "/c.json" = .ok partialText ∧
    Json.read? partialText.toList = some (.object partialMembers) ∧
    (∀ key ∈ Fields.keys partialMembers, '.' ∉ key.toList ∧ '[' ∉ key.toList) ∧
    Config.ofJson? (.object partialMembers) =
      some { trie := { matchPolicy := .longestTerminal }, vocabulary := { path := some "w.dat" } } ∧
    (({ path := some "/c.json" } : ConfigLoader).load .plain (singleFile "c.json" partialText) []).value =
      .error (.refused (.invalid "vocabulary.format is required for w.dat")) := by
  have hfile : (singleFile "c.json" partialText).readText "/c.json" = .ok partialText :=
    readText_of_read rfl
  have hread : Json.read? partialText.toList = some (.object partialMembers) := by cbv
  have hkeys : ∀ key ∈ Fields.keys partialMembers, '.' ∉ key.toList ∧ '[' ∉ key.toList := by decide
  have hstrict : Config.ofJson? (.object partialMembers) =
      some { trie := { matchPolicy := .longestTerminal }, vocabulary := { path := some "w.dat" } } := by rfl
  refine ⟨hfile, hread, hkeys, hstrict, ?_⟩
  exact (load_of_ofJson? _ _ _ _ rfl rfl hfile hread hkeys hasObjects_partialMembers
    (fun _ hv => absurd hv List.not_mem_nil) hstrict).trans (by rfl)

end ConfigLoader

end PrefixMatch
