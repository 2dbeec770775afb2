import PrefixMatch.Layer.Conversion
import PrefixMatch.Proofs.Layer.Overlay

/-!
# Config — settings one by one

The eight settings of a configuration as data: the group and the key under which layers hold a setting
(`Setting.valueIn?`), the conversion of a value to its type (`Setting.read?`), and its place in the
configuration (`Setting.get`).  Combined layers that have an entry for each setting give a configuration
just when each entry converts to the setting (`ofSettings?_eq_some_iff`).
-/

namespace PrefixMatch

/-- A setting of the configuration. -/
inductive Setting where
  | matchPolicy
  | completionOrder
  | path
  | format
  | skipBlankLines
  | level
  | json
  | sourceLocation
  deriving DecidableEq, Repr

namespace Setting

/-- The name of the table that holds the setting. -/
def group : Setting → String
  | .matchPolicy | .completionOrder => "trie"
  | .path | .format | .skipBlankLines => "vocabulary"
  | .level | .json | .sourceLocation => "log"

/-- The key of the setting in its table. -/
def key : Setting → String
  | .matchPolicy => "match_policy"
  | .completionOrder => "completion_order"
  | .path => "path"
  | .format => "format"
  | .skipBlankLines => "skip_blank_lines"
  | .level => "level"
  | .json => "json"
  | .sourceLocation => "source_location"

/-- The type of the setting. -/
def Value : Setting → Type
  | .matchPolicy => MatchPolicy
  | .completionOrder => CompletionOrder
  | .path => Option String
  | .format => Option Format
  | .skipBlankLines => Bool
  | .level => String
  | .json => Bool
  | .sourceLocation => Bool

/-- The conversion of a value to the setting. -/
def read? : (s : Setting) → LayerValue → Option s.Value
  | .matchPolicy => fun v => v.choice?.bind MatchPolicy.ofName?
  | .completionOrder => fun v => v.choice?.bind CompletionOrder.ofName?
  | .path => LayerValue.optional? LayerValue.text?
  | .format => LayerValue.optional? fun v => v.choice?.bind Format.ofName?
  | .skipBlankLines => LayerValue.bool?
  | .level => LayerValue.text?
  | .json => LayerValue.bool?
  | .sourceLocation => LayerValue.bool?

/-- The setting in a configuration. -/
def get : (s : Setting) → Config → s.Value
  | .matchPolicy => fun c => c.trie.matchPolicy
  | .completionOrder => fun c => c.trie.completionOrder
  | .path => fun c => c.vocabulary.path
  | .format => fun c => c.vocabulary.format
  | .skipBlankLines => fun c => c.vocabulary.skipBlankLines
  | .level => fun c => c.log.level
  | .json => fun c => c.log.json
  | .sourceLocation => fun c => c.log.sourceLocation

/-- The key alone tells settings apart. -/
theorem key_injective {s t : Setting} (h : s.key = t.key) : s = t := by
  cases s <;> cases t <;> first | rfl | exact absurd h (by decide)

/-- All settings. -/
def all : List Setting :=
  [.matchPolicy, .completionOrder, .path, .format, .skipBlankLines, .level, .json, .sourceLocation]

theorem mem_all (s : Setting) : s ∈ all := by
  cases s <;> decide

instance {p : Setting → Prop} [DecidablePred p] : Decidable (∀ s : Setting, p s) :=
  decidable_of_iff (∀ s ∈ all, p s) ⟨fun h s => h s s.mem_all, fun h s _ => h s⟩

instance {p : Setting → Prop} [DecidablePred p] : Decidable (∃ s : Setting, p s) :=
  decidable_of_iff (∃ s ∈ all, p s) ⟨fun ⟨s, _, h⟩ => ⟨s, h⟩, fun ⟨s, h⟩ => ⟨s, s.mem_all, h⟩⟩

/-! ### Entries -/

/-- The value that settings have for the setting. -/
def valueIn? (s : Setting) (settings : List (String × LayerValue)) : Option LayerValue :=
  (Fields.get? s.group settings).bind fun v => Fields.get? s.key v.fields

/-- Settings with a table for each group, in which each setting has a value. -/
def Complete (settings : List (String × LayerValue)) : Prop :=
  ∀ s : Setting, ∃ fields v, Fields.get? s.group settings = some (.table fields) ∧
    Fields.get? s.key fields = some v

theorem valueIn?_of_table {s : Setting} {settings fields : List (String × LayerValue)}
    (h : Fields.get? s.group settings = some (.table fields)) :
    s.valueIn? settings = Fields.get? s.key fields := by
  rw [valueIn?, h]
  rfl

/-! ### Groups -/

section Groups

variable {fields : List (String × LayerValue)}

theorem trie_ofLayer?_eq_some_iff {policy order : LayerValue}
    (hp : Fields.get? "match_policy" fields = some policy)
    (ho : Fields.get? "completion_order" fields = some order) (t : TrieSettings) :
    TrieSettings.ofLayer? (.table fields) = some t ↔
      read? .matchPolicy policy = some t.matchPolicy ∧
        read? .completionOrder order = some t.completionOrder := by
  obtain ⟨p, o⟩ := t
  have hread : TrieSettings.ofLayer? (.table fields) =
      (read? .matchPolicy policy).bind fun p => (read? .completionOrder order).bind fun o =>
        some ⟨p, o⟩ := by
    simp only [TrieSettings.ofLayer?, LayerValue.group?, LayerValue.fieldOr, hp, ho, Option.bind_eq_bind,
      Option.bind_some]
    rfl
  simp only [hread, Option.bind_eq_some_iff, Option.some.injEq]
  constructor
  · rintro ⟨p', hp', o', ho', heq⟩
    cases heq
    exact ⟨hp', ho'⟩
  · rintro ⟨hp', ho'⟩
    exact ⟨p, hp', o, ho', rfl⟩

theorem vocabulary_ofLayer?_eq_some_iff {path format skip : LayerValue}
    (hp : Fields.get? "path" fields = some path) (hf : Fields.get? "format" fields = some format)
    (hs : Fields.get? "skip_blank_lines" fields = some skip) (v : VocabularySettings) :
    VocabularySettings.ofLayer? (.table fields) = some v ↔
      read? .path path = some v.path ∧ read? .format format = some v.format ∧
        read? .skipBlankLines skip = some v.skipBlankLines := by
  obtain ⟨p, f, s⟩ := v
  simp only [VocabularySettings.ofLayer?, LayerValue.group?, LayerValue.fieldOr, hp, hf, hs,
    Option.bind_eq_bind, Option.bind_some, Option.bind_eq_some_iff, Option.pure_def, Option.some.injEq,
    read?]
  constructor
  · rintro ⟨p', hp', f', hf', s', hs', heq⟩
    cases heq
    exact ⟨hp', hf', hs'⟩
  · rintro ⟨hp', hf', hs'⟩
    exact ⟨p, hp', f, hf', s, hs', rfl⟩

theorem log_ofLayer?_eq_some_iff {level json location : LayerValue}
    (hl : Fields.get? "level" fields = some level) (hj : Fields.get? "json" fields = some json)
    (hs : Fields.get? "source_location" fields = some location) (l : LogSettings) :
    LogSettings.ofLayer? (.table fields) = some l ↔
      read? .level level = some l.level ∧ read? .json json = some l.json ∧
        read? .sourceLocation location = some l.sourceLocation := by
  obtain ⟨n, j, s⟩ := l
  simp only [LogSettings.ofLayer?, LayerValue.group?, LayerValue.fieldOr, hl, hj, hs,
    Option.bind_eq_bind, Option.bind_some, Option.bind_eq_some_iff, Option.pure_def, Option.some.injEq,
    read?]
  constructor
  · rintro ⟨n', hn', j', hj', s', hs', heq⟩
    cases heq
    exact ⟨hn', hj', hs'⟩
  · rintro ⟨hn', hj', hs'⟩
    exact ⟨n, hn', j, hj', s, hs', rfl⟩

end Groups

theorem ofSettings?_eq_some_iff_groups {settings : List (String × LayerValue)}
    {trie vocabulary log : LayerValue}
    (ht : Fields.get? "trie" settings = some trie)
    (hv : Fields.get? "vocabulary" settings = some vocabulary)
    (hl : Fields.get? "log" settings = some log) (c : Config) :
    Config.ofSettings? settings = some c ↔
      TrieSettings.ofLayer? trie = some c.trie ∧
        VocabularySettings.ofLayer? vocabulary = some c.vocabulary ∧
        LogSettings.ofLayer? log = some c.log := by
  obtain ⟨t, v, l⟩ := c
  simp only [Config.ofSettings?, LayerValue.fieldOr, ht, hv, hl, Option.bind_eq_bind,
    Option.bind_eq_some_iff, Option.pure_def, Option.some.injEq]
  constructor
  · rintro ⟨t', ht', v', hv', l', hl', heq⟩
    cases heq
    exact ⟨ht', hv', hl'⟩
  · rintro ⟨ht', hv', hl'⟩
    exact ⟨t, ht', v, hv', l, hl', rfl⟩

/-- **Settings give a configuration just when each of them converts to the setting there.** -/
theorem ofSettings?_eq_some_iff {settings : List (String × LayerValue)} (h : Complete settings)
    (c : Config) :
    Config.ofSettings? settings = some c ↔
      ∀ s : Setting, (s.valueIn? settings).bind s.read? = some (s.get c) := by
  obtain ⟨trie, policy, htrie, hpolicy⟩ := h .matchPolicy
  obtain ⟨_, order, htrie', horder⟩ := h .completionOrder
  obtain ⟨vocabulary, path, hvocabulary, hpath⟩ := h .path
  obtain ⟨_, format, hvocabulary', hformat⟩ := h .format
  obtain ⟨_, skip, hvocabulary'', hskip⟩ := h .skipBlankLines
  obtain ⟨log, level, hlog, hlevel⟩ := h .level
  obtain ⟨_, json, hlog', hjson⟩ := h .json
  obtain ⟨_, location, hlog'', hlocation⟩ := h .sourceLocation
  cases htrie.symm.trans htrie'
  cases hvocabulary.symm.trans hvocabulary'
  cases hvocabulary.symm.trans hvocabulary''
  cases hlog.symm.trans hlog'
  cases hlog.symm.trans hlog''
  have hentry : ∀ {s : Setting} {fields : List (String × LayerValue)} {v : LayerValue},
      Fields.get? s.group settings = some (.table fields) → Fields.get? s.key fields = some v →
      (s.valueIn? settings).bind s.read? = s.read? v := by
    intro s fields v hg hk
    rw [valueIn?_of_table hg, hk, Option.bind_some]
  rw [ofSettings?_eq_some_iff_groups htrie hvocabulary hlog, trie_ofLayer?_eq_some_iff hpolicy horder,
    vocabulary_ofLayer?_eq_some_iff hpath hformat hskip, log_ofLayer?_eq_some_iff hlevel hjson hlocation]
  constructor
  · rintro ⟨⟨hp, ho⟩, ⟨hpa, hf, hs⟩, hl, hj, hlo⟩ s
    cases s with
    | matchPolicy => rw [hentry htrie hpolicy]; exact hp
    | completionOrder => rw [hentry htrie' horder]; exact ho
    | path => rw [hentry hvocabulary hpath]; exact hpa
    | format => rw [hentry hvocabulary' hformat]; exact hf
    | skipBlankLines => rw [hentry hvocabulary'' hskip]; exact hs
    | level => rw [hentry hlog hlevel]; exact hl
    | json => rw [hentry hlog' hjson]; exact hj
    | sourceLocation => rw [hentry hlog'' hlocation]; exact hlo
  · intro hall
    exact ⟨⟨hentry htrie hpolicy ▸ hall .matchPolicy, hentry htrie' horder ▸ hall .completionOrder⟩,
      ⟨hentry hvocabulary hpath ▸ hall .path, hentry hvocabulary' hformat ▸ hall .format,
        hentry hvocabulary'' hskip ▸ hall .skipBlankLines⟩,
      hentry hlog hlevel ▸ hall .level, hentry hlog' hjson ▸ hall .json,
      hentry hlog'' hlocation ▸ hall .sourceLocation⟩

end Setting

end PrefixMatch
