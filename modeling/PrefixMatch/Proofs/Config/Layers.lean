import PrefixMatch.Config.Loader
import PrefixMatch.Proofs.Config.Setting
import PrefixMatch.Proofs.Layer.TidyToml
import PrefixMatch.Proofs.Text.Lowercase

/-!
# Config — layers setting by setting

The three layers of a configuration hold settings in two ways: in the tables of their groups
(`Layer.IsGrouped`), as the defaults and files do, or under their key paths (`Layer.IsPathed`), as the
environment does.  Either kind of layer overrides just the settings that it holds
(`Layer.IsGrouped.overrides`, `Layer.IsPathed.overrides`).  So each setting of a loaded configuration is what
the highest layer that holds it converts to (`ConfigLoader.takes_of_load`), and a valid one is loaded when no
key path of the file leads outside an array (`ConfigLoader.load_eq_ok_iff_takes`).
-/

namespace PrefixMatch

namespace Layer

variable {lib : Libraries} {settings after : List (String × LayerValue)} {layer : Layer}

/-- The settings after a layer: each setting that the layer holds as there, and each other one as
before. -/
structure Overrides (valueIn? : Setting → Option LayerValue)
    (settings after : List (String × LayerValue)) : Prop where
  complete : Setting.Complete after
  valueIn?_eq : ∀ s : Setting, s.valueIn? after = (valueIn? s).or (s.valueIn? settings)

/-! ### Layers with tables -/

/-- The groups that the layer has are tables, and the settings in them plain values. -/
structure HasTables (layer : Layer) : Prop where
  tables : ∀ (s : Setting) (v : LayerValue), Fields.get? s.group layer = some v →
    ∃ fields, v = .table fields
  plain : ∀ (s : Setting) (v : LayerValue), s.valueIn? layer = some v → v.IsPlain

/-- No key of the layer but the name of a group is a path into the group. -/
def KeepsApart (layer : Layer) : Prop :=
  ∀ key ∈ Fields.keys layer, ∀ s : Setting, (KeyPath.ofKey key).name = s.group → key = s.group

instance (layer : Layer) : Decidable layer.KeepsApart :=
  inferInstanceAs (Decidable (∀ key ∈ Fields.keys layer, ∀ _ : Setting, _ → _))

/-- A layer that holds settings in the tables of their groups alone, and each as a plain value. -/
structure IsGrouped (layer : Layer) : Prop extends HasTables layer where
  apart : layer.KeepsApart
  isMap : Fields.IsMap LayerValue.Tidy layer

/-- A layer of nothing. -/
theorem isGrouped_nil : IsGrouped [] where
  tables _ _ hv := nomatch hv
  plain _ _ hv := nomatch hv
  apart := nofun
  isMap := Fields.isMap_nil

theorem ofKey_group (s : Setting) : KeyPath.ofKey s.group = ⟨s.group, []⟩ := by
  cases s <;> rfl

/-- **What a layer has for a setting is laid over the setting**, when its groups are tables and no other
key is a path into one. -/
theorem valueIn?_addTo (hadd : addTo? lib settings layer = some after)
    (htables : ∀ (s : Setting) (v : LayerValue), Fields.get? s.group layer = some v →
      ∃ fields, v = .table fields)
    (hapart : layer.KeepsApart) (hmap : Fields.IsMap LayerValue.Tidy layer)
    (hs : Setting.Complete settings) :
    Setting.Complete after ∧
      ∀ s : Setting, s.valueIn? after =
        match s.valueIn? layer with
        | none => s.valueIn? settings
        | some v => some (LayerValue.laidOver (s.valueIn? settings) v) := by
  have hgroup : ∀ s : Setting, ∃ fields v,
      Fields.get? s.group after = some (.table fields) ∧
        Fields.get? s.key fields = some v ∧
        some v =
          match s.valueIn? layer with
          | none => s.valueIn? settings
          | some v => some (LayerValue.laidOver (s.valueIn? settings) v) := by
    intro s
    obtain ⟨old, v, hold, hv⟩ := hs s
    have hget := get?_addTo hadd (ofKey_group s) hmap.nodup
      (fun key hkey hname => hapart key hkey s hname)
    rw [Setting.valueIn?_of_table hold, hv]
    cases hlayer : Fields.get? s.group layer with
    | none =>
        rw [hlayer] at hget
        exact ⟨old, v, hget.trans hold, hv, by rw [Setting.valueIn?, hlayer]; rfl⟩
    | some w =>
        obtain ⟨fields, rfl⟩ := htables s w hlayer
        have hd : (Fields.keys fields).Nodup := (hmap.of_get? hlayer).isMap_fields.nodup
        obtain ⟨new, hnew, hfields⟩ := LayerValue.get?_overFields hd old
        have hentry := Setting.valueIn?_of_table hlayer
        have hkey := hfields s.key
        rw [hlayer, hold] at hget
        cases hval : Fields.get? s.key fields with
        | none =>
            rw [hval] at hkey hentry
            exact ⟨new, v, hget.trans (congrArg some hnew), hkey.trans hv, by rw [hentry]⟩
        | some u =>
            rw [hval, hv] at hkey
            rw [hval] at hentry
            exact ⟨new, _, hget.trans (congrArg some hnew), hkey, by rw [hentry]⟩
  refine ⟨fun s => ?_, fun s => ?_⟩
  · obtain ⟨fields, v, htable, hv, -⟩ := hgroup s
    exact ⟨fields, v, htable, hv⟩
  · obtain ⟨fields, v, htable, hv, heq⟩ := hgroup s
    rw [Setting.valueIn?_of_table htable, hv, heq]

/-- A plain value takes the place of the setting. -/
theorem IsGrouped.overrides (h : layer.IsGrouped) (hadd : addTo? lib settings layer = some after)
    (hs : Setting.Complete settings) : Overrides (Setting.valueIn? · layer) settings after := by
  obtain ⟨hcomplete, hvalue⟩ := valueIn?_addTo hadd h.tables h.apart h.isMap hs
  refine ⟨hcomplete, fun s => (hvalue s).trans ?_⟩
  cases hv : s.valueIn? layer with
  | none => rfl
  | some v => exact congrArg some (LayerValue.laidOver_of_isPlain (h.plain s v hv) _)

end Layer

/-! ### Layers with key paths -/

/-- The key path of a setting. -/
def Setting.keyPath (s : Setting) : String :=
  s.group ++ "." ++ s.key

theorem Setting.ofKey_keyPath (s : Setting) : KeyPath.ofKey s.keyPath = ⟨s.group, [.child s.key]⟩ := by
  cases s <;> rfl

theorem Setting.keyPath_injective {s t : Setting} (h : s.keyPath = t.keyPath) : s = t := by
  have hpath := congrArg KeyPath.ofKey h
  rw [ofKey_keyPath, ofKey_keyPath] at hpath
  exact Setting.key_injective (KeyStep.child.inj (List.cons.inj (KeyPath.mk.inj hpath).2).1)

namespace Layer

variable {lib : Libraries} {settings after : List (String × LayerValue)} {layer : Layer}

/-- A layer that holds settings under their key paths alone, and each as a plain value. -/
structure IsPathed (layer : Layer) : Prop where
  nodup : (Fields.keys layer).Nodup
  paths : ∀ e ∈ layer, (∃ s : Setting, e.1 = s.keyPath) ∧ e.2.IsPlain

theorem IsPathed.perm {other : Layer} (h : layer.IsPathed) (hperm : layer.Perm other) : other.IsPathed :=
  ⟨(hperm.map Prod.fst).nodup_iff.mp h.nodup, fun e he => h.paths e (hperm.mem_iff.mpr he)⟩

/-- The key path of a setting has no index. -/
theorem IsPathed.fits (h : layer.IsPathed) (maxItems : Nat) : layer.Fits maxItems := by
  intro key hkey step hstep
  obtain ⟨e, he, rfl⟩ := List.mem_map.mp hkey
  obtain ⟨⟨s, hs⟩, -⟩ := h.paths e he
  rw [hs, s.ofKey_keyPath] at hstep
  obtain rfl := List.mem_singleton.mp hstep
  trivial

/-- One entry under a key path sets one setting. -/
theorem overrides_addKey {maxItems : Nat} (s : Setting) {v : LayerValue}
    (hadd : addKey? maxItems settings (s.keyPath, v) = some after) (hs : Setting.Complete settings)
    (hv : v.IsPlain) : Overrides (fun t => if t = s then some v else none) settings after := by
  obtain ⟨old, w, hold, hw⟩ := hs s
  have hself : Fields.get? s.group after = some (.table (Fields.put s.key v old)) := by
    obtain ⟨u, hu, rfl⟩ := addKey?_eq_some_iff.mp hadd
    simp only [s.ofKey_keyPath, hold, LayerValue.putAt?, Option.getD_some, LayerValue.fields,
      LayerValue.laidOver_of_isPlain hv, Option.bind_eq_bind, Option.bind_some, Option.pure_def,
      Option.some.injEq] at hu ⊢
    rw [Fields.get?_put_self, hu]
  have hgroup : ∀ t : Setting, ∃ fields u,
      Fields.get? t.group after = some (.table fields) ∧
        Fields.get? t.key fields = some u ∧
        some u = (if t = s then some v else none).or (t.valueIn? settings) := by
    intro t
    obtain ⟨fields, u, hfields, hu⟩ := hs t
    by_cases hg : t.group = s.group
    · -- within one group the other keys of the table stay
      rw [hg] at hfields ⊢
      cases hold.symm.trans hfields
      by_cases ht : t = s
      · subst ht
        exact ⟨_, v, hself, Fields.get?_put_self _ _ _, by rw [if_pos rfl]; rfl⟩
      · have hkey : t.key ≠ s.key := fun hk => ht (Setting.key_injective hk)
        refine ⟨_, u, hself, by rw [Fields.get?_put_of_ne hkey, hu], ?_⟩
        rw [if_neg ht, Setting.valueIn?, hg, hold]
        exact hu.symm
    · have hname : (KeyPath.ofKey s.keyPath).name ≠ t.group := by
        rw [s.ofKey_keyPath]
        exact Ne.symm hg
      refine ⟨fields, u, (get?_addKey_of_ne hadd hname).trans hfields, hu, ?_⟩
      rw [if_neg fun ht => hg (congrArg Setting.group ht), Setting.valueIn?_of_table hfields, hu]
      rfl
  refine ⟨fun t => ?_, fun t => ?_⟩
  · obtain ⟨fields, u, htable, hu, -⟩ := hgroup t
    exact ⟨fields, u, htable, hu⟩
  · obtain ⟨fields, u, htable, hu, hor⟩ := hgroup t
    rw [Setting.valueIn?_of_table htable, hu, hor]

theorem overrides_addKeys {maxItems : Nat} {entries : List (String × LayerValue)} (h : IsPathed entries)
    (hadd : addKeys? maxItems settings entries = some after) (hs : Setting.Complete settings) :
    Overrides (fun s => Fields.get? s.keyPath entries) settings after := by
  induction entries generalizing settings with
  | nil =>
      cases hadd
      exact ⟨hs, fun _ => rfl⟩
  | cons e entries ih =>
      obtain ⟨key, v⟩ := e
      obtain ⟨⟨s, hkey⟩, hv⟩ := h.paths (key, v) List.mem_cons_self
      obtain ⟨hnew, hrest⟩ := List.nodup_cons.mp h.nodup
      have hkey : key = s.keyPath := hkey
      subst hkey
      obtain ⟨next, hnext, hadd⟩ := addKeys?_cons_eq_some_iff.mp hadd
      have hfirst := overrides_addKey s hnext hs hv
      have htail : IsPathed entries := ⟨hrest, fun e he => h.paths e (List.mem_cons_of_mem _ he)⟩
      have hlast := ih htail hadd hfirst.complete
      refine ⟨hlast.complete, fun t => (hlast.valueIn?_eq t).trans ?_⟩
      rw [hfirst.valueIn?_eq]
      by_cases ht : t = s
      · -- the entries behind this one have other key paths
        subst ht
        have hnone : Fields.get? t.keyPath entries = none := (Fields.get?_eq_none_iff entries).mpr hnew
        simp only [hnone, if_true, Fields.get?, Option.none_or]
      · have hne : s.keyPath ≠ t.keyPath := fun hk => ht (Setting.keyPath_injective hk.symm)
        simp only [if_neg ht, Fields.get?, if_neg hne, Option.none_or]

theorem IsPathed.overrides (h : layer.IsPathed) (hadd : addTo? lib settings layer = some after)
    (hs : Setting.Complete settings) :
    Overrides (fun s => Fields.get? s.keyPath layer) settings after := by
  have hperm := lib.order_perm layer
  obtain ⟨hcomplete, hvalue⟩ := overrides_addKeys (h.perm hperm.symm) hadd hs
  refine ⟨hcomplete, fun s => ?_⟩
  rw [hvalue s, Fields.get?_perm hperm.symm h.nodup]

end Layer

/-! ### The environment -/

namespace Environment

/-- The value of a variable is neither a table nor an array. -/
theorem isPlain_value (s : String) : (value s).IsPlain := by
  rw [value]
  split
  · trivial
  split
  · trivial
  split
  · trivial
  split
  · trivial
  · trivial

/-- A variable counts when its name starts with the prefix and two underscores, in any letter case. -/
def Counts (start name : String) : Prop :=
  Text.lower (start.toList ++ ['_', '_']) <+: Text.lower name.toList

instance (start name : String) : Decidable (Counts start name) :=
  inferInstanceAs (Decidable (_ <+: _))

theorem counts_iff (start name : String) : Counts start name ↔ (key? start name).isSome = true := by
  rw [Counts, ← List.isPrefixOf_iff_prefix, key?]
  split
  · next h => simp [h]
  · next h => simp [h]

end Environment

namespace Setting

/-- The part of a variable name behind the prefix. -/
def suffix (s : Setting) : String :=
  s.group ++ "__" ++ s.key

/-- The name of a variable is the prefix, the group and the key of the setting with two underscores
between them, in any letter case. -/
def NamedBy (s : Setting) (start name : String) : Prop :=
  Text.lower name.toList = Text.lower (start.toList ++ ['_', '_'] ++ s.suffix.toList)

instance (s : Setting) (start name : String) : Decidable (s.NamedBy start name) :=
  inferInstanceAs (Decidable (_ = _))

theorem lower_suffix (s : Setting) : Text.lower s.suffix.toList = s.suffix.toList := by
  cases s <;> decide

theorem dotted_suffix (s : Setting) : Environment.dotted s.suffix.toList = s.keyPath.toList := by
  cases s <;> decide

/-- **A variable named after a setting stands for its key path.** -/
theorem key?_of_namedBy {s : Setting} {start name : String} (h : s.NamedBy start name) :
    Environment.key? start name = some s.keyPath := by
  have happ : Text.lower (start.toList ++ ['_', '_'] ++ s.suffix.toList) =
      Text.lower (start.toList ++ ['_', '_']) ++ s.suffix.toList := by
    simp only [List.append_assoc, List.cons_append, List.nil_append, Text.lower_append_bar,
      Text.lower_bar_cons, s.lower_suffix]
    rfl
  have hpre : (Text.lower (start.toList ++ ['_', '_'])).isPrefixOf
      (Text.lower (start.toList ++ ['_', '_']) ++ s.suffix.toList) = true :=
    List.isPrefixOf_iff_prefix.mpr (List.prefix_append _ _)
  simp only [Environment.key?, NamedBy] at h ⊢
  rw [h, happ, if_pos hpre, List.drop_left, s.dotted_suffix, String.ofList_toList]

/-- A variable that is named after a setting counts. -/
theorem NamedBy.counts {s : Setting} {start name : String} (h : s.NamedBy start name) :
    Environment.Counts start name := by
  rw [Environment.counts_iff, key?_of_namedBy h]
  rfl

/-- The text of the variable that is named after the setting, if there is one. -/
def envText? (s : Setting) (start : String) (env : Environment) : Option String :=
  (env.find? fun v => decide (s.NamedBy start v.1)).map Prod.snd

theorem envText?_of_none {start : String} {env : Environment}
    (h : ∀ v ∈ env, ¬ Environment.Counts start v.1) (s : Setting) : s.envText? start env = none := by
  have hnone : env.find? (fun v => decide (s.NamedBy start v.1)) = none := by
    rw [List.find?_eq_none]
    exact fun v hv hs => h v hv (NamedBy.counts (of_decide_eq_true hs))
  rw [envText?, hnone]
  rfl

end Setting

namespace Environment

/-- Every variable that counts is named after a setting, and no two after the same one. -/
structure NamesSettings (start : String) (env : Environment) : Prop where
  named : ∀ v ∈ env, Counts start v.1 → ∃ s : Setting, s.NamedBy start v.1
  single : env.Pairwise fun u v => ∀ s : Setting, s.NamedBy start u.1 → ¬ s.NamedBy start v.1

instance (start : String) (env : Environment) : Decidable (NamesSettings start env) :=
  decidable_of_iff
    ((∀ v ∈ env, Counts start v.1 → ∃ s : Setting, s.NamedBy start v.1) ∧
      env.Pairwise fun u v => ∀ s : Setting, s.NamedBy start u.1 → ¬ s.NamedBy start v.1)
    ⟨fun h => ⟨h.1, h.2⟩, fun h => ⟨h.named, h.single⟩⟩

/-- The layer after one more variable. -/
def addVariable (start : String) (layer : Layer) (v : String × String) : Layer :=
  match key? start v.1 with
  | some key => Fields.put key (value v.2) layer
  | none => layer

/-- An environment in which no variable counts. -/
theorem NamesSettings.of_none {start : String} {env : Environment}
    (h : ∀ v ∈ env, ¬ Counts start v.1) : NamesSettings start env :=
  ⟨fun v hv hcounts => absurd hcounts (h v hv),
    List.pairwise_of_forall_mem_list fun u hu _ _ _ hs => absurd hs.counts (h u hu)⟩

theorem layer_eq_foldl (start : String) (env : Environment) :
    layer start env = env.foldl (addVariable start) [] := rfl

variable {start : String} {env : Environment}

/-- A variable sets the setting that it is named after, or none. -/
theorem addVariable_cases {v : String × String}
    (hv : Counts start v.1 → ∃ s : Setting, s.NamedBy start v.1) (layer : Layer) :
    (∃ s : Setting, s.NamedBy start v.1 ∧
      addVariable start layer v = Fields.put s.keyPath (value v.2) layer) ∨
    ((∀ s : Setting, ¬ s.NamedBy start v.1) ∧ addVariable start layer v = layer) := by
  cases hkey : key? start v.1 with
  | none =>
      refine .inr ⟨fun s hs => ?_, by rw [addVariable, hkey]⟩
      rw [Setting.key?_of_namedBy hs] at hkey
      cases hkey
  | some key =>
      obtain ⟨s, hs⟩ := hv ((counts_iff start v.1).mpr (by rw [hkey]; rfl))
      refine .inl ⟨s, hs, ?_⟩
      rw [addVariable, Setting.key?_of_namedBy hs]

theorem isPathed_addVariable {v : String × String}
    (hv : Counts start v.1 → ∃ s : Setting, s.NamedBy start v.1) {layer : Layer} (h : layer.IsPathed) :
    (addVariable start layer v).IsPathed := by
  rcases addVariable_cases hv layer with ⟨s, -, heq⟩ | ⟨-, heq⟩
  · rw [heq]
    refine ⟨Fields.nodup_keys_put h.nodup _ _, fun e he => ?_⟩
    rcases Fields.mem_put he with rfl | he
    · exact ⟨⟨s, rfl⟩, isPlain_value v.2⟩
    · exact h.paths e he
  · rw [heq]; exact h

theorem isPathed_foldl (hnamed : ∀ v ∈ env, Counts start v.1 → ∃ s : Setting, s.NamedBy start v.1)
    {layer : Layer} (h : layer.IsPathed) : Layer.IsPathed (env.foldl (addVariable start) layer) := by
  induction env generalizing layer with
  | nil => exact h
  | cons v env ih =>
      exact ih (fun u hu => hnamed u (List.mem_cons_of_mem v hu))
        (isPathed_addVariable (hnamed v List.mem_cons_self) h)

/-- The variable named after a setting sets it, and no other variable does. -/
theorem get?_foldl (h : NamesSettings start env) (s : Setting) (layer : Layer) :
    Fields.get? s.keyPath (env.foldl (addVariable start) layer) =
      ((s.envText? start env).map value).or (Fields.get? s.keyPath layer) := by
  induction env generalizing layer with
  | nil => rfl
  | cons v env ih =>
      obtain ⟨hsingle, hrest⟩ := List.pairwise_cons.mp h.single
      have htail : NamesSettings start env :=
        ⟨fun u hu => h.named u (List.mem_cons_of_mem v hu), hrest⟩
      rw [List.foldl_cons, ih htail, Setting.envText?, Setting.envText?, List.find?_cons]
      by_cases hs : s.NamedBy start v.1
      · have hnone : env.find? (fun u => decide (s.NamedBy start u.1)) = none := by
          rw [List.find?_eq_none]
          exact fun u hu => by simpa using hsingle u hu s hs
        simp only [hs, hnone, decide_true, addVariable, Setting.key?_of_namedBy hs,
          Fields.get?_put_self, Option.map_some, Option.map_none, Option.none_or, Option.some_or]
      · -- a variable for another setting writes another key path
        simp only [hs, decide_false]
        refine congrArg _ ?_
        rcases addVariable_cases (h.named v List.mem_cons_self) layer with ⟨t, ht, heq⟩ | ⟨-, heq⟩
        · have hne : s.keyPath ≠ t.keyPath := fun hk => hs (Setting.keyPath_injective hk ▸ ht)
          rw [heq, Fields.get?_put_of_ne hne]
        · rw [heq]

/-- The layer of the environment holds settings under their key paths. -/
theorem NamesSettings.isPathed (h : NamesSettings start env) : (layer start env).IsPathed :=
  isPathed_foldl h.named ⟨List.nodup_nil, fun _ he => absurd he List.not_mem_nil⟩

/-- **The environment holds a setting when a variable is named after it.** -/
theorem NamesSettings.get?_layer (h : NamesSettings start env) (s : Setting) :
    Fields.get? s.keyPath (layer start env) = (s.envText? start env).map value := by
  rw [layer_eq_foldl, get?_foldl h s []]
  exact Option.or_none

end Environment

/-! ### All layers -/

namespace Setting

/-- The value that overrides the default of the setting: that of its variable if there is one, or else
that of the file. -/
def source? (s : Setting) (start : String) (file : Layer) (env : Environment) : Option LayerValue :=
  ((s.envText? start env).map Environment.value).or (s.valueIn? file)

/-- A configuration takes the setting from a source, converted, and from the defaults without one. -/
def Takes (s : Setting) (c : Config) : Option LayerValue → Prop
  | some v => s.read? v = some (s.get c)
  | none => s.get c = s.get {}

theorem complete_default : Complete ({} : Config).layer := by
  intro s
  cases s <;> exact ⟨_, _, rfl, rfl⟩

theorem read?_default (s : Setting) : (s.valueIn? ({} : Config).layer).bind s.read? = some (s.get {}) := by
  cases s <;> rfl

theorem takes_iff (s : Setting) (c : Config) (source : Option LayerValue) :
    (source.or (s.valueIn? ({} : Config).layer)).bind s.read? = some (s.get c) ↔ s.Takes c source := by
  cases source with
  | some v => rfl
  | none =>
      rw [Option.none_or, s.read?_default, Option.some.injEq]
      exact eq_comm

theorem valueIn?_congr {s : Setting} {settings others : List (String × LayerValue)}
    (h : Fields.get? s.group others = Fields.get? s.group settings) :
    s.valueIn? others = s.valueIn? settings := by
  rw [valueIn?, h, valueIn?]

theorem Complete.congr {settings others : List (String × LayerValue)} (h : Complete settings)
    (heq : ∀ name, Fields.get? name others = Fields.get? name settings) : Complete others :=
  fun s => (heq s.group).symm ▸ h s

end Setting

namespace Layer

variable {lib : Libraries} {settings : List (String × LayerValue)} {file env : Layer}

theorem fits_default (maxItems : Nat) : Layer.Fits maxItems ({} : Config).layer :=
  fits_of_bare (by decide)

/-- The lowest layer gives the groups of the defaults and nothing else, in whatever order. -/
theorem exists_addTo_default (lib : Libraries) :
    ∃ settings, addTo? lib [] ({} : Config).layer = some settings ∧
      ∀ name, Fields.get? name settings = Fields.get? name ({} : Config).layer := by
  obtain ⟨settings, hadd⟩ := exists_addTo_of_fits (fits_default lib.maxItems) []
  have hbare : ∀ key ∈ Fields.keys ({} : Config).layer, KeyPath.ofKey key = ⟨key, []⟩ := by decide
  have hlaid : ∀ f ∈ ({} : Config).layer, LayerValue.laidOver none f.2 = f.2 := by
    simp only [Config.layer, List.forall_mem_cons]
    exact ⟨rfl, rfl, rfl, List.forall_mem_nil _⟩
  refine ⟨settings, hadd, fun name => ?_⟩
  cases hget : Fields.get? name ({} : Config).layer with
  | none =>
      have hnone := (Fields.get?_eq_none_iff _).mp hget
      refine get?_addTo_of_apart hadd fun key hkey hname => hnone ?_
      rw [hbare key hkey] at hname
      exact hname ▸ hkey
  | some v =>
      have hmem := Fields.mem_of_get?_eq_some hget
      have hname : name ∈ Fields.keys ({} : Config).layer := List.mem_map_of_mem hmem
      have hkeeps : ∀ key ∈ Fields.keys ({} : Config).layer, (KeyPath.ofKey key).name = name → key = name :=
        fun key hkey hsame => by rwa [hbare key hkey] at hsame
      rw [get?_addTo hadd (hbare name hname) (by decide) hkeeps, hget]
      exact congrArg some (hlaid _ hmem)

/-- The layers above the defaults are laid over them one by one. -/
theorem steps_of_combine (h : combine? lib [({} : Config).layer, file, env] = some settings) :
    ∃ base next, (∀ name, Fields.get? name base = Fields.get? name ({} : Config).layer) ∧
      addTo? lib base file = some next ∧ addTo? lib next env = some settings := by
  obtain ⟨base, hbase, hdefault⟩ := exists_addTo_default lib
  simp only [combine?, List.foldlM_cons, List.foldlM_nil, hbase, Option.bind_eq_bind, Option.bind_some,
    Option.bind_eq_some_iff, Option.pure_def, Option.some.injEq, exists_eq_right] at h
  obtain ⟨next, hnext, hlast⟩ := h
  exact ⟨base, next, hdefault, hnext, hlast⟩

/-- Without a file there is nothing between the defaults and the environment. -/
theorem combine?_of_nothing {base : List (String × LayerValue)}
    (hbase : addTo? lib [] ({} : Config).layer = some base) (env : Layer) :
    combine? lib [({} : Config).layer, [], env] = addTo? lib base env := by
  have hnothing : addTo? lib base [] = some base := addTo?_of_has nofun
  simp only [combine?, List.foldlM_cons, List.foldlM_nil, hbase, hnothing, Option.bind_eq_bind,
    Option.bind_some, Option.pure_def, Option.bind_fun_some]

/-- **Layers whose key paths lead nowhere outside an array give settings.** -/
theorem exists_combine_of_fits (hfile : file.Fits lib.maxItems) (henv : env.Fits lib.maxItems) :
    ∃ settings, combine? lib [({} : Config).layer, file, env] = some settings := by
  obtain ⟨base, hbase, -⟩ := exists_addTo_default lib
  obtain ⟨next, hnext⟩ := exists_addTo_of_fits hfile base
  obtain ⟨settings, hsettings⟩ := exists_addTo_of_fits henv next
  refine ⟨settings, ?_⟩
  simp only [combine?, List.foldlM_cons, List.foldlM_nil, hbase, hnext, hsettings, Option.bind_eq_bind,
    Option.bind_some, Option.pure_def]

end Layer

namespace ConfigLoader

variable {lib : Libraries} {l : ConfigLoader} {files : FileTree} {path start : String} {file : Layer}
  {env : Environment}

/-- The layer of a file has no key twice. -/
theorem isMap_of_fileLayer (h : fileLayer lib files path = .ok file) :
    Fields.IsMap LayerValue.Tidy file := by
  rw [fileLayer] at h
  split at h
  · cases h
  · split at h
    · cases h
    · split at h
      · cases h
      · next hlayer =>
        cases h
        obtain ⟨text, -, htext⟩ := Option.bind_eq_some_iff.mp hlayer
        exact Layer.isMap_of_ofText? htext

/-! ### Loading -/

theorem settle_eq_ok_iff {layers : List Layer} {c : Config} :
    settle lib layers = .ok c ↔
      ∃ settings, Layer.combine? lib layers = some settings ∧ Config.ofSettings? settings = some c ∧
        c.validate = .ok () := by
  rw [settle]
  cases Layer.combine? lib layers with
  | none => simp
  | some settings =>
      simp only [Option.some.injEq, exists_eq_left']
      cases Config.ofSettings? settings with
      | none => simp
      | some d =>
          simp only [Option.some.injEq]
          constructor
          · intro h
            cases hv : d.validate with
            | error e =>
                rw [hv] at h
                cases h
            | ok u =>
                rw [hv] at h
                cases h
                exact ⟨rfl, hv⟩
          · rintro ⟨rfl, hv⟩
            rw [hv]
            rfl

/-- The outcome of a load is that of its layers. -/
theorem resolve_of_layers {layers : List Layer} (h : l.layers lib files env = .ok layers) :
    l.resolve lib files env = settle lib layers := by
  rw [resolve, h]
  rfl

theorem layers_of_fileLayer (hpath : l.path = some path) (hfile : fileLayer lib files path = .ok file) :
    l.layers lib files env = .ok [({} : Config).layer, file, Environment.layer l.envName env] := by
  simp only [layers, hpath, hfile]
  rfl

theorem layers_of_none (hpath : l.path = none) :
    l.layers lib files env = .ok [({} : Config).layer, [], Environment.layer l.envName env] := by
  simp only [layers, hpath]
  rfl

theorem value_load (l : ConfigLoader) (lib : Libraries) (files : FileTree) (env : Environment) :
    (l.load lib files env).value = l.resolve lib files env := by
  rw [load]
  cases l.resolve lib files env with
  | error e => rfl
  | ok d => rfl

/-! ### Sources -/

/-- The three layers make each setting what its source converts to. -/
theorem ofSettings?_of_combine {settings : List (String × LayerValue)} (hfile : file.IsGrouped)
    (henv : Environment.NamesSettings start env)
    (h : Layer.combine? lib [({} : Config).layer, file, Environment.layer start env] = some settings)
    (c : Config) :
    Config.ofSettings? settings = some c ↔ ∀ s : Setting, s.Takes c (s.source? start file env) := by
  obtain ⟨base, next, hdefault, hnext, hlast⟩ := Layer.steps_of_combine h
  -- the defaults hold every setting, and each layer above keeps it so
  have hfirst := hfile.overrides hnext (Setting.complete_default.congr hdefault)
  have hlast := henv.isPathed.overrides hlast hfirst.complete
  rw [Setting.ofSettings?_eq_some_iff hlast.complete]
  refine forall_congr' fun s => ?_
  rw [hlast.valueIn?_eq, hfirst.valueIn?_eq, henv.get?_layer, ← Option.or_assoc,
    Setting.valueIn?_congr (hdefault s.group)]
  exact s.takes_iff c _

/-- The three layers give a configuration just when it is valid and takes each setting from its source, when
no key path of the file leads outside an array. -/
theorem settle_eq_ok_iff_takes (hfile : file.IsGrouped) (hfits : file.Fits lib.maxItems)
    (henv : Environment.NamesSettings start env) (c : Config) :
    settle lib [({} : Config).layer, file, Environment.layer start env] = .ok c ↔
      (∀ s : Setting, s.Takes c (s.source? start file env)) ∧ c.validate = .ok () := by
  obtain ⟨settings, hcombine⟩ := Layer.exists_combine_of_fits hfits (henv.isPathed.fits lib.maxItems)
  rw [settle_eq_ok_iff, ← ofSettings?_of_combine hfile henv hcombine]
  simp only [hcombine, Option.some.injEq, exists_eq_left']

/-- **A loaded configuration is valid and takes each setting from its source.** -/
theorem takes_of_load (hpath : l.path = some path) (hfile : fileLayer lib files path = .ok file)
    (htables : file.HasTables) (hapart : file.KeepsApart)
    (henv : Environment.NamesSettings l.envName env) {c : Config}
    (hload : (l.load lib files env).value = .ok c) :
    (∀ s : Setting, s.Takes c (s.source? l.envName file env)) ∧ c.validate = .ok () := by
  rw [value_load, resolve_of_layers (layers_of_fileLayer hpath hfile), settle_eq_ok_iff] at hload
  obtain ⟨settings, hcombine, hc, hvalid⟩ := hload
  have hgrouped : file.IsGrouped := ⟨htables, hapart, isMap_of_fileLayer hfile⟩
  exact ⟨(ofSettings?_of_combine hgrouped henv hcombine c).mp hc, hvalid⟩

/-- **A configuration is loaded just when it is valid and takes each setting from its source**, when no key
path of the file leads outside an array. -/
theorem load_eq_ok_iff_takes (hpath : l.path = some path) (hfile : fileLayer lib files path = .ok file)
    (htables : file.HasTables) (hapart : file.KeepsApart) (hfits : file.Fits lib.maxItems)
    (henv : Environment.NamesSettings l.envName env) (c : Config) :
    (l.load lib files env).value = .ok c ↔
      (∀ s : Setting, s.Takes c (s.source? l.envName file env)) ∧ c.validate = .ok () := by
  rw [value_load, resolve_of_layers (layers_of_fileLayer hpath hfile)]
  exact settle_eq_ok_iff_takes ⟨htables, hapart, isMap_of_fileLayer hfile⟩ hfits henv c

/-- Without a file a configuration takes each setting from its variable. -/
theorem load_eq_ok_iff_takes_text (hnone : l.path = none)
    (henv : Environment.NamesSettings l.envName env) (c : Config) :
    (l.load lib files env).value = .ok c ↔
      (∀ s : Setting, s.Takes c ((s.envText? l.envName env).map Environment.value)) ∧
        c.validate = .ok () := by
  rw [value_load, resolve_of_layers (layers_of_none hnone),
    settle_eq_ok_iff_takes Layer.isGrouped_nil (Layer.fits_nil lib.maxItems) henv]
  refine and_congr_left fun _ => forall_congr' fun s => ?_
  rw [Setting.source?, Setting.valueIn?, Fields.get?, Option.bind_none, Option.or_none]

end ConfigLoader

end PrefixMatch
