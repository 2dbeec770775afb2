import PrefixMatch.Proofs.Config.Layers
import PrefixMatch.Proofs.Layer.KeyOrder

/-!
# Config — the order of keys

What a configuration is read from is what there is under each key (`Config.ofSettings?_congr`), since no
table has a key twice.  So variables whose key paths part give the same configuration in any order
(`ConfigLoader.load_in_any_order`), and a configuration that is refused is refused in any order.
-/

namespace PrefixMatch

/-! ### Values with the same keys -/

namespace LayerValue

/-- Two values that differ in the order of their keys at most, at any depth. -/
structure Alike (v w : LayerValue) : Prop where
  tidy : v.Tidy
  tidy' : w.Tidy
  keyed : v.keyed = w.keyed

/-- Two tables have alike values under each key, or none. -/
def FieldsAlike (fields others : List (String × LayerValue)) : Prop :=
  ∀ key, Option.Rel Alike (Fields.get? key fields) (Fields.get? key others)

variable {v w : LayerValue} {fields others : List (String × LayerValue)} {items items' : List LayerValue}

theorem keyed_ne_absent (v : LayerValue) : v.keyed ≠ .absent := by
  cases v <;> exact nofun

theorem keyed?_eq_absent_iff {old : Option LayerValue} : keyed? old = .absent ↔ old = none := by
  cases old with
  | none => exact iff_of_true rfl rfl
  | some v => exact iff_of_false v.keyed_ne_absent nofun

theorem Tidy.of_mem_items (h : (LayerValue.array items).Tidy) : ∀ v ∈ items, v.Tidy := by
  cases h with
  | plain h => exact h.elim
  | array h => exact h

/-- Tables with the same under each key have alike values there. -/
theorem fieldsAlike_of_entryOf (h : Fields.IsMap Tidy fields) (h' : Fields.IsMap Tidy others)
    (heq : entryOf fields = entryOf others) : FieldsAlike fields others := by
  intro key
  have hkey := congrFun heq key
  rw [entryOf_eq, entryOf_eq] at hkey
  cases hv : Fields.get? key fields with
  | none =>
      cases hw : Fields.get? key others with
      | none => exact .none
      | some w =>
          rw [hv, hw] at hkey
          exact absurd hkey.symm w.keyed_ne_absent
  | some v =>
      cases hw : Fields.get? key others with
      | none =>
          rw [hv, hw] at hkey
          exact absurd hkey v.keyed_ne_absent
      | some w =>
          rw [hv, hw] at hkey
          exact .some ⟨h.of_get? hv, h'.of_get? hw, hkey⟩

/-- They have the same keys, too. -/
theorem keys_perm_of_entryOf (h : (Fields.keys fields).Nodup) (h' : (Fields.keys others).Nodup)
    (heq : entryOf fields = entryOf others) : (Fields.keys fields).Perm (Fields.keys others) := by
  refine (List.perm_ext_iff_of_nodup h h').mpr fun key => ?_
  have hkey : keyed? (Fields.get? key fields) = keyed? (Fields.get? key others) := by
    rw [← entryOf_eq, heq, entryOf_eq]
  rw [← not_iff_not, ← Fields.get?_eq_none_iff, ← Fields.get?_eq_none_iff, ← keyed?_eq_absent_iff, hkey,
    keyed?_eq_absent_iff]

/-- Arrays of one length with the same at each position have alike items. -/
theorem forall₂_alike_of_itemOf (h : ∀ v ∈ items, v.Tidy) (h' : ∀ v ∈ items', v.Tidy)
    (hlength : items.length = items'.length) (heq : itemOf items = itemOf items') :
    List.Forall₂ Alike items items' := by
  induction items generalizing items' with
  | nil =>
      obtain rfl := List.length_eq_zero_iff.mp hlength.symm
      exact .nil
  | cons v items ih =>
      cases items' with
      | nil => cases hlength
      | cons w items' =>
          obtain ⟨hv, hitems⟩ := List.forall_mem_cons.mp h
          obtain ⟨hw, hitems'⟩ := List.forall_mem_cons.mp h'
          exact .cons ⟨hv, hw, congrFun heq 0⟩
            (ih hitems hitems' (Nat.succ.inj hlength) (funext fun i => congrFun heq (i + 1)))

/-- Alike values are the same plain value, or two arrays of alike items, or two tables of alike fields. -/
theorem Alike.cases (h : Alike v w) :
    (v.IsPlain ∧ w = v) ∨
    (∃ items items', v = .array items ∧ w = .array items' ∧ List.Forall₂ Alike items items') ∨
    ∃ fields others, v = .table fields ∧ w = .table others ∧ (Fields.keys fields).Perm (Fields.keys others) ∧
      FieldsAlike fields others := by
  obtain ⟨htidy, htidy', heq⟩ := h
  cases v with
  | table fields =>
      cases w with
      | table others =>
          have hentries : entryOf fields = entryOf others := Keyed.table.inj heq
          have hmap := htidy.isMap_fields
          have hmap' := htidy'.isMap_fields
          exact .inr (.inr ⟨fields, others, rfl, rfl, keys_perm_of_entryOf hmap.nodup hmap'.nodup hentries,
            fieldsAlike_of_entryOf hmap hmap' hentries⟩)
      | array | nil | bool | int | float | text => cases heq
  | array items =>
      cases w with
      | array items' =>
          obtain ⟨hlength, hitems⟩ := Keyed.array.inj heq
          exact .inr (.inl ⟨items, items', rfl, rfl,
            forall₂_alike_of_itemOf htidy.of_mem_items htidy'.of_mem_items hlength hitems⟩)
      | table | nil | bool | int | float | text => cases heq
  | nil | bool | int | float | text =>
      cases w with
      | table | array => cases heq
      | nil | bool | int | float | text => exact .inl ⟨trivial, (Keyed.plain.inj heq).symm⟩

/-! ### Conversions -/

theorem text?_congr (h : Alike v w) : v.text? = w.text? := by
  rcases h.cases with ⟨-, rfl⟩ | ⟨_, _, rfl, rfl, -⟩ | ⟨_, _, rfl, rfl, -⟩ <;> rfl

theorem bool?_congr (h : Alike v w) : v.bool? = w.bool? := by
  rcases h.cases with ⟨-, rfl⟩ | ⟨_, _, rfl, rfl, -⟩ | ⟨_, _, rfl, rfl, -⟩ <;> rfl

theorem choice?_table_eq_some_iff {name : String} :
    (table fields).choice? = some name ↔ Fields.keys fields = [name] := by
  match fields with
  | [] => exact ⟨nofun, nofun⟩
  | [(_, _)] => simp [choice?, Fields.keys]
  | _ :: _ :: _ => simp [choice?, Fields.keys]

/-- A choice is the only key of a table, which has no order. -/
theorem choice?_congr (h : Alike v w) : v.choice? = w.choice? := by
  rcases h.cases with ⟨-, rfl⟩ | ⟨_, _, rfl, rfl, -⟩ | ⟨fields, others, rfl, rfl, hperm, -⟩
  · rfl
  · rfl
  · refine Option.ext fun name => ?_
    rw [choice?_table_eq_some_iff, choice?_table_eq_some_iff]
    constructor
    · intro hkeys
      rw [hkeys] at hperm
      exact List.perm_singleton.mp hperm.symm
    · intro hkeys
      rw [hkeys] at hperm
      exact List.perm_singleton.mp hperm

theorem choice?_bind_congr {α : Type} (ofName? : String → Option α) (h : Alike v w) :
    v.choice?.bind ofName? = w.choice?.bind ofName? := by
  rw [choice?_congr h]

theorem optional?_congr {α : Type} {read : LayerValue → Option α} (h : Alike v w)
    (hread : read v = read w) : optional? read v = optional? read w := by
  rcases h.cases with ⟨-, rfl⟩ | ⟨_, _, rfl, rfl, -⟩ | ⟨_, _, rfl, rfl, -⟩
  · rfl
  · exact congrArg (Option.map some) hread
  · exact congrArg (Option.map some) hread

/-- The items of an array go with the names in order. -/
theorem fieldsAlike_zip (names : List String) (h : List.Forall₂ Alike items items') :
    FieldsAlike (names.zip items) (names.zip items') := by
  induction names generalizing items items' with
  | nil => exact fun _ => .none
  | cons name names ih =>
      cases h with
      | nil => exact fun _ => .none
      | cons hv hrest =>
          intro key
          rw [List.zip_cons_cons, List.zip_cons_cons, Fields.get?, Fields.get?]
          split
          · exact .some hv
          · exact ih hrest key

/-- A group is read from a table by its keys and from an array by its positions. -/
theorem bind_group?_congr {α : Type} {read : List (String × LayerValue) → Option α} (names : List String)
    (h : Alike v w) (hread : ∀ {fields others}, FieldsAlike fields others → read fields = read others) :
    (v.group? names).bind read = (w.group? names).bind read := by
  rcases h.cases with ⟨-, rfl⟩ | ⟨_, _, rfl, rfl, hitems⟩ | ⟨_, _, rfl, rfl, -, hfields⟩
  · rfl
  · exact hread (fieldsAlike_zip names hitems)
  · exact hread hfields

/-- A field is read alike from alike tables. -/
theorem fieldOr_congr {α : Type} {read : LayerValue → Option α}
    (hread : ∀ {v w}, Alike v w → read v = read w) (h : FieldsAlike fields others) (standard : α)
    (name : String) : fieldOr read standard name fields = fieldOr read standard name others := by
  have hname := h name
  rw [fieldOr, fieldOr]
  generalize Fields.get? name fields = x at hname
  generalize Fields.get? name others = y at hname
  cases hname with
  | none => rfl
  | some hv => exact hread hv

end LayerValue

open LayerValue (Alike FieldsAlike fieldOr_congr)

variable {v w : LayerValue} {settings others : List (String × LayerValue)}

theorem TrieSettings.ofLayer?_congr (h : Alike v w) : ofLayer? v = ofLayer? w :=
  LayerValue.bind_group?_congr _ h fun hfields => by
    simp only [fieldOr_congr (LayerValue.choice?_bind_congr MatchPolicy.ofName?) hfields,
      fieldOr_congr (LayerValue.choice?_bind_congr CompletionOrder.ofName?) hfields]

theorem VocabularySettings.ofLayer?_congr (h : Alike v w) : ofLayer? v = ofLayer? w :=
  LayerValue.bind_group?_congr _ h fun hfields => by
    have hpath := fieldOr_congr (fun h => LayerValue.optional?_congr h (LayerValue.text?_congr h)) hfields
    have hformat := fieldOr_congr
      (fun h => LayerValue.optional?_congr h (LayerValue.choice?_bind_congr Format.ofName? h)) hfields
    simp only [hpath, hformat, fieldOr_congr LayerValue.bool?_congr hfields]

theorem LogSettings.ofLayer?_congr (h : Alike v w) : ofLayer? v = ofLayer? w :=
  LayerValue.bind_group?_congr _ h fun hfields => by
    simp only [fieldOr_congr LayerValue.text?_congr hfields, fieldOr_congr LayerValue.bool?_congr hfields]

/-- **The order of keys has no part in a configuration.** -/
theorem Config.ofSettings?_congr (h : FieldsAlike settings others) :
    ofSettings? settings = ofSettings? others := by
  rw [ofSettings?, ofSettings?, fieldOr_congr TrieSettings.ofLayer?_congr h,
    fieldOr_congr VocabularySettings.ofLayer?_congr h, fieldOr_congr LogSettings.ofLayer?_congr h]

/-! ### Tables without a key twice -/

namespace LayerValue

variable {maxItems : Nat} {old : Option LayerValue}

theorem tidy_nil : (nil : LayerValue).Tidy := .plain trivial

theorem tidy_getD (h : ∀ o, old = some o → o.Tidy) : (old.getD .nil).Tidy := by
  cases old with
  | none => exact tidy_nil
  | some o => exact h o rfl

theorem tidy_of_mem_items {v : LayerValue} (h : v.Tidy) : ∀ item ∈ v.items, item.Tidy := by
  cases v with
  | array items => exact h.of_mem_items
  | table | nil | bool | int | float | text => exact nofun

/-- A plain value that is put somewhere brings no key twice. -/
theorem tidy_putAt {v new : LayerValue} (hv : v.IsPlain) {steps : List KeyStep}
    (hold : ∀ o, old = some o → o.Tidy) (h : v.putAt? maxItems steps old = some new) : new.Tidy := by
  induction steps generalizing old new with
  | nil =>
      cases h
      rw [laidOver_of_isPlain hv]
      exact .plain hv
  | cons step steps ih =>
      have htidy := tidy_getD hold
      cases step with
      | child name =>
          simp only [putAt?, Option.bind_eq_bind, Option.bind_eq_some_iff, Option.pure_def,
            Option.some.injEq] at h
          obtain ⟨inner, hinner, rfl⟩ := h
          have hfields := htidy.isMap_fields
          exact tidy_table (hfields.put name (ih (fun o ho => hfields.of_get? ho) hinner))
      | index n =>
          rw [putAt?_index hv] at h
          simp only [Option.bind_eq_some_iff, Option.map_eq_some_iff] at h
          obtain ⟨i, -, longer, hlonger, inner, hinner, rfl⟩ := h
          have hitems : ∀ item ∈ longer, item.Tidy := by
            rw [extended?] at hlonger
            split at hlonger
            · cases hlonger
              refine List.forall_mem_append.mpr ⟨tidy_of_mem_items htidy, fun item hitem => ?_⟩
              exact (List.mem_replicate.mp hitem).2 ▸ tidy_nil
            · cases hlonger
          have hinner := ih (fun o ho => hitems o (List.mem_of_getElem? ho)) hinner
          refine .array fun item hitem => ?_
          rcases List.mem_or_eq_of_mem_set hitem with hitem | rfl
          · exact hitems item hitem
          · exact hinner

end LayerValue

namespace Layer

variable {maxItems : Nat} {lib lib' : Libraries} {layer layer' : Layer}
  {after entries : List (String × LayerValue)}

open LayerValue (Tidy)

/-- Entries that are laid over settings bring no key twice at the top. -/
theorem nodup_keys_addKeys (h : (Fields.keys settings).Nodup)
    (hadd : addKeys? maxItems settings entries = some after) : (Fields.keys after).Nodup := by
  induction entries generalizing settings with
  | nil =>
      cases hadd
      exact h
  | cons e entries ih =>
      obtain ⟨next, hnext, hadd⟩ := addKeys?_cons_eq_some_iff.mp hadd
      obtain ⟨v, -, rfl⟩ := addKey?_eq_some_iff.mp hnext
      exact ih (Fields.nodup_keys_put h _ v) hadd

/-- Plain entries bring no key twice. -/
theorem isMap_addKeys (h : Fields.IsMap Tidy settings) (hplain : ∀ e ∈ entries, e.2.IsPlain)
    (hadd : addKeys? maxItems settings entries = some after) : Fields.IsMap Tidy after := by
  induction entries generalizing settings with
  | nil =>
      cases hadd
      exact h
  | cons e entries ih =>
      obtain ⟨he, hrest⟩ := List.forall_mem_cons.mp hplain
      obtain ⟨next, hnext, hadd⟩ := addKeys?_cons_eq_some_iff.mp hadd
      obtain ⟨v, hv, rfl⟩ := addKey?_eq_some_iff.mp hnext
      exact ih (h.put _ (LayerValue.tidy_putAt he (fun o ho => h.of_get? ho) hv)) hrest hadd

/-- The defaults have no key twice. -/
theorem isMap_default : Fields.IsMap Tidy ({} : Config).layer := by
  have hplain : ∀ fields : List (String × LayerValue), (Fields.keys fields).Nodup →
      (∀ f ∈ fields, f.2.IsPlain) → (LayerValue.table fields).Tidy :=
    fun fields hd h => .table hd fun f hf => .plain (h f hf)
  refine ⟨by decide, ?_⟩
  simp only [Config.layer, List.forall_mem_cons]
  refine ⟨hplain _ (by decide) ?trie, hplain _ (by decide) ?vocabulary, hplain _ (by decide) ?log,
    List.forall_mem_nil _⟩
  all_goals
    simp only [List.forall_mem_cons]
  case trie => exact ⟨trivial, trivial, List.forall_mem_nil _⟩
  case vocabulary => exact ⟨trivial, trivial, trivial, List.forall_mem_nil _⟩
  case log => exact ⟨trivial, trivial, trivial, List.forall_mem_nil _⟩

/-- The lowest layer gives the defaults under each key. -/
theorem exists_addTo_default_keyed (lib : Libraries) :
    ∃ settings, addTo? lib [] ({} : Config).layer = some settings ∧ Fields.IsMap Tidy settings ∧
      keyed settings = keyed ({} : Config).layer := by
  obtain ⟨settings, hadd, hget⟩ := exists_addTo_default lib
  have hnil : (Fields.keys ([] : List (String × LayerValue))).Nodup := List.nodup_nil
  have hd := nodup_keys_addKeys hnil hadd
  refine ⟨settings, hadd, ⟨hd, fun f hf => ?_⟩, congrArg Keyed.table (funext fun key => ?_)⟩
  · have hf := (hget f.1).symm.trans ((Fields.get?_eq_some_iff_mem hd).mpr hf)
    exact isMap_default.of_get? hf
  · rw [LayerValue.entryOf_eq, LayerValue.entryOf_eq, hget]

/-- **Over the defaults, plain entries whose key paths part give the same settings in any order.** -/
theorem combine?_alike (hmax : lib'.maxItems = lib.maxItems) (hperm : layer.Perm layer')
    (hparts : layer.Pairwise EntriesPart) (hplain : ∀ e ∈ layer, e.2.IsPlain) :
    Option.Rel FieldsAlike (combine? lib [({} : Config).layer, [], layer])
      (combine? lib' [({} : Config).layer, [], layer']) := by
  obtain ⟨base, hbase, hmap, hdefault⟩ := exists_addTo_default_keyed lib
  obtain ⟨base', hbase', hmap', hdefault'⟩ := exists_addTo_default_keyed lib'
  rw [combine?_of_nothing hbase, combine?_of_nothing hbase', addTo?, addTo?, hmax]
  -- both libraries give out the same entries
  have horder := lib.order_perm layer
  have horders : (lib.order layer).Perm (lib'.order layer') :=
    horder.trans (hperm.trans (lib'.order_perm layer').symm)
  have hparts : (lib.order layer).Pairwise EntriesPart :=
    (horder.pairwise_iff EntriesPart.symm).mpr hparts
  have hplain : ∀ e ∈ lib.order layer, e.2.IsPlain := fun e he => hplain e (horder.mem_iff.mp he)
  have hplain' : ∀ e ∈ lib'.order layer', e.2.IsPlain := fun e he => hplain e (horders.mem_iff.mpr he)
  have hkeyed : (addKeys? lib.maxItems base (lib.order layer)).map keyed =
      (addKeys? lib.maxItems base' (lib'.order layer')).map keyed :=
    keyed_addKeys_perm horders hparts hplain (hdefault.trans hdefault'.symm)
  cases hleft : addKeys? lib.maxItems base (lib.order layer) with
  | none =>
      rw [hleft] at hkeyed
      rw [Option.map_eq_none_iff.mp hkeyed.symm]
      exact .none
  | some settings =>
      rw [hleft] at hkeyed
      obtain ⟨others, hright, heq⟩ := Option.map_eq_some_iff.mp hkeyed.symm
      rw [hright]
      exact .some (LayerValue.fieldsAlike_of_entryOf (isMap_addKeys hmap hplain hleft)
        (isMap_addKeys hmap' hplain' hright) (Keyed.table.inj heq.symm))

end Layer

/-! ### Variables -/

namespace Environment

/-- The entries that variables make, one for each that counts. -/
def entries (start : String) (env : Environment) : List (String × LayerValue) :=
  env.filterMap fun v => (key? start v.1).map fun key => (key, value v.2)

/-- The key paths that variables name part. -/
def KeysPart (start : String) (env : Environment) : Prop :=
  (entries start env).Pairwise Layer.EntriesPart

variable {start : String} {env env' : Environment}

/-- No variable makes a table or an array by its value. -/
theorem isPlain_of_mem_entries : ∀ e ∈ entries start env, e.2.IsPlain := by
  intro e he
  obtain ⟨v, -, hv⟩ := List.mem_filterMap.mp he
  obtain ⟨key, -, rfl⟩ := Option.map_eq_some_iff.mp hv
  exact isPlain_value v.2

theorem layer_eq_foldl_entries (start : String) (env : Environment) :
    layer start env = (entries start env).foldl (fun layer (key, v) => Fields.put key v layer) [] := by
  rw [entries, List.foldl_filterMap, layer]
  refine congrArg (fun step => env.foldl step []) (funext fun layer => funext fun (name, s) => ?_)
  cases hkey : key? start name with
  | none => simp only [hkey, Option.map_none]
  | some key => simp only [hkey, Option.map_some]

/-- Variables whose key paths part make an entry each. -/
theorem KeysPart.layer_eq (h : KeysPart start env) : layer start env = entries start env := by
  have hd : (Fields.keys (entries start env)).Nodup :=
    List.pairwise_map.mpr (h.imp Layer.EntriesPart.key_ne)
  exact (layer_eq_foldl_entries start env).trans (Fields.foldl_put [] hd)

/-- The order of variables has no part in whether they part. -/
theorem KeysPart.perm (h : KeysPart start env) (hperm : env.Perm env') : KeysPart start env' :=
  ((hperm.filterMap _).pairwise_iff Layer.EntriesPart.symm).mp h

end Environment

/-- A failure without what the reader of settings said, which may say it of any of several values. -/
def LoadFailure.withoutDetail : LoadFailure → LoadFailure
  | .refused (.unreadable _) => .refused (.unreadable "")
  | e => e

namespace ConfigLoader

variable {lib lib' : Libraries} {l : ConfigLoader} {env env' : Environment}

/-- Alike settings settle to the same configuration. -/
theorem settle_congr {layers layers' : List Layer}
    (h : Option.Rel FieldsAlike (Layer.combine? lib layers) (Layer.combine? lib' layers')) :
    (settle lib layers).mapError LoadFailure.withoutDetail =
      (settle lib' layers').mapError LoadFailure.withoutDetail := by
  rw [settle, settle]
  generalize Layer.combine? lib layers = x at h
  generalize Layer.combine? lib' layers' = y at h
  cases h with
  | none => rfl
  | @some settings others hfields =>
      simp only [Config.ofSettings?_congr hfields]
      cases Config.ofSettings? others with
      | none => rfl
      | some c => rfl

/-- **Variables whose key paths part are loaded in any order**, with the same outcome but for what a reader
says of settings that it refuses. -/
theorem load_in_any_order (hnone : l.path = none) (hmax : lib'.maxItems = lib.maxItems)
    (hparts : Environment.KeysPart l.envName env) (hperm : env.Perm env') (files files' : FileTree) :
    (l.load lib files env).value.mapError LoadFailure.withoutDetail =
      (l.load lib' files' env').value.mapError LoadFailure.withoutDetail := by
  rw [value_load, value_load, resolve_of_layers (layers_of_none hnone),
    resolve_of_layers (layers_of_none hnone), hparts.layer_eq, (hparts.perm hperm).layer_eq]
  exact settle_congr (Layer.combine?_alike hmax (hperm.filterMap _) hparts
    Environment.isPlain_of_mem_entries)

end ConfigLoader

end PrefixMatch
