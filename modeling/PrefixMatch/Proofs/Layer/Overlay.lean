import PrefixMatch.Layer.Overlay
import PrefixMatch.Proofs.Fields

/-!
# Layer — what laying over changes

An entry of a layer changes the setting that its key path starts with, and no other one
(`get?_addKey_of_ne`).  A layer in which a name is used by itself at most, and by one entry, changes
the setting of that name as this entry says (`get?_addTo`); a table is laid over a table field by field
(`get?_overFields`).  A layer that says nothing new changes nothing (`addTo?_of_has`).

There is a result unless a key path leads outside an array, so there is always one for paths whose indices
count from the start and stay small (`exists_addTo_of_fits`).
-/

namespace PrefixMatch

namespace LayerValue

/-! ### Tables -/

/-- Neither a table nor an array. -/
def IsPlain : LayerValue → Prop
  | .table _ => False
  | .array _ => False
  | _ => True

/-- What is no table takes the place of whatever was there. -/
theorem laidOver_of_isPlain {v : LayerValue} (hv : v.IsPlain) (old : Option LayerValue) :
    laidOver old v = v := by
  cases v with
  | table => exact hv.elim
  | array | nil | bool | int | float | text => rfl

theorem overField_table (old : List (String × LayerValue)) (key : String) (v : LayerValue) :
    overField (.table old) (key, v) = .table (Fields.put key (laidOver (Fields.get? key old) v) old) :=
  rfl

/-- A table of one field takes the place of what has no fields. -/
theorem laidOver_single {old : LayerValue} (h : old.fields = []) (key : String) (v : LayerValue) :
    laidOver (some old) (.table [(key, v)]) = .table [(key, laidOver none v)] := by
  simp only [laidOver, Option.getD_some, overFields, overField, h, Fields.get?, Fields.put]

/-- **A table is laid over a table field by field.** -/
theorem get?_overFields {fields : List (String × LayerValue)} (hd : (Fields.keys fields).Nodup)
    (old : List (String × LayerValue)) :
    ∃ new, overFields (.table old) fields = .table new ∧
      ∀ key, Fields.get? key new =
        match Fields.get? key fields with
        | none => Fields.get? key old
        | some v => some (laidOver (Fields.get? key old) v) := by
  induction fields generalizing old with
  | nil => exact ⟨old, rfl, fun _ => rfl⟩
  | cons f fields ih =>
      obtain ⟨k, v⟩ := f
      obtain ⟨hk, hrest⟩ := List.nodup_cons.mp hd
      obtain ⟨new, hnew, hget⟩ := ih hrest (Fields.put k (laidOver (Fields.get? k old) v) old)
      refine ⟨new, by rw [overFields, overField_table, hnew], fun key => ?_⟩
      by_cases h : k = key
      · -- the key does not come again, so its value stays
        subst h
        have hlast : Fields.get? k fields = none := (Fields.get?_eq_none_iff fields).mpr hk
        simp only [hget, hlast, Fields.get?_put_self, Fields.get?, if_true]
      · simp only [hget, Fields.get?_put_of_ne (Ne.symm h), Fields.get?, if_neg h]

/-- Fields that a table has already are laid over it without a change. -/
theorem overFields_of_present {old fields : List (String × LayerValue)}
    (h : ∀ f ∈ fields, f.2.IsPlain ∧ Fields.get? f.1 old = some f.2) :
    overFields (.table old) fields = .table old := by
  induction fields with
  | nil => rfl
  | cons f fields ih =>
      obtain ⟨hplain, hget⟩ := h f List.mem_cons_self
      rw [overFields, overField_table, laidOver_of_isPlain hplain, Fields.put_of_get? hget]
      exact ih fun g hg => h g (List.mem_cons_of_mem f hg)

end LayerValue

/-! ### Steps that lead somewhere -/

/-- A step leads somewhere whatever there was before: an index counts from the start, and no array grows too
large for it. -/
def KeyStep.Fits (maxItems : Nat) : KeyStep → Prop
  | .child _ => True
  | .index n => 0 ≤ n ∧ n.toNat < maxItems

instance (maxItems : Nat) : DecidablePred (KeyStep.Fits maxItems)
  | .child _ => inferInstanceAs (Decidable True)
  | .index n => inferInstanceAs (Decidable (0 ≤ n ∧ n.toNat < maxItems))

/-- No key path of a layer leads outside an array. -/
def Layer.Fits (maxItems : Nat) (layer : Layer) : Prop :=
  ∀ key ∈ Fields.keys layer, ∀ step ∈ (KeyPath.ofKey key).steps, step.Fits maxItems

instance (maxItems : Nat) (layer : Layer) : Decidable (layer.Fits maxItems) :=
  inferInstanceAs (Decidable (∀ key ∈ Fields.keys layer, ∀ step ∈ (KeyPath.ofKey key).steps,
    step.Fits maxItems))

/-- Keys that are no paths lead nowhere. -/
theorem Layer.fits_of_bare {maxItems : Nat} {layer : Layer}
    (h : ∀ key ∈ Fields.keys layer, (KeyPath.ofKey key).steps = []) : layer.Fits maxItems := by
  intro key hkey step hstep
  rw [h key hkey] at hstep
  cases hstep

/-- A layer of nothing has no keys. -/
theorem Layer.fits_nil (maxItems : Nat) : Layer.Fits maxItems [] :=
  fun _ hkey => absurd hkey List.not_mem_nil

namespace LayerValue

variable {maxItems : Nat}

theorem exists_extended_of_lt {i : Nat} (h : i < maxItems) (items : List LayerValue) :
    ∃ longer, extended? maxItems items i = some longer :=
  ⟨_, if_pos (.inr h)⟩

theorem exists_putAt_of_fits (v : LayerValue) {steps : List KeyStep}
    (h : ∀ step ∈ steps, step.Fits maxItems) (old : Option LayerValue) :
    ∃ new, v.putAt? maxItems steps old = some new := by
  induction steps generalizing old with
  | nil => exact ⟨_, rfl⟩
  | cons step steps ih =>
      obtain ⟨hstep, hsteps⟩ := List.forall_mem_cons.mp h
      cases step with
      | child name =>
          obtain ⟨inner, hinner⟩ := ih hsteps (Fields.get? name (old.getD .nil).fields)
          exact ⟨_, by rw [putAt?, hinner]; rfl⟩
      | index n =>
          have hposition : position? (old.getD .nil).items.length n = some n.toNat := if_pos hstep.1
          obtain ⟨longer, hlonger⟩ := exists_extended_of_lt hstep.2 (old.getD .nil).items
          simp only [putAt?, hposition, hlonger, Option.bind_eq_bind, Option.bind_some]
          split
          · exact ⟨_, rfl⟩
          · obtain ⟨inner, hinner⟩ := ih hsteps longer[n.toNat]?
            exact ⟨_, by rw [hinner]; rfl⟩

end LayerValue

namespace Layer

variable {maxItems : Nat} {lib : Libraries} {settings after : List (String × LayerValue)} {layer : Layer}
  {e : String × LayerValue} {name : String}

/-! ### Entries -/

theorem addKey?_eq_some_iff :
    addKey? maxItems settings e = some after ↔
      ∃ v, e.2.putAt? maxItems (KeyPath.ofKey e.1).steps
          (Fields.get? (KeyPath.ofKey e.1).name settings) = some v ∧
        Fields.put (KeyPath.ofKey e.1).name v settings = after := by
  simp only [addKey?, Option.bind_eq_bind, Option.bind_eq_some_iff, Option.pure_def, Option.some.injEq]

theorem get?_addKey_of_ne (hadd : addKey? maxItems settings e = some after)
    (h : (KeyPath.ofKey e.1).name ≠ name) : Fields.get? name after = Fields.get? name settings := by
  obtain ⟨v, -, rfl⟩ := addKey?_eq_some_iff.mp hadd
  exact Fields.get?_put_of_ne (Ne.symm h) _ _

/-- A key that is no path is laid over the setting of its name. -/
theorem addKey?_of_bare (h : KeyPath.ofKey name = ⟨name, []⟩) (v : LayerValue) :
    addKey? maxItems settings (name, v) =
      some (Fields.put name (LayerValue.laidOver (Fields.get? name settings) v) settings) :=
  addKey?_eq_some_iff.mpr ⟨_, by rw [h]; rfl, by rw [h]⟩

/-- There is nothing before the start of an array that is not there yet. -/
theorem addKey?_of_before_start {n : Int} {steps : List KeyStep}
    (hpath : KeyPath.ofKey e.1 = ⟨name, .index n :: steps⟩) (hn : n < 0)
    (hnew : Fields.get? name settings = none) : addKey? maxItems settings e = none := by
  have hposition : LayerValue.position? 0 n = none := by
    rw [LayerValue.position?, if_neg (by omega), if_neg (by omega)]
  simp only [addKey?, hpath, hnew, LayerValue.putAt?, Option.getD_none, LayerValue.items, List.length_nil,
    hposition, Option.bind_eq_bind, Option.bind_none]

theorem addKeys?_cons_eq_some_iff {entries : List (String × LayerValue)} :
    addKeys? maxItems settings (e :: entries) = some after ↔
      ∃ next, addKey? maxItems settings e = some next ∧ addKeys? maxItems next entries = some after := by
  simp only [addKeys?, List.foldlM_cons, Option.bind_eq_bind, Option.bind_eq_some_iff]

/-! ### Layers -/

/-- Entries without key paths that start with a name leave the setting of that name as it is. -/
theorem get?_addKeys_of_apart {entries : List (String × LayerValue)}
    (hadd : addKeys? maxItems settings entries = some after)
    (h : ∀ key ∈ Fields.keys entries, (KeyPath.ofKey key).name ≠ name) :
    Fields.get? name after = Fields.get? name settings := by
  induction entries generalizing settings with
  | nil =>
      cases hadd
      rfl
  | cons e entries ih =>
      obtain ⟨next, hnext, hadd⟩ := addKeys?_cons_eq_some_iff.mp hadd
      have hfirst := get?_addKey_of_ne hnext (h e.1 List.mem_cons_self)
      exact (ih hadd fun key hkey => h key (List.mem_cons_of_mem _ hkey)).trans hfirst

theorem get?_addTo_of_apart (hadd : addTo? lib settings layer = some after)
    (h : ∀ key ∈ Fields.keys layer, (KeyPath.ofKey key).name ≠ name) :
    Fields.get? name after = Fields.get? name settings :=
  get?_addKeys_of_apart hadd fun key hkey => h key (((lib.order_perm layer).map Prod.fst).mem_iff.mp hkey)

/-- What entries have under a name is laid over the setting of that name, when no key path among them goes on
from the name. -/
theorem get?_addKeys {entries : List (String × LayerValue)}
    (hadd : addKeys? maxItems settings entries = some after) (hname : KeyPath.ofKey name = ⟨name, []⟩)
    (hd : (Fields.keys entries).Nodup)
    (h : ∀ key ∈ Fields.keys entries, (KeyPath.ofKey key).name = name → key = name) :
    Fields.get? name after =
      match Fields.get? name entries with
      | none => Fields.get? name settings
      | some v => some (LayerValue.laidOver (Fields.get? name settings) v) := by
  induction entries generalizing settings with
  | nil =>
      cases hadd
      rfl
  | cons e entries ih =>
      obtain ⟨key, v⟩ := e
      obtain ⟨hkey, hrest⟩ := List.nodup_cons.mp hd
      obtain ⟨next, hnext, hadd⟩ := addKeys?_cons_eq_some_iff.mp hadd
      have htail : ∀ k ∈ Fields.keys entries, (KeyPath.ofKey k).name = name → k = name :=
        fun k hk => h k (List.mem_cons_of_mem _ hk)
      by_cases hk : key = name
      · -- the entries behind this one keep away from the name
        subst hk
        have hapart : ∀ k ∈ Fields.keys entries, (KeyPath.ofKey k).name ≠ key := fun k hk hn =>
          hkey (htail k hk hn ▸ hk)
        rw [addKey?_of_bare hname] at hnext
        cases hnext
        refine (get?_addKeys_of_apart hadd hapart).trans ?_
        simp only [Fields.get?_put_self, Fields.get?, if_true]
      · have hne : (KeyPath.ofKey key).name ≠ name := fun hn => hk (h key List.mem_cons_self hn)
        refine (ih hadd hrest htail).trans ?_
        simp only [get?_addKey_of_ne hnext hne, Fields.get?, if_neg hk]

/-- **What a layer has under a name is laid over the setting of that name**, when no key path of the layer
goes on from the name. -/
theorem get?_addTo (hadd : addTo? lib settings layer = some after)
    (hname : KeyPath.ofKey name = ⟨name, []⟩) (hd : (Fields.keys layer).Nodup)
    (h : ∀ key ∈ Fields.keys layer, (KeyPath.ofKey key).name = name → key = name) :
    Fields.get? name after =
      match Fields.get? name layer with
      | none => Fields.get? name settings
      | some v => some (LayerValue.laidOver (Fields.get? name settings) v) := by
  have hperm := lib.order_perm layer
  have hkeys : (Fields.keys (lib.order layer)).Perm (Fields.keys layer) := hperm.map Prod.fst
  rw [get?_addKeys hadd hname (hkeys.nodup_iff.mpr hd) fun key hkey => h key (hkeys.mem_iff.mp hkey),
    ← Fields.get?_perm hperm.symm hd]

theorem exists_addKeys_of_fits {entries : List (String × LayerValue)} (h : Fits maxItems entries)
    (settings : List (String × LayerValue)) : ∃ after, addKeys? maxItems settings entries = some after := by
  induction entries generalizing settings with
  | nil => exact ⟨settings, rfl⟩
  | cons e entries ih =>
      obtain ⟨v, hv⟩ := e.2.exists_putAt_of_fits (h e.1 List.mem_cons_self)
        (Fields.get? (KeyPath.ofKey e.1).name settings)
      obtain ⟨after, hafter⟩ := ih (fun key hkey => h key (List.mem_cons_of_mem _ hkey))
        (Fields.put (KeyPath.ofKey e.1).name v settings)
      exact ⟨after, addKeys?_cons_eq_some_iff.mpr ⟨_, addKey?_eq_some_iff.mpr ⟨v, hv, rfl⟩, hafter⟩⟩

/-- **A layer whose key paths lead nowhere outside an array can be laid over anything.** -/
theorem exists_addTo_of_fits (h : layer.Fits lib.maxItems) (settings : List (String × LayerValue)) :
    ∃ after, addTo? lib settings layer = some after :=
  exists_addKeys_of_fits
    (fun key hkey => h key (((lib.order_perm layer).map Prod.fst).mem_iff.mp hkey)) settings

/-! ### Layers that change nothing -/

/-- Settings have an entry already when it is a table, of plain values that they hold in their table of this
name. -/
structure Has (settings : List (String × LayerValue)) (e : String × LayerValue) : Prop where
  bare : KeyPath.ofKey e.1 = ⟨e.1, []⟩
  present : ∃ fields old, e.2 = .table fields ∧ Fields.get? e.1 settings = some (.table old) ∧
    ∀ f ∈ fields, f.2.IsPlain ∧ Fields.get? f.1 old = some f.2

theorem addKey?_of_has (h : Has settings e) : addKey? maxItems settings e = some settings := by
  obtain ⟨hbare, fields, old, hfields, hold, hpresent⟩ := h
  rw [addKey?_of_bare hbare, hfields, hold, LayerValue.laidOver, Option.getD_some,
    LayerValue.overFields_of_present hpresent, Fields.put_of_get? hold]

theorem addKeys?_of_has {entries : List (String × LayerValue)} (h : ∀ e ∈ entries, Has settings e) :
    addKeys? maxItems settings entries = some settings := by
  induction entries with
  | nil => rfl
  | cons e entries ih =>
      obtain ⟨hfirst, hrest⟩ := List.forall_mem_cons.mp h
      exact addKeys?_cons_eq_some_iff.mpr ⟨settings, addKey?_of_has hfirst, ih hrest⟩

/-- **A layer of entries that the settings have already changes nothing.** -/
theorem addTo?_of_has (h : ∀ e ∈ layer, Has settings e) : addTo? lib settings layer = some settings :=
  addKeys?_of_has fun e he => h e ((lib.order_perm layer).mem_iff.mp he)

end Layer

end PrefixMatch
