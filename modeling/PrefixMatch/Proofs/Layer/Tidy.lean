import PrefixMatch.Layer.File
import PrefixMatch.Proofs.Json.Object
import PrefixMatch.Proofs.Layer.Overlay

/-!
# Layer — tables as maps

No table of a layer has a key twice, at any depth (`LayerValue.Tidy`): the readers of JSON and of YAML
write the entries of a table one by one (`Json.tidy_of_value`, `LayerValue.tidy_of_ofYaml?`).
-/

namespace PrefixMatch

namespace LayerValue

/-- No table of the value has a key twice. -/
inductive Tidy : LayerValue → Prop
  | plain {v : LayerValue} (h : v.IsPlain) : Tidy v
  | array {items : List LayerValue} (h : ∀ v ∈ items, Tidy v) : Tidy (.array items)
  | table {fields : List (String × LayerValue)} (hd : (Fields.keys fields).Nodup)
      (h : ∀ f ∈ fields, Tidy f.2) : Tidy (.table fields)

theorem tidy_table {fields : List (String × LayerValue)} (h : Fields.IsMap Tidy fields) :
    (table fields).Tidy :=
  .table h.nodup h.values

/-- The fields of a table, and the none of anything else, are a map. -/
theorem Tidy.isMap_fields {v : LayerValue} (h : v.Tidy) : Fields.IsMap Tidy v.fields := by
  cases h with
  | plain h =>
      cases v with
      | table | array => exact h.elim
      | nil | bool | int | float | text => exact Fields.isMap_nil
  | array => exact Fields.isMap_nil
  | table hd h => exact ⟨hd, h⟩

end LayerValue

/-! ### JSON -/

namespace Json

open LayerValue (Tidy ofJson ofJsonItems ofJsonMembers ofJsonMember)

theorem ofJsonItems_eq_map (items : List Json) : ofJsonItems items = items.map ofJson := by
  induction items with
  | nil => rfl
  | cons j js ih => rw [ofJsonItems, ih, List.map_cons]

theorem ofJsonMembers_eq_map (members : List (String × Json)) :
    ofJsonMembers members = members.map fun m => (m.1, ofJson m.2) := by
  induction members with
  | nil => rfl
  | cons m ms ih => rw [ofJsonMembers, ih, List.map_cons, ofJsonMember]

/-- What is read as a scalar is neither an array nor a table. -/
theorem isPlain_of_scalar {cs rest : List Char} {j : Json} (h : scalar cs = some (j, rest)) :
    (ofJson j).IsPlain := by
  obtain ⟨harray, hobject⟩ := not_nested_of_scalar h
  cases j with
  | array items => exact absurd rfl (harray items)
  | object members => exact absurd rfl (hobject members)
  | int n =>
      rw [ofJson]
      split <;> trivial
  | null | bool | float | text => trivial

/-- What holds of every item that is read holds of all items of a list. -/
theorem forall_mem_of_separated {α : Type} {item : List Char → Option (α × List Char)} {P : α → Prop}
    (hitem : ∀ cs a rest, item cs = some (a, rest) → P a) {close : Char} {fuel : Nat}
    {cs rest : List Char} {as : List α} (h : separated item close fuel cs = some (as, rest)) :
    ∀ a ∈ as, P a := by
  induction fuel generalizing cs as rest with
  | zero => cases h
  | succ fuel ih =>
      simp only [separated, Option.bind_eq_bind, Option.bind_eq_some_iff] at h
      obtain ⟨⟨a, rest₁⟩, ha, h⟩ := h
      have hfirst : P a := hitem _ a rest₁ ha
      split at h
      · split at h
        · obtain ⟨⟨as', rest₂⟩, has, heq⟩ := Option.bind_eq_some_iff.mp h
          cases heq
          exact List.forall_mem_cons.mpr ⟨hfirst, ih has⟩
        · split at h
          · cases h
            exact List.forall_mem_singleton.mpr hfirst
          · cases h
      · cases h

/-- And of all items between brackets, of which there may be none. -/
theorem forall_mem_of_enclosed {α : Type} {item : List Char → Option (α × List Char)} {P : α → Prop}
    (hitem : ∀ cs a rest, item cs = some (a, rest) → P a) {close : Char} {cs rest : List Char}
    {as : List α} (h : enclosed item close cs = some (as, rest)) : ∀ a ∈ as, P a := by
  unfold enclosed at h
  split at h
  · split at h
    · cases h
      exact fun a ha => absurd ha List.not_mem_nil
    · exact forall_mem_of_separated hitem h
  · cases h

/-- The value of a member is read like any other. -/
theorem value_of_member {value : List Char → Option (Json × List Char)} {P : Json → Prop}
    (hvalue : ∀ cs j rest, value cs = some (j, rest) → P j) (cs : List Char) (m : String × Json)
    (rest : List Char) (h : member value cs = some (m, rest)) : P m.2 := by
  unfold member at h
  split at h
  · obtain ⟨⟨key, rest₁⟩, -, h⟩ := Option.bind_eq_some_iff.mp h
    simp only at h
    split at h
    · obtain ⟨⟨j, rest₂⟩, hj, heq⟩ := Option.bind_eq_some_iff.mp h
      cases heq
      exact hvalue _ j rest₂ hj
    · cases h
  · cases h

/-- **A JSON value that is read has no key twice.** -/
theorem tidy_of_value {depth : Nat} {cs rest : List Char} {j : Json}
    (h : value depth cs = some (j, rest)) : (ofJson j).Tidy := by
  induction depth generalizing cs j rest with
  | zero => exact .plain (isPlain_of_scalar h)
  | succ depth ih =>
      rw [value.eq_def] at h
      simp only at h
      split at h
      · obtain ⟨⟨items, rest₁⟩, hitems, heq⟩ := Option.map_eq_some_iff.mp h
        cases heq
        rw [ofJson, ofJsonItems_eq_map]
        exact .array (List.forall_mem_map.mpr (forall_mem_of_enclosed (fun _ _ _ hj => ih hj) hitems))
      · obtain ⟨⟨members, rest₁⟩, hmembers, heq⟩ := Option.map_eq_some_iff.mp h
        cases heq
        have htidy : ∀ m ∈ members, (ofJson m.2).Tidy :=
          forall_mem_of_enclosed (P := fun m => (ofJson m.2).Tidy)
            (value_of_member (P := fun j => (ofJson j).Tidy) fun _ _ _ hj => ih hj) hmembers
        -- members are written one by one, and of several with one key the last one stays
        rw [ofJson, ofJsonMembers_eq_map]
        exact LayerValue.tidy_table (Fields.isMap_map.mpr (Fields.isMap_nil.foldl_put htidy))
      · exact .plain (isPlain_of_scalar h)

theorem tidy_of_read? {cs : List Char} {j : Json} (h : read? cs = some j) : (ofJson j).Tidy := by
  simp only [read?, Option.bind_eq_bind, Option.bind_eq_some_iff] at h
  obtain ⟨⟨i, rest⟩, hvalue, h⟩ := h
  split at h
  · cases h
    exact tidy_of_value hvalue
  · cases h

end Json

/-! ### YAML -/

namespace LayerValue

mutual

/-- **A YAML value has no key twice.** -/
theorem tidy_of_ofYaml? : ∀ {n : Yaml.Node} {v : LayerValue}, ofYaml? n = some v → v.Tidy
  | .null, _, h => by cases h; exact .plain trivial
  | .bool _, _, h => by cases h; exact .plain trivial
  | .int _, _, h => by cases h; exact .plain trivial
  | .text _, _, h => by cases h; exact .plain trivial
  | .invalid, _, h => by cases h; exact .plain trivial
  | .real _, _, h => by
      rw [ofYaml?] at h
      obtain ⟨_, -, rfl⟩ := Option.map_eq_some_iff.mp h
      exact .plain trivial
  | .array _, _, h => by
      rw [ofYaml?] at h
      obtain ⟨_, hitems, rfl⟩ := Option.map_eq_some_iff.mp h
      exact .array (tidy_of_ofYamlItems? hitems)
  | .table _, _, h => by
      rw [ofYaml?] at h
      obtain ⟨_, hfields, rfl⟩ := Option.map_eq_some_iff.mp h
      exact tidy_table (isMap_of_ofYamlEntries? hfields Fields.isMap_nil)

/-- The items of a sequence, one by one. -/
theorem tidy_of_ofYamlItems? : ∀ {ns : List Yaml.Node} {vs : List LayerValue},
    ofYamlItems? ns = some vs → ∀ v ∈ vs, v.Tidy
  | [], _, h => by cases h; exact fun _ hv => absurd hv List.not_mem_nil
  | _ :: _, _, h => by
      simp only [ofYamlItems?, Option.bind_eq_bind, Option.bind_eq_some_iff, Option.pure_def,
        Option.some.injEq] at h
      obtain ⟨v, hv, vs, hvs, rfl⟩ := h
      exact List.forall_mem_cons.mpr ⟨tidy_of_ofYaml? hv, tidy_of_ofYamlItems? hvs⟩

/-- The entries of a mapping are written one by one over those before them. -/
theorem isMap_of_ofYamlEntries? : ∀ {es : List (Yaml.Key × Yaml.Node)}
    {before fields : List (String × LayerValue)}, ofYamlEntries? es before = some fields →
    Fields.IsMap Tidy before → Fields.IsMap Tidy fields
  | [], _, _, h, hb => by cases h; exact hb
  | _ :: _, _, _, h, hb => by
      simp only [ofYamlEntries?, Option.bind_eq_bind, Option.bind_eq_some_iff] at h
      obtain ⟨⟨key, v⟩, hv, h⟩ := h
      exact isMap_of_ofYamlEntries? h (hb.put key (tidy_of_yamlEntry hv))

theorem tidy_of_yamlEntry : ∀ {e : Yaml.Key × Yaml.Node} {f : String × LayerValue},
    ofYamlEntry? e = some f → f.2.Tidy
  | (.text _, _), _, h => by
      obtain ⟨v, hv, rfl⟩ := Option.map_eq_some_iff.mp h
      exact tidy_of_ofYaml? hv
  | (.int _, _), _, h => by
      obtain ⟨v, hv, rfl⟩ := Option.map_eq_some_iff.mp h
      exact tidy_of_ofYaml? hv

end

end LayerValue

/-- The layer of a YAML text is that of its only document, or empty. -/
theorem Layer.isMap_of_ofYaml? {cs : List Char} {layer : Layer} (h : ofYaml? cs = some layer) :
    Fields.IsMap LayerValue.Tidy layer := by
  simp only [ofYaml?, Option.bind_eq_bind, Option.bind_eq_some_iff] at h
  obtain ⟨documents, -, h⟩ := h
  split at h
  · cases h
    exact Fields.isMap_nil
  · obtain ⟨v, hv, heq⟩ := Option.bind_eq_some_iff.mp h
    cases heq
    exact (LayerValue.tidy_of_ofYaml? hv).isMap_fields
  · cases h

end PrefixMatch
