import Mathlib.Data.List.Nodup
import PrefixMatch.Fields

/-!
# Fields — tables as maps

A table whose keys are distinct is a finite map.  Writing a key keeps the keys distinct
(`nodup_keys_put`), a new key comes last (`put_of_not_mem`), and writing distinct keys in turn lists them
in order (`foldl_put`).  `IsMap P fields` says of such a map that all its values have a property.
-/

namespace PrefixMatch.Fields

variable {α : Type}

theorem get?_eq_none_iff {key : String} (fields : List (String × α)) :
    get? key fields = none ↔ key ∉ keys fields := by
  induction fields with
  | nil => simp [get?, keys]
  | cons field rest ih =>
      obtain ⟨k, v⟩ := field
      by_cases h : k = key
      · simp [get?, keys, h]
      · simp only [get?, if_neg h, ih, keys, List.map_cons, List.mem_cons, not_or]
        exact (and_iff_right (Ne.symm h)).symm

theorem mem_of_get?_eq_some {key : String} {v : α} {fields : List (String × α)}
    (h : get? key fields = some v) : (key, v) ∈ fields := by
  induction fields with
  | nil => cases h
  | cons field rest ih =>
      obtain ⟨k, w⟩ := field
      by_cases hk : k = key
      · rw [get?, if_pos hk] at h
        cases h
        rw [hk]
        exact List.mem_cons_self
      · rw [get?, if_neg hk] at h
        exact List.mem_cons_of_mem _ (ih h)

/-- With distinct keys a table has the value of a key in one place only. -/
theorem get?_eq_some_iff_mem {key : String} {v : α} {fields : List (String × α)} (hd : (keys fields).Nodup) :
    get? key fields = some v ↔ (key, v) ∈ fields := by
  refine ⟨mem_of_get?_eq_some, fun hmem => ?_⟩
  induction fields with
  | nil => cases hmem
  | cons field rest ih =>
      obtain ⟨k, w⟩ := field
      obtain ⟨hk, hrest⟩ := List.nodup_cons.mp hd
      rcases List.mem_cons.mp hmem with heq | hmem
      · cases heq
        exact if_pos rfl
      · have hne : k ≠ key := fun h => hk (List.mem_map.mpr ⟨(key, v), hmem, h.symm⟩)
        rw [get?, if_neg hne, ih hrest hmem]

/-- **The order of distinct keys has no part in their values.** -/
theorem get?_perm {fields others : List (String × α)} (h : fields.Perm others) (hd : (keys fields).Nodup)
    (key : String) : get? key fields = get? key others := by
  refine Option.ext fun v => ?_
  rw [get?_eq_some_iff_mem hd, get?_eq_some_iff_mem ((h.map Prod.fst).nodup_iff.mp hd), h.mem_iff]

/-- A new key comes last. -/
theorem put_of_not_mem {key : String} {fields : List (String × α)} (h : key ∉ keys fields) (v : α) :
    put key v fields = fields ++ [(key, v)] := by
  induction fields with
  | nil => rfl
  | cons field rest ih =>
      obtain ⟨k, w⟩ := field
      simp only [keys, List.map_cons, List.mem_cons, not_or] at h
      rw [put, if_neg (Ne.symm h.1), ih h.2, List.cons_append]

/-- Writing what is there already changes nothing. -/
theorem put_of_get? {key : String} {value : α} {fields : List (String × α)}
    (h : get? key fields = some value) : put key value fields = fields := by
  induction fields with
  | nil => cases h
  | cons field rest ih =>
      obtain ⟨k, v⟩ := field
      by_cases hk : k = key
      · subst hk
        simp only [get?, if_true, Option.some.injEq] at h
        simp [put, h]
      · simp only [get?, if_neg hk] at h
        simp [put, hk, ih h]

theorem mem_keys_put {key other : String} (v : α) (fields : List (String × α)) :
    other ∈ keys (put key v fields) ↔ other = key ∨ other ∈ keys fields := by
  rw [← not_iff_not, not_or, ← get?_eq_none_iff, ← get?_eq_none_iff]
  by_cases h : other = key
  · subst h; simp
  · simp [get?_put_of_ne h, h]

/-- A written table has no other fields than before and the one written. -/
theorem mem_put {key : String} {v : α} {fields : List (String × α)} {f : String × α}
    (h : f ∈ put key v fields) : f = (key, v) ∨ f ∈ fields := by
  induction fields with
  | nil => exact .inl (List.mem_singleton.mp h)
  | cons field rest ih =>
      obtain ⟨k, w⟩ := field
      rw [put] at h
      split at h
      · next hk =>
        rcases List.mem_cons.mp h with rfl | h
        · exact .inl (by rw [hk])
        · exact .inr (List.mem_cons_of_mem _ h)
      · rcases List.mem_cons.mp h with rfl | h
        · exact .inr List.mem_cons_self
        · exact (ih h).imp_right (List.mem_cons_of_mem _)

/-- **Writing a key keeps the keys distinct.** -/
theorem nodup_keys_put {fields : List (String × α)} (h : (keys fields).Nodup) (key : String) (v : α) :
    (keys (put key v fields)).Nodup := by
  induction fields with
  | nil => exact List.nodup_singleton key
  | cons field rest ih =>
      obtain ⟨k, w⟩ := field
      obtain ⟨hk, hr⟩ := List.nodup_cons.mp h
      by_cases hkey : k = key
      · rw [put, if_pos hkey]; exact h
      · rw [put, if_neg hkey]
        refine List.nodup_cons.mpr ⟨fun hmem => ?_, ih hr⟩
        rcases (mem_keys_put v rest).mp hmem with he | hmem
        · exact hkey he
        · exact hk hmem

/-- **Distinct keys that are written in turn stand in order.** -/
theorem foldl_put {fields : List (String × α)} (table : List (String × α))
    (h : (keys (table ++ fields)).Nodup) :
    fields.foldl (fun table (key, v) => put key v table) table = table ++ fields := by
  induction fields generalizing table with
  | nil => rw [List.foldl_nil, List.append_nil]
  | cons field rest ih =>
      obtain ⟨key, v⟩ := field
      have happ : table ++ (key, v) :: rest = (table ++ [(key, v)]) ++ rest := by simp
      rw [happ] at h
      have hnew : key ∉ keys table := by
        intro hmem
        simp only [keys, List.map_append, List.map_cons, List.map_nil] at h hmem
        have hdisjoint := (List.nodup_append.mp h).1
        exact (List.nodup_append.mp hdisjoint).2.2 key hmem key List.mem_cons_self rfl
      rw [List.foldl_cons]
      show rest.foldl _ (put key v table) = _
      rw [put_of_not_mem hnew, ih _ h, happ]

/-- Keys that are written in turn come to the ones that are there. -/
theorem mem_keys_foldl_put {key : String} (fields more : List (String × α)) :
    key ∈ keys (more.foldl (fun fields (key, v) => put key v fields) fields) ↔
      key ∈ keys fields ∨ key ∈ keys more := by
  induction more generalizing fields with
  | nil => simp [keys]
  | cons f more ih =>
      have hcons : key ∈ keys (f :: more) ↔ key = f.1 ∨ key ∈ keys more := List.mem_cons
      rw [List.foldl_cons, ih, mem_keys_put, hcons, or_assoc, or_left_comm]

/-! ### Maps -/

/-- The keys are distinct, and all values have a property. -/
structure IsMap (P : α → Prop) (fields : List (String × α)) : Prop where
  nodup : (keys fields).Nodup
  values : ∀ f ∈ fields, P f.2

variable {P : α → Prop} {fields : List (String × α)}

theorem isMap_nil : IsMap P [] :=
  ⟨List.nodup_nil, fun _ h => absurd h List.not_mem_nil⟩

theorem IsMap.of_get? (h : IsMap P fields) {key : String} {v : α} (hv : get? key fields = some v) :
    P v :=
  h.values (key, v) (mem_of_get?_eq_some hv)

theorem IsMap.perm {others : List (String × α)} (h : IsMap P fields) (hperm : fields.Perm others) :
    IsMap P others :=
  ⟨(hperm.map Prod.fst).nodup_iff.mp h.nodup, fun f hf => h.values f (hperm.mem_iff.mpr hf)⟩

theorem IsMap.put (h : IsMap P fields) (key : String) {v : α} (hv : P v) :
    IsMap P (put key v fields) := by
  refine ⟨nodup_keys_put h.nodup key v, fun f hf => ?_⟩
  rcases mem_put hf with rfl | hf
  · exact hv
  · exact h.values f hf

/-- Writing keys in turn gives a map. -/
theorem IsMap.foldl_put {more : List (String × α)} (h : IsMap P fields) (hmore : ∀ f ∈ more, P f.2) :
    IsMap P (more.foldl (fun fields (key, v) => Fields.put key v fields) fields) := by
  induction more generalizing fields with
  | nil => exact h
  | cons f more ih =>
      exact ih (h.put f.1 (hmore f List.mem_cons_self)) fun g hg => hmore g (List.mem_cons_of_mem f hg)

theorem IsMap.append {more : List (String × α)} (h : IsMap P fields) (hmore : IsMap P more)
    (hd : ∀ f ∈ more, f.1 ∉ keys fields) : IsMap P (fields ++ more) := by
  refine ⟨?_, fun f hf => (List.mem_append.mp hf).elim (h.values f) (hmore.values f)⟩
  rw [keys, List.map_append, List.nodup_append]
  refine ⟨h.nodup, hmore.nodup, fun key hkey other hother he => ?_⟩
  obtain ⟨f, hf, rfl⟩ := List.mem_map.mp hother
  exact hd f hf (he ▸ hkey)

theorem keys_map {β : Type} (g : α → β) (fields : List (String × α)) :
    keys (fields.map fun f => (f.1, g f.2)) = keys fields := by
  rw [keys, List.map_map]
  rfl

theorem get?_map {β : Type} (g : α → β) (key : String) (fields : List (String × α)) :
    get? key (fields.map fun f => (f.1, g f.2)) = (get? key fields).map g := by
  induction fields with
  | nil => rfl
  | cons field rest ih =>
      obtain ⟨k, v⟩ := field
      rw [List.map_cons, get?, get?]
      split
      · rfl
      · exact ih

theorem isMap_map {β : Type} {P : β → Prop} {g : α → β} :
    IsMap P (fields.map fun f => (f.1, g f.2)) ↔ IsMap (fun v => P (g v)) fields :=
  ⟨fun h => ⟨keys_map g fields ▸ h.nodup, fun _ hf => h.values _ (List.mem_map_of_mem hf)⟩,
    fun h => ⟨(keys_map g fields).symm ▸ h.nodup, List.forall_mem_map.mpr h.values⟩⟩

end PrefixMatch.Fields
