import Mathlib.Data.List.Perm.Basic
import Mathlib.Logic.Function.Basic
import PrefixMatch.Proofs.Layer.Overlay

/-!
# Layer — the order of keys

A layer gives out its keys in any order.  The order may decide what comes of two key paths that do not part
at two names or at two positions in an array.  All others can be laid over settings in any order: the fields
of the tables that come of it may be ordered in another way, but there is the same value under each key.

* `Keyed`: a value as what there is under its keys, whatever their order.
* `LayerValue.keyed_putAt`: what comes of a value put somewhere, under each key.
* `Keyed.putAt?_comm`: where two key paths part, it does not matter which one comes first.
* `Layer.keyed_addKeys_perm`: entries whose key paths part can be laid over settings in any order.
-/

namespace PrefixMatch

/-- What there is under the keys of a value. -/
inductive Keyed where
  /-- There is no value. -/
  | absent
  /-- A value without keys. -/
  | plain (v : LayerValue)
  /-- An array; beyond its items there are settings without a value. -/
  | array (length : Nat) (item : Nat → Keyed)
  | table (entry : String → Keyed)

namespace Keyed

/-- What there is under a key of a table; nothing else has keys. -/
def entry : Keyed → String → Keyed
  | .table entry => entry
  | _ => fun _ => .absent

/-- The number of items of an array. -/
def length : Keyed → Nat
  | .array length _ => length
  | _ => 0

/-- An item of an array. -/
def item : Keyed → Nat → Keyed
  | .array _ item => item
  | _ => fun _ => .plain .nil

@[simp] theorem entry_table (f : String → Keyed) : (table f).entry = f := rfl

@[simp] theorem length_array (n : Nat) (f : Nat → Keyed) : (array n f).length = n := rfl

@[simp] theorem item_array (n : Nat) (f : Nat → Keyed) : (array n f).item = f := rfl

end Keyed

namespace LayerValue

mutual

/-- A value by its keys. -/
def keyed : LayerValue → Keyed
  | .table fields => .table (entryOf fields)
  | .array items => .array items.length (itemOf items)
  | v => .plain v

/-- What fields have under a key. -/
def entryOf : List (String × LayerValue) → String → Keyed
  | [] => fun _ => .absent
  | f :: fs => fun key => if f.1 = key then ofField f else entryOf fs key

/-- What a field has under its key. -/
def ofField : String × LayerValue → Keyed
  | (_, v) => keyed v

/-- What stands at a position of a list. -/
def itemOf : List LayerValue → Nat → Keyed
  | [] => fun _ => .plain .nil
  | v :: vs => fun i =>
    match i with
    | 0 => keyed v
    | i + 1 => itemOf vs i

end

/-- A value that may be missing by its keys. -/
def keyed? : Option LayerValue → Keyed
  | none => .absent
  | some v => v.keyed

variable {maxItems : Nat}

theorem entryOf_eq (fields : List (String × LayerValue)) (key : String) :
    entryOf fields key = keyed? (Fields.get? key fields) := by
  induction fields with
  | nil => rfl
  | cons f fs ih =>
      obtain ⟨k, v⟩ := f
      simp only [entryOf, Fields.get?]
      split
      · rfl
      · exact ih

theorem itemOf_eq (items : List LayerValue) (i : Nat) :
    itemOf items i = (items[i]?.map keyed).getD (.plain .nil) := by
  induction items generalizing i with
  | nil => rfl
  | cons v vs ih =>
      cases i with
      | zero => rfl
      | succ i => exact ih i

theorem keyed_of_isPlain {v : LayerValue} (hv : v.IsPlain) : v.keyed = .plain v := by
  cases v with
  | table | array => exact hv.elim
  | nil | bool | int | float | text => rfl

theorem entry_keyed? (old : Option LayerValue) (key : String) :
    (keyed? old).entry key = keyed? (Fields.get? key (old.getD .nil).fields) := by
  cases old with
  | none => rfl
  | some v =>
      cases v with
      | table fields => exact entryOf_eq fields key
      | nil | bool | int | float | text | array => rfl

theorem length_keyed? (old : Option LayerValue) : (keyed? old).length = (old.getD .nil).items.length := by
  cases old with
  | none => rfl
  | some v => cases v <;> rfl

theorem item_keyed? (old : Option LayerValue) : (keyed? old).item = itemOf (old.getD .nil).items := by
  cases old with
  | none => rfl
  | some v => cases v <;> rfl

/-- A field that is written is under its key, and the others are where they were. -/
theorem keyed_put (name : String) (v : LayerValue) (old : Option LayerValue) :
    (table (Fields.put name v (old.getD .nil).fields)).keyed =
      .table (Function.update (keyed? old).entry name v.keyed) := by
  refine congrArg Keyed.table (funext fun key => ?_)
  by_cases h : key = name
  · subst h
    rw [entryOf_eq, Fields.get?_put_self, Function.update_self]
    rfl
  · rw [entryOf_eq, Fields.get?_put_of_ne h, Function.update_of_ne h, entry_keyed?]

end LayerValue

/-! ### Values put somewhere -/

namespace Keyed

/-- A value put where steps lead to. -/
def putAt? (maxItems : Nat) (v : Keyed) : List KeyStep → Keyed → Option Keyed
  | [], _ => some v
  | .child name :: steps, old =>
    (putAt? maxItems v steps (old.entry name)).map fun inner => .table (Function.update old.entry name inner)
  | .index n :: steps, old =>
    (LayerValue.position? old.length n).bind fun i =>
      if i < old.length ∨ i < maxItems then
        (putAt? maxItems v steps (old.item i)).map fun inner =>
          .array (max old.length (i + 1)) (Function.update old.item i inner)
      else none

end Keyed

namespace LayerValue

variable {maxItems : Nat}

/-- An array that was made longer has settings without a value behind its items. -/
theorem itemOf_extended {items longer : List LayerValue} {i : Nat}
    (h : extended? maxItems items i = some longer) :
    longer.length = max items.length (i + 1) ∧ itemOf longer = itemOf items := by
  rw [extended?] at h
  split at h
  · cases h
    refine ⟨by rw [List.length_append, List.length_replicate]; omega, funext fun k => ?_⟩
    rw [itemOf_eq, itemOf_eq, List.getElem?_append]
    split
    · rfl
    · next hk =>
      rw [List.getElem?_eq_none (Nat.not_lt.mp hk), List.getElem?_replicate]
      split <;> rfl
  · cases h

theorem keyed?_getElem? {items : List LayerValue} {i : Nat} (hi : i < items.length) :
    keyed? items[i]? = itemOf items i := by
  rw [itemOf_eq, List.getElem?_eq_getElem hi]
  rfl

theorem keyed_set {items : List LayerValue} {i : Nat} (hi : i < items.length) (v : LayerValue) :
    (array (items.set i v)).keyed = .array items.length (Function.update (itemOf items) i v.keyed) := by
  rw [keyed, List.length_set]
  refine congrArg _ (funext fun k => ?_)
  by_cases h : k = i
  · subst h
    rw [itemOf_eq, List.getElem?_set_self hi, Function.update_self]
    rfl
  · rw [itemOf_eq, List.getElem?_set_ne (Ne.symm h), Function.update_of_ne h, itemOf_eq]

/-- A plain value takes the place of an item, wherever the steps end. -/
theorem putAt?_index {v : LayerValue} (hv : v.IsPlain) (n : Int) (steps : List KeyStep)
    (old : Option LayerValue) :
    v.putAt? maxItems (.index n :: steps) old =
      (position? (old.getD .nil).items.length n).bind fun i =>
        (extended? maxItems (old.getD .nil).items i).bind fun longer =>
          (v.putAt? maxItems steps longer[i]?).map fun inner => .array (longer.set i inner) := by
  rw [putAt?]
  cases steps with
  | nil =>
      simp only [putAt?, laidOver_of_isPlain hv]
      rfl
  | cons step steps =>
      refine Option.bind_congr fun i _ => Option.bind_congr fun longer _ => ?_
      exact (Option.map_eq_bind).symm

/-- **What comes of a plain value that is put somewhere depends on what there is under each key.** -/
theorem keyed_putAt {v : LayerValue} (hv : v.IsPlain) (steps : List KeyStep) (old : Option LayerValue) :
    (v.putAt? maxItems steps old).map keyed = Keyed.putAt? maxItems (.plain v) steps (keyed? old) := by
  induction steps generalizing old with
  | nil => exact congrArg some ((congrArg keyed (laidOver_of_isPlain hv old)).trans (keyed_of_isPlain hv))
  | cons step steps ih =>
      cases step with
      | child name =>
          rw [putAt?, Keyed.putAt?, entry_keyed?, ← ih]
          cases v.putAt? maxItems steps (Fields.get? name (old.getD .nil).fields) with
          | none => rfl
          | some inner => exact congrArg some (keyed_put name inner old)
      | index n =>
          rw [putAt?_index hv, Keyed.putAt?, length_keyed?, item_keyed?]
          refine Option.map_bind.trans (Option.bind_congr fun i _ => ?_)
          rw [Function.comp_apply]
          by_cases hroom : i < (old.getD .nil).items.length ∨ i < maxItems
          · obtain ⟨longer, hlonger⟩ : ∃ longer, extended? maxItems (old.getD .nil).items i = some longer :=
              ⟨_, if_pos hroom⟩
            obtain ⟨hlength, hitem⟩ := itemOf_extended hlonger
            have hi : i < longer.length := by omega
            rw [hlonger, Option.bind_some, if_pos hroom, ← hitem, ← keyed?_getElem? hi, ← ih, ← hlength]
            cases v.putAt? maxItems steps longer[i]? with
            | none => rfl
            | some inner => exact congrArg some (keyed_set hi inner)
          · have hfull : extended? maxItems (old.getD .nil).items i = none := if_neg hroom
            rw [hfull, if_neg hroom]
            rfl

end LayerValue

/-! ### Key paths that part -/

/-- Two ways part at two names, or at two positions that count from the start of an array. -/
inductive Parts : List KeyStep → List KeyStep → Prop
  | names {a b : String} (h : a ≠ b) (s t : List KeyStep) : Parts (.child a :: s) (.child b :: t)
  | positions {i j : Int} (hi : 0 ≤ i) (hj : 0 ≤ j) (h : i ≠ j) (s t : List KeyStep) :
      Parts (.index i :: s) (.index j :: t)
  | later (step : KeyStep) {s t : List KeyStep} (h : Parts s t) : Parts (step :: s) (step :: t)

theorem Parts.symm {s t : List KeyStep} (h : Parts s t) : Parts t s := by
  induction h with
  | names h s t => exact .names h.symm t s
  | positions hi hj h s t => exact .positions hj hi h.symm t s
  | later step _ ih => exact .later step ih

/-- No way parts from itself. -/
theorem Parts.ne {s t : List KeyStep} (h : Parts s t) : s ≠ t := by
  induction h with
  | names h _ _ => exact fun he => h (KeyStep.child.inj (List.cons.inj he).1)
  | positions _ _ h _ _ => exact fun he => h (KeyStep.index.inj (List.cons.inj he).1)
  | later _ _ ih => exact fun he => ih (List.cons.inj he).2

/-- A position is the same in an array that was made long enough for it. -/
theorem LayerValue.position?_max {length i : Nat} {n : Int} (h : position? length n = some i) :
    position? (max length (i + 1)) n = some i := by
  rw [position?] at h ⊢
  split at h
  · next hn => rwa [if_pos hn]
  · next hn =>
    split at h
    · next hlength =>
      cases h
      have hmax : max length (length - n.natAbs + 1) = length := by omega
      rw [if_neg hn, hmax, if_pos hlength]
    · cases h

namespace Keyed

variable {maxItems : Nat}

theorem putAt?_position {i : Int} (hi : 0 ≤ i) (v : Keyed) (s : List KeyStep) (old : Keyed) :
    putAt? maxItems v (.index i :: s) old =
      if i.toNat < old.length ∨ i.toNat < maxItems then
        (putAt? maxItems v s (old.item i.toNat)).map fun inner =>
          .array (max old.length (i.toNat + 1)) (Function.update old.item i.toNat inner)
      else none := by
  rw [putAt?, LayerValue.position?, if_pos hi, Option.bind_some]

/-- An array that was made longer for one position has what it had at another one, and room for it if it had
room before. -/
theorem putAt?_other_position {i j : Int} (hi : 0 ≤ i) (hj : 0 ≤ j) (h : i ≠ j) {old : Keyed}
    (hroom : i.toNat < old.length ∨ i.toNat < maxItems) (w x : Keyed) (t : List KeyStep) :
    putAt? maxItems w (.index j :: t)
        (.array (max old.length (i.toNat + 1)) (Function.update old.item i.toNat x)) =
      if j.toNat < old.length ∨ j.toNat < maxItems then
        (putAt? maxItems w t (old.item j.toNat)).map fun y =>
          .array (max (max old.length (i.toNat + 1)) (j.toNat + 1))
            (Function.update (Function.update old.item i.toNat x) j.toNat y)
      else none := by
  have hne : j.toNat ≠ i.toNat := by omega
  have hsame : (j.toNat < max old.length (i.toNat + 1) ∨ j.toNat < maxItems) ↔
      (j.toNat < old.length ∨ j.toNat < maxItems) := by omega
  simp only [putAt?_position hj, length_array, item_array, Function.update_of_ne hne, hsame]

/-- Below a name that two ways share, the second one starts from what the first one made. -/
theorem putAt?_child_twice (name : String) (s t : List KeyStep) (v w old : Keyed) :
    (putAt? maxItems v (.child name :: s) old).bind (putAt? maxItems w (.child name :: t)) =
      ((putAt? maxItems v s (old.entry name)).bind (putAt? maxItems w t)).map fun inner =>
        .table (Function.update old.entry name inner) := by
  rw [putAt?]
  cases putAt? maxItems v s (old.entry name) with
  | none => rfl
  | some x => simp only [Option.map_some, Option.bind_some, putAt?, entry_table, Function.update_self,
      Function.update_idem]

/-- Below a position that two ways share, too. -/
theorem putAt?_index_twice (n : Int) (s t : List KeyStep) (v w old : Keyed) :
    (putAt? maxItems v (.index n :: s) old).bind (putAt? maxItems w (.index n :: t)) =
      (LayerValue.position? old.length n).bind fun i =>
        if i < old.length ∨ i < maxItems then
          ((putAt? maxItems v s (old.item i)).bind (putAt? maxItems w t)).map fun inner =>
            .array (max old.length (i + 1)) (Function.update old.item i inner)
        else none := by
  rw [putAt?]
  cases hposition : LayerValue.position? old.length n with
  | none => rfl
  | some i =>
      rw [Option.bind_some, Option.bind_some]
      split
      · cases putAt? maxItems v s (old.item i) with
        | none => rfl
        | some x =>
            have hroom : i < max old.length (i + 1) ∨ i < maxItems := .inl (by omega)
            have hmax : max (max old.length (i + 1)) (i + 1) = max old.length (i + 1) := by omega
            simp only [Option.map_some, Option.bind_some, putAt?, length_array, item_array,
              LayerValue.position?_max hposition, if_pos hroom, Function.update_self, Function.update_idem,
              hmax]
      · rfl

/-- Two answers that may be missing are joined in either order. -/
theorem bind_map_comm {α β γ : Type} (x : Option α) (y : Option β) (f : α → β → γ) :
    (x.bind fun a => y.map fun b => f a b) = y.bind fun b => x.map fun a => f a b := by
  cases x with
  | none => cases y <;> rfl
  | some a => cases y <;> rfl

/-- Values under two names can be put in either order. -/
theorem putAt?_comm_names {a b : String} (h : a ≠ b) (s t : List KeyStep) (v w old : Keyed) :
    (putAt? maxItems v (.child a :: s) old).bind (putAt? maxItems w (.child b :: t)) =
      (putAt? maxItems w (.child b :: t) old).bind (putAt? maxItems v (.child a :: s)) := by
  have hfirst : ∀ x, putAt? maxItems w (.child b :: t) (.table (Function.update old.entry a x)) =
      (putAt? maxItems w t (old.entry b)).map fun y =>
        .table (Function.update (Function.update old.entry a x) b y) := fun x => by
    rw [putAt?, entry_table, Function.update_of_ne h.symm]
  have hsecond : ∀ y, putAt? maxItems v (.child a :: s) (.table (Function.update old.entry b y)) =
      (putAt? maxItems v s (old.entry a)).map fun x =>
        .table (Function.update (Function.update old.entry a x) b y) := fun y => by
    rw [putAt?, entry_table, Function.update_of_ne h]
    simp only [Function.update_comm h]
  rw [putAt?, putAt?, Option.bind_map, Option.bind_map]
  simp only [Function.comp_def, hfirst, hsecond]
  exact bind_map_comm _ _ _

/-- Values at two positions, too: either both have room or neither order gives an array. -/
theorem putAt?_comm_positions {i j : Int} (hi : 0 ≤ i) (hj : 0 ≤ j) (h : i ≠ j) (s t : List KeyStep)
    (v w old : Keyed) :
    (putAt? maxItems v (.index i :: s) old).bind (putAt? maxItems w (.index j :: t)) =
      (putAt? maxItems w (.index j :: t) old).bind (putAt? maxItems v (.index i :: s)) := by
  have hne : i.toNat ≠ j.toNat := by omega
  have hmax : max (max old.length (j.toNat + 1)) (i.toNat + 1) =
      max (max old.length (i.toNat + 1)) (j.toNat + 1) := by omega
  rw [putAt?_position hi, putAt?_position hj]
  by_cases hroom : i.toNat < old.length ∨ i.toNat < maxItems
  · by_cases hroom' : j.toNat < old.length ∨ j.toNat < maxItems
    · rw [if_pos hroom, if_pos hroom', Option.bind_map, Option.bind_map]
      simp only [Function.comp_def, putAt?_other_position hi hj h hroom,
        putAt?_other_position hj hi h.symm hroom', if_pos hroom, if_pos hroom', hmax,
        Function.update_comm hne]
      exact bind_map_comm _ _ _
    · rw [if_pos hroom, if_neg hroom', Option.bind_map, Option.bind_none]
      simp only [Function.comp_def, putAt?_other_position hi hj h hroom, if_neg hroom', Option.bind_fun_none]
  · by_cases hroom' : j.toNat < old.length ∨ j.toNat < maxItems
    · rw [if_neg hroom, if_pos hroom', Option.bind_map, Option.bind_none]
      simp only [Function.comp_def, putAt?_other_position hj hi h.symm hroom', if_neg hroom,
        Option.bind_fun_none]
    · rw [if_neg hroom, if_neg hroom']
      rfl

/-- **Where two ways part, it does not matter which value is put first.** -/
theorem putAt?_comm {s t : List KeyStep} (h : Parts s t) (v w old : Keyed) :
    (putAt? maxItems v s old).bind (putAt? maxItems w t) =
      (putAt? maxItems w t old).bind (putAt? maxItems v s) := by
  induction h generalizing old with
  | names h s t => exact putAt?_comm_names h s t v w old
  | positions hi hj h s t => exact putAt?_comm_positions hi hj h s t v w old
  | later step h ih =>
      cases step with
      | child name => rw [putAt?_child_twice, putAt?_child_twice, ih]
      | index n => simp only [putAt?_index_twice, ih]

end Keyed

/-! ### Entries -/

namespace KeyPath

/-- All steps of a key path, the first name included. -/
def allSteps (path : KeyPath) : List KeyStep :=
  .child path.name :: path.steps

end KeyPath

namespace Layer

variable {maxItems : Nat} {settings settings' : List (String × LayerValue)} {e f : String × LayerValue}
  {entries others : List (String × LayerValue)}

/-- The key paths of two entries part. -/
def EntriesPart (e f : String × LayerValue) : Prop :=
  Parts (KeyPath.ofKey e.1).allSteps (KeyPath.ofKey f.1).allSteps

theorem EntriesPart.symm (h : EntriesPart e f) : EntriesPart f e :=
  Parts.symm h

theorem EntriesPart.key_ne (h : EntriesPart e f) : e.1 ≠ f.1 :=
  fun he => Parts.ne h (congrArg (fun key => (KeyPath.ofKey key).allSteps) he)

/-- Settings by their keys. -/
def keyed (settings : List (String × LayerValue)) : Keyed :=
  (LayerValue.table settings).keyed

/-- What comes of settings over which an entry is laid. -/
def putKey? (maxItems : Nat) (settings : Keyed) (e : String × LayerValue) : Option Keyed :=
  Keyed.putAt? maxItems (.plain e.2) (KeyPath.ofKey e.1).allSteps settings

theorem keyed_addKey (he : e.2.IsPlain) :
    (addKey? maxItems settings e).map keyed = putKey? maxItems (keyed settings) e := by
  have hput : (e.2.putAt? maxItems (KeyPath.ofKey e.1).allSteps (some (.table settings))).map
      LayerValue.keyed = putKey? maxItems (keyed settings) e := LayerValue.keyed_putAt he _ _
  refine Eq.trans ?_ hput
  rw [KeyPath.allSteps, LayerValue.putAt?, addKey?]
  show _ = Option.map _ ((e.2.putAt? maxItems _ (Fields.get? (KeyPath.ofKey e.1).name settings)).bind _)
  cases e.2.putAt? maxItems (KeyPath.ofKey e.1).steps (Fields.get? (KeyPath.ofKey e.1).name settings) with
  | none => rfl
  | some v => rfl

/-- What comes of settings over which plain entries are laid depends on what there is under each key. -/
theorem keyed_addKeys (h : ∀ e ∈ entries, e.2.IsPlain) :
    (addKeys? maxItems settings entries).map keyed = entries.foldlM (putKey? maxItems) (keyed settings) := by
  induction entries generalizing settings with
  | nil => rfl
  | cons e entries ih =>
      obtain ⟨he, hrest⟩ := List.forall_mem_cons.mp h
      rw [List.foldlM_cons, ← keyed_addKey he, addKeys?, List.foldlM_cons]
      cases addKey? maxItems settings e with
      | none => rfl
      | some next => exact ih hrest

theorem putKey?_comm (h : EntriesPart e f) (settings : Keyed) :
    (putKey? maxItems settings e).bind (putKey? maxItems · f) =
      (putKey? maxItems settings f).bind (putKey? maxItems · e) :=
  Keyed.putAt?_comm h (.plain e.2) (.plain f.2) settings

theorem foldlM_putKey_perm (hperm : entries.Perm others) (hparts : entries.Pairwise EntriesPart)
    (settings : Keyed) :
    entries.foldlM (putKey? maxItems) settings = others.foldlM (putKey? maxItems) settings := by
  induction hperm generalizing settings with
  | nil => rfl
  | cons e _ ih => exact Option.bind_congr fun next _ => ih (List.pairwise_cons.mp hparts).2 next
  | swap e f entries =>
      obtain ⟨hfirst, -⟩ := List.pairwise_cons.mp hparts
      have hcomm : (putKey? maxItems settings f).bind (putKey? maxItems · e) =
          (putKey? maxItems settings e).bind (putKey? maxItems · f) :=
        putKey?_comm (hfirst e List.mem_cons_self) settings
      simp only [List.foldlM_cons, Option.bind_eq_bind, ← Option.bind_assoc, hcomm]
  | trans h _ ih ih' =>
      exact (ih hparts settings).trans (ih' ((h.pairwise_iff EntriesPart.symm).mp hparts) settings)

/-- **Plain entries whose key paths part can be laid over settings in any order.** -/
theorem keyed_addKeys_perm (hperm : entries.Perm others) (hparts : entries.Pairwise EntriesPart)
    (hplain : ∀ e ∈ entries, e.2.IsPlain) (hsettings : keyed settings = keyed settings') :
    (addKeys? maxItems settings entries).map keyed = (addKeys? maxItems settings' others).map keyed := by
  have hothers : ∀ e ∈ others, e.2.IsPlain := fun e he => hplain e (hperm.mem_iff.mpr he)
  rw [keyed_addKeys hplain, keyed_addKeys hothers, hsettings, foldlM_putKey_perm hperm hparts]

end Layer

end PrefixMatch
