import PrefixMatch.Layer.KeyPath
import PrefixMatch.Libraries

/-!
# Layer — Overlay

Layers are laid over each other: tables field by field, everything else as a whole.  A table without
fields that is laid over another value leaves that value as it is.  A key path may ask for a place in an array
where none can be: then there is no result, and the program crashes.
-/

namespace PrefixMatch

namespace LayerValue

mutual

/-- A value laid over what was there before. -/
def laidOver (old : Option LayerValue) : LayerValue → LayerValue
  | .table fields => overFields (old.getD (.table [])) fields
  | v => v

/-- Fields laid over a value; the first one makes it a table. -/
def overFields (target : LayerValue) : List (String × LayerValue) → LayerValue
  | [] => target
  | f :: fs => overFields (overField target f) fs

/-- One field laid over a value, which becomes a table. -/
def overField (target : LayerValue) : String × LayerValue → LayerValue
  | (key, v) => .table (Fields.put key (laidOver (Fields.get? key target.fields) v) target.fields)

end

/-- The position that an index means in an array of some length; negative ones count from the end, and none
lies before the start. -/
def position? (length : Nat) (n : Int) : Option Nat :=
  if 0 ≤ n then some n.toNat
  else if n.natAbs ≤ length then some (length - n.natAbs)
  else none

/-- An array that is long enough for a position, unless it would grow too large. -/
def extended? (maxItems : Nat) (items : List LayerValue) (i : Nat) : Option (List LayerValue) :=
  if i < items.length ∨ i < maxItems then
    some (items ++ List.replicate (i + 1 - items.length) .nil)
  else none

/-- A value put where steps lead to, starting from what was there before.  Tables and arrays are made on
the way in place of anything else. -/
def putAt? (maxItems : Nat) (v : LayerValue) : List KeyStep → Option LayerValue → Option LayerValue
  | [], old => some (laidOver old v)
  | .child name :: steps, old => do
    let fields := (old.getD .nil).fields
    let inner ← putAt? maxItems v steps (Fields.get? name fields)
    return .table (Fields.put name inner fields)
  | .index n :: steps, old => do
    let items := (old.getD .nil).items
    let i ← position? items.length n
    let items ← extended? maxItems items i
    let inner ← if steps.isEmpty then some v else putAt? maxItems v steps items[i]?
    return .array (items.set i inner)

end LayerValue

namespace Layer

/-- Lays one entry over a table of settings. -/
def addKey? (maxItems : Nat) (settings : List (String × LayerValue)) (e : String × LayerValue) :
    Option (List (String × LayerValue)) := do
  let path := KeyPath.ofKey e.1
  let v ← e.2.putAt? maxItems path.steps (Fields.get? path.name settings)
  return Fields.put path.name v settings

/-- Lays entries over a table of settings in turn. -/
def addKeys? (maxItems : Nat) (settings : List (String × LayerValue))
    (entries : List (String × LayerValue)) : Option (List (String × LayerValue)) :=
  entries.foldlM (addKey? maxItems) settings

/-- Lays a layer over a table of settings. -/
def addTo? (lib : Libraries) (settings : List (String × LayerValue)) (layer : Layer) :
    Option (List (String × LayerValue)) :=
  addKeys? lib.maxItems settings (lib.order layer)

/-- The settings that layers give, the first layer lowest. -/
def combine? (lib : Libraries) (layers : List Layer) : Option (List (String × LayerValue)) :=
  layers.foldlM (addTo? lib) []

end Layer

end PrefixMatch
