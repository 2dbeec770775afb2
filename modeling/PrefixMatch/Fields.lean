/-!
# Fields

A table as a list of pairs, in the order in which the keys first came.  Main statements: `get?_put_self`
and `get?_put_of_ne` say that writing one key changes the value of that key alone.
-/

namespace PrefixMatch.Fields

variable {α : Type}

/-- The value of a key. -/
def get? (key : String) : List (String × α) → Option α
  | [] => none
  | (k, v) :: rest => if k = key then some v else get? key rest

/-- Writes a key; a key that is present keeps its place. -/
def put (key : String) (value : α) : List (String × α) → List (String × α)
  | [] => [(key, value)]
  | (k, v) :: rest => if k = key then (k, value) :: rest else (k, v) :: put key value rest

/-- Whether a key is present. -/
def has (key : String) (fields : List (String × α)) : Bool :=
  (get? key fields).isSome

/-- Adds a key that must not be present yet. -/
def add? (key : String) (value : α) (fields : List (String × α)) : Option (List (String × α)) :=
  if has key fields then none else some (fields ++ [(key, value)])

/-- The keys in order. -/
def keys (fields : List (String × α)) : List String :=
  fields.map Prod.fst

@[simp] theorem get?_put_self (key : String) (value : α) (fields : List (String × α)) :
    get? key (put key value fields) = some value := by
  induction fields with
  | nil => simp [put, get?]
  | cons field rest ih =>
    unfold put
    split
    · next h => simp [get?, h]
    · next h => simp [get?, h, ih]

theorem get?_put_of_ne {key other : String} (h : other ≠ key) (value : α)
    (fields : List (String × α)) : get? other (put key value fields) = get? other fields := by
  induction fields with
  | nil => simp [put, get?, h.symm]
  | cons field rest ih =>
    unfold put
    split
    · next hk => simp [get?, hk, h.symm]
    · next hk => simp [get?, ih]

end PrefixMatch.Fields
