import Bilingual.Text.CodePoint

set_option autoImplicit false

/-! # Maps that keep their order

An ordered map is a list of keyed values. Putting a value under a key that is there already replaces
the value and leaves the key where it was first put; a new key goes to the end. The order shows in
written documents, in the order of report entries and in the order of appended items. -/

namespace Bilingual

/-- A map from texts that keeps the order in which its keys were first put. -/
abbrev OrderedMap (α : Type) := List (Text × α)

namespace OrderedMap

variable {α β : Type}

/-- The value under a key. -/
def lookup? : OrderedMap α → Text → Option α
  | [], _ => none
  | (k, v) :: rest, key => if k = key then some v else lookup? rest key

/-- Put a value under a key, in the key's old place if it has one. -/
def put : OrderedMap α → Text → α → OrderedMap α
  | [], key, value => [(key, value)]
  | (k, v) :: rest, key, value =>
    if k = key then (k, value) :: rest else (k, v) :: put rest key value

/-- Put a value under a key that has none; a key that has one keeps it. -/
def putNew (m : OrderedMap α) (key : Text) (value : α) : OrderedMap α :=
  match lookup? m key with
  | some _ => m
  | none => m ++ [(key, value)]

/-- The keys in order. -/
def keys (m : OrderedMap α) : List Text := m.map (·.1)

/-- Put all pairs one after the other. -/
def putAll (m : OrderedMap α) (pairs : List (Text × α)) : OrderedMap α :=
  pairs.foldl (fun m pair => put m pair.1 pair.2) m

/-- The map that putting all pairs one after the other gives. -/
def ofPairs (pairs : List (Text × α)) : OrderedMap α := putAll [] pairs

/-- The same keys with other values. -/
def mapValues (f : α → β) (m : OrderedMap α) : OrderedMap β := m.map fun (k, v) => (k, f v)

/-- Keys that are put are found. -/
@[simp] theorem lookup?_put_self (m : OrderedMap α) (key : Text) (value : α) :
    lookup? (put m key value) key = some value := by
  induction m with
  | nil => simp [put, lookup?]
  | cons pair rest ih =>
    obtain ⟨k, v⟩ := pair
    by_cases h : k = key
    · simp [put, lookup?, h]
    · simp [put, lookup?, h, ih]

/-- Putting under one key leaves the others. -/
theorem lookup?_put_of_ne (m : OrderedMap α) {key other : Text} (value : α) (h : key ≠ other) :
    lookup? (put m key value) other = lookup? m other := by
  induction m with
  | nil => simp [put, lookup?, h]
  | cons pair rest ih =>
    obtain ⟨k, v⟩ := pair
    by_cases hk : k = key
    · subst hk
      simp [put, lookup?, h]
    · simp [put, lookup?, hk, ih]

end OrderedMap

end Bilingual
