import Bilingual.Number.Binary64
import Bilingual.OrderedMap

set_option autoImplicit false

/-! # Document values

The values of a JSON document. Integers have no size limit, other numbers have double precision, and the
fields of an object keep the order in which their names first occur. -/

namespace Bilingual

/-- A value of a JSON document. -/
inductive Json where
  | null
  | bool (b : Bool)
  | integer (n : Int)
  | real (x : Binary64)
  | text (t : Text)
  | list (items : List Json)
  | object (fields : List (Text × Json))
deriving Repr

namespace Json

instance : Inhabited Json := ⟨null⟩

/-- The fields of an object; none for any other value. -/
def fields? : Json → Option (OrderedMap Json)
  | object fields => some fields
  | _ => none

/-- A text, or null. -/
def ofOption (t : Option Text) : Json :=
  match t with
  | some t => text t
  | none => null

mutual

/-- Whether two values are equal, fields in the same order. -/
def eq : Json → Json → Bool
  | null, null => true
  | bool a, bool b => a == b
  | integer a, integer b => a == b
  | real a, real b => a == b
  | text a, text b => a == b
  | list as, list bs => eqList as bs
  | object as, object bs => eqFields as bs
  | _, _ => false

/-- Whether two lists of values are equal. -/
def eqList : List Json → List Json → Bool
  | [], [] => true
  | a :: as, b :: bs => eq a b && eqList as bs
  | _, _ => false

/-- Whether two lists of fields are equal, in the same order. -/
def eqFields : List (Text × Json) → List (Text × Json) → Bool
  | [], [] => true
  | (k, a) :: as, (l, b) :: bs => k == l && eq a b && eqFields as bs
  | _, _ => false

end

mutual

/-- The test decides equality of values, so they can be compared by `decide`. -/
theorem eq_iff : ∀ a b : Json, eq a b = true ↔ a = b
  | null, b => by cases b <;> simp [eq]
  | bool _, b => by cases b <;> simp [eq]
  | integer _, b => by cases b <;> simp [eq]
  | real _, b => by cases b <;> simp [eq]
  | text _, b => by cases b <;> simp [eq]
  | list as, b => by cases b <;> simp [eq, eqList_iff as]
  | object as, b => by cases b <;> simp [eq, eqFields_iff as]

/-- The test on lists decides equality. -/
theorem eqList_iff : ∀ as bs : List Json, eqList as bs = true ↔ as = bs
  | [], bs => by cases bs <;> simp [eqList]
  | a :: as, bs => by cases bs <;> simp [eqList, eq_iff a, eqList_iff as]

/-- The test on fields decides equality. -/
theorem eqFields_iff : ∀ as bs : List (Text × Json), eqFields as bs = true ↔ as = bs
  | [], bs => by cases bs <;> simp [eqFields]
  | (k, a) :: as, bs => by
    cases bs with
    | nil => simp [eqFields]
    | cons b bs => simp [eqFields, eq_iff a, eqFields_iff as, Prod.ext_iff]

end

instance : DecidableEq Json := fun a b => decidable_of_iff _ (eq_iff a b)

end Json

end Bilingual
