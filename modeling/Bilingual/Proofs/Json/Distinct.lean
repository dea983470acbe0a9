import Bilingual.Json.Reader
import Bilingual.Proofs.OrderedMap

set_option autoImplicit false

/-! # Documents whose objects have distinct names

A field that is written again replaces the earlier one, so in a document that has been read no object has a name twice,
however deep it is (`Json.isDistinct_of_read?`). -/

namespace Bilingual

namespace Json

mutual

/-- Whether no object in a value has a name twice. -/
def isDistinct : Json → Bool
  | list items => areDistinct items
  | object fields => areDistinctFields fields && decide (OrderedMap.keys fields).Nodup
  | _ => true

/-- Whether no object in any of the items has a name twice. -/
def areDistinct : List Json → Bool
  | [] => true
  | item :: items => isDistinct item && areDistinct items

/-- Whether no object in any of the fields has a name twice. -/
def areDistinctFields : List (Text × Json) → Bool
  | [] => true
  | (_, value) :: fields => isDistinct value && areDistinctFields fields

end

theorem isDistinct_list {items : List Json} :
    (list items).isDistinct = true ↔ ∀ item ∈ items, item.isDistinct = true := by
  rw [isDistinct]
  induction items with
  | nil => simp [areDistinct]
  | cons item items ih => rw [areDistinct, Bool.and_eq_true, ih, List.forall_mem_cons]

theorem isDistinct_object {fields : List (Text × Json)} : (object fields).isDistinct = true ↔
    (∀ field ∈ fields, field.2.isDistinct = true) ∧ OrderedMap.Distinct fields := by
  have hfields : areDistinctFields fields = true ↔ ∀ field ∈ fields, field.2.isDistinct = true := by
    induction fields with
    | nil => simp [areDistinctFields]
    | cons field fields ih => rw [areDistinctFields, Bool.and_eq_true, ih, List.forall_mem_cons]
  rw [isDistinct, Bool.and_eq_true, hfields, decide_eq_true_eq]
  rfl

namespace Reader

theorem isDistinct_of_name? {t rest : Text} {v : Json} (h : name? t = some (v, rest)) : v.isDistinct = true := by
  obtain ⟨⟨written, value⟩, hmem, hfound⟩ := List.exists_of_findSome?_eq_some h
  obtain ⟨behind, -, heq⟩ := Option.map_eq_some_iff.1 hfound
  cases heq
  -- the names stand for values that hold no object
  simp only [List.mem_cons, Prod.mk.injEq, List.not_mem_nil, or_false] at hmem
  rcases hmem with ⟨-, rfl⟩ | ⟨-, rfl⟩ | ⟨-, rfl⟩ | ⟨-, rfl⟩ | ⟨-, rfl⟩ | ⟨-, rfl⟩ <;> rfl

theorem isDistinct_of_number? {t rest : Text} {v : Json} (h : number? t = some (v, rest)) : v.isDistinct = true := by
  unfold number? at h
  obtain ⟨n, -, h⟩ := Option.bind_eq_some_iff.1 h
  dsimp only at h
  generalize exponent _ = power at h
  generalize fraction _ = fractional at h
  split at h
  · cases h
    rfl
  · obtain ⟨all, -, h⟩ := Option.bind_eq_some_iff.1 h
    cases h
    rfl

/-- What is read has no object with a name twice: a value, the items of a list, and the values of fields. -/
theorem isDistinct_of_fuel (fuel : Nat) :
    (∀ t v rest, value? fuel t = some (v, rest) → v.isDistinct = true) ∧
      (∀ t items rest, items? fuel t = some (items, rest) → ∀ item ∈ items, item.isDistinct = true) ∧
      (∀ t fields rest, members? fuel t = some (fields, rest) → ∀ field ∈ fields, field.2.isDistinct = true) := by
  induction fuel with
  | zero => exact ⟨fun _ _ _ h => (nomatch h), fun _ _ _ h => (nomatch h), fun _ _ _ h => (nomatch h)⟩
  | succ fuel ih =>
    obtain ⟨hvalue, hitems, hmembers⟩ := ih
    refine ⟨fun t v rest h => ?value, fun t items rest h => ?items, fun t fields rest h => ?members⟩
    case value =>
      unfold value? at h
      split at h
      · cases h
      split at h
      · obtain ⟨⟨s, behind⟩, -, heq⟩ := Option.map_eq_some_iff.1 h
        cases heq
        rfl
      split at h
      · split at h
        · cases h
          rfl
        · obtain ⟨⟨items, behind⟩, hread, heq⟩ := Option.map_eq_some_iff.1 h
          cases heq
          exact isDistinct_list.2 (hitems _ _ _ hread)
      split at h
      · split at h
        · cases h
          rfl
        · obtain ⟨⟨fields, behind⟩, hread, heq⟩ := Option.map_eq_some_iff.1 h
          cases heq
          refine isDistinct_object.2 ⟨fun field hfield => ?_, OrderedMap.distinct_ofPairs fields⟩
          exact hmembers _ _ _ hread field (OrderedMap.mem_of_mem_ofPairs hfield)
      split at h
      · next found hname =>
        cases h
        exact isDistinct_of_name? hname
      · exact isDistinct_of_number? h
    case items =>
      unfold items? at h
      obtain ⟨⟨item, behind⟩, hitem, h⟩ := Option.bind_eq_some_iff.1 h
      dsimp only at h
      split at h
      · cases h
        simpa using hvalue _ _ _ hitem
      · obtain ⟨next, -, h⟩ := Option.bind_eq_some_iff.1 h
        obtain ⟨⟨others, rest⟩, hothers, h⟩ := Option.bind_eq_some_iff.1 h
        cases h
        exact List.forall_mem_cons.2 ⟨hvalue _ _ _ hitem, hitems _ _ _ hothers⟩
    case members =>
      unfold members? at h
      obtain ⟨quoted, -, h⟩ := Option.bind_eq_some_iff.1 h
      obtain ⟨⟨name, behind⟩, -, h⟩ := Option.bind_eq_some_iff.1 h
      obtain ⟨colon, -, h⟩ := Option.bind_eq_some_iff.1 h
      obtain ⟨⟨item, behind⟩, hitem, h⟩ := Option.bind_eq_some_iff.1 h
      dsimp only at h
      split at h
      · cases h
        simpa using hvalue _ _ _ hitem
      · obtain ⟨next, -, h⟩ := Option.bind_eq_some_iff.1 h
        obtain ⟨⟨others, rest⟩, hothers, h⟩ := Option.bind_eq_some_iff.1 h
        cases h
        exact List.forall_mem_cons.2 ⟨hvalue _ _ _ hitem, hmembers _ _ _ hothers⟩

end Reader

/-- No object in a document has a name twice. -/
theorem isDistinct_of_read? {t : Text} {v : Json} (h : read? t = some v) : v.isDistinct = true := by
  obtain ⟨⟨value, behind⟩, hvalue, h⟩ := Option.bind_eq_some_iff.1 h
  dsimp only at h
  split at h
  · cases h
    exact (Reader.isDistinct_of_fuel _).1 _ _ _ hvalue
  · cases h

end Json

end Bilingual
