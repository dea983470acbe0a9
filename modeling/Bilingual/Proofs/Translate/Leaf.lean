import Bilingual.Proofs.Content
import Bilingual.Proofs.Plan.Site

set_option autoImplicit false

/-! # The leaves of contents

Contents have their texts at leaves. A translation keeps the leaves and has any text, or none, where the
contents have one (`Content.Fits`); where they have none it has none either
(`Content.Fits.text?_eq_none`). -/

namespace Bilingual

/-- Where a text stands in contents: in a field of a record, or under a key. -/
inductive Leaf where
  | field (index : Nat) (name : Text)
  | key (key : Text)
deriving DecidableEq, Repr

/-- The text that contents have at a leaf. -/
def Content.text? : Content → Leaf → Option Text
  | .records items, .field index name => Plan.recordText? items index name
  | .map texts, .key key => (texts.lookup? key).join
  | _, _ => none

/-- The map has the keys of another one, and texts only where that one has texts. -/
def FlatMap.Fits (wanted known : FlatMap) : Prop :=
  List.Forall₂ (fun w k => w.1 = k.1 ∧ (k.2 = none → w.2 = none)) wanted known

/-- The contents are other ones with each text replaced by any text or by none. -/
inductive Content.Fits : Content → Content → Prop
  | map {wanted known : FlatMap} (h : wanted.Fits known) : Fits (.map wanted) (.map known)
  | records {wanted known : List (Option FlatMap)}
      (h : List.Forall₂ (Option.Rel FlatMap.Fits) wanted known) : Fits (.records wanted) (.records known)

namespace FlatMap

variable {wanted known : FlatMap}

theorem Fits.lookup?_eq_none (h : wanted.Fits known) {key : Text} (hknown : (known.lookup? key).join = none) :
    (wanted.lookup? key).join = none := by
  rcases OrderedMap.lookup?_of_forall₂ (R := fun _ w k => k = none → w = none) h key with
    ⟨hnone, -⟩ | ⟨w, k, hw, hk, hleaf⟩
  · rw [hnone]
    rfl
  · rw [hk] at hknown
    rw [hw, hleaf hknown]
    rfl

theorem Fits.keys_eq (h : wanted.Fits known) : OrderedMap.keys wanted = OrderedMap.keys known :=
  OrderedMap.keys_eq_of_forall₂ h

theorem Fits.distinct (h : wanted.Fits known) (hknown : OrderedMap.Distinct known) :
    OrderedMap.Distinct wanted := by
  unfold OrderedMap.Distinct
  rw [h.keys_eq]
  exact hknown

end FlatMap

namespace Content

variable {wanted known : Content}

theorem Fits.shape_eq (h : wanted.Fits known) : wanted.shape = known.shape := by cases h <;> rfl

theorem Fits.distinct (h : wanted.Fits known) (hknown : known.Distinct) : wanted.Distinct := by
  cases h with
  | map h => exact h.distinct hknown
  | records h =>
    intro texts htexts
    obtain ⟨record, hrecord, hfits⟩ := List.Forall₂.exists_of_mem_left h htexts
    cases hfits with
    | some hfits => exact hfits.distinct (hknown _ hrecord)

/-- A translation has no text where the contents have none. -/
theorem Fits.text?_eq_none (h : wanted.Fits known) {leaf : Leaf} (hknown : known.text? leaf = none) :
    wanted.text? leaf = none := by
  cases h with
  | map h =>
    cases leaf with
    | field index name => rfl
    | key key => exact h.lookup?_eq_none hknown
  | @records wanted known h =>
    cases leaf with
    | key key => rfl
    | field index name =>
      show Plan.recordText? wanted index name = none
      have hknown : Plan.recordText? known index name = none := hknown
      unfold Plan.recordText? at hknown ⊢
      cases hw : wanted[index]? with
      | none => rfl
      | some record =>
        obtain ⟨record', hk, hfits⟩ := List.Forall₂.exists_of_getElem? h hw
        rw [hk] at hknown
        cases hfits with
        | none => rfl
        | some hfits => exact hfits.lookup?_eq_none hknown

end Content

end Bilingual
