import Bilingual.Proofs.Content
import Bilingual.Proofs.Json.Distinct
import Bilingual.Snapshot.Basic
import Bilingual.Snapshot.Reference

set_option autoImplicit false

/-! # Contents of the bilingual reference

Whatever the reference document has under the name of a category, its contents have the shape that is asked for
(`Reference.shape_of_contents?`). They keep the names of the objects they are read from, so their maps have distinct
keys (`Reference.IsSound.distinct_of_contents?`). -/

namespace Bilingual

namespace Reference

variable {reference : Reference} {name locale primary : Text} {shape : Shape} {content : Content}

/-- No object in the document has a name twice. -/
def IsSound (reference : Reference) : Prop := ∀ document ∈ reference, (Json.object document).isDistinct = true

theorem isSound_none : IsSound none := fun _ h => (nomatch h)

/-- A document that has been read is sound. -/
theorem isSound_of_readObject {text : Text} {document : OrderedMap Json} (h : readObject text = .ok document) :
    IsSound (some document) := by
  unfold readObject at h
  split at h
  · next hread =>
    cases h
    rintro _ ⟨⟩
    exact Json.isDistinct_of_read? hread
  · cases h
  · cases h

theorem shape_of_contents? (h : reference.contents? name shape locale primary = some content) :
    content.shape = shape := by
  obtain ⟨document, -, h⟩ := Option.bind_eq_some_iff.1 h
  obtain ⟨raw, -, h⟩ := Option.bind_eq_some_iff.1 h
  cases shape <;> cases raw <;> cases h <;> rfl

/-- Reading the values of an object leaves its names. -/
theorem distinct_mapValues {α : Type} {fields : OrderedMap Json} (read : Json → α)
    (h : (Json.object fields).isDistinct = true) : OrderedMap.Distinct (fields.mapValues read) := by
  unfold OrderedMap.Distinct
  rw [OrderedMap.keys_mapValues]
  exact (Json.isDistinct_object.1 h).2

theorem distinct_of_record {value : Json} {texts : FlatMap} (hvalue : value.isDistinct = true)
    (h : record locale primary value = some texts) : OrderedMap.Distinct texts := by
  cases value with
  | object fields =>
    cases h
    exact distinct_mapValues _ hvalue
  | _ => cases h

/-- The contents that a sound document has for a category have distinct keys, whatever its values are. -/
theorem IsSound.distinct_of_contents? (hsound : reference.IsSound)
    (h : reference.contents? name shape locale primary = some content) : content.Distinct := by
  obtain ⟨document, hdocument, h⟩ := Option.bind_eq_some_iff.1 h
  obtain ⟨raw, hraw, h⟩ := Option.bind_eq_some_iff.1 h
  have hvalue : raw.isDistinct = true :=
    (Json.isDistinct_object.1 (hsound document hdocument)).1 _ (OrderedMap.mem_of_lookup? hraw)
  split at h
  · cases h
    exact distinct_mapValues _ hvalue
  · next fields =>
    cases h
    refine ⟨distinct_mapValues _ hvalue, fun key texts hmem => ?_⟩
    obtain ⟨field, hfield, heq⟩ := List.mem_map.1 hmem
    exact distinct_of_record ((Json.isDistinct_object.1 hvalue).1 field hfield) (congrArg Prod.snd heq)
  · next items =>
    cases h
    intro texts hmem
    obtain ⟨item, hitem, heq⟩ := List.mem_map.1 hmem
    exact distinct_of_record (Json.isDistinct_list.1 hvalue item hitem) heq
  · cases h

end Reference

end Bilingual
