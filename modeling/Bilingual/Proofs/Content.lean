import Bilingual.Content
import Bilingual.Proofs.ReadBack

set_option autoImplicit false

/-! # Contents read back from documents

Contents whose maps have distinct keys are read back from the document value they are written as
(`Content.ofJson_toJson`). -/

namespace Bilingual

namespace Content

/-- The maps in contents have distinct keys. -/
def Distinct : Content → Prop
  | map texts => OrderedMap.Distinct texts
  | records items => ∀ texts, some texts ∈ items → OrderedMap.Distinct texts
  | keyedRecords items =>
    OrderedMap.Distinct items ∧ ∀ key texts, (key, some texts) ∈ items → OrderedMap.Distinct texts

theorem distinct_empty (shape : Shape) : (empty shape).Distinct := by
  cases shape with
  | map => exact OrderedMap.distinct_nil
  | records => intro texts h; cases h
  | keyedRecords => exact ⟨OrderedMap.distinct_nil, fun key texts h => by cases h⟩

@[simp] theorem shape_empty (shape : Shape) : (empty shape).shape = shape := by cases shape <;> rfl

@[simp] theorem isEmpty_empty (shape : Shape) : (empty shape).isEmpty = true := by cases shape <;> rfl

theorem toJson_ne_null (content : Content) : content.toJson ≠ .null := by
  cases content <;> simp [toJson]

end Content

/-! ## Contents -/

namespace Content

theorem checkTexts_ofJson {texts : FlatMap} (h : OrderedMap.Distinct texts) :
    checkTexts (Data.ofJson (.object (texts.mapValues Json.ofOption))) = .ok texts :=
  Checked.map_ofJson h fun pair _ => Checked.nullable_text_ofOption pair.2

theorem checkRecord_ofJson {record : Option FlatMap}
    (h : ∀ texts, record = some texts → OrderedMap.Distinct texts) :
    Checked.nullable checkTexts (Data.ofJson (recordToJson record)) = .ok record := by
  cases record with
  | none => rfl
  | some texts =>
    show some <$> checkTexts (Data.ofJson (.object (texts.mapValues Json.ofOption))) = _
    rw [checkTexts_ofJson (h texts rfl)]
    rfl

/-- Contents with distinct keys are read back as they were written. -/
theorem ofJson_toJson {content : Content} (h : content.Distinct) :
    ofJson content.shape content.toJson = .ok content := by
  cases content with
  | map texts =>
    show map <$> checkTexts _ = _
    rw [toJson, checkTexts_ofJson h]
    rfl
  | records items =>
    show records <$> Checked.itemsFrom _ 0 (Data.ofItems (items.map recordToJson)) = _
    rw [Checked.itemsFrom_ofItems]
    · rfl
    · intro record hrecord
      exact checkRecord_ofJson fun texts htexts => h texts (htexts ▸ hrecord)
  | keyedRecords items =>
    show keyedRecords <$> Checked.map _ _ = _
    rw [toJson, Checked.map_ofJson h.1]
    · rfl
    · rintro ⟨key, record⟩ hpair
      exact checkRecord_ofJson fun texts htexts => h.2 key texts (by rw [← htexts]; exact hpair)

end Content

end Bilingual
