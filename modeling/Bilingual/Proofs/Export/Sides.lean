import Bilingual.Proofs.Export.Pairing
import Bilingual.Proofs.Translate.Leaf

set_option autoImplicit false

/-! # The sides of the bilingual document

In either locale the bilingual document has the texts of the contents of that locale, at the same places
(`Pairing.textAt?_of_contents?`). At a place there is no text if it is missing, and also if its key, its field or its
record is missing: pairing brings in the keys, fields and records that only the other side has. This goes up from texts
(`Pairing.leaf_side`) through maps (`Pairing.lookup?_side`) and records to contents. -/

namespace Bilingual

/-- Where a text stands in contents of any shape: at a leaf, or in a field of the record under a key. -/
inductive TextPlace where
  | leaf (leaf : Leaf)
  | keyedField (key name : Text)
deriving DecidableEq, Repr

/-- The text of a record in a field; a missing record has none. -/
def fieldText? (record : Option FlatMap) (name : Text) : Option Text :=
  record.bind fun texts => (texts.lookup? name).join

theorem fieldText?_eq (record : Option FlatMap) (name : Text) :
    fieldText? record name = (OrderedMap.lookup? (record.getD []) name).join := by
  cases record <;> rfl

/-- The text that contents have at a place. -/
def Content.textAt? (content : Content) : TextPlace → Option Text
  | .leaf leaf => content.text? leaf
  | .keyedField key name =>
    match content with
    | keyedRecords items => fieldText? (items.lookup? key).join name
    | map _ | records _ => none

/-- Of two things, one for each locale, that of a locale. -/
def Locales.side {α : Type} (locales : Locales) (locale : Text) (first second : α) : α :=
  if locale = locales.primary then first else second

theorem Locales.side_primary {α : Type} (locales : Locales) (first second : α) :
    locales.side locales.primary first second = first := if_pos rfl

theorem Locales.side_secondary {α : Type} {locales : Locales} (h : locales.secondary ≠ locales.primary)
    (first second : α) : locales.side locales.secondary first second = second := if_neg h

theorem Locales.apply_side {α β : Type} (f : α → β) (locales : Locales) (locale : Text) (first second : α) :
    f (locales.side locale first second) = locales.side locale (f first) (f second) :=
  apply_ite f _ _ _

namespace Pairing

variable {locales : Locales} {locale : Text}

/-! ## Texts -/

theorem leaf_side (h : locales.secondary ≠ locales.primary)
    (hlocale : locale = locales.primary ∨ locale = locales.secondary) (first second : Option Text) :
    Reference.leaf locale locales.primary (leaf locales first second) = locales.side locale first second := by
  obtain ⟨hfirst, hsecond⟩ := leaf_leaf h first second
  rcases hlocale with rfl | rfl
  · rw [Locales.side_primary, hfirst]
  · rw [Locales.side_secondary h, hsecond]

/-! ## Maps -/

section Maps

variable {α β : Type} {pair : Option α → Option α → Json}

/-- A key that neither map has is not there when they are paired. -/
theorem lookup?_fieldsByKey_of_not_mem (pair : Option α → Option α → Json) {a b : OrderedMap α} {key : Text}
    (hkey : key ∉ OrderedMap.unionKeys a b) :
    a.lookup? key = none ∧ b.lookup? key = none ∧ (fieldsByKey pair a b).lookup? key = none := by
  rw [OrderedMap.mem_unionKeys_iff, not_or] at hkey
  refine ⟨OrderedMap.lookup?_eq_none_iff.2 hkey.1, OrderedMap.lookup?_eq_none_iff.2 hkey.2, ?_⟩
  rw [OrderedMap.lookup?_eq_none_iff, keys_fieldsByKey, OrderedMap.mem_unionKeys_iff, not_or]
  exact hkey

/-- What is read under a key of paired maps is what is read there on one side, if this holds of every pair. A key that
is missing on the side is read as a value that is missing. -/
theorem lookup?_side {read : Json → α} (value : Option α → β)
    (hpair : ∀ x y, value (some (read (pair x y))) = value (locales.side locale x y)) (a b : OrderedMap α)
    (key : Text) :
    value (((fieldsByKey pair a b).mapValues read).lookup? key) = value ((locales.side locale a b).lookup? key) := by
  rw [Locales.apply_side (OrderedMap.lookup? · key)]
  by_cases hkey : key ∈ OrderedMap.unionKeys a b
  · rw [lookup?_mapValues_fieldsByKey pair read hkey, hpair]
  · obtain ⟨ha, hb, hpaired⟩ := lookup?_fieldsByKey_of_not_mem pair hkey
    rw [OrderedMap.lookup?_mapValues, hpaired, ha, hb, Option.map_none, Locales.side, ite_self]

end Maps

theorem texts_side (h : locales.secondary ≠ locales.primary)
    (hlocale : locale = locales.primary ∨ locale = locales.secondary) (a b : FlatMap) (key : Text) :
    (((fieldsByKey (fun x y => leaf locales x.join y.join) a b).mapValues
      (Reference.leaf locale locales.primary)).lookup? key).join = ((locales.side locale a b).lookup? key).join := by
  refine lookup?_side Option.join (fun x y => ?_) a b key
  rw [Locales.apply_side Option.join]
  exact leaf_side h hlocale x.join y.join

/-! ## Records -/

theorem record_side (h : locales.secondary ≠ locales.primary)
    (hlocale : locale = locales.primary ∨ locale = locales.secondary) (first second : Option (Option FlatMap))
    (name : Text) :
    fieldText? (Reference.record locale locales.primary (record locales first second)) name =
      fieldText? (locales.side locale first second).join name := by
  rw [Locales.apply_side fun record : Option (Option FlatMap) => fieldText? record.join name]
  simp only [fieldText?_eq]
  rw [← Locales.apply_side fun texts : FlatMap => (texts.lookup? name).join]
  exact texts_side h hlocale (first.join.getD []) (second.join.getD []) name

/-- What is read in a field of a record of paired lists is what is read there on one side. -/
theorem records_side (h : locales.secondary ≠ locales.primary)
    (hlocale : locale = locales.primary ∨ locale = locales.secondary) (a b : List (Option FlatMap)) (i : Nat)
    (name : Text) :
    fieldText? ((itemsByNumber locales a b).map (Reference.record locale locales.primary))[i]?.join name =
      fieldText? (locales.side locale a b)[i]?.join name := by
  rw [Locales.apply_side fun items : List (Option FlatMap) => fieldText? items[i]?.join name]
  by_cases hi : i < max a.length b.length
  · rw [List.getElem?_map, getElem?_itemsByNumber hi]
    refine (record_side h hlocale a[i]? b[i]? name).trans ?_
    exact Locales.apply_side (fun record : Option (Option FlatMap) => fieldText? record.join name) locales locale _ _
  · have hlength := length_itemsByNumber locales a b
    rw [List.getElem?_map, List.getElem?_eq_none (l := itemsByNumber locales a b) (by omega),
      List.getElem?_eq_none (l := a) (by omega), List.getElem?_eq_none (l := b) (by omega), Locales.side, ite_self]
    rfl

/-! ## Contents -/

/-- What the document has for a category in a locale has the texts of the contents of that locale that it was made of,
at the same places. -/
theorem textAt?_of_contents? {a b : Content} {document : OrderedMap Json} {name : Text} {shape : Shape}
    (h : locales.secondary ≠ locales.primary) (hlocale : locale = locales.primary ∨ locale = locales.secondary)
    (ha : a.shape = shape) (hb : b.shape = shape)
    (hraw : OrderedMap.lookup? document name = some (contents locales shape (some a) (some b))) :
    ∃ known, Reference.contents? (some document) name shape locale locales.primary = some known ∧
      known.shape = shape ∧ ∀ place, known.textAt? place = (locales.side locale a b).textAt? place := by
  subst ha
  cases a with
  | map a =>
    cases b with
    | map b =>
      refine ⟨_, contents?_map hraw, rfl, fun place => ?_⟩
      rw [← Locales.apply_side Content.map]
      match place with
      | .leaf (.key key) => exact texts_side h hlocale a b key
      | .leaf (.field ..) | .keyedField .. => rfl
    | _ => cases hb
  | records a =>
    cases b with
    | records b =>
      refine ⟨_, contents?_records hraw, rfl, fun place => ?_⟩
      rw [← Locales.apply_side Content.records]
      match place with
      | .leaf (.field index name) => exact records_side h hlocale a b index name
      | .leaf (.key _) | .keyedField .. => rfl
    | _ => cases hb
  | keyedRecords a =>
    cases b with
    | keyedRecords b =>
      refine ⟨_, contents?_keyedRecords hraw, rfl, fun place => ?_⟩
      rw [← Locales.apply_side Content.keyedRecords]
      match place with
      | .keyedField key name =>
        refine lookup?_side (fun found => fieldText? found.join name) (fun x y => ?_) a b key
        exact record_side h hlocale x y name
      | .leaf _ => rfl
    | _ => cases hb

end Pairing

end Bilingual
