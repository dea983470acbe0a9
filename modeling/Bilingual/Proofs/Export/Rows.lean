import Bilingual.Proofs.Export.Contents
import Bilingual.Proofs.Plan.Site

set_option autoImplicit false

/-! # Records as rows of columns

The records of a category of pairs are the rows of the columns of its fields. Read back the way patching
binds texts to occurrences, row `i` has for a field text number `i` of the column (`recordText?_rowsOf`), so
record `i` goes back to the occurrence that it was read from. -/

namespace Bilingual

theorem lt_foldl_max_iff {l : List Nat} {start i : Nat} : i < l.foldl max start ↔ i < start ∨ ∃ n ∈ l, i < n := by
  induction l generalizing start with
  | nil => simp
  | cons first rest ih =>
    have hmax : i < max start first ↔ i < start ∨ i < first := by omega
    rw [List.foldl_cons, ih, List.exists_mem_cons_iff, ← or_assoc, hmax]

/-- There are as many rows as the longest column has texts. -/
theorem lt_length_rowsOf_iff {columns : OrderedMap (List Text)} {i : Nat} :
    i < (rowsOf columns).length ↔ ∃ column ∈ columns, i < column.2.length := by
  unfold rowsOf
  rw [List.length_map, List.length_range, lt_foldl_max_iff]
  simp

theorem getElem?_rowsOf {columns : OrderedMap (List Text)} {i : Nat} (hi : i < (rowsOf columns).length) :
    (rowsOf columns)[i]? = some (some (columns.mapValues fun texts => texts[i]?)) := by
  unfold rowsOf at hi ⊢
  rw [List.length_map, List.length_range] at hi
  rw [List.getElem?_map, List.getElem?_range hi]
  rfl

/-- Row `i` binds to a field the text number `i` of its column. -/
theorem recordText?_rowsOf {columns : OrderedMap (List Text)} {name : Text} {texts : List Text}
    (h : columns.lookup? name = some texts) (i : Nat) :
    Plan.recordText? (rowsOf columns) i name = texts[i]? := by
  unfold Plan.recordText?
  by_cases hi : i < (rowsOf columns).length
  · rw [getElem?_rowsOf hi]
    show (OrderedMap.lookup? (columns.mapValues fun texts => texts[i]?) name).join = texts[i]?
    rw [OrderedMap.lookup?_mapValues, h]
    rfl
  · have hshort : ¬ i < texts.length := fun hlt =>
      hi (lt_length_rowsOf_iff.2 ⟨_, OrderedMap.mem_of_lookup? h, hlt⟩)
    rw [List.getElem?_eq_none (by omega), List.getElem?_eq_none (by omega)]
    rfl

/-- Every column is found under the name of its field, when names do not repeat. -/
theorem Category.lookup?_columns {c : Category} {text locale : Text} {locales : Locales}
    {fields : List PairField} {columns : List (Text × List Text)}
    (hcolumns : List.Forall₂ (c.IsColumn text locales locale) fields columns)
    (hnames : (fields.map PairField.name).Nodup) {field : PairField} (hfield : field ∈ fields) :
    ∃ occurrences texts, c.occurrences text (field.pattern locales) = .ok occurrences ∧
      OrderedMap.lookup? (OrderedMap.ofPairs columns) field.name = some texts ∧
      List.Forall₂ (fun o t => o.textIn locales locale = .ok t) occurrences texts := by
  obtain ⟨⟨name, texts⟩, hmem, hname, occurrences, hoccurrences, htexts⟩ :=
    List.Forall₂.exists_of_mem_left hcolumns hfield
  have hkeys : fields.map PairField.name = columns.map Prod.fst :=
    List.Forall₂.map_eq_map hcolumns fun _ _ h => h.1
  have hdistinct : (columns.map Prod.fst).Nodup := hkeys ▸ hnames
  refine ⟨occurrences, texts, hoccurrences, ?_, htexts⟩
  rw [OrderedMap.ofPairs_of_distinct hdistinct, hname]
  exact OrderedMap.lookup?_of_mem hdistinct hmem

end Bilingual
