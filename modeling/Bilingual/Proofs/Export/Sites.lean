import Bilingual.Proofs.Export.Collect
import Bilingual.Proofs.Export.Legible
import Bilingual.Proofs.Export.Pairing
import Bilingual.Proofs.Export.Rows

set_option autoImplicit false

/-! # The sites of a file in the bilingual document

Both locales are exported one after the other, and their texts are joined by number or by key. For pairs
(`Category.exists_rows`) and for texts that are keyed at their sites (`Category.exists_entries`) the texts that are
joined are those of one site, and each site comes to the place of its number or its key: the texts of a field stand in
the order of its occurrences in both locales, and of the occurrences with one key the first one counts in both. This
holds whenever the file has an occurrence at all, since nothing stands in for its contents then. -/

namespace Bilingual

/-! ## What the document shows of a site -/

/-- The texts of an occurrence in both locales, and null for both where there is no occurrence. -/
def Pairing.Shows (locales : Locales) (shown : Json) : Option Occurrence → Prop
  | some o => ∃ first second, o.primary.value = .ok first ∧ o.secondary.value = .ok second ∧
      shown = .object [(locales.primary, .text first), (locales.secondary, .text second)]
  | none => shown = .object [(locales.primary, .null), (locales.secondary, .null)]

/-- The texts at one place are those of an occurrence. -/
theorem Pairing.shows_leaf {locales : Locales} (h : locales.secondary ≠ locales.primary) {o : Option Occurrence}
    {first second : Option Text}
    (hsite : Option.Rel (fun o t => Occurrence.textIn o locales locales.primary = .ok t) o first)
    (hsite' : Option.Rel (fun o t => Occurrence.textIn o locales locales.secondary = .ok t) o second) :
    Shows locales (leaf locales first second) o := by
  rw [leaf_eq h]
  cases hsite with
  | none =>
    cases hsite'
    rfl
  | some hfirst =>
    cases hsite' with
    | some hsecond =>
      rw [Occurrence.textIn_primary] at hfirst
      rw [Occurrence.textIn_secondary h] at hsecond
      exact ⟨_, _, hfirst, hsecond, rfl⟩

/-- The occurrence has a key. -/
def Occurrence.HasKey (key : Text) (o : Occurrence) : Prop := o.keyLiteral.value = .ok key

instance (key : Text) (o : Occurrence) : Decidable (o.HasKey key) :=
  inferInstanceAs (Decidable (o.keyLiteral.value = .ok key))

namespace Category

variable {c : Category} {text : Text} {locales : Locales} {locale : Text} {reference : Reference}
  {content a b : Content} {fields : List PairField} {defaults : List (OrderedMap Text)} {pattern : Pattern}
  {occurrences : List Occurrence}

/-- An entry shows occurrence `i` of a field, under its name. -/
def IsRowEntry (c : Category) (text : Text) (locales : Locales) (i : Nat) (field : PairField) (entry : Text × Json) :
    Prop :=
  entry.1 = field.name ∧ ∃ occurrences, c.occurrences text (field.pattern locales) = .ok occurrences ∧
    Pairing.Shows locales entry.2 occurrences[i]?

/-- The rows of a category of pairs: row `i` shows occurrence `i` of every field, and there are as many rows as some
field has occurrences. -/
structure IsRows (c : Category) (text : Text) (locales : Locales) (fields : List PairField) (rows : List Json) :
    Prop where
  lt_length_iff : ∀ i, i < rows.length ↔ ∃ field ∈ fields, ∃ occurrences,
    c.occurrences text (field.pattern locales) = .ok occurrences ∧ i < occurrences.length
  shows : ∀ i row, rows[i]? = some row → ∃ entries, row = .object entries ∧
    List.Forall₂ (c.IsRowEntry text locales i) fields entries

/-- The entries of texts that are keyed at their sites: one for each key, which shows the first occurrence with that
key. -/
structure IsEntries (locales : Locales) (occurrences : List Occurrence) (entries : OrderedMap Json) : Prop where
  distinct : OrderedMap.Distinct entries
  mem_keys_iff : ∀ key, key ∈ OrderedMap.keys entries ↔ ∃ o ∈ occurrences, o.HasKey key
  shows : ∀ key shown, (key, shown) ∈ entries →
    ∃ o, occurrences.find? (Occurrence.HasKey key) = some o ∧ Pairing.Shows locales shown (some o)

/-! ## What is exported where the file has an occurrence -/

/-- The contents of a category without documents are read, or its export fails. -/
theorem Exports.contents?_eq_ok (hshape : ∀ keyField bodyField defaults,
      c.placement ≠ .documents keyField bodyField defaults) (h : c.Exports text locales locale reference content) :
    ∃ found, c.contents? text locales locale = .ok found ∧
      ∀ known, found = some known → known.isEmpty = false → content = known := by
  obtain ⟨found, hcontents | ⟨-, delimiter, start, hcontents⟩, rfl⟩ := h
  · refine ⟨found, hcontents, ?_⟩
    rintro known rfl hempty
    rw [Option.filter_some, hempty]
    rfl
  · obtain ⟨⟨keyField, bodyField, defaults, hplace⟩, -⟩ := unterminated_contents? hcontents
    exact absurd hplace (hshape keyField bodyField defaults)

theorem keys_columns {columns : OrderedMap (List Text)}
    (hcolumns : List.Forall₂ (c.IsColumn text locales locale) fields columns) :
    OrderedMap.keys columns = fields.map PairField.name :=
  (List.Forall₂.map_eq_map hcolumns fun _ _ h => h.1).symm

theorem distinct_columns {columns : OrderedMap (List Text)}
    (hcolumns : List.Forall₂ (c.IsColumn text locales locale) fields columns)
    (hnames : (fields.map PairField.name).Nodup) : OrderedMap.Distinct columns := by
  unfold OrderedMap.Distinct
  rw [keys_columns hcolumns]
  exact hnames

theorem lt_length_rowsOf_columns_iff {columns : OrderedMap (List Text)}
    (hcolumns : List.Forall₂ (c.IsColumn text locales locale) fields columns) {i : Nat} :
    i < (rowsOf columns).length ↔ ∃ field ∈ fields, ∃ occurrences,
      c.occurrences text (field.pattern locales) = .ok occurrences ∧ i < occurrences.length := by
  rw [lt_length_rowsOf_iff]
  constructor
  · rintro ⟨column, hmem, hi⟩
    obtain ⟨field, hfield, -, occurrences, hoccurrences, htexts⟩ := List.Forall₂.exists_of_mem_right hcolumns hmem
    exact ⟨field, hfield, occurrences, hoccurrences, htexts.length_eq ▸ hi⟩
  · rintro ⟨field, hfield, occurrences, hoccurrences, hi⟩
    obtain ⟨column, hmem, -, occurrences', hoccurrences', htexts⟩ := List.Forall₂.exists_of_mem_left hcolumns hfield
    cases hoccurrences.symm.trans hoccurrences'
    exact ⟨column, hmem, htexts.length_eq ▸ hi⟩

/-- Where a field has an occurrence, the rows of the columns of all fields are exported. -/
theorem Exports.exists_columns (hplace : c.placement = .pairs fields defaults)
    (hnames : (fields.map PairField.name).Nodup)
    (hsite : ∃ field ∈ fields, ∃ occurrences, c.occurrences text (field.pattern locales) = .ok occurrences ∧
      occurrences ≠ [])
    (h : c.Exports text locales locale reference content) :
    ∃ columns : OrderedMap (List Text), List.Forall₂ (c.IsColumn text locales locale) fields columns ∧
      content = .records (rowsOf columns) := by
  obtain ⟨field, hfield, occurrences, hoccurrences, hne⟩ := hsite
  obtain ⟨found, hcontents, hcontent⟩ := h.contents?_eq_ok (by rw [hplace]; rintro _ _ _ ⟨⟩)
  rcases contents?_pairs hplace hcontents with ⟨hwindow, -⟩ | ⟨columns, hcolumns, hfound⟩
  · cases hoccurrences.symm.trans (occurrences_of_window?_eq_none hwindow _)
    exact absurd rfl hne
  · rw [OrderedMap.ofPairs_of_distinct (distinct_columns hcolumns hnames)] at hfound
    refine ⟨columns, hcolumns, hcontent _ hfound ?_⟩
    have hrows : 0 < (rowsOf columns).length :=
      (lt_length_rowsOf_columns_iff hcolumns).2 ⟨field, hfield, occurrences, hoccurrences, List.length_pos_iff.2 hne⟩
    exact beq_eq_false_iff_ne.2 (Nat.ne_of_gt hrows)

/-- Where there is an occurrence, the first text of every key is exported. -/
theorem Exports.exists_pairs (hpattern : c.placement.keyedPattern? locales = some pattern)
    (hoccurrences : c.occurrences text pattern = .ok occurrences) (hne : occurrences ≠ [])
    (h : c.Exports text locales locale reference content) :
    ∃ pairs, List.Forall₂ (IsKeyed locales locale) occurrences pairs ∧
      content = .map (Placement.completeRecord (OrderedMap.putNewAll [] pairs)) := by
  obtain ⟨found, hcontents, hcontent⟩ := h.contents?_eq_ok (by
    intro keyField bodyField defaults hplace
    rw [hplace] at hpattern
    cases hpattern)
  rcases contents?_keyed hpattern hcontents with ⟨hwindow, -⟩ | ⟨occurrences', pairs, hoccurrences', hpairs, hfound⟩
  · cases hoccurrences.symm.trans (occurrences_of_window?_eq_none hwindow _)
    exact absurd rfl hne
  · cases hoccurrences.symm.trans hoccurrences'
    refine ⟨pairs, hpairs, hcontent _ hfound ?_⟩
    refine beq_eq_false_iff_ne.2 fun hsize => ?_
    have hnil : Placement.completeRecord (OrderedMap.putNewAll [] pairs) = [] := List.eq_nil_of_length_eq_zero hsize
    cases hpairs with
    | nil => exact hne rfl
    | @cons o pair _ rest _ _ =>
      have hlookup := lookup?_keyed (pair :: rest) pair.1
      rw [hnil, OrderedMap.lookup?, OrderedMap.lookup?, if_pos rfl] at hlookup
      cases hlookup

/-! ## Pairs -/

/-- The texts of a field in a row. -/
theorem rel_of_column {columns : OrderedMap (List Text)}
    (hcolumns : List.Forall₂ (c.IsColumn text locales locale) fields columns)
    (hnames : (fields.map PairField.name).Nodup) {field : PairField} (hfield : field ∈ fields)
    (hoccurrences : c.occurrences text (field.pattern locales) = .ok occurrences) (i : Nat) :
    Option.Rel (fun o t => Occurrence.textIn o locales locale = .ok t) occurrences[i]?
      (OrderedMap.lookup? (columns.mapValues fun texts => texts[i]?) field.name).join := by
  obtain ⟨occurrences', texts, hoccurrences', hlookup, htexts⟩ := lookup?_columns hcolumns hnames hfield
  cases hoccurrences.symm.trans hoccurrences'
  rw [OrderedMap.ofPairs_of_distinct (distinct_columns hcolumns hnames)] at hlookup
  rw [OrderedMap.lookup?_mapValues, hlookup]
  show Option.Rel _ _ texts[i]?
  cases ho : occurrences[i]? with
  | some o =>
    obtain ⟨t, ht, hvalue⟩ := List.Forall₂.exists_of_getElem? htexts ho
    rw [ht]
    exact .some hvalue
  | none =>
    have hlength := List.getElem?_eq_none_iff.1 ho
    rw [htexts.length_eq] at hlength
    rw [List.getElem?_eq_none hlength]
    exact .none

/-- The row that both locales make of their texts shows the occurrences with its number. -/
theorem isRowEntry_record (h : locales.secondary ≠ locales.primary) (hnames : (fields.map PairField.name).Nodup)
    {first second : OrderedMap (List Text)}
    (hfirst : List.Forall₂ (c.IsColumn text locales locales.primary) fields first)
    (hsecond : List.Forall₂ (c.IsColumn text locales locales.secondary) fields second) (i : Nat) :
    List.Forall₂ (c.IsRowEntry text locales i) fields
      (Pairing.fieldsByKey (fun x y => Pairing.leaf locales x.join y.join) (first.mapValues fun texts => texts[i]?)
        (second.mapValues fun texts => texts[i]?)) := by
  have hkeys : OrderedMap.keys (second.mapValues fun texts => texts[i]?) =
      OrderedMap.keys (first.mapValues fun texts => texts[i]?) := by
    rw [OrderedMap.keys_mapValues, OrderedMap.keys_mapValues, keys_columns hfirst, keys_columns hsecond]
  rw [Pairing.fieldsByKey, OrderedMap.unionKeys_of_keys_eq hkeys, OrderedMap.keys_mapValues, keys_columns hfirst,
    List.map_map, List.forall₂_map_right_iff, List.forall₂_same]
  intro field hfield
  obtain ⟨-, -, -, occurrences, hoccurrences, -⟩ := List.Forall₂.exists_of_mem_left hfirst hfield
  exact ⟨rfl, occurrences, hoccurrences, Pairing.shows_leaf h (rel_of_column hfirst hnames hfield hoccurrences i)
    (rel_of_column hsecond hnames hfield hoccurrences i)⟩

/-- The document has for pairs that stand in their file the rows of their occurrences. -/
theorem exists_rows (h : locales.secondary ≠ locales.primary) (hplace : c.placement = .pairs fields defaults)
    (hnames : (fields.map PairField.name).Nodup)
    (hsite : ∃ field ∈ fields, ∃ occurrences, c.occurrences text (field.pattern locales) = .ok occurrences ∧
      occurrences ≠ [])
    (ha : c.Exports text locales locales.primary reference a)
    (hb : c.Exports text locales locales.secondary reference b) :
    ∃ rows, Pairing.contents locales c.placement.shape (some a) (some b) = .list rows ∧
      c.IsRows text locales fields rows := by
  obtain ⟨first, hfirst, rfl⟩ := ha.exists_columns hplace hnames hsite
  obtain ⟨second, hsecond, rfl⟩ := hb.exists_columns hplace hnames hsite
  have hlength := Pairing.length_itemsByNumber locales (rowsOf first) (rowsOf second)
  -- both locales have the same number of rows, since they are read at the same occurrences
  have hheight : ∀ i, i < (rowsOf first).length ↔ i < (rowsOf second).length := fun i =>
    (lt_length_rowsOf_columns_iff hfirst).trans (lt_length_rowsOf_columns_iff hsecond).symm
  have hmax : ∀ i, i < (Pairing.itemsByNumber locales (rowsOf first) (rowsOf second)).length ↔
      i < (rowsOf first).length := by
    intro i
    have := hheight i
    omega
  refine ⟨Pairing.itemsByNumber locales (rowsOf first) (rowsOf second), rfl,
    fun i => (hmax i).trans (lt_length_rowsOf_columns_iff hfirst), fun i row hrow => ?_⟩
  have hi : i < (rowsOf first).length := (hmax i).1 (List.getElem?_eq_some_iff.1 hrow).1
  rw [Pairing.getElem?_itemsByNumber (by omega), getElem?_rowsOf hi, getElem?_rowsOf ((hheight i).1 hi)] at hrow
  cases hrow
  exact ⟨_, rfl, isRowEntry_record h hnames hfirst hsecond i⟩

/-! ## Texts that are keyed at their sites -/

/-- Under a key stands the text of the first occurrence with that key. -/
theorem rel_of_pairs {pairs : List (Text × Text)}
    (hpairs : List.Forall₂ (IsKeyed locales locale) occurrences pairs) (key : Text) :
    Option.Rel (fun o t => Occurrence.textIn o locales locale = .ok t) (occurrences.find? (Occurrence.HasKey key))
      (OrderedMap.lookup? pairs key) := by
  induction hpairs with
  | nil => exact .none
  | @cons o pair occurrences pairs hpair _ ih =>
    obtain ⟨k, t⟩ := pair
    obtain ⟨hkey, ht⟩ := hpair
    rw [List.find?_cons, OrderedMap.lookup?]
    by_cases hk : k = key
    · have hhas : o.HasKey key := hk ▸ hkey
      rw [decide_eq_true hhas, if_pos hk]
      exact .some ht
    · have hhas : ¬ o.HasKey key := fun hhas => hk (Except.ok.inj (hkey.symm.trans hhas))
      rw [decide_eq_false hhas, if_neg hk]
      exact ih

theorem mem_keys_keyed_iff {pairs : List (Text × Text)}
    (hpairs : List.Forall₂ (IsKeyed locales locale) occurrences pairs) (key : Text) :
    key ∈ OrderedMap.keys (Placement.completeRecord (OrderedMap.putNewAll [] pairs)) ↔
      ∃ o ∈ occurrences, o.HasKey key := by
  have hrel := rel_of_pairs hpairs key
  generalize hfind : occurrences.find? (Occurrence.HasKey key) = found,
    hlookup : OrderedMap.lookup? pairs key = value at hrel
  cases hrel with
  | none =>
    refine iff_of_false (OrderedMap.lookup?_eq_none_iff.1 ?_) ?_
    · rw [lookup?_keyed, hlookup]
      rfl
    · rintro ⟨o, ho, hkey⟩
      exact List.find?_eq_none.1 hfind o ho (decide_eq_true hkey)
  | @some o t _ =>
    have hhas : o.HasKey key := by simpa using List.find?_some hfind
    have hmem : (key, some t) ∈ Placement.completeRecord (OrderedMap.putNewAll [] pairs) := by
      refine OrderedMap.mem_of_lookup? ?_
      rw [lookup?_keyed, hlookup]
      rfl
    exact iff_of_true (OrderedMap.mem_keys_of_mem hmem) ⟨o, List.mem_of_find?_eq_some hfind, hhas⟩

/-- The document has for texts that are keyed at their sites an entry for every key. -/
theorem exists_entries (h : locales.secondary ≠ locales.primary)
    (hpattern : c.placement.keyedPattern? locales = some pattern)
    (hoccurrences : c.occurrences text pattern = .ok occurrences) (hne : occurrences ≠ [])
    (ha : c.Exports text locales locales.primary reference a)
    (hb : c.Exports text locales locales.secondary reference b) :
    ∃ entries, Pairing.contents locales c.placement.shape (some a) (some b) = .object entries ∧
      IsEntries locales occurrences entries := by
  obtain ⟨first, hfirst, rfl⟩ := ha.exists_pairs hpattern hoccurrences hne
  obtain ⟨second, hsecond, rfl⟩ := hb.exists_pairs hpattern hoccurrences hne
  have hdistinct : ∀ pairs : List (Text × Text),
      OrderedMap.Distinct (Placement.completeRecord (OrderedMap.putNewAll [] pairs)) :=
    fun pairs => Placement.distinct_completeRecord (OrderedMap.distinct_nil.putNewAll pairs)
  refine ⟨Pairing.fieldsByKey (fun x y => Pairing.leaf locales x.join y.join) _ _, rfl, ?_, fun key => ?_,
    fun key shown hmem => ?_⟩
  · unfold OrderedMap.Distinct
    rw [Pairing.keys_fieldsByKey]
    exact OrderedMap.nodup_unionKeys (hdistinct first) (hdistinct second)
  · rw [Pairing.keys_fieldsByKey, OrderedMap.mem_unionKeys_iff, mem_keys_keyed_iff hfirst, mem_keys_keyed_iff hsecond,
      or_self]
  · obtain ⟨k, hk, heq⟩ := List.mem_map.1 hmem
    cases heq
    rw [OrderedMap.mem_unionKeys_iff, mem_keys_keyed_iff hfirst, mem_keys_keyed_iff hsecond, or_self] at hk
    obtain ⟨o, ho, hkey⟩ := hk
    have hsome : (occurrences.find? (Occurrence.HasKey key)).isSome :=
      List.find?_isSome.2 ⟨o, ho, decide_eq_true hkey⟩
    obtain ⟨found, hfound⟩ := Option.isSome_iff_exists.1 hsome
    refine ⟨found, hfound, ?_⟩
    have hjoin : ∀ pairs : List (Text × Text),
        (OrderedMap.lookup? (Placement.completeRecord (OrderedMap.putNewAll [] pairs)) key).join =
          OrderedMap.lookup? pairs key := by
      intro pairs
      rw [lookup?_keyed]
      cases OrderedMap.lookup? pairs key <;> rfl
    dsimp only
    rw [hjoin, hjoin, ← hfound]
    exact Pairing.shows_leaf h (rel_of_pairs hfirst key) (rel_of_pairs hsecond key)

end Category

end Bilingual
