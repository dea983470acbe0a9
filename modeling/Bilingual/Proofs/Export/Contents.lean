import Bilingual.Export.Contents
import Bilingual.Proofs.Content
import Bilingual.Proofs.Document.Segment
import Bilingual.Proofs.Failure
import Bilingual.Proofs.Manifest

set_option autoImplicit false

/-! # What the contents of a file are

For each kind of category: the contents that a file has for it, in terms of its sites alone. From this the
contents have the shape of their kind, and the maps in them have distinct keys
(`Category.shape_distinct_of_contents?`). -/

namespace Bilingual

/-- A step through a list that keeps a key for every member. -/
theorem Except.mapM_keyed_iff {ε α β γ : Type} {key : γ → β} {f : γ → Except ε α} {l : List γ}
    {pairs : List (β × α)} :
    (l.mapM fun a => do return (key a, ← f a)) = .ok pairs ↔
      List.Forall₂ (fun a pair => key a = pair.1 ∧ f a = .ok pair.2) l pairs := by
  rw [Except.mapM_eq_ok_iff]
  have hpair : ∀ (a : γ) (pair : β × α),
      (do return (key a, ← f a) : Except ε (β × α)) = .ok pair ↔ key a = pair.1 ∧ f a = .ok pair.2 := by
    rintro a ⟨k, b⟩
    rw [Except.bind_eq_ok_iff]
    constructor
    · rintro ⟨b', hb, h⟩
      cases h
      exact ⟨rfl, hb⟩
    · rintro ⟨rfl, hb⟩
      exact ⟨b, hb, rfl⟩
  constructor
  · intro h
    exact h.imp fun a pair => (hpair a pair).1
  · intro h
    exact h.imp fun a pair => (hpair a pair).2

theorem Occurrence.textIn_primary {o : Occurrence} {locales : Locales} :
    o.textIn locales locales.primary = o.primary.value := by
  unfold textIn
  rw [if_pos rfl]

theorem Occurrence.textIn_secondary {o : Occurrence} {locales : Locales}
    (h : locales.secondary ≠ locales.primary) : o.textIn locales locales.secondary = o.secondary.value := by
  unfold textIn
  rw [if_neg h]

namespace Category

variable {c : Category} {text : Text} {locales : Locales} {locale : Text} {found : Option Content}

/-! ## Sites that stand alone -/

theorem occurrences_of_window?_eq_none (h : c.window? text = none) (pattern : Pattern) :
    c.occurrences text pattern = .ok [] := by
  unfold occurrences mapOccurrences
  rw [h]
  rfl

/-- A column holds the texts of the occurrences of a field, under its name. -/
def IsColumn (c : Category) (text : Text) (locales : Locales) (locale : Text) (field : PairField)
    (column : Text × List Text) : Prop :=
  field.name = column.1 ∧ ∃ occurrences, c.occurrences text (field.pattern locales) = .ok occurrences ∧
    List.Forall₂ (fun o t => o.textIn locales locale = .ok t) occurrences column.2

theorem contents?_pairs {fields : List PairField} {defaults : List (OrderedMap Text)}
    (hplace : c.placement = .pairs fields defaults) (h : c.contents? text locales locale = .ok found) :
    (c.window? text = none ∧ found = none) ∨
      ∃ columns, List.Forall₂ (c.IsColumn text locales locale) fields columns ∧
        found = some (.records (rowsOf (OrderedMap.ofPairs columns))) := by
  simp only [contents?, hplace] at h
  split at h
  · next hwindow =>
    cases h
    exact .inl ⟨Option.isNone_iff_eq_none.1 hwindow, rfl⟩
  · right
    obtain ⟨table, htable, h⟩ := Except.bind_eq_ok_iff.1 h
    cases h
    obtain ⟨columns, hcolumns, htable⟩ := Except.bind_eq_ok_iff.1 htable
    cases htable
    refine ⟨columns, (Except.mapM_eq_ok_iff.1 hcolumns).imp fun field column hcolumn => ?_, rfl⟩
    obtain ⟨texts, hread, heq⟩ := Except.bind_eq_ok_iff.1 hcolumn
    cases heq
    obtain ⟨occurrences, hoccurrences, htexts⟩ := mapOccurrences_eq_ok_iff.1 hread
    exact ⟨rfl, occurrences, hoccurrences, Except.mapM_eq_ok_iff.1 htexts⟩

/-- A pair holds the key and the text of an occurrence. -/
def IsKeyed (locales : Locales) (locale : Text) (o : Occurrence) (pair : Text × Text) : Prop :=
  o.keyLiteral.value = .ok pair.1 ∧ o.textIn locales locale = .ok pair.2

theorem shape_of_keyedPattern? {pattern : Pattern} (h : c.placement.keyedPattern? locales = some pattern) :
    c.placement.shape = .map := by
  cases hkind : c.placement with
  | keyedPairs keyField label defaults => rfl
  | choices condition defaults => rfl
  | _ =>
    rw [hkind] at h
    cases h

theorem contents?_eq_keyed {pattern : Pattern}
    (hplace : c.placement.keyedPattern? locales = some pattern) :
    c.contents? text locales locale = do
      if (c.window? text).isNone then return none
      return some (.map (Placement.completeRecord (← c.keyedTexts text locales locale pattern))) := by
  unfold contents?
  cases hkind : c.placement with
  | keyedPairs keyField label defaults =>
    rw [hkind] at hplace
    cases hplace
    rfl
  | choices condition defaults =>
    rw [hkind] at hplace
    cases hplace
    rfl
  | _ =>
    rw [hkind] at hplace
    cases hplace

theorem contents?_keyed {pattern : Pattern} (hplace : c.placement.keyedPattern? locales = some pattern)
    (h : c.contents? text locales locale = .ok found) :
    (c.window? text = none ∧ found = none) ∨
      ∃ occurrences pairs, c.occurrences text pattern = .ok occurrences ∧
        List.Forall₂ (IsKeyed locales locale) occurrences pairs ∧
        found = some (.map (Placement.completeRecord (OrderedMap.putNewAll [] pairs))) := by
  rw [contents?_eq_keyed hplace] at h
  split at h
  · next hwindow =>
    cases h
    exact .inl ⟨Option.isNone_iff_eq_none.1 hwindow, rfl⟩
  · right
    obtain ⟨texts, htexts, hfound⟩ := Except.bind_eq_ok_iff.1 h
    cases hfound
    obtain ⟨pairs, hkeyed, heq⟩ := Except.bind_eq_ok_iff.1 htexts
    cases heq
    obtain ⟨occurrences, hoccurrences, hpairs⟩ := mapOccurrences_eq_ok_iff.1 hkeyed
    refine ⟨occurrences, pairs, hoccurrences, (Except.mapM_eq_ok_iff.1 hpairs).imp ?_, rfl⟩
    intro o pair hpair
    obtain ⟨key, hkey, hpair⟩ := Except.bind_eq_ok_iff.1 hpair
    obtain ⟨value, hvalue, hpair⟩ := Except.bind_eq_ok_iff.1 hpair
    cases hpair
    exact ⟨hkey, hvalue⟩

/-- Of the texts that have one key the first one counts. -/
theorem lookup?_keyed (pairs : List (Text × Text)) (key : Text) :
    OrderedMap.lookup? (Placement.completeRecord (OrderedMap.putNewAll [] pairs)) key =
      (OrderedMap.lookup? pairs key).map some := by
  unfold Placement.completeRecord
  rw [OrderedMap.lookup?_mapValues, OrderedMap.lookup?_putNewAll]
  rfl

theorem contents?_documents {keyField bodyField : Text} {defaults : OrderedMap Text}
    (hplace : c.placement = .documents keyField bodyField defaults)
    (h : c.contents? text locales locale = .ok found) :
    ∃ bodies, c.documentBodies text locale = .ok bodies ∧
      ((bodies = none ∧ found = none) ∨
        ∃ spans texts, bodies = some spans ∧
          List.Forall₂ (fun span t => span.1 = t.1 ∧
            Literal.decode (text.slice span.2.1 span.2.2) = .ok t.2) spans texts ∧
          found = some (.map (Placement.completeRecord texts))) := by
  simp only [contents?, hplace] at h
  obtain ⟨bodies, hbodies, h⟩ := Except.bind_eq_ok_iff.1 h
  refine ⟨bodies, hbodies, ?_⟩
  cases bodies with
  | none =>
    cases h
    exact .inl ⟨rfl, rfl⟩
  | some spans =>
    right
    obtain ⟨texts, htexts, h⟩ := Except.bind_eq_ok_iff.1 h
    cases h
    exact ⟨spans, texts, rfl, Except.mapM_keyed_iff.1 htexts, rfl⟩

theorem contents?_scalarFields {anchors : List Text} {fields : List ScalarField}
    {defaults : OrderedMap Text} (hplace : c.placement = .scalarFields anchors fields defaults)
    (h : c.contents? text locales locale = .ok found) :
    (c.scalarLiterals? text locale = none ∧ found = none) ∨
      ∃ literals texts, c.scalarLiterals? text locale = some literals ∧
        List.Forall₂ (fun l t => l.1 = t.1 ∧ l.2.value = .ok t.2) literals texts ∧
        found = some (.map (Placement.completeRecord texts)) := by
  simp only [contents?, hplace] at h
  split at h
  · next hnone =>
    cases h
    exact .inl ⟨hnone, rfl⟩
  · next literals hsome =>
    right
    obtain ⟨texts, htexts, h⟩ := Except.bind_eq_ok_iff.1 h
    cases h
    exact ⟨literals, texts, hsome, Except.mapM_keyed_iff.1 htexts, rfl⟩

/-! ## Blocks -/

/-- How the items of a block are read as contents. -/
def blockContent? : Placement → Option (List BlockItem → Except Failure Content)
  | .dictBlock .. => some fun items =>
    return .map (Placement.completeRecord (← entryTexts items))
  | .recordBlock _ names _ => some fun items =>
    return .records (← items.mapM fun item => return some (← item.recordOf names))
  | .listBlock _ name _ => some fun items =>
    return .records (← items.mapM fun item => do
      return some [(name, ← item.literal?.mapM LiteralSpan.value)])
  | .keyedRecordBlock _ names _ => some fun items => return .keyedRecords (← keyedRecords items names)
  | _ => none

theorem contents?_eq_block {read : List BlockItem → Except Failure Content}
    (hplace : blockContent? c.placement = some read) :
    c.contents? text locales locale = do
      match ← c.parsedBlock text locale with
      | some parsed => return some (← read parsed.items)
      | none => return none := by
  unfold contents?
  cases hkind : c.placement with
  | dictBlock place merge defaults =>
    rw [hkind] at hplace
    cases hplace
    rfl
  | recordBlock place names defaults =>
    rw [hkind] at hplace
    cases hplace
    rfl
  | listBlock place name defaults =>
    rw [hkind] at hplace
    cases hplace
    rfl
  | keyedRecordBlock place names defaults =>
    rw [hkind] at hplace
    cases hplace
    rfl
  | _ =>
    rw [hkind] at hplace
    cases hplace

theorem contents?_block {read : List BlockItem → Except Failure Content}
    (hplace : blockContent? c.placement = some read) (h : c.contents? text locales locale = .ok found) :
    ∃ block, c.parsedBlock text locale = .ok block ∧
      ((block = none ∧ found = none) ∨
        ∃ parsed content, block = some parsed ∧ read parsed.items = .ok content ∧
          found = some content) := by
  rw [contents?_eq_block hplace] at h
  obtain ⟨block, hblock, hread⟩ := Except.bind_eq_ok_iff.1 h
  refine ⟨block, hblock, ?_⟩
  cases block with
  | none =>
    cases hread
    exact .inl ⟨rfl, rfl⟩
  | some parsed =>
    right
    obtain ⟨content, hcontent, hread⟩ := Except.bind_eq_ok_iff.1 hread
    cases hread
    exact ⟨parsed, content, rfl, hcontent, rfl⟩

/-- The keys and literals of the entries of a block. -/
def keyedLiterals (items : List BlockItem) : OrderedMap LiteralSpan :=
  items.filterMap fun item => do return ((← item.key?).value, ← item.literal?)

theorem mem_keyedLiterals_iff {items : List BlockItem} {key : Text} {l : LiteralSpan} :
    (key, l) ∈ keyedLiterals items ↔
      ∃ item ∈ items, ∃ k, item.key? = some k ∧ k.value = key ∧ item.literal? = some l := by
  unfold keyedLiterals
  rw [List.mem_filterMap]
  refine exists_congr fun item => and_congr_right fun _ => ?_
  constructor
  · intro h
    obtain ⟨k, hk, h⟩ := Option.bind_eq_some_iff.1 h
    obtain ⟨l', hl, h⟩ := Option.bind_eq_some_iff.1 h
    cases h
    exact ⟨k, hk, rfl, hl⟩
  · rintro ⟨k, hk, rfl, hl⟩
    rw [hk, hl]
    rfl

theorem entryTexts_eq_ok {items : List BlockItem} {texts : OrderedMap Text}
    (h : entryTexts items = .ok texts) :
    ∃ pairs, List.Forall₂ (fun l t => l.1 = t.1 ∧ l.2.value = .ok t.2) (keyedLiterals items) pairs ∧
      texts = OrderedMap.putNewAll [] pairs := by
  obtain ⟨pairs, hpairs, h⟩ := Except.bind_eq_ok_iff.1 h
  cases h
  exact ⟨pairs, Except.mapM_keyed_iff.1 hpairs, rfl⟩

/-- The keyed items of a block. -/
def keyedItems (items : List BlockItem) : OrderedMap BlockItem :=
  items.filterMap fun item => item.key?.map (·.value, item)

theorem keyedRecords_eq_ok {items : List BlockItem} {names : List Text}
    {records : OrderedMap (Option FlatMap)} (h : keyedRecords items names = .ok records) :
    ∃ pairs : OrderedMap FlatMap,
      List.Forall₂ (fun a b => a.1 = b.1 ∧ a.2.recordOf names = .ok b.2) (keyedItems items) pairs ∧
        records = OrderedMap.putNewAll [] (pairs.mapValues some) := by
  obtain ⟨pairs, hpairs, h⟩ := Except.bind_eq_ok_iff.1 h
  cases h
  refine ⟨pairs, Except.mapM_keyed_iff.1 hpairs, ?_⟩
  unfold OrderedMap.putNewAll OrderedMap.mapValues
  rw [List.foldl_map]

/-! ## Records of items -/

theorem distinct_recordOf {item : BlockItem} {names : List Text} {record : FlatMap}
    (h : item.recordOf names = .ok record) : OrderedMap.Distinct record := by
  obtain ⟨texts, -, h⟩ := Except.bind_eq_ok_iff.1 h
  cases h
  exact OrderedMap.distinct_ofPairs _

/-- A record has under each of its names what the fields of its item have there. -/
theorem lookup?_recordOf {item : BlockItem} {names : List Text} {record : FlatMap}
    (h : item.recordOf names = .ok record) {name : Text} (hname : name ∈ names) :
    ∃ texts, item.fieldTexts = .ok texts ∧ record.lookup? name = some (texts.lookup? name) := by
  obtain ⟨texts, htexts, h⟩ := Except.bind_eq_ok_iff.1 h
  cases h
  refine ⟨texts, htexts, ?_⟩
  rw [OrderedMap.lookup?_ofPairs, ← List.map_reverse]
  -- a name that comes twice has the same text both times, so the order of the names is of no account
  generalize hreversed : names.reverse = reversed
  have hmem : name ∈ reversed := hreversed ▸ List.mem_reverse.2 hname
  clear hreversed
  induction reversed with
  | nil => cases hmem
  | cons first rest ih =>
    rw [List.map_cons, OrderedMap.lookup?]
    split
    · next heq => rw [heq]
    · next hne =>
      rcases List.mem_cons.1 hmem with heq | hmem
      · exact absurd heq.symm hne
      · exact ih hmem

/-- The literals of the fields of an item, by name. -/
def fieldLiterals (item : BlockItem) : OrderedMap LiteralSpan :=
  item.fields.filterMap fun field => field.literal.map (field.name, ·)

/-- Of the fields with a name the last one that is a literal counts. -/
theorem lookup?_fieldTexts {item : BlockItem} {texts : OrderedMap Text}
    (h : item.fieldTexts = .ok texts) {name : Text} {l : LiteralSpan}
    (hl : OrderedMap.lookup? (fieldLiterals item).reverse name = some l) :
    ∃ t, texts.lookup? name = some t ∧ l.value = .ok t := by
  obtain ⟨pairs, hpairs, h⟩ := Except.bind_eq_ok_iff.1 h
  cases h
  have hrelated : List.Forall₂ (fun a b => a.1 = b.1 ∧ a.2.value = .ok b.2) (fieldLiterals item).reverse
      pairs.reverse := List.forall₂_reverse_iff.2 (Except.mapM_keyed_iff.1 hpairs)
  rw [OrderedMap.lookup?_ofPairs]
  rcases OrderedMap.lookup?_of_forall₂ (R := fun _ (l : LiteralSpan) t => l.value = .ok t) hrelated name
    with ⟨hnone, -⟩ | ⟨l', t, hl', ht, hvalue⟩
  · rw [hl] at hnone
    cases hnone
  · rw [hl] at hl'
    cases hl'
    exact ⟨t, ht, hvalue⟩

/-! ## Their shape and their keys -/

theorem distinct_rowsOf {columns : OrderedMap (List Text)} (h : OrderedMap.Distinct columns) :
    (Content.records (rowsOf columns)).Distinct := by
  intro texts htexts
  obtain ⟨i, -, heq⟩ := List.mem_map.1 htexts
  cases heq
  unfold OrderedMap.Distinct
  rw [OrderedMap.keys_mapValues]
  exact h

theorem distinct_scalarLiterals? {literals : OrderedMap LiteralSpan}
    (h : c.scalarLiterals? text locale = some literals) : OrderedMap.Distinct literals := by
  unfold Category.scalarLiterals? at h
  split at h
  · next anchors fields _ window _ _ =>
    obtain ⟨start, -, h⟩ := Option.bind_eq_some_iff.1 h
    cases h
    refine OrderedMap.distinct_nil.foldl (fun found field hfound => ?_) fields
    split
    · exact hfound.put _ _
    · exact hfound
  · cases h

theorem distinct_documentBodies {bodies : OrderedMap (Nat × Nat)}
    (h : c.documentBodies text locale = .ok (some bodies)) : OrderedMap.Distinct bodies := by
  obtain ⟨_, _, _, rows, -, -, rfl⟩ := exists_of_documentBodies_ok h
  exact OrderedMap.distinct_nil.putNewAll _

/-- How the items of a block are read gives contents of the shape of its kind, with distinct keys. -/
theorem shape_distinct_of_blockContent? {items : List BlockItem} {content : Content}
    {read : List BlockItem → Except Failure Content} (hplace : blockContent? c.placement = some read)
    (h : read items = .ok content) : content.shape = c.placement.shape ∧ content.Distinct := by
  unfold blockContent? at hplace
  split at hplace
  · next hkind =>
    cases hplace
    obtain ⟨texts, htexts, h⟩ := Except.bind_eq_ok_iff.1 h
    cases h
    obtain ⟨pairs, -, rfl⟩ := entryTexts_eq_ok htexts
    rw [hkind]
    exact ⟨rfl, Placement.distinct_completeRecord (OrderedMap.distinct_nil.putNewAll pairs)⟩
  · next hkind =>
    cases hplace
    obtain ⟨records, hrecords, h⟩ := Except.bind_eq_ok_iff.1 h
    cases h
    rw [hkind]
    refine ⟨rfl, fun texts htexts => ?_⟩
    obtain ⟨item, -, hitem⟩ :=
      List.Forall₂.exists_of_mem_right (Except.mapM_eq_ok_iff.1 hrecords) htexts
    obtain ⟨record, hrecord, hitem⟩ := Except.bind_eq_ok_iff.1 hitem
    cases hitem
    exact distinct_recordOf hrecord
  · next hkind =>
    cases hplace
    obtain ⟨records, hrecords, h⟩ := Except.bind_eq_ok_iff.1 h
    cases h
    rw [hkind]
    refine ⟨rfl, fun texts htexts => ?_⟩
    obtain ⟨item, -, hitem⟩ :=
      List.Forall₂.exists_of_mem_right (Except.mapM_eq_ok_iff.1 hrecords) htexts
    obtain ⟨value, -, hitem⟩ := Except.bind_eq_ok_iff.1 hitem
    cases hitem
    exact List.nodup_singleton _
  · next hkind =>
    cases hplace
    obtain ⟨records, hrecords, h⟩ := Except.bind_eq_ok_iff.1 h
    cases h
    obtain ⟨pairs, hpairs, rfl⟩ := keyedRecords_eq_ok hrecords
    rw [hkind]
    refine ⟨rfl, OrderedMap.distinct_nil.putNewAll _, fun key texts htexts => ?_⟩
    have hmem : (key, some texts) ∈ OrderedMap.mapValues some pairs :=
      OrderedMap.mem_of_mem_putNewAll_nil htexts
    obtain ⟨⟨k, record⟩, hrecord, heq⟩ := List.mem_map.1 hmem
    cases heq
    obtain ⟨item, -, -, hitem⟩ := List.Forall₂.exists_of_mem_right hpairs hrecord
    exact distinct_recordOf hitem
  · cases hplace

/-- The contents that a file has for a category have the shape of its kind, and the maps in them have
distinct keys. -/
theorem shape_distinct_of_contents? {content : Content}
    (h : c.contents? text locales locale = .ok (some content)) :
    content.shape = c.placement.shape ∧ content.Distinct := by
  cases hread : blockContent? c.placement with
  | some read =>
    obtain ⟨block, -, ⟨-, hnone⟩ | ⟨parsed, content', -, hcontent, heq⟩⟩ := contents?_block hread h
    · cases hnone
    · cases heq
      exact shape_distinct_of_blockContent? hread hcontent
  | none =>
    cases hpattern : c.placement.keyedPattern? locales with
    | some pattern =>
      rcases contents?_keyed hpattern h with ⟨-, hnone⟩ | ⟨occurrences, pairs, -, -, heq⟩
      · cases hnone
      · cases heq
        exact ⟨(shape_of_keyedPattern? hpattern).symm,
          Placement.distinct_completeRecord (OrderedMap.distinct_nil.putNewAll pairs)⟩
    | none =>
      cases hkind : c.placement with
      | pairs fields defaults =>
        rcases contents?_pairs hkind h with ⟨-, hnone⟩ | ⟨columns, -, heq⟩
        · cases hnone
        · cases heq
          exact ⟨rfl, distinct_rowsOf (OrderedMap.distinct_ofPairs columns)⟩
      | documents keyField bodyField defaults =>
        obtain ⟨bodies, hbodies, ⟨-, hnone⟩ | ⟨spans, texts, rfl, htexts, heq⟩⟩ :=
          contents?_documents hkind h
        · cases hnone
        · cases heq
          exact ⟨rfl, Placement.distinct_completeRecord ((distinct_documentBodies hbodies).of_forall₂ htexts)⟩
      | scalarFields anchors fields defaults =>
        rcases contents?_scalarFields hkind h with ⟨-, hnone⟩ | ⟨literals, texts, hliterals, htexts, heq⟩
        · cases hnone
        · cases heq
          exact ⟨rfl, Placement.distinct_completeRecord ((distinct_scalarLiterals? hliterals).of_forall₂ htexts)⟩
      | keyedPairs keyField label defaults =>
        rw [hkind] at hpattern
        cases hpattern
      | choices condition defaults =>
        rw [hkind] at hpattern
        cases hpattern
      | _ =>
        rw [hkind] at hread
        cases hread

/-! ## What is exported -/

/-- The contents that an export has for a category, if the file is all it has to go by. -/
def exported (c : Category) (found : Option Content) : Content := found.getD (.empty c.placement.shape)

theorem shape_distinct_exported (h : c.contents? text locales locale = .ok found) :
    (c.exported found).shape = c.placement.shape ∧ (c.exported found).Distinct := by
  cases found with
  | none => exact ⟨Content.shape_empty _, Content.distinct_empty _⟩
  | some content => exact shape_distinct_of_contents? h

end Category

end Bilingual
