import Bilingual.Proofs.Export.Rows
import Bilingual.Proofs.Patch

set_option autoImplicit false

/-! # Putting back what was read

The contents that a file has for a category in the secondary locale are put back without any change where
texts are bound to their sites by place (`PatchInput.rests_of_place`). Where they are bound by a key, one
key may stand at several sites. Then the contents have the text of the first one, and they are put back
without any change exactly if the other sites of the key have it too (`PatchInput.rests_keyed_iff_agree`,
`PatchInput.rests_dictBlock_iff_agree`). -/

namespace Bilingual

/-- The texts of a category are bound to their sites by number, by name or by the first site of their key,
and no two of them to the same site. -/
def Placement.BoundByPlace : Placement → Prop
  | .pairs fields _ => (fields.map PairField.name).Nodup
  | .documents .. | .scalarFields .. | .recordBlock .. | .listBlock .. | .keyedRecordBlock .. => True
  | .keyedPairs .. | .choices .. | .dictBlock .. => False

/-- The texts of a category are bound to all sites of their key. -/
def Placement.BoundByKey : Placement → Prop
  | .keyedPairs .. | .choices .. => True
  | .dictBlock _ merge _ => merge = []
  | .pairs .. | .documents .. | .scalarFields .. | .recordBlock .. | .listBlock .. | .keyedRecordBlock .. =>
    False

/-- The sites of a category whose texts are bound by key: the key and the secondary text of each. -/
def Category.keyedSites (c : Category) (text : Text) (locales : Locales) :
    Except Failure (List (Text × Text)) :=
  match c.placement.keyedPattern? locales with
  | some pattern => do
    (← c.occurrences text pattern).mapM fun o => return (← o.keyLiteral.value, ← o.secondary.value)
  | none => do
    match ← c.parsedBlock text locales.secondary with
    | some parsed => (Category.keyedLiterals parsed.items).mapM fun (key, l) => return (key, ← l.value)
    | none => return []

/-! ## Pairs -/

variable {input : PatchInput} {c : Category} {text : Text} {found : Option Content}

namespace PatchInput

theorem rests_pairs {fields : List PairField} {defaults : List (OrderedMap Text)}
    (hlocales : input.manifest.locales.secondary ≠ input.manifest.locales.primary)
    (hplace : c.placement = .pairs fields defaults) (hnames : (fields.map PairField.name).Nodup)
    (h : c.contents? text input.manifest.locales input.manifest.locales.secondary = .ok found)
    (merged : List FlatMap) : Plan.Rests (input.plan c text (c.exported found) merged) := by
  unfold plan Category.exported
  rcases Category.contents?_pairs hplace h with ⟨hwindow, rfl⟩ | ⟨columns, hcolumns, rfl⟩
  · simp only [hplace]
    exact Plan.rests_pairs_iff.2 fun field _ =>
      ⟨[], Category.occurrences_of_window?_eq_none hwindow _, fun i value o _ ho => by cases ho⟩
  · simp only [hplace]
    refine Plan.rests_pairs_iff.2 fun field hfield => ?_
    obtain ⟨occurrences, texts, hoccurrences, hlookup, htexts⟩ :=
      Category.lookup?_columns hcolumns hnames hfield
    refine ⟨occurrences, hoccurrences, fun i value o hvalue ho => ?_⟩
    rw [recordText?_rowsOf hlookup] at hvalue
    rw [← Occurrence.textIn_secondary hlocales]
    exact List.Forall₂.of_getElem? htexts ho hvalue

/-! ## Documents and scalar fields -/

/-- What a map reads from sites with distinct keys is, under each key, what the site of the key stands
for. -/
theorem related_of_mem_completeRecord {α : Type} {R : α → Text → Prop} {sites : OrderedMap α}
    {texts : OrderedMap Text} (h : List.Forall₂ (fun a t => a.1 = t.1 ∧ R a.2 t.2) sites texts)
    (hsites : OrderedMap.Distinct sites) {key value : Text}
    (hmem : (key, some value) ∈ Placement.completeRecord texts) {site : α}
    (hsite : sites.lookup? key = some site) : R site value := by
  have hkeys : OrderedMap.Distinct texts := hsites.of_forall₂ h
  obtain ⟨⟨k, t⟩, hmem, heq⟩ := List.mem_map.1 hmem
  cases heq
  rcases OrderedMap.lookup?_of_forall₂ (R := fun _ a t => R a t) h key with
    ⟨hnone, -⟩ | ⟨a, t, ha, ht, hR⟩
  · rw [hsite] at hnone
    cases hnone
  · rw [hsite] at ha
    cases ha
    rw [OrderedMap.lookup?_of_mem hkeys hmem] at ht
    cases ht
    exact hR

theorem rests_documents {keyField bodyField : Text} {defaults : OrderedMap Text}
    (hplace : c.placement = .documents keyField bodyField defaults)
    (h : c.contents? text input.manifest.locales input.manifest.locales.secondary = .ok found)
    (merged : List FlatMap) : Plan.Rests (input.plan c text (c.exported found) merged) := by
  unfold plan Category.exported
  obtain ⟨bodies, hbodies, ⟨rfl, rfl⟩ | ⟨spans, texts, rfl, htexts, rfl⟩⟩ :=
    Category.contents?_documents hplace h
  · simp only [hplace]
    exact Plan.rests_documents_iff.2 ⟨none, hbodies, fun key value hmem => by cases hmem⟩
  · simp only [hplace]
    refine Plan.rests_documents_iff.2 ⟨some spans, hbodies, fun key value hmem start stop hspan => ?_⟩
    exact related_of_mem_completeRecord
      (R := fun (span : Nat × Nat) t => Literal.decode (text.slice span.1 span.2) = .ok t) htexts
      (Category.distinct_documentBodies hbodies) hmem hspan

theorem rests_scalarFields {anchors : List Text} {fields : List ScalarField} {defaults : OrderedMap Text}
    (hplace : c.placement = .scalarFields anchors fields defaults)
    (h : c.contents? text input.manifest.locales input.manifest.locales.secondary = .ok found)
    (merged : List FlatMap) : Plan.Rests (input.plan c text (c.exported found) merged) := by
  unfold plan Category.exported
  rcases Category.contents?_scalarFields hplace h with ⟨hliterals, rfl⟩ |
    ⟨literals, texts, hliterals, htexts, rfl⟩
  · simp only [hplace]
    exact Plan.rests_scalarFields_iff.2 fun literals hsome => by
      rw [hliterals] at hsome
      cases hsome
  · simp only [hplace]
    refine Plan.rests_scalarFields_iff.2 fun literals' hsome key value hmem l hl => ?_
    rw [hliterals] at hsome
    cases hsome
    exact related_of_mem_completeRecord (R := fun (l : LiteralSpan) t => l.value = .ok t) htexts
      (Category.distinct_scalarLiterals? hliterals) hmem hl

/-! ## Blocks of records -/

theorem lookup?_fieldLiterals {item : BlockItem} {name : Text} {l : LiteralSpan}
    (h : Plan.fieldLiteral? item name = some l) :
    OrderedMap.lookup? (Category.fieldLiterals item).reverse name = some l := by
  unfold Plan.fieldLiteral? at h
  unfold Category.fieldLiterals
  rw [← List.filterMap_reverse]
  generalize item.fields.reverse = fields at h ⊢
  induction fields with
  | nil => cases h
  | cons field rest ih =>
    rw [List.find?_cons] at h
    -- the search ends at the first field of the name, so that one has the literal
    by_cases hname : field.name = name
    · simp only [hname, decide_true] at h
      rw [List.filterMap_cons, h]
      simp [OrderedMap.lookup?, hname]
    · simp only [hname, decide_false] at h
      rw [List.filterMap_cons]
      cases field.literal with
      | none => exact ih h
      | some other =>
        show OrderedMap.lookup? ((field.name, other) :: _) name = _
        rw [OrderedMap.lookup?, if_neg hname]
        exact ih h

/-- The record read from an item settles it. -/
theorem recordSettled_of_recordOf {item : BlockItem} {names : List Text} {record : FlatMap}
    (hsite : ∀ name, Plan.siteIn? c item name = Plan.fieldLiteral? item name)
    (h : item.recordOf names = .ok record) : Plan.RecordSettled c names record item := by
  intro name hname value l hvalue hl
  rw [hsite] at hl
  obtain ⟨texts, htexts, hlookup⟩ := Category.lookup?_recordOf h hname
  obtain ⟨t, ht, hdecoded⟩ := Category.lookup?_fieldTexts htexts (lookup?_fieldLiterals hl)
  rw [hlookup, ht] at hvalue
  cases hvalue
  exact hdecoded

/-- A record for each item in order leaves a block as it is, if every one settles its item. -/
theorem recordRests_of_forall₂ {names : List Text} {items : List BlockItem}
    {records : List (Option FlatMap)}
    (h : List.Forall₂ (fun item record => ∃ texts, record = some texts ∧
      Plan.RecordSettled c names texts item) items records) {i : Nat} {given : Option FlatMap}
    (hgiven : records[i]? = some given) : Plan.RecordRests c names given (items[i]?.map (i, ·)) := by
  obtain ⟨item, hitem⟩ : ∃ item, items[i]? = some item := by
    have hlt : i < items.length := by
      rw [h.length_eq]
      exact (List.getElem?_eq_some_iff.1 hgiven).1
    exact ⟨_, List.getElem?_eq_getElem hlt⟩
  obtain ⟨texts, rfl, hsettled⟩ := List.Forall₂.of_getElem? h hitem hgiven
  rw [hitem]
  intro texts' htexts
  cases htexts
  refine ⟨fun index item' hsite => ?_, fun hsite => by cases hsite⟩
  cases hsite
  exact hsettled

theorem rests_recordBlock {place : BlockPlace} {names : List Text} {defaults : List (OrderedMap Text)}
    (hplace : c.placement = .recordBlock place names defaults)
    (h : c.contents? text input.manifest.locales input.manifest.locales.secondary = .ok found)
    (merged : List FlatMap) : Plan.Rests (input.plan c text (c.exported found) merged) := by
  unfold plan Category.exported
  obtain ⟨block, hblock, ⟨rfl, rfl⟩ | ⟨parsed, content, rfl, hcontent, rfl⟩⟩ :=
    Category.contents?_block (show Category.blockContent? c.placement = some _ by rw [hplace]; rfl) h
  · simp only [hplace]
    exact Plan.rests_recordBlock_iff.2 ⟨none, hblock, fun parsed hsome => by cases hsome⟩
  · obtain ⟨records, hrecords, hcontent⟩ := Except.bind_eq_ok_iff.1 hcontent
    cases hcontent
    simp only [hplace]
    refine Plan.rests_recordBlock_iff.2 ⟨some parsed, hblock, fun parsed' hsome i given hgiven => ?_⟩
    cases hsome
    refine recordRests_of_forall₂ ((Except.mapM_eq_ok_iff.1 hrecords).imp fun item record hrecord => ?_)
      hgiven
    obtain ⟨texts, htexts, hrecord⟩ := Except.bind_eq_ok_iff.1 hrecord
    cases hrecord
    exact ⟨texts, rfl, recordSettled_of_recordOf (fun name => by rw [Plan.siteIn?, hplace]) htexts⟩

theorem rests_listBlock {place : BlockPlace} {name : Text} {defaults : List (OrderedMap Text)}
    (hplace : c.placement = .listBlock place name defaults)
    (h : c.contents? text input.manifest.locales input.manifest.locales.secondary = .ok found)
    (merged : List FlatMap) : Plan.Rests (input.plan c text (c.exported found) merged) := by
  unfold plan Category.exported
  obtain ⟨block, hblock, ⟨rfl, rfl⟩ | ⟨parsed, content, rfl, hcontent, rfl⟩⟩ :=
    Category.contents?_block (show Category.blockContent? c.placement = some _ by rw [hplace]; rfl) h
  · simp only [hplace]
    exact Plan.rests_recordBlock_iff.2 ⟨none, hblock, fun parsed hsome => by cases hsome⟩
  · obtain ⟨records, hrecords, hcontent⟩ := Except.bind_eq_ok_iff.1 hcontent
    cases hcontent
    simp only [hplace]
    refine Plan.rests_recordBlock_iff.2 ⟨some parsed, hblock, fun parsed' hsome i given hgiven => ?_⟩
    cases hsome
    refine recordRests_of_forall₂ ((Except.mapM_eq_ok_iff.1 hrecords).imp fun item record hrecord => ?_)
      hgiven
    obtain ⟨value, hvalue, hrecord⟩ := Except.bind_eq_ok_iff.1 hrecord
    cases hrecord
    refine ⟨_, rfl, fun name' hname value' l hbound hl => ?_⟩
    rw [List.mem_singleton.1 hname] at hbound hl
    rw [Plan.siteIn?, hplace] at hl
    have hl : item.literal? = some l := hl
    rw [hl] at hvalue
    obtain ⟨t, ht, hvalue⟩ := Except.map_eq_ok_iff.1 hvalue
    cases hvalue
    simp only [OrderedMap.lookup?, if_true, Option.join_some] at hbound
    cases hbound
    exact ht

/-- The first item with a key. -/
theorem itemOf?_spec {parsed : ParsedBlock} {key : Text} :
    (Plan.itemOf? parsed key).map Prod.snd = OrderedMap.lookup? (Category.keyedItems parsed.items) key := by
  unfold Plan.itemOf? Category.keyedItems
  -- the number that the search starts with plays no part
  suffices h : ∀ start : Nat, ((parsed.items.zipIdx start).findSome? fun pair =>
      if pair.1.key?.map ItemKey.value = some key then some (pair.2, pair.1) else none).map Prod.snd =
        OrderedMap.lookup? (parsed.items.filterMap fun item => item.key?.map (·.value, item)) key from h 0
  induction parsed.items with
  | nil => exact fun _ => rfl
  | cons item rest ih =>
    intro start
    rw [List.zipIdx_cons, List.findSome?_cons, List.filterMap_cons]
    dsimp only
    cases hkey : item.key? with
    | none => exact ih (start + 1)
    | some k =>
      by_cases h : k.value = key
      · rw [Option.map_some, Option.map_some, if_pos (congrArg some h)]
        show some item = OrderedMap.lookup? ((k.value, item) :: _) key
        rw [OrderedMap.lookup?, if_pos h]
      · rw [Option.map_some, Option.map_some, if_neg fun heq => h (Option.some.inj heq)]
        show _ = OrderedMap.lookup? ((k.value, item) :: _) key
        rw [OrderedMap.lookup?, if_neg h]
        exact ih (start + 1)

theorem rests_keyedRecordBlock {place : BlockPlace} {names : List Text}
    {defaults : OrderedMap (OrderedMap Text)}
    (hplace : c.placement = .keyedRecordBlock place names defaults)
    (h : c.contents? text input.manifest.locales input.manifest.locales.secondary = .ok found)
    (merged : List FlatMap) : Plan.Rests (input.plan c text (c.exported found) merged) := by
  unfold plan Category.exported
  obtain ⟨block, hblock, ⟨rfl, rfl⟩ | ⟨parsed, content, rfl, hcontent, rfl⟩⟩ :=
    Category.contents?_block (show Category.blockContent? c.placement = some _ by rw [hplace]; rfl) h
  · simp only [hplace]
    exact Plan.rests_keyedRecordBlock_iff.2 ⟨none, hblock, fun parsed hsome => by cases hsome⟩
  · obtain ⟨records, hrecords, hcontent⟩ := Except.bind_eq_ok_iff.1 hcontent
    cases hcontent
    obtain ⟨pairs, hpairs, rfl⟩ := Category.keyedRecords_eq_ok hrecords
    simp only [hplace]
    refine Plan.rests_keyedRecordBlock_iff.2 ⟨some parsed, hblock, fun parsed' hsome key given hgiven => ?_⟩
    cases hsome
    have hlookup := OrderedMap.mem_putNewAll_nil_iff.1 hgiven
    rw [OrderedMap.lookup?_mapValues] at hlookup
    obtain ⟨record, hrecord, rfl⟩ := Option.map_eq_some_iff.1 hlookup
    -- the first item of the key is the one that the record was read from
    rcases OrderedMap.lookup?_of_forall₂ (R := fun _ (item : BlockItem) texts =>
        item.recordOf names = .ok texts) hpairs key with ⟨-, hnone⟩ | ⟨item, texts, hitem, htexts, hread⟩
    · rw [hrecord] at hnone
      cases hnone
    · rw [hrecord] at htexts
      cases htexts
      rw [← itemOf?_spec] at hitem
      obtain ⟨⟨index, item'⟩, hsite, rfl⟩ := Option.map_eq_some_iff.1 hitem
      rw [hsite]
      intro texts' htexts
      cases htexts
      refine ⟨fun i other hother => ?_, fun hnone => by cases hnone⟩
      cases hother
      exact recordSettled_of_recordOf (fun name => by rw [Plan.siteIn?, hplace]) hread

/-- The contents that a file has for a category whose texts are bound by place are put back without any
change. -/
theorem rests_of_place
    (hlocales : input.manifest.locales.secondary ≠ input.manifest.locales.primary)
    (hbound : c.placement.BoundByPlace)
    (h : c.contents? text input.manifest.locales input.manifest.locales.secondary = .ok found)
    (merged : List FlatMap) : Plan.Rests (input.plan c text (c.exported found) merged) := by
  cases hplace : c.placement with
  | pairs fields defaults =>
    rw [hplace] at hbound
    exact rests_pairs hlocales hplace hbound h merged
  | documents keyField bodyField defaults => exact rests_documents hplace h merged
  | scalarFields anchors fields defaults => exact rests_scalarFields hplace h merged
  | recordBlock place names defaults => exact rests_recordBlock hplace h merged
  | listBlock place name defaults => exact rests_listBlock hplace h merged
  | keyedRecordBlock place names defaults => exact rests_keyedRecordBlock hplace h merged
  | _ =>
    rw [hplace] at hbound
    exact hbound.elim

/-! ## Keyed pairs, choices and blocks of entries -/

theorem mem_completeRecord {texts : OrderedMap Text} {key value : Text} :
    (key, some value) ∈ Placement.completeRecord texts ↔ (key, value) ∈ texts := by
  unfold Placement.completeRecord OrderedMap.mapValues
  rw [List.mem_map]
  constructor
  · rintro ⟨⟨k, v⟩, hmem, heq⟩
    cases heq
    exact hmem
  · intro hmem
    exact ⟨(key, value), hmem, rfl⟩

/-- The texts of a keyed category rest exactly if every site has the text of the first one of its key. -/
theorem rests_keyed_iff_agree {pattern : Pattern}
    (hlocales : input.manifest.locales.secondary ≠ input.manifest.locales.primary)
    (hplace : c.placement.keyedPattern? input.manifest.locales = some pattern)
    (h : c.contents? text input.manifest.locales input.manifest.locales.secondary = .ok found)
    (merged : List FlatMap) :
    ∃ sites, c.keyedSites text input.manifest.locales = .ok sites ∧
      (Plan.Rests (input.plan c text (c.exported found) merged) ↔ OrderedMap.Agree sites) := by
  unfold Category.keyedSites
  rw [hplace]
  dsimp only
  rcases Category.contents?_keyed hplace h with ⟨hwindow, rfl⟩ | ⟨occurrences, pairs, hoccurrences, hpairs, rfl⟩
  · have hoccurrences := Category.occurrences_of_window?_eq_none hwindow pattern
    refine ⟨[], Except.bind_eq_ok_iff.2 ⟨[], hoccurrences, rfl⟩, iff_of_true ?_ (by simp [OrderedMap.Agree])⟩
    unfold Category.exported
    rw [Option.getD_none, Category.shape_of_keyedPattern? hplace]
    show Plan.Rests (input.plan c text (.map []) merged)
    rw [plan_of_keyedPattern? hplace]
    exact Plan.rests_keyed_iff.2 ⟨[], hoccurrences, by simp⟩
  · have hread : List.Forall₂ (fun o (pair : Text × Text) => o.keyLiteral.value = .ok pair.1 ∧
        o.secondary.value = .ok pair.2) occurrences pairs := by
      refine hpairs.imp fun o pair hpair => ⟨hpair.1, ?_⟩
      rw [← Occurrence.textIn_secondary hlocales]
      exact hpair.2
    refine ⟨pairs, Except.bind_eq_ok_iff.2 ⟨occurrences, hoccurrences, ?_⟩, ?_⟩
    · refine Except.mapM_eq_ok_iff.2 (hread.imp fun o pair hpair => ?_)
      rw [hpair.1, hpair.2]
      rfl
    · show Plan.Rests (input.plan c text (.map _) merged) ↔ _
      rw [plan_of_keyedPattern? hplace, Plan.rests_keyed_iff, OrderedMap.agree_iff_putNewAll]
      constructor
      -- the contents have the first text of each key, and the plan puts it to all its occurrences
      · rintro ⟨occurrences', hoccurrences', hrest⟩ key value hmem pair hpair hkey
        cases hoccurrences.symm.trans hoccurrences'
        obtain ⟨o, ho, hokey, hovalue⟩ := List.Forall₂.exists_of_mem_right hread hpair
        obtain ⟨k, hk, hvalue⟩ := hrest key value (mem_completeRecord.2 hmem) o ho
        rw [hokey] at hk
        have hsecondary := hvalue ((Except.ok.inj hk).symm.trans hkey)
        rw [hovalue] at hsecondary
        exact Except.ok.inj hsecondary
      · intro hagree
        refine ⟨occurrences, hoccurrences, fun key value hmem o ho => ?_⟩
        obtain ⟨pair, hpair, hokey, hovalue⟩ := List.Forall₂.exists_of_mem_left hread ho
        refine ⟨pair.1, hokey, fun hkey => ?_⟩
        rw [hovalue, hagree key value (mem_completeRecord.1 hmem) pair hpair hkey]

/-- The contents of a block of entries bind to an item the first text of its key. -/
theorem boundText?_completeRecord {pairs : List (Text × Text)} {item : BlockItem} {value : Text} :
    Plan.boundText? (Plan.overlay (Placement.completeRecord (OrderedMap.putNewAll [] pairs)) []) item
        = some value ↔
      ∃ k, item.key? = some k ∧ (k.value, value) ∈ OrderedMap.putNewAll [] pairs := by
  unfold Plan.boundText?
  rw [Option.bind_eq_some_iff]
  refine exists_congr fun k => and_congr_right fun _ => ?_
  have hlookup : OrderedMap.lookup? (OrderedMap.putNewAll [] pairs) k.value
      = OrderedMap.lookup? pairs k.value := OrderedMap.lookup?_putNewAll [] pairs k.value
  show (OrderedMap.lookup? (OrderedMap.mapValues some _) k.value).join = _ ↔ _
  rw [OrderedMap.lookup?_mapValues, OrderedMap.mem_putNewAll_nil_iff, hlookup]
  cases OrderedMap.lookup? pairs k.value <;> simp

/-- The texts of a block of entries rest exactly if every entry has the text of the first one of its
key. -/
theorem rests_dictBlock_iff_agree {place : BlockPlace} {merge : List Text} {defaults : OrderedMap Text}
    (hplace : c.placement = .dictBlock place merge defaults)
    (h : c.contents? text input.manifest.locales input.manifest.locales.secondary = .ok found) :
    ∃ sites, c.keyedSites text input.manifest.locales = .ok sites ∧
      (Plan.Rests (input.plan c text (c.exported found) []) ↔ OrderedMap.Agree sites) := by
  unfold Category.keyedSites plan Category.exported
  rw [show c.placement.keyedPattern? input.manifest.locales = none by rw [hplace]; rfl]
  dsimp only
  obtain ⟨block, hblock, ⟨rfl, rfl⟩ | ⟨parsed, content, rfl, hcontent, rfl⟩⟩ :=
    Category.contents?_block (show Category.blockContent? c.placement = some _ by rw [hplace]; rfl) h
  · refine ⟨[], Except.bind_eq_ok_iff.2 ⟨none, hblock, rfl⟩, iff_of_true ?_ (by simp [OrderedMap.Agree])⟩
    simp only [hplace]
    exact Plan.rests_dictBlock_iff.2 ⟨none, hblock, fun parsed hsome => by cases hsome⟩
  · obtain ⟨texts, htexts, hcontent⟩ := Except.bind_eq_ok_iff.1 hcontent
    cases hcontent
    obtain ⟨pairs, hpairs, rfl⟩ := Category.entryTexts_eq_ok htexts
    refine ⟨pairs, Except.bind_eq_ok_iff.2 ⟨some parsed, hblock, Except.mapM_keyed_iff.2 hpairs⟩, ?_⟩
    simp only [hplace]
    show Plan.Rests (Plan.dictBlock c text _ (Placement.completeRecord _) []) ↔ _
    rw [Plan.rests_dictBlock_iff, OrderedMap.agree_iff_putNewAll]
    constructor
    · rintro ⟨block, hblock', hrest⟩ key value hmem pair hpair hkey
      cases hblock.symm.trans hblock'
      obtain ⟨hitems, -⟩ := hrest parsed rfl
      obtain ⟨⟨k, l⟩, hl, hlkey, hlvalue⟩ := List.Forall₂.exists_of_mem_right hpairs hpair
      obtain ⟨item, hitem, itemKey, hitemKey, hvalue, hliteral⟩ := Category.mem_keyedLiterals_iff.1 hl
      have hkeyed : (itemKey.value, value) ∈ OrderedMap.putNewAll [] pairs := by
        rw [hvalue, show k = pair.1 from hlkey, hkey]
        exact hmem
      have hsettled := hitems item hitem l value hliteral
        (boundText?_completeRecord.2 ⟨itemKey, hitemKey, hkeyed⟩)
      rw [show l.value = .ok pair.2 from hlvalue] at hsettled
      exact Except.ok.inj hsettled
    · intro hagree
      refine ⟨some parsed, hblock, fun parsed' hsome => ?_⟩
      cases hsome
      refine ⟨fun item hitem l value hl hvalue => ?_, fun key value hmem => ?_⟩
      · obtain ⟨k, hk, hmem⟩ := boundText?_completeRecord.1 hvalue
        obtain ⟨pair, hpair, hlkey, hlvalue⟩ := List.Forall₂.exists_of_mem_left hpairs
          (Category.mem_keyedLiterals_iff.2 ⟨item, hitem, k, hk, rfl, hl⟩)
        rw [show l.value = .ok pair.2 from hlvalue, hagree _ value hmem pair hpair hlkey.symm]
      · have hpair := OrderedMap.mem_of_mem_putNewAll_nil (mem_completeRecord.1 hmem)
        obtain ⟨⟨k, l⟩, hl, hlkey, -⟩ := List.Forall₂.exists_of_mem_right hpairs hpair
        obtain ⟨item, hitem, itemKey, hitemKey, hvalue, -⟩ := Category.mem_keyedLiterals_iff.1 hl
        exact Plan.exists_of_mem_existingKeys.2
          ⟨item, hitem, itemKey, hitemKey, hvalue.trans hlkey⟩

/-- The contents that a file has for a category whose texts are bound by key are put back without any
change exactly if all sites of a key agree. -/
theorem rests_of_key_iff
    (hlocales : input.manifest.locales.secondary ≠ input.manifest.locales.primary)
    (hbound : c.placement.BoundByKey)
    (h : c.contents? text input.manifest.locales input.manifest.locales.secondary = .ok found) :
    ∃ sites, c.keyedSites text input.manifest.locales = .ok sites ∧
      (Plan.Rests (input.plan c text (c.exported found) []) ↔ OrderedMap.Agree sites) := by
  cases hplace : c.placement with
  | keyedPairs keyField label defaults =>
    exact rests_keyed_iff_agree hlocales (by rw [hplace]; rfl) h []
  | choices condition defaults => exact rests_keyed_iff_agree hlocales (by rw [hplace]; rfl) h []
  | dictBlock place merge defaults => exact rests_dictBlock_iff_agree hplace h
  | _ =>
    rw [hplace] at hbound
    exact hbound.elim

end PatchInput

end Bilingual
