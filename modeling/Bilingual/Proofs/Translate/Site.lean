import Bilingual.Proofs.Export.Rows
import Bilingual.Proofs.Pattern
import Bilingual.Proofs.Translate.Leaf

set_option autoImplicit false

/-! # Sites and the leaves they go with

The sites of pairs, keyed pairs and choices (`Category.sites`), each with the leaf of the contents whose
translation it takes: for pairs the number of the occurrence and the name of the field, for the others the
key that stands at the site. The contents that a file has in the primary locale have a text at the leaf of
every site, and a site for every text (`Category.sites_of_contents?`). When the occurrences of different
fields do not overlap, no two sites do (`Category.sites_spec`). -/

namespace Bilingual

/-- A place in a file where a translation goes, with the leaf it takes the translation from. -/
structure Site where
  leaf : Leaf
  occurrence : Occurrence
deriving DecidableEq, Repr

/-- The field of a site of pairs. -/
def Site.field? (s : Site) : Option Text :=
  match s.leaf with
  | .field _ name => some name
  | .key _ => none

/-- The site is the one that contents were read from: they have a text at its leaf, which is the primary
text of the site if it goes by number, and the site has the key that it goes by. -/
def Site.IsIn (s : Site) (known : Content) : Prop :=
  ∃ t, known.text? s.leaf = some t ∧ match s.leaf with
    | .field .. => s.occurrence.primary.value = .ok t
    | .key key => s.occurrence.keyLiteral.value = .ok key

/-- Two occurrences do not overlap. -/
def Occurrence.Apart (a b : Occurrence) : Prop := a.stop ≤ b.start ∨ b.stop ≤ a.start

instance (a b : Occurrence) : Decidable (a.Apart b) :=
  inferInstanceAs (Decidable (a.stop ≤ b.start ∨ b.stop ≤ a.start))

/-- The occurrences of a field with their numbers. -/
def fieldSites (name : Text) (occurrences : List Occurrence) : List Site :=
  occurrences.zipIdx.map fun (o, index) => ⟨.field index name, o⟩

/-- Texts are bound to single sites by number or by key, and no two fields have one name. -/
def Placement.IsSited : Placement → Prop
  | .pairs fields _ => (fields.map PairField.name).Nodup
  | .keyedPairs .. | .choices .. => True
  | .documents .. | .scalarFields .. | .dictBlock .. | .recordBlock .. | .listBlock ..
  | .keyedRecordBlock .. => False

namespace Category

/-- The sites of a category of pairs, keyed pairs or choices. -/
def sites (c : Category) (text : Text) (locales : Locales) : Except Failure (List Site) :=
  match c.placement with
  | .pairs fields _ => do
    let columns ← fields.mapM fun field => do
      return fieldSites field.name (← c.occurrences text (field.pattern locales))
    return columns.flatten
  | placement => match placement.keyedPattern? locales with
    | some pattern => do
      (← c.occurrences text pattern).mapM fun o => do return ⟨.key (← o.keyLiteral.value), o⟩
    | none => return []

variable {c : Category} {text : Text} {locales : Locales}

/-! ## The sites of each kind -/

/-- The sites of a field are its occurrences. -/
def IsSiteColumn (c : Category) (text : Text) (locales : Locales) (field : PairField)
    (column : List Site) : Prop :=
  ∃ occurrences, c.occurrences text (field.pattern locales) = .ok occurrences ∧
    column = fieldSites field.name occurrences

theorem sites_pairs_iff {fields : List PairField} {defaults : List (OrderedMap Text)} {found : List Site}
    (hplace : c.placement = .pairs fields defaults) :
    c.sites text locales = .ok found ↔
      ∃ columns, List.Forall₂ (c.IsSiteColumn text locales) fields columns ∧ found = columns.flatten := by
  have hcolumn : ∀ (field : PairField) (column : List Site),
      (do return fieldSites field.name (← c.occurrences text (field.pattern locales)) :
        Except Failure (List Site)) = .ok column ↔ c.IsSiteColumn text locales field column := by
    intro field column
    rw [Except.bind_eq_ok_iff]
    refine exists_congr fun occurrences => and_congr_right fun _ => ?_
    constructor
    · intro h
      cases h
      rfl
    · rintro rfl
      rfl
  unfold sites
  rw [hplace]
  dsimp only
  rw [Except.bind_eq_ok_iff]
  refine exists_congr fun columns => ?_
  rw [Except.mapM_eq_ok_iff]
  constructor
  · rintro ⟨hcolumns, h⟩
    cases h
    exact ⟨hcolumns.imp fun field column => (hcolumn field column).1, rfl⟩
  · rintro ⟨hcolumns, rfl⟩
    exact ⟨hcolumns.imp fun field column => (hcolumn field column).2, rfl⟩

/-- A site is an occurrence with the key that stands there. -/
def IsKeyedSite (o : Occurrence) (s : Site) : Prop :=
  s.occurrence = o ∧ ∃ key, o.keyLiteral.value = .ok key ∧ s.leaf = .key key

theorem sites_eq_keyed {pattern : Pattern} (hpattern : c.placement.keyedPattern? locales = some pattern) :
    c.sites text locales = (c.occurrences text pattern >>= fun occurrences =>
      occurrences.mapM fun o => do return ⟨.key (← o.keyLiteral.value), o⟩) := by
  unfold sites
  cases hkind : c.placement with
  | keyedPairs keyField label defaults =>
    rw [hkind] at hpattern
    cases hpattern
    rfl
  | choices condition defaults =>
    rw [hkind] at hpattern
    cases hpattern
    rfl
  | _ =>
    rw [hkind] at hpattern
    cases hpattern

theorem sites_keyed_iff {pattern : Pattern} {found : List Site}
    (hpattern : c.placement.keyedPattern? locales = some pattern) :
    c.sites text locales = .ok found ↔
      ∃ occurrences, c.occurrences text pattern = .ok occurrences ∧
        List.Forall₂ IsKeyedSite occurrences found := by
  have hsite : ∀ (o : Occurrence) (s : Site),
      (do return ⟨.key (← o.keyLiteral.value), o⟩ : Except Failure Site) = .ok s ↔ IsKeyedSite o s := by
    intro o s
    rw [Except.bind_eq_ok_iff]
    constructor
    · rintro ⟨key, hkey, h⟩
      cases h
      exact ⟨rfl, key, hkey, rfl⟩
    · rintro ⟨rfl, key, hkey, hleaf⟩
      refine ⟨key, hkey, ?_⟩
      rw [← hleaf]
      rfl
  rw [sites_eq_keyed hpattern, Except.bind_eq_ok_iff]
  refine exists_congr fun occurrences => and_congr_right fun _ => ?_
  rw [Except.mapM_eq_ok_iff]
  constructor
  · intro h
    exact h.imp fun o s => (hsite o s).1
  · intro h
    exact h.imp fun o s => (hsite o s).2

theorem mem_fieldSites_iff {name : Text} {occurrences : List Occurrence} {s : Site} :
    s ∈ fieldSites name occurrences ↔
      ∃ index, s.leaf = .field index name ∧ occurrences[index]? = some s.occurrence := by
  unfold fieldSites
  rw [List.mem_map]
  constructor
  · rintro ⟨⟨o, index⟩, hmem, rfl⟩
    exact ⟨index, rfl, List.mem_zipIdx_iff_getElem?.1 hmem⟩
  · rintro ⟨index, hleaf, ho⟩
    refine ⟨(s.occurrence, index), List.mem_zipIdx_iff_getElem?.2 ho, ?_⟩
    dsimp only
    rw [← hleaf]

/-- Sited categories are pairs whose fields have different names, or go by a key at the site. -/
theorem isSited_cases (hsited : c.placement.IsSited) :
    (∃ fields defaults, c.placement = .pairs fields defaults ∧ (fields.map PairField.name).Nodup) ∨
      ∃ pattern, c.placement.keyedPattern? locales = some pattern := by
  cases hkind : c.placement with
  | pairs fields defaults =>
    rw [hkind] at hsited
    exact .inl ⟨fields, defaults, rfl, hsited⟩
  | keyedPairs keyField label defaults => exact .inr ⟨_, rfl⟩
  | choices condition defaults => exact .inr ⟨_, rfl⟩
  | _ =>
    rw [hkind] at hsited
    exact hsited.elim

/-! ## The leaves of the sites -/

/-- The column of a field under its name, when a row has a text for that name. -/
theorem lookup?_of_recordText?_rowsOf {columns : OrderedMap (List Text)} {name t : Text} {index : Nat}
    (h : Plan.recordText? (rowsOf columns) index name = some t) :
    ∃ texts, columns.lookup? name = some texts := by
  obtain ⟨row, hrow, htext⟩ := Option.bind_eq_some_iff.1 h
  have hmem : some row ∈ rowsOf columns := List.mem_of_getElem? (Option.join_eq_some_iff.1 hrow)
  obtain ⟨i, -, heq⟩ := List.mem_map.1 hmem
  cases heq
  rw [OrderedMap.lookup?_mapValues] at htext
  cases hlookup : columns.lookup? name with
  | some texts => exact ⟨texts, rfl⟩
  | none =>
    rw [hlookup] at htext
    cases htext

/-- For every field of pairs the occurrences and, under its name, the column of their texts. -/
theorem columns_of_contents? {fields : List PairField} {defaults : List (OrderedMap Text)}
    {known : Content} (hplace : c.placement = .pairs fields defaults)
    (hnames : (fields.map PairField.name).Nodup)
    (hknown : c.contents? text locales locales.primary = .ok (some known)) :
    ∃ columns, known = .records (rowsOf columns) ∧
      (∀ field ∈ fields, ∃ occurrences texts, c.occurrences text (field.pattern locales) = .ok occurrences ∧
        columns.lookup? field.name = some texts ∧
          List.Forall₂ (fun o t => o.primary.value = .ok t) occurrences texts) ∧
      ∀ name texts, columns.lookup? name = some texts → ∃ field ∈ fields, field.name = name := by
  rcases contents?_pairs hplace hknown with ⟨-, hnone⟩ | ⟨columns, hcolumns, heq⟩
  · cases hnone
  cases heq
  refine ⟨OrderedMap.ofPairs columns, rfl, fun field hfield => ?_, fun name texts hlookup => ?_⟩
  · obtain ⟨occurrences, texts, hoccurrences, hlookup, htexts⟩ := lookup?_columns hcolumns hnames hfield
    refine ⟨occurrences, texts, hoccurrences, hlookup, htexts.imp fun o t ht => ?_⟩
    rw [← Occurrence.textIn_primary]
    exact ht
  · rw [OrderedMap.lookup?_ofPairs] at hlookup
    have hmem : (name, texts) ∈ columns := List.mem_reverse.1 (OrderedMap.mem_of_lookup? hlookup)
    obtain ⟨field, hfield, hname, -⟩ := List.Forall₂.exists_of_mem_right hcolumns hmem
    exact ⟨field, hfield, hname⟩

theorem sites_pairs_of_contents? {fields : List PairField} {defaults : List (OrderedMap Text)}
    {known : Content} (hplace : c.placement = .pairs fields defaults)
    (hnames : (fields.map PairField.name).Nodup)
    (hknown : c.contents? text locales locales.primary = .ok (some known)) :
    ∃ found, c.sites text locales = .ok found ∧ (∀ s ∈ found, s.IsIn known) ∧
      ∀ leaf t, known.text? leaf = some t → ∃ s ∈ found, s.leaf = leaf := by
  obtain ⟨columns, rfl, hfield, hnamed⟩ := columns_of_contents? hplace hnames hknown
  obtain ⟨siteColumns, hsites⟩ : ∃ siteColumns,
      List.Forall₂ (c.IsSiteColumn text locales) fields siteColumns := by
    refine List.exists_forall₂ fun field hmem => ?_
    obtain ⟨occurrences, -, hoccurrences, -⟩ := hfield field hmem
    exact ⟨_, occurrences, hoccurrences, rfl⟩
  refine ⟨siteColumns.flatten, (sites_pairs_iff hplace).2 ⟨siteColumns, hsites, rfl⟩, ?_, ?_⟩
  · intro s hs
    obtain ⟨column, hcolumn, hs⟩ := List.mem_flatten.1 hs
    obtain ⟨field, hmem, occurrences, hoccurrences, rfl⟩ := List.Forall₂.exists_of_mem_right hsites hcolumn
    obtain ⟨index, hleaf, ho⟩ := mem_fieldSites_iff.1 hs
    obtain ⟨occurrences', texts, hoccurrences', hlookup, htexts⟩ := hfield field hmem
    cases hoccurrences.symm.trans hoccurrences'
    obtain ⟨t, ht, hvalue⟩ := List.Forall₂.exists_of_getElem? htexts ho
    refine ⟨t, ?_, ?_⟩
    · rw [hleaf]
      exact (recordText?_rowsOf hlookup index).trans ht
    · rw [hleaf]
      exact hvalue
  · intro leaf t hleaf
    cases leaf with
    | key key => cases hleaf
    | field index name =>
      obtain ⟨texts, hlookup⟩ := lookup?_of_recordText?_rowsOf hleaf
      obtain ⟨field, hmem, rfl⟩ := hnamed name texts hlookup
      obtain ⟨occurrences, texts', hoccurrences, hlookup', htexts⟩ := hfield field hmem
      cases hlookup.symm.trans hlookup'
      have ht : texts[index]? = some t := (recordText?_rowsOf hlookup index).symm.trans hleaf
      obtain ⟨o, ho, -⟩ := List.Forall₂.exists_of_getElem? htexts.flip ht
      obtain ⟨column, hcolumn, occurrences', hoccurrences', rfl⟩ :=
        List.Forall₂.exists_of_mem_left hsites hmem
      cases hoccurrences.symm.trans hoccurrences'
      exact ⟨⟨.field index field.name, o⟩,
        List.mem_flatten.2 ⟨_, hcolumn, mem_fieldSites_iff.2 ⟨index, rfl, ho⟩⟩, rfl⟩

theorem sites_keyed_of_contents? {pattern : Pattern} {known : Content}
    (hpattern : c.placement.keyedPattern? locales = some pattern)
    (hknown : c.contents? text locales locales.primary = .ok (some known)) :
    ∃ found, c.sites text locales = .ok found ∧ (∀ s ∈ found, s.IsIn known) ∧
      ∀ leaf t, known.text? leaf = some t → ∃ s ∈ found, s.leaf = leaf := by
  rcases contents?_keyed hpattern hknown with ⟨-, hnone⟩ | ⟨occurrences, pairs, hoccurrences, hpairs, heq⟩
  · cases hnone
  cases heq
  obtain ⟨found, hfound⟩ : ∃ found, List.Forall₂ IsKeyedSite occurrences found := by
    refine List.exists_forall₂ fun o ho => ?_
    obtain ⟨⟨key, value⟩, -, hkey, -⟩ := List.Forall₂.exists_of_mem_left hpairs ho
    exact ⟨⟨.key key, o⟩, rfl, key, hkey, rfl⟩
  refine ⟨found, (sites_keyed_iff hpattern).2 ⟨occurrences, hoccurrences, hfound⟩, ?_, ?_⟩
  · intro s hs
    obtain ⟨o, ho, rfl, key, hkey, hleaf⟩ := List.Forall₂.exists_of_mem_right hfound hs
    obtain ⟨⟨k, value⟩, hmem, hk, -⟩ := List.Forall₂.exists_of_mem_left hpairs ho
    have hk : key = k := Except.ok.inj (hkey.symm.trans hk)
    obtain ⟨t, ht⟩ : ∃ t, OrderedMap.lookup? pairs key = some t := by
      cases h : OrderedMap.lookup? pairs key with
      | some t => exact ⟨t, rfl⟩
      | none => exact absurd (OrderedMap.mem_keys_of_mem hmem) (hk ▸ OrderedMap.lookup?_eq_none_iff.1 h)
    refine ⟨t, ?_, ?_⟩
    · rw [hleaf]
      show (OrderedMap.lookup? _ key).join = _
      rw [lookup?_keyed, ht]
      rfl
    · rw [hleaf]
      exact hkey
  · intro leaf t hleaf
    cases leaf with
    | field index name => cases hleaf
    | key key =>
      have hleaf : (OrderedMap.lookup? (Placement.completeRecord _) key).join = some t := hleaf
      rw [lookup?_keyed] at hleaf
      cases hvalue : OrderedMap.lookup? pairs key with
      | none =>
        rw [hvalue] at hleaf
        cases hleaf
      | some value =>
        obtain ⟨o, ho, hk, -⟩ :=
          List.Forall₂.exists_of_mem_right hpairs (OrderedMap.mem_of_lookup? hvalue)
        obtain ⟨s, hs, -, key', hkey, hleaf⟩ := List.Forall₂.exists_of_mem_left hfound ho
        cases hk.symm.trans hkey
        exact ⟨s, hs, hleaf⟩

/-- Contents read in the primary locale have a text at the leaf of every site, and a site for every
text. -/
theorem sites_of_contents? {known : Content} (hsited : c.placement.IsSited)
    (hknown : c.contents? text locales locales.primary = .ok (some known)) :
    ∃ found, c.sites text locales = .ok found ∧ (∀ s ∈ found, s.IsIn known) ∧
      ∀ leaf t, known.text? leaf = some t → ∃ s ∈ found, s.leaf = leaf := by
  rcases isSited_cases hsited with ⟨fields, defaults, hplace, hnames⟩ | ⟨pattern, hpattern⟩
  · exact sites_pairs_of_contents? hplace hnames hknown
  · exact sites_keyed_of_contents? hpattern hknown

/-! ## Where the sites stand -/

theorem pairwise_fieldSites {name : Text} {occurrences : List Occurrence}
    (h : occurrences.Pairwise fun a b => a.stop ≤ b.start) :
    (fieldSites name occurrences).Pairwise fun a b => a.occurrence.Apart b.occurrence := by
  have hoccurrences : (fieldSites name occurrences).map Site.occurrence = occurrences := by
    unfold fieldSites
    rw [List.map_map]
    exact List.zipIdx_map_fst 0 occurrences
  rw [← List.pairwise_map (f := Site.occurrence), hoccurrences]
  exact h.imp .inl

/-- The sites of different columns belong to different fields. -/
theorem pairwise_siteColumns {fields : List PairField} {columns : List (List Site)}
    (h : List.Forall₂ (c.IsSiteColumn text locales) fields columns)
    (hnames : (fields.map PairField.name).Nodup) :
    columns.Pairwise fun first second => ∀ a ∈ first, ∀ b ∈ second, a.field? ≠ b.field? := by
  have hfield : ∀ {field : PairField} {column : List Site}, c.IsSiteColumn text locales field column →
      ∀ s ∈ column, s.field? = some field.name := by
    rintro field column ⟨occurrences, -, rfl⟩ s hs
    obtain ⟨index, hleaf, -⟩ := mem_fieldSites_iff.1 hs
    unfold Site.field?
    rw [hleaf]
  induction h with
  | nil => exact .nil
  | @cons field column fields columns hcolumn hcolumns ih =>
    obtain ⟨hname, hnames⟩ := List.nodup_cons.1 hnames
    refine List.pairwise_cons.2 ⟨fun other hother a ha b hb heq => hname ?_, ih hnames⟩
    obtain ⟨field', hfield', hother⟩ := List.Forall₂.exists_of_mem_right hcolumns hother
    rw [hfield hcolumn a ha, hfield hother b hb] at heq
    exact List.mem_map.2 ⟨field', hfield', (Option.some.inj heq).symm⟩

/-- All sites stand in the text, and no two of them overlap when those of different fields do not. -/
theorem sites_spec {found : List Site} (hsited : c.placement.IsSited)
    (hfound : c.sites text locales = .ok found)
    (hfields : ∀ a ∈ found, ∀ b ∈ found, a.field? ≠ b.field? → a.occurrence.Apart b.occurrence) :
    (∀ s ∈ found, s.occurrence.In text) ∧
      found.Pairwise fun a b => a.occurrence.Apart b.occurrence := by
  rcases isSited_cases hsited with ⟨fields, defaults, hplace, hnames⟩ | ⟨pattern, hpattern⟩
  · obtain ⟨columns, hcolumns, rfl⟩ := (sites_pairs_iff hplace).1 hfound
    refine ⟨fun s hs => ?_, List.pairwise_flatten.2 ⟨fun column hcolumn => ?_, ?_⟩⟩
    · obtain ⟨column, hcolumn, hs⟩ := List.mem_flatten.1 hs
      obtain ⟨field, -, occurrences, hoccurrences, rfl⟩ :=
        List.Forall₂.exists_of_mem_right hcolumns hcolumn
      obtain ⟨index, -, ho⟩ := mem_fieldSites_iff.1 hs
      exact (occurrences_spec hoccurrences).1 _ (List.mem_of_getElem? ho)
    · obtain ⟨field, -, occurrences, hoccurrences, rfl⟩ :=
        List.Forall₂.exists_of_mem_right hcolumns hcolumn
      exact pairwise_fieldSites (occurrences_spec hoccurrences).2
    · refine (pairwise_siteColumns hcolumns hnames).imp_of_mem
        fun {first second} hfirst hsecond hne a ha b hb => ?_
      exact hfields a (List.mem_flatten.2 ⟨first, hfirst, ha⟩) b
        (List.mem_flatten.2 ⟨second, hsecond, hb⟩) (hne a ha b hb)
  · obtain ⟨occurrences, hoccurrences, hsites⟩ := (sites_keyed_iff hpattern).1 hfound
    obtain ⟨hin, hpairwise⟩ := occurrences_spec hoccurrences
    have hmap : found.map Site.occurrence = occurrences := by
      rw [List.Forall₂.map_eq_map hsites.flip (g := id) fun s o h => h.1, List.map_id]
    refine ⟨fun s hs => hin _ (hmap ▸ List.mem_map_of_mem hs), ?_⟩
    rw [← List.pairwise_map (f := Site.occurrence), hmap]
    exact hpairwise.imp .inl

end Category

end Bilingual
