import Bilingual.Manifest.Check
import Bilingual.Proofs.Checked
import Bilingual.Proofs.Content

set_option autoImplicit false

/-! # What checked manifests are

What the check of a single part makes sure of is its soundness (`Placement.Sound` and what is built from it): nothing is
empty that must not be, and no map has a key twice. The categories of a manifest that has been checked have different
names, its blocks merge only categories of texts by key, and none of its default texts has a key twice
(`Manifest.valid_of_check`). -/

namespace Bilingual

open Checked

namespace Placement

/-! ## Default texts -/

theorem distinct_completeRecord {texts : OrderedMap Text} (h : OrderedMap.Distinct texts) :
    (Content.map (completeRecord texts)).Distinct := by
  show (OrderedMap.keys (OrderedMap.mapValues some texts)).Nodup
  rw [OrderedMap.keys_mapValues]
  exact h

theorem distinct_completeRecords {records : List (OrderedMap Text)} (h : ∀ texts ∈ records, OrderedMap.Distinct texts) :
    (Content.records (records.map fun texts => some (completeRecord texts))).Distinct := by
  intro record hrecord
  obtain ⟨texts, htexts, heq⟩ := List.mem_map.1 hrecord
  cases heq
  exact distinct_completeRecord (h texts htexts)

theorem distinct_completeKeyedRecords {records : OrderedMap (OrderedMap Text)} (hkeys : OrderedMap.Distinct records)
    (h : ∀ pair ∈ records, OrderedMap.Distinct pair.2) :
    (Content.keyedRecords (records.mapValues fun texts => some (completeRecord texts))).Distinct := by
  refine ⟨?_, fun key record hrecord => ?_⟩
  · unfold OrderedMap.Distinct
    rw [OrderedMap.keys_mapValues]
    exact hkeys
  · obtain ⟨pair, hpair, heq⟩ := List.mem_map.1 hrecord
    cases heq
    exact distinct_completeRecord (h pair hpair)

/-- The names of the categories whose texts are put into the block too. -/
def merges : Placement → List Text
  | dictBlock _ names _ => names
  | _ => []

/-! ## Sound placements -/

/-- What the check of a placement makes sure of: what must not be empty is not, and no map has a key twice. -/
def Sound : Placement → Prop
  | pairs fields defaults => fields ≠ [] ∧ ∀ texts ∈ defaults, OrderedMap.Distinct texts
  | keyedPairs _ _ defaults | choices _ defaults | documents _ _ defaults => OrderedMap.Distinct defaults
  | scalarFields anchors fields defaults =>
    anchors ≠ [] ∧ (fields ≠ [] ∧ ∀ field ∈ fields, OrderedMap.Distinct field.localeLabels) ∧
      OrderedMap.Distinct defaults
  | dictBlock place _ defaults => OrderedMap.Distinct place.localeOpeners ∧ OrderedMap.Distinct defaults
  | recordBlock place fields defaults =>
    OrderedMap.Distinct place.localeOpeners ∧ fields ≠ [] ∧ ∀ texts ∈ defaults, OrderedMap.Distinct texts
  | listBlock place _ defaults =>
    OrderedMap.Distinct place.localeOpeners ∧ ∀ texts ∈ defaults, OrderedMap.Distinct texts
  | keyedRecordBlock place fields defaults =>
    OrderedMap.Distinct place.localeOpeners ∧ fields ≠ [] ∧
      OrderedMap.Distinct defaults ∧ ∀ pair ∈ defaults, OrderedMap.Distinct pair.2

/-- The default texts of a sound placement have distinct keys, whatever its kind. -/
theorem Sound.defaults {placement : Placement} (h : placement.Sound) : placement.defaults.Distinct := by
  cases placement with
  | pairs fields defaults => exact distinct_completeRecords h.2
  | keyedPairs keyField label defaults => exact distinct_completeRecord h
  | choices condition defaults => exact distinct_completeRecord h
  | documents keyField bodyField defaults => exact distinct_completeRecord h
  | scalarFields anchors fields defaults => exact distinct_completeRecord h.2.2
  | dictBlock place merge defaults => exact distinct_completeRecord h.2
  | recordBlock place fields defaults => exact distinct_completeRecords h.2.2
  | listBlock place field defaults => exact distinct_completeRecords h.2
  | keyedRecordBlock place fields defaults => exact distinct_completeKeyedRecords h.2.2.1 h.2.2.2

end Placement

/-! ## Sound categories -/

/-- A text that can name a category. -/
def Text.IsName (t : Text) : Prop := t ≠ [] ∧ t.hasSurrogate = false

/-- What the check of a category makes sure of. -/
structure Category.Sound (c : Category) : Prop where
  name : c.name.IsName
  placement : c.placement.Sound

/-- What the check of a reference category makes sure of. -/
structure ReferenceCategory.Sound (c : ReferenceCategory) : Prop where
  name : c.name.IsName
  defaults : OrderedMap.Distinct c.defaults

/-- What the check of a file makes sure of. -/
structure Artifact.Sound (a : Artifact) : Prop where
  categories_ne : a.categories ≠ []
  categories : ∀ c ∈ a.categories, c.Sound

/-- What the check of a manifest's fields makes sure of. -/
structure Manifest.Sound (m : Manifest) : Prop where
  artifacts_ne : m.artifacts ≠ []
  artifacts : ∀ a ∈ m.artifacts, a.Sound
  references : ∀ c ∈ m.references, c.Sound

/-! ## Checked categories are sound -/

/-- A checked list that must not be empty is not. -/
theorem Checked.ensures_ne_nil {α : Type} {check : Data → Checked α} {fields : List (DataKey × Data)} (name : Text) :
    Ensures (· ≠ []) (required fields name (nonEmptyList check)) :=
  ensures_required (fun d => (ensures_nonEmptyList (P := fun _ => True) (fun _ => ensures_true _) d).mono
    fun _ h => h.1) name

theorem ScalarField.ensures_check (d : Data) :
    Ensures (fun field => OrderedMap.Distinct field.localeLabels) (ScalarField.check d) := by
  refine ensures_model (fun fields => ?_) _ d
  exact ensures_map₃ (ensures_true _) (ensures_true _)
    (ensures_defaulted OrderedMap.distinct_nil (ensures_distinct text) _) fun _ _ _ _ _ h => h

namespace Category

variable (fields : List (DataKey × Data))

theorem ensures_defaultTexts : Ensures OrderedMap.Distinct (defaultTexts fields) :=
  ensures_defaulted OrderedMap.distinct_nil (ensures_distinct text) _

theorem ensures_defaultRecords :
    Ensures (fun records => ∀ texts ∈ records, OrderedMap.Distinct texts) (defaultRecords fields) :=
  ensures_defaulted (by simp) (ensures_list (ensures_distinct text)) _

theorem ensures_defaultKeyedRecords :
    Ensures (fun records => OrderedMap.Distinct records ∧ ∀ pair ∈ records, OrderedMap.Distinct pair.2)
      (defaultKeyedRecords fields) :=
  ensures_defaulted ⟨OrderedMap.distinct_nil, by simp⟩ (ensures_map (ensures_distinct text)) _

theorem ensures_blockPlace (opener : Option Text) :
    Ensures (fun place => OrderedMap.Distinct place.localeOpeners) (blockPlace fields opener) :=
  ensures_map₃ (ensures_true _) (ensures_true _) (ensures_defaulted OrderedMap.distinct_nil (ensures_distinct text) _)
    fun _ _ _ _ _ h => h

/-- Checked placements are sound, whatever the kind of their category. -/
theorem ensures_kinds : ∀ kind ∈ kinds, ∀ fields, Ensures Placement.Sound (kind.2.2 fields) := by
  simp only [kinds, List.forall_mem_cons]
  refine ⟨fun fields => ?pairs, fun fields => ?keyedPairs, fun fields => ?choices, fun fields => ?documents,
    fun fields => ?scalarFields, fun fields => ?dictBlock, fun fields => ?recordBlock, fun fields => ?listBlock,
    fun fields => ?keyedRecordBlock, by simp⟩
  case pairs => exact ensures_map₂ (ensures_ne_nil _) (ensures_defaultRecords fields) fun _ _ hne h => ⟨hne, h⟩
  case choices => exact ensures_map₂ (ensures_true _) (ensures_defaultTexts fields) fun _ _ _ h => h
  case keyedPairs | documents =>
    exact ensures_map₃ (ensures_true _) (ensures_true _) (ensures_defaultTexts fields) fun _ _ _ _ _ h => h
  case scalarFields =>
    exact ensures_map₃ (ensures_ne_nil _) (ensures_required (ensures_nonEmptyList ScalarField.ensures_check) _)
      (ensures_defaultTexts fields) fun _ _ _ hanchors hfields h => ⟨hanchors, hfields, h⟩
  case dictBlock =>
    exact ensures_map₃ (ensures_blockPlace fields _) (ensures_true _) (ensures_defaultTexts fields)
      fun _ _ _ hplace _ h => ⟨hplace, h⟩
  case recordBlock =>
    exact ensures_map₃ (ensures_blockPlace fields _) (ensures_ne_nil _) (ensures_defaultRecords fields)
      fun _ _ _ hplace hne h => ⟨hplace, hne, h⟩
  case listBlock =>
    exact ensures_map₃ (ensures_blockPlace fields _) (ensures_true _) (ensures_defaultRecords fields)
      fun _ _ _ hplace _ h => ⟨hplace, h⟩
  case keyedRecordBlock =>
    exact ensures_map₃ (ensures_blockPlace fields _) (ensures_ne_nil _) (ensures_defaultKeyedRecords fields)
      fun _ _ _ hplace hne h => ⟨hplace, hne, h⟩

theorem ensures_common {placement : Checked Placement} (h : Ensures Placement.Sound placement) :
    Ensures Category.Sound (common fields placement) :=
  ensures_map₃ (ensures_required ensures_nonEmptyText _) (ensures_true _) h
    fun _ _ _ hname _ hplacement => ⟨hname, hplacement⟩

theorem ensures_check (d : Data) : Ensures Category.Sound (Category.check d) := by
  unfold Category.check
  split
  · next fields =>
    split
    · exact ensures_problem _
    · next kind hkind =>
      split
      · exact ensures_problem _
      · next names placement hlookup =>
        have hplacement := ensures_kinds _ (OrderedMap.mem_of_lookup? hlookup)
        exact (ensures_model (fun fields => ensures_common fields (hplacement fields)) _ _).under _
    · exact ensures_problem _
  · exact ensures_problem _

end Category

theorem ReferenceCategory.ensures_check (d : Data) :
    Ensures ReferenceCategory.Sound (ReferenceCategory.check d) := by
  refine ensures_model (fun fields => ?_) _ d
  refine Ensures.seq (ensures_map₃ (ensures_required ensures_nonEmptyText _) (ensures_true _) (ensures_true _)
    fun name region _ hname _ _ texts htexts => ?_) (Category.ensures_defaultTexts fields)
  exact ⟨hname, htexts⟩

theorem Artifact.ensures_check (d : Data) : Ensures Artifact.Sound (Artifact.check d) :=
  ensures_model (fun _ => ensures_map₂ (ensures_true _)
    (ensures_required (ensures_nonEmptyList Category.ensures_check) _) fun _ _ _ h => ⟨h.1, h.2⟩) _ d

namespace Manifest

variable {m : Manifest}

/-! ## The categories of a manifest -/

/-- A category of a manifest is one of a file, or one that no file has. -/
theorem mem_categories_iff {c : AnyCategory} : c ∈ m.categories ↔
    (∃ a ∈ m.artifacts, ∃ category ∈ a.categories, .artifact category = c) ∨
      ∃ category ∈ m.references, .reference category = c := by
  simp only [categories, List.mem_append, List.mem_flatMap, List.mem_map]

theorem mem_categories_of_artifact {a : Artifact} (ha : a ∈ m.artifacts) {c : Category} (hc : c ∈ a.categories) :
    AnyCategory.artifact c ∈ m.categories :=
  mem_categories_iff.2 (.inl ⟨a, ha, c, hc, rfl⟩)

/-- The names of a manifest's categories: those of its files, then those that no file has. -/
theorem names_categories (m : Manifest) : m.categories.map AnyCategory.name =
    (m.artifacts.flatMap Artifact.categories).map Category.name ++ m.references.map ReferenceCategory.name := by
  unfold categories
  rw [List.map_append, List.map_map, List.map_flatMap, List.map_flatMap]
  congr 1
  simp only [List.map_map]
  rfl

/-- The default texts of a manifest with checked fields have distinct keys. -/
theorem Sound.defaults (h : m.Sound) {c : AnyCategory} (hc : c ∈ m.categories) : c.defaults.Distinct := by
  obtain ⟨a, ha, category, hcategory, rfl⟩ | ⟨category, hcategory, rfl⟩ := mem_categories_iff.1 hc
  · exact ((h.artifacts a ha).categories category hcategory).placement.defaults
  · exact Placement.distinct_completeRecord (h.references category hcategory).defaults

/-! ## Checked fields -/

/-- A manifest with checked fields is sound. -/
theorem ensures_checkFields (d : Data) : Ensures Manifest.Sound (checkFields d) := by
  refine ensures_model (fun fields => ?_) _ d
  have hartifacts : Ensures (fun artifacts => artifacts ≠ [] ∧ ∀ a ∈ artifacts, a.Sound)
      (required fields "artifacts" (nonEmptyList Artifact.check)) :=
    ensures_required (ensures_nonEmptyList Artifact.ensures_check) _
  have hreferences : Ensures (fun references => ∀ c ∈ references, c.Sound)
      (defaulted fields "references" [] (list ReferenceCategory.check)) :=
    ensures_defaulted (by simp) (ensures_list ReferenceCategory.ensures_check) _
  -- nothing is asked of the fields in front of these two
  refine Ensures.seq (Ensures.seq (Ensures.seq (ensures_map₃ (ensures_true _) (ensures_true _) (ensures_true _)
    fun version primary secondary _ _ _ paths _ artifacts hartifacts references hreferences => ?_) (ensures_true _))
    hartifacts) hreferences
  exact ⟨hartifacts.1, hartifacts.2, hreferences⟩

/-! ## The categories taken together -/

theorem repeatedName?_eq_none_iff {seen : List Text} {cs : List AnyCategory} :
    repeatedName? seen cs = none ↔ (∀ c ∈ cs, c.name ∉ seen) ∧ (cs.map AnyCategory.name).Nodup := by
  induction cs generalizing seen with
  | nil => simp [repeatedName?]
  | cons c rest ih =>
    rw [repeatedName?, List.forall_mem_cons, List.map_cons, List.nodup_cons]
    by_cases hseen : c.name ∈ seen
    · simp [hseen]
    · rw [if_neg (by simpa using hseen), ih]
      simp only [List.mem_cons, not_or, forall_and, List.mem_map, not_exists, not_and]
      exact ⟨fun h => ⟨⟨hseen, h.1.2⟩, h.1.1, h.2⟩, fun h => ⟨⟨h.2.1, h.1.2⟩, h.2.2⟩⟩

/-- Some category of texts by key has the name. -/
def HasTexts (m : Manifest) (name : Text) : Prop := ∃ c ∈ m.categories, c.name = name ∧ c.shape = .map

theorem wrongMerges_eq_nil_iff {maps : List Text} {c : Category} :
    wrongMerges maps c = [] ↔ ∀ name ∈ c.placement.merges, name ∈ maps := by
  unfold wrongMerges Placement.merges
  cases c.placement with
  | dictBlock place names defaults => simp [List.filter_eq_nil_iff]
  | _ => simp

/-- Nothing is wrong with the categories taken together exactly if their names differ and only categories of texts by
key are merged. -/
theorem refusal?_eq_none_iff : m.refusal? = none ↔ (m.categories.map AnyCategory.name).Nodup ∧
    ∀ a ∈ m.artifacts, ∀ c ∈ a.categories, ∀ name ∈ c.placement.merges, m.HasTexts name := by
  have hmaps : ∀ name, name ∈ (m.categories.filter fun c => c.shape = .map).map AnyCategory.name ↔ m.HasTexts name := by
    intro name
    simp [HasTexts, and_assoc, and_comm]
  unfold refusal?
  cases hrepeated : repeatedName? [] m.categories with
  | some name =>
    refine iff_of_false (by simp) fun h => ?_
    rw [repeatedName?_eq_none_iff.2 ⟨by simp, h.1⟩] at hrepeated
    cases hrepeated
  | none =>
    dsimp only
    rw [List.findSome?_eq_none_iff, and_iff_right (repeatedName?_eq_none_iff.1 hrepeated).2]
    simp only [ite_eq_left_iff, reduceCtorEq, imp_false, not_not, List.isEmpty_iff, wrongMerges_eq_nil_iff,
      hmaps, List.mem_flatMap, forall_exists_index, and_imp]
    exact ⟨fun h a ha c hc => h c a ha hc, fun h c a ha hc => h a ha c hc⟩

variable {d : Data}

/-- Fields that are right make a manifest unless something is wrong with its categories taken together. -/
theorem check_eq_ok_iff : check d = .ok m ↔ checkFields d = .ok m ∧ m.refusal? = none := by
  unfold check
  rw [andThen_eq_ok_iff]
  constructor
  · rintro ⟨given, hgiven, h⟩
    cases hrefusal : given.refusal? with
    | none =>
      rw [hrefusal] at h
      cases h
      exact ⟨hgiven, hrefusal⟩
    | some reason =>
      rw [hrefusal] at h
      cases h
  · rintro ⟨hfields, hrefusal⟩
    exact ⟨m, hfields, by rw [hrefusal]⟩

/-- What a checked manifest is. -/
structure Valid (m : Manifest) : Prop where
  names : (m.categories.map AnyCategory.name).Nodup
  merges : ∀ a ∈ m.artifacts, ∀ c ∈ a.categories, ∀ name ∈ c.placement.merges, m.HasTexts name
  defaults : ∀ c ∈ m.categories, c.defaults.Distinct

theorem valid_of_check (h : check d = .ok m) : m.Valid := by
  obtain ⟨hfields, hrefusal⟩ := check_eq_ok_iff.1 h
  obtain ⟨hnames, hmerges⟩ := refusal?_eq_none_iff.1 hrefusal
  exact ⟨hnames, hmerges, fun _ hc => (ensures_checkFields d m hfields).defaults hc⟩

variable {name : Text}

/-- Where names differ, every category is the one that is found by its name. -/
theorem category?_of_mem (h : (m.categories.map AnyCategory.name).Nodup) {c : AnyCategory} (hc : c ∈ m.categories) :
    m.category? c.name = some c := by
  unfold category?
  cases hfind : m.categories.find? fun other => other.name == c.name with
  | none => exact absurd (beq_self_eq_true c.name) (by simpa using List.find?_eq_none.1 hfind c hc)
  | some other =>
    have hname : other.name = c.name := by simpa using List.find?_some hfind
    rw [List.inj_on_of_nodup_map h (List.mem_of_find?_eq_some hfind) hc hname]

/-- A name that is merged leads to a category of texts by key. -/
theorem Valid.category?_of_hasTexts (h : m.Valid) (hname : m.HasTexts name) :
    ∃ c, m.category? name = some c ∧ c.name = name ∧ c.shape = .map := by
  obtain ⟨c, hc, rfl, hshape⟩ := hname
  exact ⟨c, category?_of_mem h.names hc, rfl, hshape⟩

end Manifest

end Bilingual
