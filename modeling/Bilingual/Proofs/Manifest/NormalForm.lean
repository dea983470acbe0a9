import Bilingual.Manifest.Dump
import Bilingual.Proofs.Manifest
import Bilingual.Proofs.ReadBack

set_option autoImplicit false

/-! # Checked manifests are written in a normal form

Sound parts of a manifest are read back from what they are written as, with every field and every default: one law for
each model, from the regions and fields up to the manifest. What a check comes to is sound, so a checked manifest,
written and checked again, is the same manifest (`Manifest.check_normalForm`). -/

namespace Bilingual

open Checked

/-! ## Texts -/

section Texts

variable {texts : OrderedMap Text} {items : List Text} {records : List (OrderedMap Text)}

theorem Checked.texts_ofTexts (items : List Text) : list text (Data.ofJson (Json.ofTexts items)) = .ok items :=
  list_ofJson fun _ _ => rfl

theorem Checked.nonEmptyTexts_ofTexts (h : items ≠ []) :
    nonEmptyList text (Data.ofJson (Json.ofTexts items)) = .ok items :=
  nonEmptyList_ofJson h fun _ _ => rfl

theorem Checked.texts_ofTextMap (h : OrderedMap.Distinct texts) :
    map text (Data.ofJson (Json.ofTextMap texts)) = .ok texts :=
  map_ofJson h fun _ _ => rfl

theorem Checked.records_ofJson (h : ∀ texts ∈ records, OrderedMap.Distinct texts) :
    list (map text) (Data.ofJson (Placement.recordsToJson records)) = .ok records :=
  list_ofJson fun texts htexts => texts_ofTextMap (h texts htexts)

end Texts

/-! ## Regions and fields -/

theorem Region.check_toJson (region : Region) : Region.check (Data.ofJson region.toJson) = .ok region :=
  model_ofJson (by simp [areNames_iff, Text.ofString_inj]) rfl fun hdistinct => map₂_eq_ok Region.mk
    (defaulted_of_mem hdistinct (by simp) (nullable_text_ofOption region.start))
    (defaulted_of_mem hdistinct (by simp) (nullable_text_ofOption region.stop))

theorem Region.nullable_optionToJson (region : Option Region) :
    nullable Region.check (Data.ofJson (optionToJson region)) = .ok region := by
  cases region with
  | none => rfl
  | some region =>
    show some <$> Region.check (Data.ofJson region.toJson) = _
    rw [region.check_toJson]
    rfl

theorem PairField.check_toJson (field : PairField) : PairField.check (Data.ofJson field.toJson) = .ok field :=
  model_ofJson (by simp [areNames_iff, Text.ofString_inj]) rfl fun hdistinct => map₃_eq_ok PairField.mk
    (required_of_mem hdistinct (by simp) (text_ofJson field.name))
    (defaulted_of_mem hdistinct (by simp) (nullable_text_ofOption field.label))
    (defaulted_of_mem hdistinct (by simp) (nullable_text_ofOption field.followedBy))

theorem ScalarField.check_toJson {field : ScalarField} (h : OrderedMap.Distinct field.localeLabels) :
    ScalarField.check (Data.ofJson field.toJson) = .ok field :=
  model_ofJson (by simp [areNames_iff, Text.ofString_inj]) rfl fun hdistinct => map₃_eq_ok ScalarField.mk
    (required_of_mem hdistinct (by simp) (text_ofJson field.name))
    (defaulted_of_mem hdistinct (by simp) (nullable_text_ofOption field.label))
    (defaulted_of_mem hdistinct (by simp) (texts_ofTextMap h))

/-! ## Categories -/

namespace Placement

section Fields

variable {fields others : List (Text × Json)}

/-- The place of a block is read back from fields that hold its own. -/
theorem blockPlace_ofFields {place : BlockPlace} (h : OrderedMap.Distinct place.localeOpeners)
    (hfields : OrderedMap.Distinct fields) (hmem : place.fieldsBefore others ⊆ fields) (opener : Option Text) :
    Category.blockPlace (Data.ofFields fields) opener = .ok place := by
  simp only [BlockPlace.fieldsBefore, List.cons_subset] at hmem
  obtain ⟨hanchors, hopener, hopeners, -⟩ := hmem
  refine map₃_eq_ok BlockPlace.mk ?_ ?_ ?_
  · exact defaulted_of_mem hfields hanchors (texts_ofTexts place.anchors)
  · cases opener with
    | some opener => exact defaulted_of_mem hfields hopener (text_ofJson place.opener)
    | none => exact required_of_mem hfields hopener (text_ofJson place.opener)
  · exact defaulted_of_mem hfields hopeners (texts_ofTextMap h)

end Fields

/-- Each placement is of a kind that has its name and its fields, and the check of that kind reads the placement back
from any fields that hold its own. -/
theorem Sound.exists_kind {placement : Placement} (h : placement.Sound) :
    ∃ kind ∈ Category.kinds, kind.1 = placement.kindName ∧ kind.2.1 = OrderedMap.keys placement.fields ∧
      ∀ fields, OrderedMap.Distinct fields → placement.fields ⊆ fields →
        kind.2.2 (Data.ofFields fields) = .ok placement := by
  cases placement with
  | pairs given defaults =>
    refine ⟨Category.kinds[0], List.getElem_mem _, rfl, rfl, fun fields hfields hmem => ?_⟩
    simp only [Placement.fields, List.cons_subset] at hmem
    obtain ⟨hgiven, hdefaults, -⟩ := hmem
    exact map₂_eq_ok pairs
      (required_of_mem hfields hgiven (nonEmptyList_ofJson h.1 fun field _ => field.check_toJson))
      (defaulted_of_mem hfields hdefaults (records_ofJson h.2))
  | keyedPairs keyField label defaults =>
    refine ⟨Category.kinds[1], List.getElem_mem _, rfl, rfl, fun fields hfields hmem => ?_⟩
    simp only [Placement.fields, List.cons_subset] at hmem
    obtain ⟨hkeyField, hlabel, hdefaults, -⟩ := hmem
    exact map₃_eq_ok keyedPairs (required_of_mem hfields hkeyField (text_ofJson keyField))
      (required_of_mem hfields hlabel (text_ofJson label)) (defaulted_of_mem hfields hdefaults (texts_ofTextMap h))
  | choices condition defaults =>
    refine ⟨Category.kinds[2], List.getElem_mem _, rfl, rfl, fun fields hfields hmem => ?_⟩
    simp only [Placement.fields, List.cons_subset] at hmem
    obtain ⟨hcondition, hdefaults, -⟩ := hmem
    exact map₂_eq_ok choices (defaulted_of_mem hfields hcondition (text_ofJson condition))
      (defaulted_of_mem hfields hdefaults (texts_ofTextMap h))
  | documents keyField bodyField defaults =>
    refine ⟨Category.kinds[3], List.getElem_mem _, rfl, rfl, fun fields hfields hmem => ?_⟩
    simp only [Placement.fields, List.cons_subset] at hmem
    obtain ⟨hkeyField, hbodyField, hdefaults, -⟩ := hmem
    exact map₃_eq_ok documents (defaulted_of_mem hfields hkeyField (text_ofJson keyField))
      (defaulted_of_mem hfields hbodyField (text_ofJson bodyField))
      (defaulted_of_mem hfields hdefaults (texts_ofTextMap h))
  | scalarFields anchors given defaults =>
    obtain ⟨hne, ⟨hgiven_ne, hlabels⟩, hdistinct⟩ := h
    refine ⟨Category.kinds[4], List.getElem_mem _, rfl, rfl, fun fields hfields hmem => ?_⟩
    simp only [Placement.fields, List.cons_subset] at hmem
    obtain ⟨hanchors, hgiven, hdefaults, -⟩ := hmem
    exact map₃_eq_ok scalarFields (required_of_mem hfields hanchors (nonEmptyTexts_ofTexts hne))
      (required_of_mem hfields hgiven
        (nonEmptyList_ofJson hgiven_ne fun field hfield => ScalarField.check_toJson (hlabels field hfield)))
      (defaulted_of_mem hfields hdefaults (texts_ofTextMap hdistinct))
  -- the fields of a block's place come first, and its own behind them
  | dictBlock place merge defaults =>
    obtain ⟨hopeners, hdistinct⟩ := h
    refine ⟨Category.kinds[5], List.getElem_mem _, rfl, rfl, fun fields hfields hmem => ?_⟩
    have hplace := blockPlace_ofFields hopeners hfields hmem
    simp only [Placement.fields, BlockPlace.fieldsBefore, List.cons_subset] at hmem
    obtain ⟨-, -, -, hmerge, hdefaults, -⟩ := hmem
    exact map₃_eq_ok dictBlock (hplace _) (defaulted_of_mem hfields hmerge (texts_ofTexts merge))
      (defaulted_of_mem hfields hdefaults (texts_ofTextMap hdistinct))
  | recordBlock place given defaults =>
    obtain ⟨hopeners, hne, hdistinct⟩ := h
    refine ⟨Category.kinds[6], List.getElem_mem _, rfl, rfl, fun fields hfields hmem => ?_⟩
    have hplace := blockPlace_ofFields hopeners hfields hmem
    simp only [Placement.fields, BlockPlace.fieldsBefore, List.cons_subset] at hmem
    obtain ⟨-, -, -, hgiven, hdefaults, -⟩ := hmem
    exact map₃_eq_ok recordBlock (hplace _) (required_of_mem hfields hgiven (nonEmptyTexts_ofTexts hne))
      (defaulted_of_mem hfields hdefaults (records_ofJson hdistinct))
  | listBlock place field defaults =>
    obtain ⟨hopeners, hdistinct⟩ := h
    refine ⟨Category.kinds[7], List.getElem_mem _, rfl, rfl, fun fields hfields hmem => ?_⟩
    have hplace := blockPlace_ofFields hopeners hfields hmem
    simp only [Placement.fields, BlockPlace.fieldsBefore, List.cons_subset] at hmem
    obtain ⟨-, -, -, hfield, hdefaults, -⟩ := hmem
    exact map₃_eq_ok listBlock (hplace _) (defaulted_of_mem hfields hfield (text_ofJson field))
      (defaulted_of_mem hfields hdefaults (records_ofJson hdistinct))
  | keyedRecordBlock place given defaults =>
    obtain ⟨hopeners, hne, hkeys, hdistinct⟩ := h
    refine ⟨Category.kinds[8], List.getElem_mem _, rfl, rfl, fun fields hfields hmem => ?_⟩
    have hplace := blockPlace_ofFields hopeners hfields hmem
    simp only [Placement.fields, BlockPlace.fieldsBefore, List.cons_subset] at hmem
    obtain ⟨-, -, -, hgiven, hdefaults, -⟩ := hmem
    exact map₃_eq_ok keyedRecordBlock (hplace _) (required_of_mem hfields hgiven (nonEmptyTexts_ofTexts hne))
      (defaulted_of_mem hfields hdefaults
        (map_ofJson hkeys fun pair hpair => texts_ofTextMap (hdistinct pair hpair)))

end Placement

namespace Category

theorem distinct_kinds : OrderedMap.Distinct kinds := by
  simp [OrderedMap.Distinct, OrderedMap.keys, kinds, Text.ofString_inj]

/-- The names of the fields of a category, whatever its kind, can be those of a model. -/
theorem areNames_of_mem_kinds : ∀ kind ∈ kinds, AreNames ("name" :: "region" :: "kind" :: kind.2.1) := by
  simp [kinds, areNames_iff, Text.ofString_inj]

theorem Sound.check_toJson {c : Category} (h : c.Sound) : check (Data.ofJson c.toJson) = .ok c := by
  obtain ⟨kind, hkind, hname, hkeys, hplacement⟩ := h.placement.exists_kind
  let fields : OrderedMap Json := ("name", .text c.name) :: ("region", Region.optionToJson c.region) ::
    ("kind", .text c.placement.kindName) :: c.placement.fields
  have htag : Data.lookup? (Data.ofFields fields) "kind" = some (.text c.placement.kindName) := by
    rw [Data.lookup?_ofFields]
    simp [fields, OrderedMap.lookup?, Text.ofString_inj, Data.ofJson]
  have hlookup : OrderedMap.lookup? kinds c.placement.kindName = some kind.2 :=
    OrderedMap.lookup?_of_mem distinct_kinds (hname ▸ hkind)
  have hmodel : model ("name" :: "region" :: "kind" :: kind.2.1) (fun fields => common fields (kind.2.2 fields))
      (Data.ofJson (.object fields)) = .ok c := by
    refine model_ofJson (areNames_of_mem_kinds kind hkind) ?_ fun hfields => map₃_eq_ok Category.mk ?_ ?_ ?_
    · rw [hkeys]
      rfl
    · exact required_of_mem hfields (by simp [fields]) (nonEmptyText_ofJson h.name.1 h.name.2)
    · exact defaulted_of_mem hfields (by simp [fields]) (Region.nullable_optionToJson c.region)
    · exact hplacement fields hfields fun field hfield => by simp [fields, hfield]
  show check (.map (Data.ofFields fields)) = _
  unfold check
  simp only [htag, hlookup]
  show (model _ _ (Data.ofJson (.object fields))).under _ = _
  rw [hmodel]
  rfl

end Category

theorem ReferenceCategory.Sound.check_toJson {c : ReferenceCategory} (h : c.Sound) :
    ReferenceCategory.check (Data.ofJson c.toJson) = .ok c := by
  have hkind : oneOf [("reference", ())] (Data.ofJson (.text "reference")) = .ok () := by
    simp [Data.ofJson, oneOf, OrderedMap.lookup?]
  refine model_ofJson (by simp [areNames_iff, Text.ofString_inj]) rfl fun hfields => ?_
  refine seq_eq_ok (map₃_eq_ok (fun name region _ defaults => ReferenceCategory.mk name region defaults)
    (required_of_mem hfields (by simp) (nonEmptyText_ofJson h.name.1 h.name.2))
    (defaulted_of_mem hfields (by simp) (Region.nullable_optionToJson c.region))
    (defaulted_of_mem hfields (by simp) hkind)) ?_
  exact defaulted_of_mem hfields (by simp) (texts_ofTextMap h.defaults)

/-! ## Manifests -/

theorem Artifact.Sound.check_toJson {a : Artifact} (h : a.Sound) : Artifact.check (Data.ofJson a.toJson) = .ok a :=
  model_ofJson (by simp [areNames_iff, Text.ofString_inj]) rfl fun hfields => map₂_eq_ok Artifact.mk
    (required_of_mem hfields (by simp) (text_ofJson a.path))
    (required_of_mem hfields (by simp)
      (nonEmptyList_ofJson h.categories_ne fun c hc => (h.categories c hc).check_toJson))

theorem DocumentPaths.check_toJson (paths : DocumentPaths) :
    DocumentPaths.check (Data.ofJson paths.toJson) = .ok paths :=
  model_ofJson (by simp [areNames_iff, Text.ofString_inj]) rfl fun hfields => map₃_eq_ok DocumentPaths.mk
    (defaulted_of_mem hfields (by simp) (text_ofJson paths.snapshot))
    (defaulted_of_mem hfields (by simp) (text_ofJson paths.translated))
    (defaulted_of_mem hfields (by simp) (text_ofJson paths.reference))

namespace Manifest

variable {m : Manifest}

theorem Sound.checkFields_toJson (h : m.Sound) : checkFields (Data.ofJson m.toJson) = .ok m := by
  have hversion : integer (Data.ofJson (.integer m.version)) = .ok m.version := rfl
  refine model_ofJson (by simp [areNames_iff, Text.ofString_inj]) rfl fun hfields =>
    seq_eq_ok (seq_eq_ok (seq_eq_ok (map₃_eq_ok Manifest.mk ?_ ?_ ?_) ?_) ?_) ?_
  · exact defaulted_of_mem hfields (by simp) hversion
  · exact defaulted_of_mem hfields (by simp) (text_ofJson m.primaryLocale)
  · exact defaulted_of_mem hfields (by simp) (text_ofJson m.secondaryLocale)
  · exact defaulted_of_mem hfields (by simp) m.paths.check_toJson
  · exact required_of_mem hfields (by simp)
      (nonEmptyList_ofJson h.artifacts_ne fun a ha => (h.artifacts a ha).check_toJson)
  · exact defaulted_of_mem hfields (by simp) (list_ofJson fun c hc => (h.references c hc).check_toJson)

variable {d : Data}

/-- A refused manifest with right fields is one that something is wrong with. -/
theorem check_eq_bad_iff (h : checkFields d = .ok m) : (∃ problems, check d = .bad problems) ↔ m.refusal? ≠ none := by
  rw [← not_iff_not, not_not]
  have hok : m.refusal? = none ↔ check d = .ok m := by
    rw [check_eq_ok_iff, and_iff_right h]
  rw [hok]
  constructor
  · intro hnone
    cases hcheck : check d with
    | ok given =>
      obtain ⟨hgiven, -⟩ := check_eq_ok_iff.1 hcheck
      rw [← hgiven, h]
    | bad problems => exact absurd ⟨problems, hcheck⟩ hnone
  · rintro hcheck ⟨problems, hbad⟩
    rw [hcheck] at hbad
    cases hbad

/-- What the check of a manifest takes is in a normal form. The categories of the manifest that it comes to have
different names and are found by them, its blocks merge only categories of texts by key, and what it is written as is
taken again and gives the same manifest. Data whose fields are all right are refused exactly if a name comes twice or a
block merges a name that no category of texts by key has. -/
theorem check_normalForm (d : Data) :
    (∀ m, check d = .ok m →
      (m.categories.map AnyCategory.name).Nodup ∧
      (∀ c ∈ m.categories, m.category? c.name = some c) ∧
      (∀ a ∈ m.artifacts, ∀ c ∈ a.categories, ∀ name ∈ c.placement.merges, m.HasTexts name) ∧
      check (Data.ofJson m.toJson) = .ok m) ∧
    ∀ m, checkFields d = .ok m →
      ((∃ problems, check d = .bad problems) ↔
        ¬ (m.categories.map AnyCategory.name).Nodup ∨
          ∃ a ∈ m.artifacts, ∃ c ∈ a.categories, ∃ name ∈ c.placement.merges, ¬ m.HasTexts name) := by
  refine ⟨fun m h => ?_, fun m h => ?_⟩
  · obtain ⟨hfields, hrefusal⟩ := check_eq_ok_iff.1 h
    have hvalid := valid_of_check h
    have hagain : check (Data.ofJson m.toJson) = .ok m :=
      check_eq_ok_iff.2 ⟨(ensures_checkFields d m hfields).checkFields_toJson, hrefusal⟩
    exact ⟨hvalid.names, fun c hc => category?_of_mem hvalid.names hc, hvalid.merges, hagain⟩
  · rw [check_eq_bad_iff h, ne_eq, refusal?_eq_none_iff]
    simp only [not_and_or, not_forall, exists_prop]

/-- A document whose version is written as a text, with one block that merges the given category. -/
def merging (name : Text) : Json := .object [
  ("version", .text " 2.0 "),
  ("artifacts", .list [.object [("path", .text "menu.ts"), ("categories", .list [.object [
    ("name", .text "menu"), ("kind", .text "dict_block"), ("merge", Json.ofTexts [name])]])]]),
  ("references", .list [.object [("name", .text "inline")]])]

/-- The block of that document, with every default. -/
def menu (name : Text) : Category where
  name := "menu"
  region := none
  placement := .dictBlock ⟨[], "\x7blocale\x7d: \x7b", []⟩ [name] []

/-- The manifest of that document. -/
def merged (name : Text) : Manifest where
  version := 2
  artifacts := [⟨"menu.ts", [menu name]⟩]
  references := [⟨"inline", none, []⟩]

/-- The reference category can be merged, and a category that is not there cannot. -/
theorem check_normalForm_merging :
    check (Data.ofJson (merging "inline")) = .ok (merged "inline") ∧
      (merged "inline").category? "menu" = some (.artifact (menu "inline")) ∧
      check (Data.ofJson (merged "inline").toJson) = .ok (merged "inline") ∧
      checkFields (Data.ofJson (merging "other")) = .ok (merged "other") ∧
      ∃ problems, check (Data.ofJson (merging "other")) = .bad problems := by
  have htaken : check (Data.ofJson (merging "inline")) = .ok (merged "inline") := by decide +kernel
  have hfields : checkFields (Data.ofJson (merging "other")) = .ok (merged "other") := by decide +kernel
  obtain ⟨-, hfound, -, hagain⟩ := (check_normalForm (Data.ofJson (merging "inline"))).1 _ htaken
  have hother : ¬ (merged "other").HasTexts "other" := by
    unfold HasTexts
    decide +kernel
  refine ⟨htaken, hfound (.artifact (menu "inline")) (by decide +kernel), hagain, hfields, ?_⟩
  refine ((check_normalForm (Data.ofJson (merging "other"))).2 _ hfields).2 (.inr ?_)
  exact ⟨_, List.mem_singleton_self _, _, List.mem_singleton_self _, "other", List.mem_singleton_self _, hother⟩

end Manifest

end Bilingual
