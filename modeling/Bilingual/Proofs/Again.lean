import Bilingual.Proofs.Patch

set_option autoImplicit false

/-! # Patching again

A category is settled in a text when there is nothing left to do for it (`PatchInput.Settled`): every site
that the snapshot has a text for stands for that text, and no text of a block is without an item. This is said
of the text alone, kind by kind (`Category.Holds`). A patched text comes out of a second run as it is, and
without a report of an update, exactly if all categories are settled in it
(`PatchInput.patchText_again_iff`).

The first run does not always settle what it patches. New items of a block are put in front of the first line
break behind the last item, also where that line break stands inside a comment, and there nobody finds them
again (`PatchInput.patchText_again_appends`). -/

namespace Bilingual

/-! ## What a text holds -/

namespace Category

variable (c : Category) (text locale : Text)

/-- Every occurrence of a field that a record has a text for stands for that text. -/
def HoldsPairs (locales : Locales) (fields : List PairField) (records : List (Option FlatMap)) : Prop :=
  ∀ field ∈ fields, ∃ occurrences, c.occurrences text (field.pattern locales) = .ok occurrences ∧
    ∀ i value o, Plan.recordText? records i field.name = some value → occurrences[i]? = some o →
      o.secondary.value = .ok value

/-- Every occurrence of a key that has a text stands for that text. -/
def HoldsKeyed (pattern : Pattern) (texts : FlatMap) : Prop :=
  ∃ occurrences, c.occurrences text pattern = .ok occurrences ∧
    ∀ key value, (key, some value) ∈ texts → ∀ o ∈ occurrences,
      ∃ k, o.keyLiteral.value = .ok k ∧ (k = key → o.secondary.value = .ok value)

/-- The body of every document that has a text stands for that text. -/
def HoldsDocuments (texts : FlatMap) : Prop :=
  ∃ bodies, c.documentBodies text locale = .ok bodies ∧
    ∀ key value, (key, some value) ∈ texts → ∀ start stop,
      (bodies.getD []).lookup? key = some (start, stop) →
        Literal.decode (text.slice start stop) = .ok value

/-- The literal of every field that has a text stands for that text. -/
def HoldsScalars (texts : FlatMap) : Prop :=
  ∀ literals, c.scalarLiterals? text locale = some literals →
    ∀ key value, (key, some value) ∈ texts → ∀ l, literals.lookup? key = some l → l.value = .ok value

/-- The block, if there is one, has an item for every text, and every item of a key with a text stands for
that text. -/
def HoldsEntries (texts : FlatMap) : Prop :=
  ∃ found, c.parsedBlock text locale = .ok found ∧ ∀ parsed, found = some parsed →
    (∀ item ∈ parsed.items, ∀ l value, item.literal? = some l →
      Plan.boundText? texts item = some value → l.value = .ok value) ∧
    ∀ key value, (key, some value) ∈ texts → key ∈ Plan.existingKeys parsed

/-- The block, if there is one, has an item for every complete record, and the items hold the texts of their
records. Record number `i` belongs to item number `i`. -/
def HoldsRecords (names : List Text) (records : List (Option FlatMap)) : Prop :=
  ∃ found, c.parsedBlock text locale = .ok found ∧ ∀ parsed, found = some parsed →
    ∀ i given, records[i]? = some given →
      Plan.RecordRests c names given (parsed.items[i]?.map (i, ·))

/-- The block, if there is one, has an item for every complete record, and the first item of a key holds the
texts of its record. -/
def HoldsKeyedRecords (names : List Text) (records : OrderedMap (Option FlatMap)) : Prop :=
  ∃ found, c.parsedBlock text locale = .ok found ∧ ∀ parsed, found = some parsed →
    ∀ key given, (key, given) ∈ records → Plan.RecordRests c names given (Plan.itemOf? parsed key)

/-- The text has, at the sites of a category, all that contents bring for it. Blocks of entries take the
texts of merged categories as well. -/
def Holds (locales : Locales) (content : Content) (merged : List FlatMap) : Prop :=
  match c.placement, content with
  | .pairs fields _, .records records => c.HoldsPairs text locales fields records
  | .documents .., .map texts => c.HoldsDocuments text locales.secondary texts
  | .scalarFields .., .map texts => c.HoldsScalars text locales.secondary texts
  | .dictBlock .., .map texts => c.HoldsEntries text locales.secondary (Plan.overlay texts merged)
  | .recordBlock _ names _, .records records => c.HoldsRecords text locales.secondary names records
  | .listBlock _ name _, .records records => c.HoldsRecords text locales.secondary [name] records
  | .keyedRecordBlock _ names _, .keyedRecords records =>
    c.HoldsKeyedRecords text locales.secondary names records
  | placement, .map texts => match placement.keyedPattern? locales with
    | some pattern => c.HoldsKeyed text pattern texts
    | none => True
  | _, _ => True

end Category

namespace PatchInput

variable (input : PatchInput) (c : Category) (text : Text)

/-- There is nothing left to do for a category in a text: the snapshot brings no proper contents for it, or
it counts on other numbers of sites, or the text holds what it brings. -/
def Settled : Prop :=
  ∀ content, input.given? c = some (.ok content) →
    ∃ counts, c.ordinalCounts text input.manifest.locales = .ok counts ∧
      (input.Expects counts → c.Holds text input.manifest.locales content (input.mergedTexts c))

/-- The plan of contents rests exactly if the text holds them. -/
theorem rests_plan_iff (content : Content) (merged : List FlatMap) :
    Plan.Rests (input.plan c text content merged) ↔ c.Holds text input.manifest.locales content merged := by
  have hempty : Plan.Rests (pure ({} : Plan)) := Plan.rests_pure_iff.2 ⟨rfl, by simp [Plan.NoUpdate]⟩
  unfold plan Category.Holds
  dsimp only
  -- contents of another shape than that of the kind are not put anywhere
  cases c.placement with
  | pairs fields defaults =>
    cases content with
    | records items => exact Plan.rests_pairs_iff
    | _ => exact iff_of_true hempty trivial
  | keyedPairs keyField label defaults =>
    cases content with
    | map texts => exact Plan.rests_keyed_iff
    | _ => exact iff_of_true hempty trivial
  | choices condition defaults =>
    cases content with
    | map texts => exact Plan.rests_keyed_iff
    | _ => exact iff_of_true hempty trivial
  | documents keyField bodyField defaults =>
    cases content with
    | map texts => exact Plan.rests_documents_iff
    | _ => exact iff_of_true hempty trivial
  | scalarFields anchors fields defaults =>
    cases content with
    | map texts => exact Plan.rests_scalarFields_iff
    | _ => exact iff_of_true hempty trivial
  | dictBlock place merge defaults =>
    cases content with
    | map texts => exact Plan.rests_dictBlock_iff
    | _ => exact iff_of_true hempty trivial
  | recordBlock place names defaults =>
    cases content with
    | records items => exact Plan.rests_recordBlock_iff
    | _ => exact iff_of_true hempty trivial
  | listBlock place name defaults =>
    cases content with
    | records items => exact Plan.rests_recordBlock_iff
    | _ => exact iff_of_true hempty trivial
  | keyedRecordBlock place names defaults =>
    cases content with
    | keyedRecords items => exact Plan.rests_keyedRecordBlock_iff
    | _ => exact iff_of_true hempty trivial

theorem atRest_iff_settled : input.AtRest c text ↔ input.Settled c text := by
  refine forall₂_congr fun content _ => ?_
  cases hcounts : c.ordinalCounts text input.manifest.locales with
  | error failure =>
    rw [result_shifts_of_error input c text hcounts]
    exact iff_of_false (fun ⟨_, h, _⟩ => by cases h) (fun ⟨_, h, _⟩ => by cases h)
  | ok counts =>
    rw [rests_plan_iff]
    constructor
    · rintro ⟨shifted, hshifted, hplan⟩
      refine ⟨counts, rfl, fun hexpects => hplan ?_⟩
      rw [(shifts_eq_nil_iff input c text hcounts).2 hexpects] at hshifted
      exact (Except.ok.inj hshifted).symm
    · rintro ⟨counts', hcounts', hholds⟩
      cases hcounts'
      refine ⟨_, result_shifts input c text hcounts, fun hnil => hholds ?_⟩
      rw [← shifts_eq_nil_iff input c text hcounts, result_shifts input c text hcounts, hnil]

/-- What patching made of a text comes out of patching it again as it is, without a report of an update,
exactly if all categories are settled in it. -/
theorem patchText_again_iff (cs : List Category) :
    (∀ patched entries, (input.patchText text cs).result = .ok (patched, entries) →
        Quiet (input.patchText patched cs) patched) ↔
      ∀ patched entries, (input.patchText text cs).result = .ok (patched, entries) →
        ∀ c ∈ cs, input.Settled c patched := by
  refine forall₃_congr fun patched entries _ => ?_
  rw [quiet_patchText_iff, and_iff_right rfl]
  exact forall₂_congr fun c _ => atRest_iff_settled input c patched

/-! ## A block that is never settled -/

/-- A block of entries. -/
def commentedSample : Category :=
  { name := "words", region := none
    placement := .dictBlock ⟨[], "\x7blocale\x7d: \x7b", []⟩ [] [] }

/-- A file of it. A comment behind the last entry goes on in the next line. -/
def commentedText (inside : Text) : Text :=
  "ar: \x7b\n  'a': 'x', /* one" ++ inside ++ "\n  two */\n\x7d\n"

/-- A text for the entry, and one that has no entry yet. -/
def commentedInput : PatchInput where
  manifest := { artifacts := [{ path := "page.ts", categories := [commentedSample] }] }
  snapshot := { categories := [("words", (Content.map [("a", some "x"), ("b", some "y")]).toJson)] }

/-- A new entry is put into the comment, where the next run does not see it and puts it once more. -/
theorem patchText_again_appends :
    let entries : List PatchEntry := [
      { category := "words", status := .unchanged, key := some "a" },
      { category := "words", status := .updated, key := some "b", detail := some "appended" }]
    (commentedInput.patchText (commentedText "") [commentedSample]).result
        = .ok (commentedText "\n  'b': 'y',", entries) ∧
      (commentedInput.patchText (commentedText "\n  'b': 'y',") [commentedSample]).result
        = .ok (commentedText "\n  'b': 'y',\n  'b': 'y',", entries) ∧
      ¬ Quiet (commentedInput.patchText (commentedText "\n  'b': 'y',") [commentedSample])
        (commentedText "\n  'b': 'y',") := by
  intro entries
  have hsecond : (commentedInput.patchText (commentedText "\n  'b': 'y',") [commentedSample]).result
      = .ok (commentedText "\n  'b': 'y',\n  'b': 'y',", entries) := by decide +kernel
  refine ⟨by decide +kernel, hsecond, ?_⟩
  rintro ⟨others, h, -⟩
  rw [hsecond] at h
  have htexts : commentedText "\n  'b': 'y',\n  'b': 'y'," = commentedText "\n  'b': 'y'," :=
    congrArg Prod.fst (Except.ok.inj h)
  exact absurd htexts (by decide +kernel)

end PatchInput

end Bilingual
