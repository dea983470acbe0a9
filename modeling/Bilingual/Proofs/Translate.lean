import Bilingual.Proofs.Edit
import Bilingual.Proofs.Export.Contents
import Bilingual.Proofs.Patch
import Bilingual.Proofs.Translate.Plan

set_option autoImplicit false

/-! # Every translation goes to its own site

What is exported of pairs, keyed pairs and choices in the primary locale may be translated text by text. When
the translation is brought back with the numbers of sites of the export, every site gets the translation of
the text that was read from it, and nothing else in the file changes (`PatchInput.patchText_translated`). The
edits of the sites are planned field by field or key by key, in whatever order the sites have in the file;
that they come out as one text with the new bodies in place rests on `Edit.applyAll_eq_splice`. -/

namespace Bilingual

/-- The body stands for the wanted text and is read as a whole between the quotes of the literal. Without a
wanted text it is the old body. -/
def LiteralSpan.Takes (l : LiteralSpan) (value : Option Text) (body : Text) : Prop :=
  l.quote.Encloses body ∧ match value with
    | some v => Literal.decode body = .ok v
    | none => body = l.raw

/-- Put a body into the secondary literal of a site. -/
def Site.replace (s : Site) (body : Text) : Edit :=
  ⟨s.occurrence.secondary.start, s.occurrence.secondary.stop, body⟩

/-- The text with a new body in the secondary literal of every site, one for the text that is wanted at the
leaf of the site. -/
def IsTranslation (text : Text) (sites : List Site) (wanted : Leaf → Option Text) (patched : Text) : Prop :=
  ∃ placed : List (Site × Text), (placed.map Prod.fst).Perm sites ∧
    (∀ p ∈ placed, p.1.occurrence.secondary.Takes (wanted p.1.leaf) p.2) ∧
    Edit.InOrder text.length 0 (placed.map fun p => p.1.replace p.2) ∧
    patched = Edit.splice text 0 (placed.map fun p => p.1.replace p.2)

/-! ## One edit for each site -/

/-- The body that a literal gets for a wanted text. -/
def LiteralSpan.bodyFor (l : LiteralSpan) (value : Option Text) : Text :=
  match l.change? value with
  | some e => e.replacement
  | none => l.raw

theorem LiteralSpan.change?_cases (l : LiteralSpan) (value : Option Text) :
    l.change? value = some ⟨l.start, l.stop, l.bodyFor value⟩ ∨
      l.change? value = none ∧ l.bodyFor value = l.raw := by
  unfold bodyFor
  cases h : l.change? value with
  | none => exact .inr ⟨rfl, rfl⟩
  | some e =>
    obtain ⟨v, -, he⟩ := Option.bind_eq_some_iff.1 h
    split at he
    · cases he
    · cases he
      exact .inl rfl

theorem LiteralSpan.takes_bodyFor {l : LiteralSpan} (henclosed : l.quote.Encloses l.raw)
    (value : Option Text) : l.Takes value (l.bodyFor value) := by
  unfold Takes bodyFor
  cases value with
  | none => exact ⟨henclosed, rfl⟩
  | some v =>
    unfold change?
    dsimp only [Option.bind]
    split
    · next e he =>
      split at he
      · cases he
      · cases he
        exact ⟨l.quote.encloses_escape v, Literal.decode_escape l.quote v⟩
    · next hnone =>
      split at hnone
      · next hvalue =>
        exact ⟨henclosed, Except.toOption_eq_some_iff.1 hvalue⟩
      · cases hnone

/-- The secondary literals of sites that do not overlap come one behind the other when they are sorted. -/
theorem exists_sorted_sites {text : Text} {sites : List Site} (hin : ∀ s ∈ sites, s.occurrence.In text)
    (hapart : sites.Pairwise fun a b => a.occurrence.Apart b.occurrence) :
    ∃ ordered : List Site, ordered.Perm sites ∧ ordered.Pairwise fun a b =>
      a.occurrence.secondary.stop < b.occurrence.secondary.start := by
  let before : Site → Site → Bool := fun a b =>
    decide (a.occurrence.secondary.start ≤ b.occurrence.secondary.start)
  have hperm : (sites.mergeSort before).Perm sites := List.mergeSort_perm sites before
  have hsorted : (sites.mergeSort before).Pairwise fun a b => before a b = true := by
    refine List.pairwise_mergeSort (fun a b c hab hbc => ?_) (fun a b => ?_) sites
    · have hab := of_decide_eq_true hab
      have hbc := of_decide_eq_true hbc
      exact decide_eq_true (Nat.le_trans hab hbc)
    · rw [Bool.or_eq_true, decide_eq_true_eq, decide_eq_true_eq]
      exact Nat.le_total _ _
  have hapart : (sites.mergeSort before).Pairwise fun a b => a.occurrence.Apart b.occurrence :=
    (hperm.pairwise_iff fun h => h.symm).2 hapart
  refine ⟨_, hperm, (hsorted.and hapart).imp_of_mem fun {a b} ha hb h => ?_⟩
  obtain ⟨hle, hapart⟩ := h
  have hle : a.occurrence.secondary.start ≤ b.occurrence.secondary.start := of_decide_eq_true hle
  have ha := (hin a (hperm.mem_iff.1 ha)).inside.secondary
  have hb := (hin b (hperm.mem_iff.1 hb)).inside.secondary
  have h₁ := ha.start_lt
  have h₂ := ha.stop_lt
  have h₃ := hb.start_lt
  have h₄ := hb.stop_lt
  have h₅ := hb.start_le_stop
  -- a literal stands inside its occurrence, so the other order would put the later one first
  rcases hapart with hapart | hapart
  · omega
  · omega

/-- New bodies in the literals of sites that come one behind the other are edits in order. -/
theorem inOrder_replace {text : Text} {ordered : List Site} (hin : ∀ s ∈ ordered, s.occurrence.In text)
    (hordered : ordered.Pairwise fun a b => a.occurrence.secondary.stop < b.occurrence.secondary.start)
    (body : Site → Text) : Edit.InOrder text.length 0 (ordered.map fun s => s.replace (body s)) := by
  refine Edit.inOrder_of_pairwise (Nat.zero_le _) (fun e he => ?_) ?_
  · obtain ⟨s, hs, rfl⟩ := List.mem_map.1 he
    have hstop := (hin s hs).stop_le
    have h₁ := (hin s hs).inside.secondary.start_le_stop
    have h₂ := (hin s hs).inside.secondary.stop_lt
    show (0 : Int) ≤ (s.occurrence.secondary.start : Nat) ∧ ((s.occurrence.secondary.start : Nat) : Int)
      ≤ (s.occurrence.secondary.stop : Nat) ∧ ((s.occurrence.secondary.stop : Nat) : Int) ≤ _
    omega
  · refine List.pairwise_map.2 (hordered.imp fun {a b} h => ?_)
    show ((a.occurrence.secondary.stop : Nat) : Int) ≤ (b.occurrence.secondary.start : Nat)
    omega

/-- The edits that are needed at sites that come one behind the other start one behind the other. -/
theorem pairwise_start_edit? {text : Text} {ordered : List Site} {wanted : Leaf → Option Text}
    (hin : ∀ s ∈ ordered, s.occurrence.In text)
    (hordered : ordered.Pairwise fun a b => a.occurrence.secondary.stop < b.occurrence.secondary.start) :
    (ordered.filterMap (Site.edit? wanted)).Pairwise fun a b => a.start < b.start := by
  have hspan : ∀ {s : Site} {e : Edit}, Site.edit? wanted s = some e →
      e.start = s.occurrence.secondary.start := by
    intro s e he
    rcases s.occurrence.secondary.change?_cases (wanted s.leaf) with hsome | ⟨hnone, -⟩
    · cases hsome.symm.trans he
      rfl
    · cases hnone.symm.trans he
  refine List.pairwise_filterMap.2 (hordered.imp_of_mem fun {a b} ha hb h e he e' he' => ?_)
  have hle := (hin a ha).inside.secondary.start_le_stop
  rw [hspan he, hspan he']
  omega

/-- Edits of sites that do not overlap, given in any order, translate the text. -/
theorem isTranslation_of_perm {text : Text} {sites : List Site} {wanted : Leaf → Option Text}
    {edits : List Edit} (hin : ∀ s ∈ sites, s.occurrence.In text)
    (hapart : sites.Pairwise fun a b => a.occurrence.Apart b.occurrence)
    (hedits : edits.Perm (sites.filterMap (Site.edit? wanted))) :
    ∃ patched, Edit.applyAll text edits = .ok patched ∧ IsTranslation text sites wanted patched := by
  obtain ⟨ordered, hperm, hordered⟩ := exists_sorted_sites hin hapart
  have hin : ∀ s ∈ ordered, s.occurrence.In text := fun s hs => hin s (hperm.mem_iff.1 hs)
  -- every site gets a body, also one that keeps its own; those edits are left out again below
  let body : Site → Text := fun s => s.occurrence.secondary.bodyFor (wanted s.leaf)
  let whole : Site → Edit := fun s => s.replace (body s)
  have horder : Edit.InOrder text.length 0 (ordered.map whole) := inOrder_replace hin hordered body
  have hedit : ∀ s ∈ ordered, Site.edit? wanted s = some (whole s) ∨ Site.edit? wanted s = none ∧
      (whole s).replacement = text.slice (whole s).start.toNat (whole s).stop.toNat := by
    intro s hs
    rcases s.occurrence.secondary.change?_cases (wanted s.leaf) with hsome | ⟨hnone, hraw⟩
    · exact .inl hsome
    · exact .inr ⟨hnone, hraw.trans (hin s hs).inside.secondary.raw_eq⟩
  obtain ⟨hfiltered, hsplice⟩ := Edit.splice_filterMap horder hedit
  refine ⟨_, Edit.applyAll_eq_splice (hedits.trans (hperm.symm.filterMap _))
    (pairwise_start_edit? hin hordered) hfiltered, ordered.map fun s => (s, body s), ?_, fun p hp => ?_, ?_, ?_⟩
  · rw [List.map_map]
    exact (List.map_id ordered).symm ▸ hperm
  · obtain ⟨s, hs, rfl⟩ := List.mem_map.1 hp
    exact LiteralSpan.takes_bodyFor (hin s hs).inside.secondary.enclosed (wanted s.leaf)
  · rw [List.map_map]
    exact horder
  · rw [List.map_map]
    exact hsplice.symm

/-! ## Categories -/

/-- The occurrences of different fields do not overlap. -/
def Category.FieldsApart (c : Category) (text : Text) (locales : Locales) : Prop :=
  ∀ found, c.sites text locales = .ok found → ∀ a ∈ found, ∀ b ∈ found, a.field? ≠ b.field? →
    a.occurrence.Apart b.occurrence

/-- The secondary literals of all sites can be decoded. -/
def Category.SitesDecode (c : Category) (text : Text) (locales : Locales) : Prop :=
  ∀ found, c.sites text locales = .ok found → ∀ s ∈ found,
    ∃ current, s.occurrence.secondary.value = .ok current

instance (c : Category) (text : Text) (locales : Locales) : Decidable (c.FieldsApart text locales) :=
  decidable_of_iff (∀ found ∈ (c.sites text locales).toOption, ∀ a ∈ found, ∀ b ∈ found,
    a.field? ≠ b.field? → a.occurrence.Apart b.occurrence)
    (by simp only [Option.mem_def, Except.toOption_eq_some_iff, Category.FieldsApart])

instance (c : Category) (text : Text) (locales : Locales) : Decidable (c.SitesDecode text locales) :=
  decidable_of_iff (∀ found ∈ (c.sites text locales).toOption, ∀ s ∈ found,
    s.occurrence.secondary.value.toOption.isSome = true)
    (by simp only [Option.mem_def, Except.toOption_eq_some_iff, Option.isSome_iff_exists,
      Category.SitesDecode])

/-- A snapshot of one category with the numbers of its sites. -/
def Snapshot.single (name : Text) (content : Content) (counts : OrderedMap Nat) : Snapshot where
  categories := [(name, content.toJson)]
  provenance := some { occurrences := OrderedMap.mapValues Int.ofNat counts }

/-- The sites of a category whose sites can be found are counted. -/
theorem Category.ordinalCounts_of_sites {c : Category} {text : Text} {locales : Locales} {found : List Site}
    (hsited : c.placement.IsSited) (h : c.sites text locales = .ok found) :
    ∃ counts, c.ordinalCounts text locales = .ok counts := by
  unfold ordinalCounts
  cases hkind : c.placement with
  | pairs fields defaults =>
    obtain ⟨columns, hcolumns, -⟩ := (sites_pairs_iff hkind).1 h
    obtain ⟨counts, hcounts⟩ := Except.mapM_ok_of_forall (l := fields)
      (f := fun field => do
        return (c.fieldKey field.name, (← c.occurrences text (field.pattern locales)).length))
      fun field hfield => by
        obtain ⟨column, -, occurrences, hoccurrences, -⟩ :=
          List.Forall₂.exists_of_mem_left hcolumns hfield
        exact ⟨(c.fieldKey field.name, occurrences.length), Except.bind_eq_ok_iff.2 ⟨_, hoccurrences, rfl⟩⟩
    exact ⟨_, Except.bind_eq_ok_iff.2 ⟨counts, hcounts, rfl⟩⟩
  | keyedPairs keyField label defaults => exact ⟨_, rfl⟩
  | choices condition defaults => exact ⟨_, rfl⟩
  | _ =>
    rw [hkind] at hsited
    exact hsited.elim

/-- The plan of a translation has, up to their order, the edits of the sites. -/
theorem PatchInput.makes_plan {input : PatchInput} {c : Category} {text : Text} {known wanted : Content}
    {found : List Site} (hsited : c.placement.IsSited) (hwanted : wanted.Fits known)
    (hcontent : known.Distinct) (hshape : known.shape = c.placement.shape)
    (hfound : c.sites text input.manifest.locales = .ok found) (hknown : ∀ s ∈ found, s.IsIn known)
    (hleaves : ∀ leaf t, known.text? leaf = some t → ∃ s ∈ found, s.leaf = leaf)
    (hread : ∀ s ∈ found, ∃ current, s.occurrence.secondary.value = .ok current) (merged : List FlatMap) :
    ∃ edits, Plan.Makes (input.plan c text wanted merged) edits ∧
      edits.Perm (found.filterMap (Site.edit? wanted.text?)) := by
  have hbound : ∀ leaf v, wanted.text? leaf = some v → ∃ s ∈ found, s.leaf = leaf := by
    intro leaf v hv
    cases hleaf : known.text? leaf with
    | some t => exact hleaves leaf t hleaf
    | none =>
      rw [hwanted.text?_eq_none hleaf] at hv
      cases hv
  rcases Category.isSited_cases hsited with ⟨fields, defaults, hplace, hnames⟩ | ⟨pattern, hpattern⟩
  · obtain ⟨columns, hcolumns, rfl⟩ := (Category.sites_pairs_iff hplace).1 hfound
    cases hwanted with
    | map h =>
      rw [hplace] at hshape
      cases hshape
    | @records wanted known h =>
      refine ⟨_, ?_, List.Perm.refl _⟩
      unfold plan
      simp only [hplace]
      exact Plan.makes_pairs hnames hcolumns hread hbound
  · obtain ⟨occurrences, hoccurrences, hsites⟩ := (Category.sites_keyed_iff hpattern).1 hfound
    cases hwanted with
    | records h =>
      rw [Category.shape_of_keyedPattern? hpattern] at hshape
      cases hshape
    | @map wanted known h =>
      rw [plan_of_keyedPattern? hpattern]
      refine Plan.makes_keyed (h.distinct hcontent) hoccurrences hsites hread (fun s hs => ?_) hbound
      obtain ⟨o, -, -, key, -, hleaf⟩ := List.Forall₂.exists_of_mem_right hsites hs
      obtain ⟨t, ht, -⟩ := hknown s hs
      rw [hleaf] at ht
      refine ⟨key, ?_, hleaf⟩
      rw [h.keys_eq]
      by_contra hkey
      have ht : (OrderedMap.lookup? known key).join = some t := ht
      rw [OrderedMap.lookup?_eq_none_iff.2 hkey] at ht
      cases ht

/-- A snapshot that brings a translation and the numbers of sites puts the translation into the text. -/
theorem PatchInput.patchCategory_translated {input : PatchInput} {c : Category} {text : Text}
    {known wanted : Content} {sites : List Site} {counts : OrderedMap Nat} (hsited : c.placement.IsSited)
    (hwanted : wanted.Fits known) (hcontent : known.Distinct) (hshape : known.shape = c.placement.shape)
    (hsites : c.sites text input.manifest.locales = .ok sites) (hin : ∀ s ∈ sites, s.IsIn known)
    (hleaves : ∀ leaf t, known.text? leaf = some t → ∃ s ∈ sites, s.leaf = leaf)
    (hfields : ∀ a ∈ sites, ∀ b ∈ sites, a.field? ≠ b.field? → a.occurrence.Apart b.occurrence)
    (hread : ∀ s ∈ sites, ∃ current, s.occurrence.secondary.value = .ok current)
    (hcounts : c.ordinalCounts text input.manifest.locales = .ok counts)
    (hbrought : input.snapshot.categories.lookup? c.name = some wanted.toJson)
    (hexpected : ∀ key, input.snapshot.expected? key = (counts.lookup? key).map Int.ofNat) :
    ∃ patched entries, (input.patchCategory c text).result = .ok (patched, entries) ∧
      (∀ entry ∈ entries, entry.IsClean) ∧ IsTranslation text sites wanted.text? patched := by
  have hgiven : input.given? c = some (.ok wanted) :=
    given?_of_lookup? input c hbrought (hwanted.shape_eq.trans hshape) (hwanted.distinct hcontent)
  have hshifts : (input.shifts c text).result = .ok [] := by
    refine (shifts_eq_nil_iff input c text hcounts).2 fun key current hcurrent expected hkey => ?_
    rw [hexpected, hcurrent] at hkey
    exact (Option.some.inj hkey).symm
  obtain ⟨edits, ⟨plan, hplan, rfl, hclean⟩, hperm⟩ :=
    makes_plan hsited hwanted hcontent hshape hsites hin hleaves hread (input.mergedTexts c)
  obtain ⟨hstand, hapart⟩ := Category.sites_spec hsited hsites hfields
  obtain ⟨patched, hpatched, htranslation⟩ := isTranslation_of_perm hstand hapart hperm
  refine ⟨patched, plan.entries, ?_, hclean, htranslation⟩
  rw [result_patchCategory, hgiven]
  dsimp only
  refine Except.bind_eq_ok_iff.2 ⟨[], hshifts, Except.bind_eq_ok_iff.2 ⟨plan, hplan, ?_⟩⟩
  rw [hpatched]
  rfl

/-- A translation of what a file has in the primary locale, brought back with the numbers of sites, is put
into the file without any complaint. Every site gets the translation of the text that was read from it, every
text has a site, and all that is not in the secondary literal of a site stays as it is. -/
theorem PatchInput.patchText_translated (m : Manifest) (reference : Reference) {c : Category} {text : Text}
    {known wanted : Content} (hsited : c.placement.IsSited)
    (hknown : c.contents? text m.locales m.locales.primary = .ok (some known)) (hwanted : wanted.Fits known)
    (hfields : c.FieldsApart text m.locales) (hdecode : c.SitesDecode text m.locales) :
    ∃ counts sites patched entries, c.ordinalCounts text m.locales = .ok counts ∧
      c.sites text m.locales = .ok sites ∧
      (patchText ⟨m, .single c.name wanted counts, reference⟩ text [c]).result = .ok (patched, entries) ∧
      (∀ entry ∈ entries, entry.IsClean) ∧ IsTranslation text sites wanted.text? patched ∧
      (∀ s ∈ sites, s.IsIn known) ∧ ∀ leaf t, known.text? leaf = some t → ∃ s ∈ sites, s.leaf = leaf := by
  obtain ⟨sites, hsites, hin, hleaves⟩ := Category.sites_of_contents? hsited hknown
  obtain ⟨counts, hcounts⟩ := Category.ordinalCounts_of_sites hsited hsites
  obtain ⟨hshape, hcontent⟩ := Category.shape_distinct_of_contents? hknown
  have hbrought : (Snapshot.single c.name wanted counts).categories.lookup? c.name = some wanted.toJson := by
    show OrderedMap.lookup? [(c.name, wanted.toJson)] c.name = _
    rw [OrderedMap.lookup?, if_pos rfl]
  have hexpected : ∀ key, (Snapshot.single c.name wanted counts).expected? key
      = (counts.lookup? key).map Int.ofNat := OrderedMap.lookup?_mapValues Int.ofNat counts
  obtain ⟨patched, entries, hcategory, hclean, htranslation⟩ :
      ∃ patched entries, (patchCategory ⟨m, .single c.name wanted counts, reference⟩ c text).result
        = .ok (patched, entries) ∧
        (∀ entry ∈ entries, entry.IsClean) ∧ IsTranslation text sites wanted.text? patched :=
    patchCategory_translated hsited hwanted hcontent hshape hsites hin hleaves (hfields sites hsites)
      (hdecode sites hsites) hcounts hbrought hexpected
  refine ⟨counts, sites, patched, entries ++ [], hcounts, hsites, ?_, ?_, htranslation, hin, hleaves⟩
  · rw [result_patchText_cons, hcategory]
    rfl
  · rw [List.append_nil]
    exact hclean

/-- Two fields, the first of which comes twice. -/
def translatedSample : Category :=
  { name := "labels", region := none, placement := .pairs [⟨"label", none, none⟩, ⟨"title", none, none⟩] [] }

/-- A file of it. -/
def translatedText (first second third : Text) : Text :=
  "label: \x7b en: 'A', ar: '" ++ first ++ "' \x7d\ntitle: \x7b en: 'T', ar: '" ++ second ++
    "' \x7d\nlabel: \x7b en: 'B', ar: '" ++ third ++ "' \x7d\n"

/-- Texts of its records. -/
def translatedContent (first second third : Option Text) : Content :=
  .records [some [("label", first), ("title", second)], some [("label", third), ("title", none)]]

theorem PatchInput.patchText_translated_pairs :
    ∃ counts sites patched entries,
      translatedSample.ordinalCounts (translatedText "P" "U" "Q") ⟨"en", "ar"⟩ = .ok counts ∧
      translatedSample.sites (translatedText "P" "U" "Q") ⟨"en", "ar"⟩ = .ok sites ∧
      (patchText ⟨{ artifacts := [] },
          .single "labels" (translatedContent (some "it's") none (some "Z")) counts, none⟩
        (translatedText "P" "U" "Q") [translatedSample]).result = .ok (patched, entries) ∧
      (∀ entry ∈ entries, entry.IsClean) ∧ IsTranslation (translatedText "P" "U" "Q") sites
        (translatedContent (some "it's") none (some "Z")).text? patched ∧
      (∀ s ∈ sites, s.IsIn (translatedContent (some "A") (some "T") (some "B"))) ∧
      ∀ leaf t, (translatedContent (some "A") (some "T") (some "B")).text? leaf = some t →
        ∃ s ∈ sites, s.leaf = leaf := by
  have hwanted : (translatedContent (some "it's") none (some "Z")).Fits
      (translatedContent (some "A") (some "T") (some "B")) := by
    refine .records (.cons (.some ?_) (.cons (.some ?_) .nil))
    · exact .cons ⟨rfl, by simp⟩ (.cons ⟨rfl, by simp⟩ .nil)
    · exact .cons ⟨rfl, by simp⟩ (.cons ⟨rfl, by simp⟩ .nil)
  have hsited : translatedSample.placement.IsSited := by
    show (["label", "title"] : List Text).Nodup
    decide
  exact patchText_translated { artifacts := [] } none hsited (by decide +kernel) hwanted (by decide +kernel)
    (by decide +kernel)

/-- Each text goes to its own place, whatever the order of the places, and is escaped there. -/
example : (PatchInput.patchText ⟨{ artifacts := [] },
    .single "labels" (translatedContent (some "it's") none (some "Z"))
      [("labels.label", 2), ("labels.title", 1)], none⟩ (translatedText "P" "U" "Q")
        [translatedSample]).result.toOption.map Prod.fst = some (translatedText "it\\'s" "U" "Z") := by
  decide +kernel

end Bilingual
