import Bilingual.Proofs.Document
import Bilingual.Proofs.Exact

set_option autoImplicit false

/-! # Edits of keyed categories stand apart

Texts that go to keyed pairs, choices and documents are put into bodies that neither overlap nor touch, so whenever
such a plan is made its edits are carried out (`PatchInput.apart_of_hasKeys`). For pairs and choices this is so because
each body lies inside its own occurrence, for documents because a body ends in front of the backtick that opens the
next one, although it may reach far into the document of that one. -/

namespace Bilingual

/-- The texts of a category go to single sites by keys that stand there. -/
def Placement.HasKeys : Placement → Prop
  | .keyedPairs .. | .choices .. | .documents .. => True
  | .pairs .. | .scalarFields .. | .dictBlock .. | .recordBlock .. | .listBlock .. | .keyedRecordBlock .. => False

/-! ## Edits of bodies that are apart -/

theorem Target.pairwise_edits {text : Text} {targets : List Target}
    (hapart : targets.Pairwise fun a b => a.toBody.Apart b.toBody) :
    (edits text targets).Pairwise Edit.Apart :=
  List.pairwise_map.2 ((hapart.filter (Changes text)).imp fun h => h.imp Int.ofNat_lt.2 Int.ofNat_lt.2)

namespace Plan

variable {text : Text} {c : Category} {locales : Locales}

/-- A plan has the edits of bodies of the text that neither overlap nor touch. -/
def PutsApart (text : Text) (plan : Plan) : Prop :=
  ∃ targets : List Target, (∀ t ∈ targets, t.toBody.In text) ∧
    targets.Pairwise (fun a b => a.toBody.Apart b.toBody) ∧ plan.edits.Perm (Target.edits text targets)

theorem PutsApart.spec {plan : Plan} (h : PutsApart text plan) :
    (∀ e ∈ plan.edits, e.Within 0 text.length) ∧ plan.edits.Pairwise Edit.Apart ∧
      ∃ patched, Edit.applyAll text plan.edits = .ok patched := by
  obtain ⟨targets, hin, hapart, hedits⟩ := h
  refine ⟨fun e he => Target.within_of_mem_edits hin (hedits.mem_iff.1 he), ?_, ?_⟩
  · exact (hedits.pairwise_iff Edit.Apart.symm).2 (Target.pairwise_edits hapart)
  · obtain ⟨patched, hpatched, -⟩ := Target.exists_patched hin hapart hedits
    exact ⟨patched, hpatched⟩

/-- If bodies stand apart, and those that have a text can be decoded once a step has come to a plan for them, that plan
puts texts into bodies that stand apart. -/
theorem Reaches.putsApart {α : Type} {step : Logged Failure Plan} {things : List α} {body : α → Body}
    {value? : α → Option Text} {plan : Plan}
    (h : Reaches text step (things.filterMap fun a => (value? a).map (Target.mk (body a))))
    (hplan : step.result = .ok plan)
    (hdecodes : ∀ a ∈ things, ∀ value, value? a = some value → Target.Decodes text ⟨body a, value⟩)
    (hin : ∀ a ∈ things, (body a).In text) (hapart : things.Pairwise fun a b => (body a).Apart (body b)) :
    PutsApart text plan := by
  obtain ⟨found, hfound, hedits⟩ := h (Target.forall_mem_filterMap hdecodes)
  cases hplan.symm.trans hfound
  refine ⟨_, Target.forall_mem_filterMap fun a ha _ _ => hin a ha,
    List.pairwise_filterMap.2 (hapart.imp fun hapart t ht t' ht' => ?_), hedits⟩
  obtain ⟨value, -, rfl⟩ := Option.map_eq_some_iff.1 ht
  obtain ⟨value', -, rfl⟩ := Option.map_eq_some_iff.1 ht'
  exact hapart

/-! ## What has to be decoded for a plan -/

theorem result_of_forEach {α : Type} {things : List α} {step : α → Logged Failure Plan} {plan : Plan}
    (h : (forEach things step).result = .ok plan) {a : α} (ha : a ∈ things) : ∃ part, (step a).result = .ok part := by
  rw [result_forEach] at h
  obtain ⟨parts, hparts, -⟩ := Except.map_eq_ok_iff.1 h
  obtain ⟨part, -, hpart⟩ := List.Forall₂.exists_of_mem_left (Except.mapM_eq_ok_iff.1 hparts) ha
  exact ⟨part, hpart⟩

/-! ## Keyed pairs and choices -/

theorem pairwise_secondary {pattern : Pattern} {occurrences : List Occurrence}
    (h : c.occurrences text pattern = .ok occurrences) :
    occurrences.Pairwise fun a b => a.secondary.body.Apart b.secondary.body := by
  obtain ⟨hin, hordered⟩ := Category.occurrences_spec h
  refine hordered.imp_of_mem fun {a b} ha hb hle => .inl ?_
  have ha := (hin a ha).inside.secondary.stop_lt
  have hb := (hin b hb).inside.secondary.start_lt
  show a.secondary.stop < b.secondary.start
  omega

/-- Once a text of a key has been planned, all keys have been decoded, and so have the secondary texts of the key. -/
theorem decodes_of_keyed {pattern : Pattern} {texts : FlatMap} {occurrences : List Occurrence} {plan : Plan}
    (hoccurrences : c.occurrences text pattern = .ok occurrences) (h : (keyed c text pattern texts).result = .ok plan)
    {key value : Text} (hmem : (key, some value) ∈ texts) :
    (∀ o ∈ occurrences, ∃ k, o.keyLiteral.value = .ok k) ∧
      ∀ o ∈ occurrences, o.keyLiteral.value = .ok key → ∃ current, o.secondary.value = .ok current := by
  unfold keyed at h
  rw [Logged.result_bind] at h
  obtain ⟨found, hfound, h⟩ := Except.bind_eq_ok_iff.1 h
  cases hoccurrences.symm.trans hfound
  obtain ⟨part, hpart⟩ := result_of_forEach h hmem
  have hpart : ((liftM (occurrencesOf key occurrences) : Logged Failure _) >>= _).result = .ok part := hpart
  rw [Logged.result_bind] at hpart
  obtain ⟨matching, hmatching, hpart⟩ := Except.bind_eq_ok_iff.1 hpart
  obtain ⟨hkeys, rfl⟩ := occurrencesOf_eq_ok_iff.1 hmatching
  refine ⟨hkeys, fun o ho hkey => ?_⟩
  have hmatch : o ∈ occurrences.filter fun o => decide (keyAt? o = some key) :=
    List.mem_filter.2 ⟨ho, decide_eq_true (keyAt?_eq_some_iff.2 hkey)⟩
  generalize occurrences.filter (fun o => decide (keyAt? o = some key)) = matching at hpart hmatch
  cases matching with
  | nil => cases hmatch
  | cons first rest =>
    rw [Logged.result_bind, Logged.result_mapM] at hpart
    obtain ⟨edits, hedits, -⟩ := Except.bind_eq_ok_iff.1 hpart
    obtain ⟨edit, -, hedit⟩ := List.Forall₂.exists_of_mem_left (Except.mapM_eq_ok_iff.1 hedits) hmatch
    obtain ⟨current, hcurrent, -⟩ := Except.bind_eq_ok_iff.1 hedit
    exact ⟨current, hcurrent⟩

/-- Without a text no key is looked at. -/
theorem reaches_keyed_of_null {pattern : Pattern} {texts : FlatMap} {occurrences : List Occurrence}
    (hoccurrences : c.occurrences text pattern = .ok occurrences)
    (hnull : ∀ key value, (key, some value) ∉ texts) : Reaches text (keyed c text pattern texts) [] := by
  have hnil : (texts.flatMap fun _ => ([] : List Target)) = [] := by simp
  rw [← hnil]
  refine reaches_bind hoccurrences (reaches_forEach_of fun pair hpair => ?_)
  obtain ⟨key, value⟩ := pair
  cases value with
  | none => exact reaches_report _
  | some value => exact absurd hpair (hnull key value)

theorem putsApart_keyed {pattern : Pattern} {texts : FlatMap} {plan : Plan} (htexts : OrderedMap.Distinct texts)
    (h : (keyed c text pattern texts).result = .ok plan) : PutsApart text plan := by
  obtain ⟨occurrences, hoccurrences, -⟩ := Except.bind_eq_ok_iff.1 ((Logged.result_bind ..).symm.trans h)
  have hoccurrences : c.occurrences text pattern = .ok occurrences := hoccurrences
  by_cases htext : ∃ key value, (key, some value) ∈ texts
  · obtain ⟨key, value, hmem⟩ := htext
    obtain ⟨found, hfound⟩ : ∃ found, List.Forall₂ Category.IsKeyedSite occurrences found := by
      refine List.exists_forall₂ fun o ho => ?_
      obtain ⟨k, hk⟩ := (decodes_of_keyed hoccurrences h hmem).1 o ho
      exact ⟨⟨.key k, o⟩, rfl, k, hk, rfl⟩
    have hmap : found.map Site.occurrence = occurrences := by
      rw [List.Forall₂.map_eq_map hfound.flip (g := id) fun s o h => h.1, List.map_id]
    have hin : ∀ s ∈ found, s.occurrence.secondary.In text := fun s hs =>
      ((Category.occurrences_spec hoccurrences).1 _ (hmap ▸ List.mem_map_of_mem hs)).inside.secondary.in
    have hsites := pairwise_secondary hoccurrences
    rw [← hmap, List.pairwise_map] at hsites
    refine (reaches_keyed htexts hoccurrences hfound).putsApart h (fun s hs value hvalue => ?_)
      (fun s hs => (hin s hs).body) hsites
    obtain ⟨o, ho, rfl, k, hk, hleaf⟩ := List.Forall₂.exists_of_mem_right hfound hs
    rw [hleaf] at hvalue
    have hmem := OrderedMap.mem_of_lookup? (Option.join_eq_some_iff.1 hvalue)
    obtain ⟨current, hcurrent⟩ := (decodes_of_keyed hoccurrences h hmem).2 _ ho hk
    exact ⟨current, (congrArg Literal.decode (hin s hs).raw_eq).symm.trans hcurrent⟩
  · have hnone := reaches_keyed_of_null hoccurrences fun key value hmem => htext ⟨key, value, hmem⟩
    obtain ⟨found, hfound, hedits⟩ := hnone (List.forall_mem_nil _)
    cases h.symm.trans hfound
    exact ⟨[], List.forall_mem_nil _, .nil, hedits⟩

/-! ## Documents -/

theorem putsApart_documents {locale : Text} {texts : FlatMap} {plan : Plan} (htexts : OrderedMap.Distinct texts)
    (h : (documents c text locale texts).result = .ok plan) : PutsApart text plan := by
  obtain ⟨spans, hspans, hsteps⟩ := Except.bind_eq_ok_iff.1 ((Logged.result_bind ..).symm.trans h)
  have hspans : c.documentBodies text locale = .ok spans := hspans
  cases spans with
  | none => exact (reaches_documents htexts hspans).putsApart h (by simp) (by simp) (by simp)
  | some spans =>
    refine (reaches_documents htexts hspans).putsApart h (fun pair hpair value hvalue => ?_)
      (Category.in_of_mem_documentBodies hspans) ((Category.pairwise_documentBodies hspans).imp .inl)
    have hmem := OrderedMap.mem_of_lookup? (Option.join_eq_some_iff.1 hvalue)
    have hlookup : OrderedMap.lookup? ((some spans).getD []) pair.1 = some pair.2 :=
      OrderedMap.lookup?_of_mem (Category.distinct_documentBodies hspans) hpair
    obtain ⟨part, hpart⟩ := result_of_forEach hsteps hmem
    simp only [hlookup] at hpart
    rw [Logged.result_bind] at hpart
    obtain ⟨current, hcurrent, -⟩ := Except.bind_eq_ok_iff.1 hpart
    exact ⟨current, hcurrent⟩

end Plan

namespace PatchInput

variable {input : PatchInput} {c : Category} {text : Text}

theorem putsApart_plan {texts : FlatMap} {merged : List FlatMap} {plan : Plan} (hkeys : c.placement.HasKeys)
    (htexts : OrderedMap.Distinct texts) (h : (input.plan c text (.map texts) merged).result = .ok plan) :
    plan.PutsApart text := by
  cases hkind : c.placement with
  | keyedPairs | choices =>
    rw [plan_of_keyedPattern? (by rw [hkind]; rfl)] at h
    exact Plan.putsApart_keyed htexts h
  | documents keyField bodyField defaults =>
    unfold PatchInput.plan at h
    simp only [hkind] at h
    exact Plan.putsApart_documents htexts h
  | _ =>
    rw [hkind] at hkeys
    exact hkeys.elim

/-- The bodies of the documents of a text stand apart, wherever the scans for them end. Whenever texts are planned for
keyed pairs, choices or documents, the edits lie in the text, neither overlap nor touch, and are carried out. -/
theorem apart_of_hasKeys (hkeys : c.placement.HasKeys) :
    (∀ locale spans, c.documentBodies text locale = .ok (some spans) →
      spans.Pairwise fun a b => (Body.ofTemplate a.2).Apart (Body.ofTemplate b.2)) ∧
    ∀ (texts : FlatMap) (merged : List FlatMap) (plan : Plan), OrderedMap.Distinct texts →
      (input.plan c text (.map texts) merged).result = .ok plan →
        (∀ e ∈ plan.edits, e.Within 0 text.length) ∧ plan.edits.Pairwise Edit.Apart ∧
          ∃ patched, Edit.applyAll text plan.edits = .ok patched :=
  ⟨fun _ _ hspans => (Category.pairwise_documentBodies hspans).imp .inl,
    fun _ _ _ htexts hplan => (putsApart_plan hkeys htexts hplan).spec⟩

/-- Documents with their bodies under `content`. -/
def essaysSample : Category :=
  { name := "essays", region := none, placement := .documents "slug" "content" [] }

/-- A first document without an end: its body reaches into the second one. -/
def essaysText : Text := "slug: 'a', content: \x7b ar: \x60One slug: 'b', content: \x7b ar: \x60Two\x60 \x7d"

/-- Texts for both documents. -/
def essaysTexts : FlatMap := [("a", some "1"), ("b", some "2")]

/-- The manifest and the contents. -/
def essaysInput : PatchInput where
  manifest := { artifacts := [{ path := "page.ts", categories := [essaysSample] }] }
  snapshot := { categories := [("essays", (Content.map essaysTexts).toJson)] }

/-- The first body ends with the backtick that opens the second one. -/
def essaysSpans : OrderedMap (Nat × Nat) := [("a", 27, 57), ("b", 58, 61)]

/-- The plan for both texts. -/
def essaysPlan : Plan where
  edits := [⟨27, 57, "1"⟩, ⟨58, 61, "2"⟩]
  entries := [{ category := "essays", status := .updated, key := some "a" },
    { category := "essays", status := .updated, key := some "b" }]

theorem apart_essays :
    (essaysSample.documentBodies essaysText "ar" = .ok (some essaysSpans) ∧
      essaysSpans.Pairwise fun a b => (Body.ofTemplate a.2).Apart (Body.ofTemplate b.2)) ∧
    (essaysInput.plan essaysSample essaysText (.map essaysTexts) []).result = .ok essaysPlan ∧
      (∀ e ∈ essaysPlan.edits, e.Within 0 essaysText.length) ∧ essaysPlan.edits.Pairwise Edit.Apart ∧
        ∃ patched, Edit.applyAll essaysText essaysPlan.edits = .ok patched := by
  have hspans : essaysSample.documentBodies essaysText "ar" = .ok (some essaysSpans) := by decide +kernel
  have htexts : OrderedMap.Distinct essaysTexts := by
    unfold OrderedMap.Distinct
    decide
  have hplan : (essaysInput.plan essaysSample essaysText (.map essaysTexts) []).result = .ok essaysPlan := by
    decide +kernel
  have hkeys : essaysSample.placement.HasKeys := trivial
  exact ⟨⟨hspans, (@apart_of_hasKeys essaysInput _ _ hkeys).1 "ar" essaysSpans hspans⟩, hplan,
    (apart_of_hasKeys hkeys).2 essaysTexts [] essaysPlan htexts hplan⟩

end PatchInput

end Bilingual
