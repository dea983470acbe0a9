import Bilingual.Proofs.Body
import Bilingual.Proofs.Patch
import Bilingual.Proofs.Plan.Bound
import Bilingual.Proofs.Translate.Plan

set_option autoImplicit false

/-! # The bodies that contents bind texts to

The targets of contents in a file are the bodies that they have a text for, each with that text
(`Category.targets`). Whatever order a planner goes in, by number, by key or by name, it comes to one edit for every
target that does not stand for its text (`PatchInput.reaches_plan`), as long as all targets can be decoded. -/

namespace Bilingual

/-- A body and the text that is bound to it. -/
structure Target extends Body where
  value : Text
deriving DecidableEq, Repr

namespace Target

/-- The body of a target stands for some text. -/
def Decodes (text : Text) (t : Target) : Prop := ∃ current, Literal.decode (text.slice t.start t.stop) = .ok current

/-- The body of a target does not stand for the text that is bound to it. -/
def Changes (text : Text) (t : Target) : Bool := Literal.decode (text.slice t.start t.stop) ≠ .ok t.value

/-- The edit that puts its text into the body of a target. -/
def edit (t : Target) : Edit := ⟨t.start, t.stop, t.delimiter.escape t.value⟩

/-- The edits of the targets that do not stand for their texts. -/
def edits (text : Text) (targets : List Target) : List Edit := (targets.filter (Changes text)).map edit

/-- The target of a body and a text, if there are both. -/
def of? (body : Option Body) (value : Option Text) : Option Target := body.bind fun b => value.map (Target.mk b)

theorem edits_append (text : Text) (first second : List Target) :
    edits text (first ++ second) = edits text first ++ edits text second := by
  simp [edits]

/-- What holds of the bodies that have a text, with that text, holds of all targets. -/
theorem forall_mem_filterMap {α : Type} {things : List α} {body : α → Body} {value? : α → Option Text}
    {p : Target → Prop} (h : ∀ a ∈ things, ∀ value, value? a = some value → p ⟨body a, value⟩) :
    ∀ t ∈ things.filterMap fun a => (value? a).map (mk (body a)), p t := by
  intro t ht
  obtain ⟨a, ha, ht⟩ := List.mem_filterMap.1 ht
  obtain ⟨value, hvalue, rfl⟩ := Option.map_eq_some_iff.1 ht
  exact h a ha value hvalue

end Target

/-- The bodies of a category that contents bind a text to. -/
def Category.targets (c : Category) (text : Text) (locales : Locales) (content : Content) :
    Except Failure (List Target) := do
  return (← c.bodies text locales).filterMap fun (leaf, body) => (content.text? leaf).map (Target.mk body)

namespace Plan

/-! ## Steps -/

/-- If all targets can be decoded, the step comes to a plan with their edits, in some order. -/
def Reaches (text : Text) (step : Logged Failure Plan) (targets : List Target) : Prop :=
  (∀ t ∈ targets, t.Decodes text) →
    ∃ plan, step.result = .ok plan ∧ plan.edits.Perm (Target.edits text targets)

variable {text : Text}

theorem Reaches.perm {step : Logged Failure Plan} {targets targets' : List Target} (h : Reaches text step targets)
    (hperm : targets.Perm targets') : Reaches text step targets' := by
  intro hdecodes
  obtain ⟨plan, hplan, hedits⟩ := h fun t ht => hdecodes t (hperm.mem_iff.1 ht)
  exact ⟨plan, hplan, hedits.trans ((hperm.filter _).map _)⟩

theorem reaches_report (entry : PatchEntry) : Reaches text (pure (report entry)) [] :=
  fun _ => ⟨report entry, rfl, .nil⟩

theorem reaches_notFound (entry : PatchEntry) : Reaches text (notFound entry) [] :=
  fun _ => ⟨_, rfl, .nil⟩

theorem reaches_bind {α : Type} {step : Logged Failure α} {plan : α → Logged Failure Plan} {a : α}
    {targets : List Target} (hstep : step.result = .ok a) (h : Reaches text (plan a) targets) :
    Reaches text (step >>= plan) targets := by
  intro hdecodes
  obtain ⟨found, hfound, hedits⟩ := h hdecodes
  refine ⟨found, ?_, hedits⟩
  rw [Logged.result_bind]
  exact Except.bind_eq_ok_iff.2 ⟨a, hstep, hfound⟩

/-- What is planned for each of a list of things has the edits of all their targets. -/
theorem reaches_forEach {α : Type} {things : List α} {plan : α → Logged Failure Plan} {targets : List (List Target)}
    (h : List.Forall₂ (fun a targets => Reaches text (plan a) targets) things targets) :
    Reaches text (forEach things plan) targets.flatten := by
  intro hdecodes
  obtain ⟨plans, hplans, hedits⟩ : ∃ plans : List Plan, (things.mapM fun a => (plan a).result) = .ok plans ∧
      (plans.flatMap Plan.edits).Perm (Target.edits text targets.flatten) := by
    induction h with
    | nil => exact ⟨[], rfl, .nil⟩
    | cons ha _ ih =>
      obtain ⟨hfirst, hothers⟩ := List.forall_mem_append.1 hdecodes
      obtain ⟨p, hp, hedits⟩ := ha hfirst
      obtain ⟨plans, hplans, hedits'⟩ := ih hothers
      refine ⟨p :: plans, ?_, ?_⟩
      · rw [List.mapM_cons, hp, hplans]
        rfl
      · rw [List.flatMap_cons, List.flatten_cons, Target.edits_append]
        exact hedits.append hedits'
  refine ⟨concat plans, ?_, hedits⟩
  rw [result_forEach, hplans]
  rfl

theorem reaches_forEach_of {α : Type} {things : List α} {plan : α → Logged Failure Plan} {targets : α → List Target}
    (h : ∀ a ∈ things, Reaches text (plan a) (targets a)) :
    Reaches text (forEach things plan) (things.flatMap targets) :=
  reaches_forEach (List.forall₂_map_right_iff.2 (List.forall₂_same.2 h))

/-! ## One body -/

theorem edits_singleton (t : Target) :
    Target.edits text [t] = (if t.Changes text then some t.edit else none).toList := by
  unfold Target.edits
  rw [List.filter_singleton]
  cases Target.Changes text t <;> rfl

theorem editTo?_of_target {l : LiteralSpan} {value : Text} (hl : l.In text)
    (hdecodes : Target.Decodes text ⟨l.body, value⟩) : l.editTo? value =
      .ok (if Target.Changes text ⟨l.body, value⟩ then some (Target.edit ⟨l.body, value⟩) else none) := by
  have hvalue : l.value = Literal.decode (text.slice l.start l.stop) := congrArg Literal.decode hl.raw_eq
  have hdiffers : Differs (l, value) = Target.Changes text ⟨l.body, value⟩ := by
    unfold Differs Target.Changes
    rw [hvalue]
    rfl
  have hliteral : (l, value).1.Decodes := hdecodes.imp fun current h => hvalue.trans h
  rw [← hdiffers]
  exact editTo?_of_decodes hliteral

theorem reaches_literal (entry : PatchEntry) {site : Option LiteralSpan} (value : Option Text)
    (h : ∀ l, site = some l → l.In text) :
    Reaches text (literal entry site value) (Target.of? (site.map LiteralSpan.body) value).toList := by
  unfold literal
  match value, site with
  | none, none => exact reaches_report _
  | none, some l => exact reaches_report _
  | some value, none => exact reaches_notFound _
  | some value, some l =>
    intro hdecodes
    have hedit := editTo?_of_target (h l rfl) (hdecodes ⟨l.body, value⟩ (List.mem_singleton_self _))
    rw [Logged.result_bind, hedit]
    refine ⟨_, rfl, ?_⟩
    change List.Perm _ (Target.edits text [⟨l.body, value⟩])
    rw [edits_singleton]
    exact .rfl

/-! ## Pairs -/

variable {c : Category} {locales : Locales}

/-- The target of a site, given the texts that are bound to the leaves. -/
def target? (texts : Leaf → Option Text) (s : Site) : Option Target :=
  (texts s.leaf).map (Target.mk s.occurrence.secondary.body)

theorem reaches_pairField {field : PairField} {occurrences : List Occurrence} {records : List (Option FlatMap)}
    (hin : ∀ o ∈ occurrences, o.secondary.In text) : Reaches text (pairField c field occurrences records)
      ((fieldSites field.name occurrences).filterMap (target? (Content.records records).text?)) := by
  let at? : Nat → Occurrence → Option Target := fun index o =>
    (recordText? records index field.name).map (Target.mk o.secondary.body)
  have htargets : (records.zipIdx.flatMap fun pair => (occurrences[pair.2]?.bind (at? pair.2)).toList) =
      (fieldSites field.name occurrences).filterMap (target? (Content.records records).text?) := by
    -- occurrences beyond the last record have no text
    have hnone : ∀ index o, 0 + records.length ≤ index → at? index o = none := by
      intro index o hindex
      show (recordText? records index field.name).map _ = none
      rw [recordText?, List.getElem?_eq_none (by omega)]
      rfl
    unfold fieldSites
    rw [List.filterMap_map]
    refine Eq.trans ?_ (flatMap_range'_eq_filterMap_zipIdx hnone)
    rw [← List.zipIdx_map_snd, List.flatMap_map]
    rfl
  rw [← htargets]
  refine reaches_forEach_of fun (record, index) hmem => ?_
  have hrecord : records[index]? = some record := List.mem_zipIdx_iff_getElem?.1 hmem
  have htext : (record.bind fun texts => (texts.lookup? field.name).join) =
      recordText? records index field.name := by
    rw [recordText?, hrecord]
    rfl
  have hsite : occurrences[index]?.bind (at? index) =
      Target.of? ((occurrences[index]?.map fun o => o.secondary).map LiteralSpan.body)
        (recordText? records index field.name) := by
    cases occurrences[index]? <;> rfl
  dsimp only
  rw [htext, hsite]
  refine reaches_literal _ _ fun l hl => ?_
  obtain ⟨o, ho, rfl⟩ := Option.map_eq_some_iff.1 hl
  exact hin o (List.mem_of_getElem? ho)

theorem reaches_pairs {fields : List PairField} {records : List (Option FlatMap)} {columns : List (List Site)}
    (hcolumns : List.Forall₂ (c.IsSiteColumn text locales) fields columns) :
    Reaches text (pairs c text locales fields records)
      (columns.flatten.filterMap (target? (Content.records records).text?)) := by
  rw [List.filterMap_flatten]
  refine reaches_forEach (List.forall₂_map_right_iff.2 (hcolumns.imp ?_))
  rintro field column ⟨occurrences, hoccurrences, rfl⟩
  exact reaches_bind hoccurrences (reaches_pairField fun o ho =>
    ((Category.occurrences_spec hoccurrences).1 o ho).inside.secondary.in)

/-! ## Keyed pairs and choices -/

/-- A text goes to all sites of its key. -/
theorem reaches_matching (entry : PatchEntry) (value : Text) {matching : List Site}
    (hin : ∀ s ∈ matching, s.occurrence.secondary.In text) :
    Reaches text (((matching.map Site.occurrence).mapM fun o =>
      (liftM (o.secondary.editTo? value) : Logged Failure _)) >>= fun edits =>
        pure (ofEdits entry (edits.filterMap id)))
      (matching.map fun s => ⟨s.occurrence.secondary.body, value⟩) := by
  intro hdecodes
  let edit? : Site → Option Edit := fun s =>
    if Target.Changes text ⟨s.occurrence.secondary.body, value⟩ then
      some (Target.edit ⟨s.occurrence.secondary.body, value⟩) else none
  have hedits : ((matching.map Site.occurrence).mapM fun o =>
      (liftM (o.secondary.editTo? value) : Logged Failure _)).result = .ok (matching.map edit?) := by
    rw [Logged.result_mapM, List.mapM_map]
    refine Except.mapM_eq_ok_map fun s hs => ?_
    exact editTo?_of_target (hin s hs) (hdecodes _ (List.mem_map_of_mem hs))
  refine reaches_bind hedits (fun _ => ⟨_, rfl, ?_⟩) hdecodes
  have hchanged : (matching.map edit?).filterMap id =
      Target.edits text (matching.map fun s => ⟨s.occurrence.secondary.body, value⟩) := by
    unfold Target.edits
    rw [List.filterMap_map, List.filter_map, List.map_map, ← List.filterMap_eq_map, List.filterMap_filter]
    rfl
  rw [← hchanged]
  exact .rfl

/-- The targets of sites, taken out by the keys of texts one after the other, are all targets of the sites. -/
theorem targets_by_key_perm {texts : FlatMap} {found : List Site} (htexts : OrderedMap.Distinct texts)
    (hkeys : ∀ s ∈ found, ∃ key, s.leaf = .key key) :
    (texts.flatMap fun pair => (found.filter fun s => s.leaf = .key pair.1).filterMap
      (target? (Content.map texts).text?)).Perm (found.filterMap (target? (Content.map texts).text?)) := by
  -- a site whose key has no entry is left out, and it has no target
  let named : Site → Bool := fun s => decide (∃ key ∈ OrderedMap.keys texts, s.leaf = .key key)
  have hnames : ∀ s ∈ found.filter named, ∃ key ∈ OrderedMap.keys texts, s.leaf = .key key :=
    fun s hs => of_decide_eq_true (List.mem_filter.1 hs).2
  have hperm := sites_by_key_perm htexts hnames
  have hone : (texts.flatMap fun pair => (found.filter named).filter fun s => s.leaf = .key pair.1) =
      texts.flatMap fun pair => found.filter fun s => s.leaf = .key pair.1 := by
    refine List.flatMap_congr fun pair hpair => ?_
    rw [List.filter_filter]
    refine List.filter_congr fun s _ => ?_
    by_cases h : s.leaf = .key pair.1
    · have hnamed : named s = true := decide_eq_true ⟨pair.1, OrderedMap.mem_keys_of_mem hpair, h⟩
      simp [h, hnamed]
    · simp [h]
  have hall : (found.filter named).filterMap (target? (Content.map texts).text?) =
      found.filterMap (target? (Content.map texts).text?) := by
    rw [List.filterMap_filter]
    refine List.filterMap_congr fun s hs => ?_
    split
    · rfl
    · next h =>
      obtain ⟨key, hkey⟩ := hkeys s hs
      have hnone : OrderedMap.lookup? texts key = none := OrderedMap.lookup?_eq_none_iff.2 fun hmem =>
        h (decide_eq_true ⟨key, hmem, hkey⟩)
      rw [target?, hkey]
      show none = ((OrderedMap.lookup? texts key).join).map _
      rw [hnone]
      rfl
  have htargets := hperm.filterMap (target? (Content.map texts).text?)
  rwa [hone, hall, List.filterMap_flatMap] at htargets

theorem reaches_keyed {pattern : Pattern} {texts : FlatMap} {occurrences : List Occurrence} {found : List Site}
    (htexts : OrderedMap.Distinct texts) (hoccurrences : c.occurrences text pattern = .ok occurrences)
    (hsites : List.Forall₂ Category.IsKeyedSite occurrences found) :
    Reaches text (keyed c text pattern texts) (found.filterMap (target? (Content.map texts).text?)) := by
  have hin : ∀ s ∈ found, s.occurrence.secondary.In text := by
    intro s hs
    obtain ⟨o, ho, rfl, -⟩ := List.Forall₂.exists_of_mem_right hsites hs
    exact ((Category.occurrences_spec hoccurrences).1 _ ho).inside.secondary.in
  have hkeys : ∀ s ∈ found, ∃ key, s.leaf = .key key := by
    intro s hs
    obtain ⟨o, -, -, key, -, hleaf⟩ := List.Forall₂.exists_of_mem_right hsites hs
    exact ⟨key, hleaf⟩
  refine Reaches.perm (reaches_bind hoccurrences (reaches_forEach_of fun (key, value) hmem => ?_))
    (targets_by_key_perm htexts hkeys)
  have hvalue : (Content.map texts).text? (.key key) = value := by
    show (OrderedMap.lookup? texts key).join = value
    rw [OrderedMap.lookup?_of_mem htexts hmem]
    rfl
  have htarget : ∀ s ∈ found.filter fun s => s.leaf = .key key, target? (Content.map texts).text? s =
      value.map (Target.mk s.occurrence.secondary.body) := by
    intro s hs
    rw [target?, of_decide_eq_true (List.mem_filter.1 hs).2, hvalue]
  dsimp only
  rw [List.filterMap_congr htarget]
  cases value with
  | none =>
    have hnone : ((found.filter fun s => s.leaf = .key key).filterMap fun s : Site =>
      (none : Option Text).map (Target.mk s.occurrence.secondary.body)) = [] := by simp
    rw [hnone]
    exact reaches_report _
  | some value =>
    have hmap : ((found.filter fun s => s.leaf = .key key).filterMap fun s : Site =>
        (some value).map (Target.mk s.occurrence.secondary.body)) =
          (found.filter fun s => s.leaf = .key key).map fun s => ⟨s.occurrence.secondary.body, value⟩ := by
      rw [← List.filterMap_eq_map]
      rfl
    rw [hmap]
    refine reaches_bind (occurrencesOf_sites hsites key) ?_
    have hmatching : ∀ s ∈ found.filter fun s => s.leaf = .key key, s.occurrence.secondary.In text :=
      fun s hs => hin s (List.mem_of_mem_filter hs)
    generalize (found.filter fun s => s.leaf = .key key) = matching at hmatching
    cases matching with
    | nil => exact reaches_notFound _
    | cons first rest => exact reaches_matching _ value hmatching

/-! ## Documents and scalar fields -/

/-- The values of two maps under the same keys, in the order of the first map. -/
def joined {α β : Type} (m : OrderedMap α) (n : OrderedMap β) : List (Text × α × β) :=
  m.filterMap fun pair => (n.lookup? pair.1).map fun b => (pair.1, pair.2, b)

theorem mem_joined_iff {α β : Type} {m : OrderedMap α} {n : OrderedMap β} (hn : OrderedMap.Distinct n) {key : Text}
    {a : α} {b : β} : (key, a, b) ∈ joined m n ↔ (key, a) ∈ m ∧ (key, b) ∈ n := by
  unfold joined
  rw [List.mem_filterMap]
  constructor
  · rintro ⟨⟨k, a'⟩, hmem, h⟩
    obtain ⟨b', hlookup, heq⟩ := Option.map_eq_some_iff.1 h
    cases heq
    exact ⟨hmem, OrderedMap.mem_of_lookup? hlookup⟩
  · rintro ⟨ha, hb⟩
    exact ⟨(key, a), ha, by rw [OrderedMap.lookup?_of_mem hn hb]; rfl⟩

theorem nodup_joined {α β : Type} {m : OrderedMap α} (hm : OrderedMap.Distinct m) (n : OrderedMap β) :
    (joined m n).Nodup := by
  refine List.pairwise_filterMap.2 ((List.pairwise_map.1 hm).imp fun {p q} hne => ?_)
  rintro x hx y hy rfl
  obtain ⟨b, -, rfl⟩ := Option.map_eq_some_iff.1 hx
  obtain ⟨b', -, heq⟩ := Option.map_eq_some_iff.1 hy
  exact hne (congrArg Prod.fst heq).symm

/-- Two maps with distinct keys are joined from either side. -/
theorem joined_perm {α β : Type} {m : OrderedMap α} {n : OrderedMap β} (hm : OrderedMap.Distinct m)
    (hn : OrderedMap.Distinct n) : (joined m n).Perm ((joined n m).map fun t => (t.1, t.2.2, t.2.1)) := by
  have hswap : Function.Injective fun t : Text × β × α => (t.1, t.2.2, t.2.1) := by
    rintro ⟨k, b, a⟩ ⟨k', b', a'⟩ h
    cases h
    rfl
  refine (List.perm_ext_iff_of_nodup (nodup_joined hm n) ((nodup_joined hn m).map hswap)).2 fun (key, a, b) => ?_
  rw [mem_joined_iff hn, List.mem_map]
  constructor
  · rintro ⟨ha, hb⟩
    exact ⟨(key, b, a), (mem_joined_iff hm).2 ⟨hb, ha⟩, rfl⟩
  · rintro ⟨⟨key', b', a'⟩, hmem, heq⟩
    cases heq
    exact ((mem_joined_iff hm).1 hmem).symm

/-- Texts that each go to the body under their key. -/
theorem reaches_bodies {bodies : OrderedMap Body} {texts : FlatMap} {plan : Text × Option Text → Logged Failure Plan}
    (hbodies : OrderedMap.Distinct bodies) (htexts : OrderedMap.Distinct texts)
    (h : ∀ pair ∈ texts, Reaches text (plan pair) (Target.of? (bodies.lookup? pair.1) pair.2).toList) :
    Reaches text (forEach texts plan)
      (bodies.filterMap fun pair => ((Content.map texts).text? (.key pair.1)).map (Target.mk pair.2)) := by
  refine (reaches_forEach_of h).perm ?_
  have hperm := (joined_perm htexts hbodies).filterMap fun t => t.2.1.map (Target.mk t.2.2)
  have hleft : (joined texts bodies).filterMap (fun t => t.2.1.map (Target.mk t.2.2)) =
      texts.flatMap fun pair => (Target.of? (bodies.lookup? pair.1) pair.2).toList := by
    unfold joined
    rw [List.filterMap_filterMap, List.filterMap_eq_flatMap_toList]
    refine List.flatMap_congr fun pair _ => congrArg Option.toList ?_
    cases OrderedMap.lookup? bodies pair.1 <;> rfl
  have hright : ((joined bodies texts).map fun t => (t.1, t.2.2, t.2.1)).filterMap
      (fun t => t.2.1.map (Target.mk t.2.2)) =
        bodies.filterMap fun pair => ((Content.map texts).text? (.key pair.1)).map (Target.mk pair.2) := by
    unfold joined
    rw [List.filterMap_map, List.filterMap_filterMap]
    refine List.filterMap_congr fun pair _ => ?_
    show _ = ((texts.lookup? pair.1).join).map _
    cases texts.lookup? pair.1 <;> rfl
  rwa [hleft, hright] at hperm

theorem reaches_template (entry : PatchEntry) (value : Text) (start stop : Nat) :
    Reaches text (do
      if (← Literal.decode (text.slice start stop)) = value then return ofEdits entry []
      else return ofEdits entry [⟨start, stop, escapeTemplate value⟩]) [⟨.ofTemplate (start, stop), value⟩] := by
  intro hdecodes
  obtain ⟨current, hcurrent⟩ := hdecodes _ (List.mem_singleton_self _)
  have hcurrent : Literal.decode (text.slice start stop) = .ok current := hcurrent
  refine reaches_bind hcurrent (fun _ => ?_) hdecodes
  rw [edits_singleton]
  by_cases heq : current = value
  · have hsame : Target.Changes text ⟨.ofTemplate (start, stop), value⟩ = false := by
      simp [Target.Changes, Body.ofTemplate, hcurrent, heq]
    rw [hsame, if_pos heq]
    exact ⟨_, rfl, .rfl⟩
  · have hchanges : Target.Changes text ⟨.ofTemplate (start, stop), value⟩ = true := by
      simp [Target.Changes, Body.ofTemplate, hcurrent, heq]
    rw [hchanges, if_neg heq]
    exact ⟨_, rfl, .rfl⟩

theorem reaches_documents {texts : FlatMap} {locale : Text} {spans : Option (OrderedMap (Nat × Nat))}
    (htexts : OrderedMap.Distinct texts) (hspans : c.documentBodies text locale = .ok spans) :
    Reaches text (documents c text locale texts) ((spans.getD []).filterMap fun pair =>
      ((Content.map texts).text? (.key pair.1)).map (Target.mk (.ofTemplate pair.2))) := by
  have hbodies : OrderedMap.Distinct ((spans.getD []).mapValues Body.ofTemplate) := by
    unfold OrderedMap.Distinct
    rw [OrderedMap.keys_mapValues]
    cases spans with
    | none => exact OrderedMap.distinct_nil
    | some spans => exact Category.distinct_documentBodies hspans
  have htargets : (spans.getD []).filterMap (fun pair =>
      ((Content.map texts).text? (.key pair.1)).map (Target.mk (.ofTemplate pair.2))) =
        ((spans.getD []).mapValues Body.ofTemplate).filterMap fun pair =>
          ((Content.map texts).text? (.key pair.1)).map (Target.mk pair.2) := by
    rw [OrderedMap.mapValues, List.filterMap_map]
    rfl
  rw [htargets]
  refine reaches_bind hspans (reaches_bodies hbodies htexts fun pair _ => ?_)
  obtain ⟨key, value⟩ := pair
  rw [OrderedMap.lookup?_mapValues]
  cases hspan : (spans.getD []).lookup? key with
  | none =>
    simp only [hspan]
    cases value with
    | none => exact reaches_report _
    | some value => exact reaches_notFound _
  | some span =>
    simp only [hspan]
    cases value with
    | none => exact reaches_report _
    | some value => exact reaches_template _ value span.1 span.2

theorem reaches_scalarFields {texts : FlatMap} {locale : Text} (htexts : OrderedMap.Distinct texts) :
    Reaches text (scalarFields c text locale texts) (((c.scalarLiterals? text locale).getD []).filterMap fun pair =>
      ((Content.map texts).text? (.key pair.1)).map (Target.mk pair.2.body)) := by
  unfold scalarFields
  cases hliterals : c.scalarLiterals? text locale with
  | none => exact reaches_notFound _
  | some literals =>
    have hbodies : OrderedMap.Distinct (literals.mapValues LiteralSpan.body) := by
      unfold OrderedMap.Distinct
      rw [OrderedMap.keys_mapValues]
      exact Category.distinct_scalarLiterals? hliterals
    have htargets : ((some literals).getD []).filterMap (fun pair =>
        ((Content.map texts).text? (.key pair.1)).map (Target.mk pair.2.body)) =
          (literals.mapValues LiteralSpan.body).filterMap fun pair =>
            ((Content.map texts).text? (.key pair.1)).map (Target.mk pair.2) := by
      rw [OrderedMap.mapValues, List.filterMap_map]
      rfl
    rw [htargets]
    refine reaches_bodies hbodies htexts fun pair _ => ?_
    rw [OrderedMap.lookup?_mapValues]
    exact reaches_literal _ _ fun l hl =>
      Category.in_of_mem_scalarLiterals? hliterals _ (OrderedMap.mem_of_lookup? hl)

end Plan

namespace PatchInput

variable {input : PatchInput} {c : Category} {text : Text} {content : Content} {targets : List Target}

/-- The plan of a category that is patched site by site has the edits of the targets of its contents. -/
theorem reaches_plan (hplace : c.placement.blockPlace? = none) (hshape : content.shape = c.placement.shape)
    (hcontent : content.Distinct) (htargets : c.targets text input.manifest.locales content = .ok targets)
    (merged : List FlatMap) : Plan.Reaches text (input.plan c text content merged) targets := by
  obtain ⟨found, hfound, heq⟩ := Except.bind_eq_ok_iff.1 htargets
  cases heq
  unfold Category.bodies at hfound
  have hkeyed : ∀ pattern, c.placement.keyedPattern? input.manifest.locales = some pattern →
      (do return (← c.sites text input.manifest.locales).map fun s => (s.leaf, s.occurrence.secondary.body)) =
        Except.ok found → Plan.Reaches text (input.plan c text content merged)
          (found.filterMap fun (leaf, body) => (content.text? leaf).map (Target.mk body)) := by
    intro pattern hpattern hfound
    obtain ⟨sites, hsites, heq⟩ := Except.bind_eq_ok_iff.1 hfound
    cases heq
    obtain ⟨occurrences, hoccurrences, hkeys⟩ := (Category.sites_keyed_iff hpattern).1 hsites
    rw [Category.shape_of_keyedPattern? hpattern] at hshape
    cases content with
    | map texts =>
      rw [plan_of_keyedPattern? hpattern, List.filterMap_map]
      exact Plan.reaches_keyed hcontent hoccurrences hkeys
    | _ => cases hshape
  cases hkind : c.placement with
  | pairs fields defaults =>
    rw [hkind] at hfound hshape
    obtain ⟨sites, hsites, heq⟩ := Except.bind_eq_ok_iff.1 hfound
    cases heq
    obtain ⟨columns, hcolumns, rfl⟩ := (Category.sites_pairs_iff hkind).1 hsites
    cases content with
    | records records =>
      unfold plan
      simp only [hkind]
      rw [List.filterMap_map]
      exact Plan.reaches_pairs hcolumns
    | _ => cases hshape
  | keyedPairs | choices =>
    simp only [hkind] at hfound
    exact hkeyed _ (by rw [hkind]; rfl) hfound
  | documents keyField bodyField defaults =>
    rw [hkind] at hfound hshape
    obtain ⟨spans, hspans, heq⟩ := Except.bind_eq_ok_iff.1 hfound
    cases heq
    cases content with
    | map texts =>
      unfold plan
      simp only [hkind]
      rw [List.filterMap_map]
      exact Plan.reaches_documents hcontent hspans
    | _ => cases hshape
  | scalarFields anchors fields defaults =>
    rw [hkind] at hfound hshape
    cases hfound
    cases content with
    | map texts =>
      unfold plan
      simp only [hkind]
      rw [List.filterMap_map]
      exact Plan.reaches_scalarFields hcontent
    | _ => cases hshape
  | _ =>
    rw [hkind] at hplace
    cases hplace

end PatchInput

end Bilingual
