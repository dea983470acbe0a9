import Bilingual.Proofs.Translate.Site

set_option autoImplicit false

/-! # The edits of a translation

For a translation of contents the plan of a category has, up to their order, one edit for every site whose
literal does not stand for the wanted text yet (`Site.edit?`), and no entry that tells of a missing place
(`Plan.makes_pairs`, `Plan.makes_keyed`). The plan of keyed pairs and choices goes through the texts and looks
up the sites of each key, so its edits come grouped by key (`flatMap_filter_perm`). -/

namespace Bilingual

/-- The edit that makes a literal stand for a wanted text, if one is wanted and it does not yet. -/
def LiteralSpan.change? (l : LiteralSpan) (value : Option Text) : Option Edit :=
  value.bind fun v => if l.value.toOption = some v then none else some ⟨l.start, l.stop, l.quote.escape v⟩

theorem LiteralSpan.editTo?_eq_change? {l : LiteralSpan} {current : Text} (h : l.value = .ok current)
    (v : Text) : l.editTo? v = .ok (l.change? (some v)) := by
  unfold editTo? change?
  rw [h]
  show (if current = v then Except.ok none else Except.ok (some _)) = Except.ok (if some current = some v then _ else _)
  by_cases heq : current = v
  · rw [if_pos heq, if_pos (congrArg some heq)]
  · rw [if_neg heq, if_neg fun hsome => heq (Option.some.inj hsome)]

/-- The edit of a site, given the texts that are wanted at the leaves. -/
def Site.edit? (wanted : Leaf → Option Text) (s : Site) : Option Edit :=
  s.occurrence.secondary.change? (wanted s.leaf)

/-- The entry tells of a text that found its place. -/
def PatchEntry.IsClean (entry : PatchEntry) : Prop :=
  entry.status ≠ .notFound ∧ entry.status ≠ .shifted ∧ entry.status ≠ .invalid

namespace Plan

/-- The step comes to a plan with these edits, whose entries are clean. -/
def Makes (step : Logged Failure Plan) (edits : List Edit) : Prop :=
  ∃ plan, step.result = .ok plan ∧ plan.edits = edits ∧ ∀ entry ∈ plan.entries, entry.IsClean

/-! ## Steps -/

theorem makes_pure_report {entry : PatchEntry} (h : entry.IsClean) : Makes (pure (report entry)) [] := by
  refine ⟨report entry, rfl, rfl, fun other hother => ?_⟩
  rw [List.mem_singleton.1 hother]
  exact h

theorem makes_pure_ofEdits (entry : PatchEntry) (edits : List Edit) :
    Makes (pure (ofEdits entry edits)) edits := by
  refine ⟨ofEdits entry edits, rfl, rfl, fun other hother => ?_⟩
  rw [List.mem_singleton.1 hother]
  unfold PatchEntry.IsClean
  cases edits with
  | nil => simp
  | cons e rest => simp

theorem makes_bind {α : Type} {step : Logged Failure α} {plan : α → Logged Failure Plan} {a : α}
    {edits : List Edit} (hstep : step.result = .ok a) (h : Makes (plan a) edits) :
    Makes (step >>= plan) edits := by
  obtain ⟨found, hfound, hedits⟩ := h
  refine ⟨found, ?_, hedits⟩
  rw [Logged.result_bind]
  exact Except.bind_eq_ok_iff.2 ⟨a, hstep, hfound⟩

/-- A plan made for each of a list of things has the edits of all. -/
theorem makes_forEach {α : Type} {things : List α} {plan : α → Logged Failure Plan}
    {edits : List (List Edit)} (h : List.Forall₂ (fun a edits => Makes (plan a) edits) things edits) :
    Makes (forEach things plan) edits.flatten := by
  obtain ⟨plans, hplans, hedits, hclean⟩ : ∃ plans : List Plan,
      List.Forall₂ (fun a p => (plan a).result = .ok p) things plans ∧ plans.map Plan.edits = edits ∧
        ∀ p ∈ plans, ∀ entry ∈ p.entries, entry.IsClean := by
    induction h with
    | nil => exact ⟨[], .nil, rfl, by simp⟩
    | cons hfirst _ ih =>
      obtain ⟨p, hp, rfl, hclean⟩ := hfirst
      obtain ⟨plans, hplans, rfl, hcleans⟩ := ih
      exact ⟨p :: plans, .cons hp hplans, rfl, List.forall_mem_cons.2 ⟨hclean, hcleans⟩⟩
  refine ⟨concat plans, ?_, ?_, fun entry hentry => ?_⟩
  · rw [result_forEach, Except.mapM_eq_ok_iff.2 hplans]
    rfl
  · rw [← hedits]
    exact List.flatMap_def
  · obtain ⟨p, hp, hentry⟩ := List.mem_flatMap.1 hentry
    exact hclean p hp entry hentry

/-- A wanted text that has a literal to go to makes the edit of that literal, if it needs one. -/
theorem makes_literal {entry : PatchEntry} {site : Option LiteralSpan} {value : Option Text}
    (h : ∀ v, value = some v → ∃ l, site = some l ∧ ∃ current, l.value = .ok current) :
    Makes (literal entry site value) (site.bind fun l => l.change? value).toList := by
  unfold literal
  cases value with
  | none =>
    have hnone : (site.bind fun l => l.change? none) = none := by cases site <;> rfl
    rw [hnone]
    exact makes_pure_report (by simp [PatchEntry.IsClean])
  | some v =>
    obtain ⟨l, rfl, current, hcurrent⟩ := h v rfl
    refine makes_bind (a := l.change? (some v)) ?_ (makes_pure_ofEdits entry _)
    rw [Logged.result_lift, LiteralSpan.editTo?_eq_change? hcurrent]

/-! ## Pairs -/

theorem flatMap_range'_eq_filterMap_zipIdx {α β : Type} {as : List α} {f : Nat → α → Option β} {k n : Nat}
    (h : ∀ i a, k + n ≤ i → f i a = none) :
    (List.range' k n).flatMap (fun i => (as[i - k]?.bind (f i)).toList)
      = (as.zipIdx k).filterMap fun pair => f pair.2 pair.1 := by
  induction n generalizing as k with
  | zero =>
    refine (List.filterMap_eq_nil_iff.2 fun pair hpair => h _ _ ?_).symm
    exact List.le_snd_of_mem_zipIdx hpair
  | succ n ih =>
    cases as with
    | nil => simp
    | cons a rest =>
      have hrest : (List.range' (k + 1) n).flatMap (fun i => (rest[i - (k + 1)]?.bind (f i)).toList)
          = (rest.zipIdx (k + 1)).filterMap fun pair => f pair.2 pair.1 := ih fun i a hi => h i a (by omega)
      have htail : (List.range' (k + 1) n).flatMap (fun i => ((a :: rest)[i - k]?.bind (f i)).toList)
          = (List.range' (k + 1) n).flatMap (fun i => (rest[i - (k + 1)]?.bind (f i)).toList) := by
        refine List.flatMap_congr fun i hi => ?_
        have hle := (List.mem_range'_1.1 hi).1
        rw [show i - k = (i - (k + 1)) + 1 by omega, List.getElem?_cons_succ]
      rw [List.range'_succ, List.flatMap_cons, htail, hrest, Nat.sub_self, List.getElem?_cons_zero,
        List.zipIdx_cons]
      show (f k a).toList ++ _ = _
      rw [List.filterMap_cons]
      cases f k a <;> rfl

variable {c : Category} {text : Text} {locales : Locales} {wanted : Content}

theorem makes_pairField {field : PairField} {occurrences : List Occurrence} {records : List (Option FlatMap)}
    (hread : ∀ o ∈ occurrences, ∃ current, o.secondary.value = .ok current)
    (hfound : ∀ index v, recordText? records index field.name = some v → index < occurrences.length) :
    Makes (pairField c field occurrences records)
      ((fieldSites field.name occurrences).filterMap (Site.edit? (Content.records records).text?)) := by
  let edit : Nat → Occurrence → Option Edit := fun index o =>
    o.secondary.change? (recordText? records index field.name)
  have hedits : (records.zipIdx.map fun pair => (occurrences[pair.2]?.bind (edit pair.2)).toList).flatten
      = (fieldSites field.name occurrences).filterMap (Site.edit? (Content.records records).text?) := by
    -- occurrences beyond the last record keep their texts
    have hnone : ∀ index o, 0 + records.length ≤ index → edit index o = none := by
      intro index o hindex
      have htext : recordText? records index field.name = none := by
        unfold recordText?
        rw [List.getElem?_eq_none (by omega)]
        rfl
      show o.secondary.change? _ = none
      rw [htext]
      rfl
    unfold fieldSites
    rw [List.filterMap_map, ← List.flatMap_def]
    refine Eq.trans ?_ (flatMap_range'_eq_filterMap_zipIdx hnone)
    rw [← List.zipIdx_map_snd, List.flatMap_map]
    rfl
  rw [← hedits]
  refine makes_forEach (List.forall₂_map_right_iff.2 (List.forall₂_same.2 ?_))
  rintro ⟨record, index⟩ hmem
  have hrecord : records[index]? = some record := List.mem_zipIdx_iff_getElem?.1 hmem
  have htext : (record.bind fun texts => (texts.lookup? field.name).join)
      = recordText? records index field.name := by
    unfold recordText?
    rw [hrecord]
    rfl
  have hsite : occurrences[index]?.bind (edit index) = (occurrences[index]?.map fun o => o.secondary).bind
      fun l => l.change? (recordText? records index field.name) := by
    cases occurrences[index]? <;> rfl
  dsimp only
  rw [htext, hsite]
  refine makes_literal fun v hv => ?_
  have hlt := hfound index v hv
  exact ⟨occurrences[index].secondary, by rw [List.getElem?_eq_getElem hlt]; rfl,
    hread _ (List.getElem_mem hlt)⟩

/-- The plan of pairs has the edits of their sites. -/
theorem makes_pairs {fields : List PairField} {records : List (Option FlatMap)} {columns : List (List Site)}
    (hnames : (fields.map PairField.name).Nodup)
    (hcolumns : List.Forall₂ (c.IsSiteColumn text locales) fields columns)
    (hread : ∀ s ∈ columns.flatten, ∃ current, s.occurrence.secondary.value = .ok current)
    (hfound : ∀ leaf v, (Content.records records).text? leaf = some v →
      ∃ s ∈ columns.flatten, s.leaf = leaf) :
    Makes (pairs c text locales fields records)
      (columns.flatten.filterMap (Site.edit? (Content.records records).text?)) := by
  have hfield : ∀ field ∈ fields, ∀ occurrences, c.occurrences text (field.pattern locales) = .ok occurrences →
      (∀ o ∈ occurrences, ∃ current, o.secondary.value = .ok current) ∧
        ∀ index v, recordText? records index field.name = some v → index < occurrences.length := by
    intro field hmem occurrences hoccurrences
    obtain ⟨column, hcolumn, occurrences', hoccurrences', rfl⟩ :=
      List.Forall₂.exists_of_mem_left hcolumns hmem
    cases hoccurrences.symm.trans hoccurrences'
    refine ⟨fun o ho => ?_, fun index v hv => ?_⟩
    · obtain ⟨index, hindex⟩ := List.mem_iff_getElem?.1 ho
      exact hread ⟨.field index field.name, o⟩
        (List.mem_flatten.2 ⟨_, hcolumn, Category.mem_fieldSites_iff.2 ⟨index, rfl, hindex⟩⟩)
    · obtain ⟨s, hs, hleaf⟩ := hfound (.field index field.name) v hv
      obtain ⟨column, hcolumn, hs⟩ := List.mem_flatten.1 hs
      obtain ⟨field', hmem', occurrences', hoccurrences', rfl⟩ :=
        List.Forall₂.exists_of_mem_right hcolumns hcolumn
      obtain ⟨index', hleaf', ho⟩ := Category.mem_fieldSites_iff.1 hs
      -- a column with the name of the field is the one of the field itself
      obtain ⟨rfl, hname⟩ := Leaf.field.inj (hleaf.symm.trans hleaf')
      cases List.inj_on_of_nodup_map hnames hmem hmem' hname
      cases hoccurrences.symm.trans hoccurrences'
      exact (List.getElem?_eq_some_iff.1 ho).1
  rw [List.filterMap_flatten]
  refine makes_forEach (List.forall₂_map_right_iff.2 ?_)
  have hmembers := (List.forall₂_and_left (p := fun field => field ∈ fields) fields columns).2
    ⟨fun _ hmem => hmem, hcolumns⟩
  refine hmembers.imp fun field column hcolumn => ?_
  obtain ⟨hmem, occurrences, hoccurrences, rfl⟩ := hcolumn
  obtain ⟨hread, hlt⟩ := hfield field hmem occurrences hoccurrences
  exact makes_bind hoccurrences (makes_pairField hread hlt)

/-! ## Keyed pairs and choices -/

/-- Members of a list that are taken out by key, one key after the other, are all its members. -/
theorem flatMap_filter_perm {α β : Type} [DecidableEq β] {keys : List β} {as : List α} {keyOf : α → β}
    (hkeys : keys.Nodup) (hmem : ∀ a ∈ as, keyOf a ∈ keys) :
    (keys.flatMap fun key => as.filter fun a => keyOf a = key).Perm as := by
  induction keys generalizing as with
  | nil =>
    have hnil : as = [] := List.eq_nil_iff_forall_not_mem.2 fun a ha => by cases hmem a ha
    rw [hnil]
    exact List.Perm.refl _
  | cons key rest ih =>
    obtain ⟨hkey, hrest⟩ := List.nodup_cons.1 hkeys
    have hothers : (rest.flatMap fun other => as.filter fun a => keyOf a = other)
        = rest.flatMap fun other => (as.filter fun a => !decide (keyOf a = key)).filter fun a =>
          keyOf a = other := by
      refine List.flatMap_congr fun other hother => ?_
      rw [List.filter_filter]
      refine List.filter_congr fun a _ => ?_
      by_cases h : keyOf a = other
      · have hne : other ≠ key := fun heq => hkey (heq ▸ hother)
        simp [h, hne]
      · simp [h]
    have hmem' : ∀ a ∈ as.filter fun a => !decide (keyOf a = key), keyOf a ∈ rest := by
      intro a ha
      obtain ⟨ha, hne⟩ := List.mem_filter.1 ha
      rcases List.mem_cons.1 (hmem a ha) with heq | hmem
      · simp [heq] at hne
      · exact hmem
    -- the members of the first key, then those without it, from which the other keys are taken
    rw [List.flatMap_cons, hothers]
    exact ((ih hrest hmem').append_left _).trans (List.filter_append_perm _ as)

/-- The occurrences that go by a key are those of its sites. -/
theorem occurrencesOf_sites {occurrences : List Occurrence} {found : List Site}
    (h : List.Forall₂ Category.IsKeyedSite occurrences found) (key : Text) :
    occurrencesOf key occurrences =
      .ok ((found.filter fun s => s.leaf = .key key).map Site.occurrence) := by
  refine occurrencesOf_eq_ok_iff.2 ⟨fun o ho => ?_, ?_⟩
  · obtain ⟨s, -, -, k, hk, -⟩ := List.Forall₂.exists_of_mem_left h ho
    exact ⟨k, hk⟩
  · induction h with
    | nil => rfl
    | @cons o s occurrences found hsite _ ih =>
      obtain ⟨rfl, k, hk, hleaf⟩ := hsite
      have hkey : (keyAt? s.occurrence = some key) ↔ s.leaf = .key key := by
        rw [keyAt?_eq_some_iff, hk, hleaf, Except.ok.injEq, Leaf.key.injEq]
      by_cases hs : s.leaf = .key key
      · simp [hkey, hs, ih]
      · simp [hkey, hs, ih]

/-- A text that goes to some sites makes their edits. -/
theorem makes_matching {entry : PatchEntry} {matching : List Site} {value : Text}
    {wanted : Leaf → Option Text}
    (hread : ∀ s ∈ matching, ∃ current, s.occurrence.secondary.value = .ok current)
    (hwanted : ∀ s ∈ matching, wanted s.leaf = some value) :
    Makes (((matching.map Site.occurrence).mapM fun o =>
      (liftM (o.secondary.editTo? value) : Logged Failure _)) >>= fun edits =>
        pure (ofEdits entry (edits.filterMap id))) (matching.filterMap (Site.edit? wanted)) := by
  have hedits : (matching.map (Site.edit? wanted)).filterMap id = matching.filterMap (Site.edit? wanted) := by
    rw [List.filterMap_map]
    rfl
  rw [← hedits]
  refine makes_bind ?_ (makes_pure_ofEdits entry _)
  rw [Logged.result_mapM, Except.mapM_eq_ok_iff, List.forall₂_map_left_iff, List.forall₂_map_right_iff,
    List.forall₂_same]
  intro s hs
  obtain ⟨current, hcurrent⟩ := hread s hs
  unfold Site.edit?
  rw [hwanted s hs]
  exact LiteralSpan.editTo?_eq_change? hcurrent value

/-- The sites taken out by the keys of texts, one key after the other, are all sites. -/
theorem sites_by_key_perm {texts : FlatMap} {found : List Site} (htexts : OrderedMap.Distinct texts)
    (hkeys : ∀ s ∈ found, ∃ key ∈ OrderedMap.keys texts, s.leaf = .key key) :
    (texts.flatMap fun pair => found.filter fun s => s.leaf = .key pair.1).Perm found := by
  have hmap : (texts.map fun pair => Leaf.key pair.1) = (OrderedMap.keys texts).map Leaf.key :=
    List.map_map.symm
  have hleaves : (texts.map fun pair => Leaf.key pair.1).Nodup := by
    rw [hmap]
    exact List.Nodup.map (fun _ _ h => Leaf.key.inj h) htexts
  have hmem : ∀ s ∈ found, s.leaf ∈ texts.map fun pair => Leaf.key pair.1 := by
    intro s hs
    obtain ⟨key, hkey, hleaf⟩ := hkeys s hs
    obtain ⟨pair, hpair, rfl⟩ := List.mem_map.1 hkey
    exact List.mem_map.2 ⟨pair, hpair, hleaf.symm⟩
  have hperm := flatMap_filter_perm hleaves hmem
  rw [List.flatMap_map] at hperm
  exact hperm

/-- The plan of keyed pairs and choices has, up to their order, the edits of their sites. -/
theorem makes_keyed {pattern : Pattern} {texts : FlatMap} {occurrences : List Occurrence}
    {found : List Site} (htexts : OrderedMap.Distinct texts)
    (hoccurrences : c.occurrences text pattern = .ok occurrences)
    (hsites : List.Forall₂ Category.IsKeyedSite occurrences found)
    (hread : ∀ s ∈ found, ∃ current, s.occurrence.secondary.value = .ok current)
    (hkeys : ∀ s ∈ found, ∃ key ∈ OrderedMap.keys texts, s.leaf = .key key)
    (hfound : ∀ leaf v, (Content.map texts).text? leaf = some v → ∃ s ∈ found, s.leaf = leaf) :
    ∃ edits, Makes (keyed c text pattern texts) edits ∧
      edits.Perm (found.filterMap (Site.edit? (Content.map texts).text?)) := by
  let sitesOf : Text → List Site := fun key => found.filter fun s => s.leaf = .key key
  refine ⟨(texts.map fun pair => (sitesOf pair.1).filterMap (Site.edit? (Content.map texts).text?)).flatten,
    ?_, ?_⟩
  · refine makes_bind hoccurrences (makes_forEach (List.forall₂_map_right_iff.2 (List.forall₂_same.2 ?_)))
    rintro ⟨key, value⟩ hmem
    have hvalue : (Content.map texts).text? (.key key) = value := by
      show (OrderedMap.lookup? texts key).join = value
      rw [OrderedMap.lookup?_of_mem htexts hmem]
      rfl
    have hwanted : ∀ s ∈ sitesOf key, (Content.map texts).text? s.leaf = value := by
      intro s hs
      rw [of_decide_eq_true (List.mem_filter.1 hs).2]
      exact hvalue
    have hreadable : ∀ s ∈ sitesOf key, ∃ current, s.occurrence.secondary.value = .ok current :=
      fun s hs => hread s (List.mem_filter.1 hs).1
    cases value with
    | none =>
      have hnil : (sitesOf key).filterMap (Site.edit? (Content.map texts).text?) = [] := by
        refine List.filterMap_eq_nil_iff.2 fun s hs => ?_
        unfold Site.edit?
        rw [hwanted s hs]
        rfl
      rw [hnil]
      exact makes_pure_report (by simp [PatchEntry.IsClean])
    | some value =>
      have hmatching : occurrencesOf key occurrences = .ok ((sitesOf key).map Site.occurrence) :=
        occurrencesOf_sites hsites key
      refine makes_bind (a := (sitesOf key).map Site.occurrence) hmatching ?_
      obtain ⟨s, hs, hleaf⟩ := hfound (.key key) value hvalue
      have hmatch : s ∈ sitesOf key := List.mem_filter.2 ⟨hs, decide_eq_true hleaf⟩
      dsimp only
      generalize sitesOf key = matching at hwanted hreadable hmatch
      cases matching with
      | nil => cases hmatch
      | cons first rest => exact makes_matching hreadable hwanted
  · rw [← List.flatMap_def, ← List.filterMap_flatMap]
    exact (sites_by_key_perm htexts hkeys).filterMap _

end Plan

end Bilingual
