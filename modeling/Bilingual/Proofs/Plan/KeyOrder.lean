import Bilingual.Proofs.KeyOrder
import Bilingual.Proofs.Overlay
import Bilingual.Proofs.Plan.Apart
import Bilingual.Proofs.Plan.Shows

set_option autoImplicit false

/-! # Plans for maps with their keys in another order

Planned for the texts of a map in another order, single sites get the same edits in that order
(`Plan.exists_keyed_perm`, `Plan.exists_documents_perm`). A block of entries or of keyed records gets the same sources
for the items it has, and the same new items behind them, in that order (`Plan.exists_dictBlock_perm`,
`Plan.exists_keyedRecordBlock_perm`). -/

namespace Bilingual

open ParsedBlock

/-- Edits that neither overlap nor touch are carried out alike in any order. -/
theorem Edit.applyAll_perm {text : Text} {edits edits' : List Edit} (hperm : edits.Perm edits')
    (hwithin : ∀ e ∈ edits, e.Within 0 text.length) (hapart : edits.Pairwise Apart) :
    applyAll text edits' = applyAll text edits := by
  have hsorted : ∀ e ∈ sort edits, e.Within 0 text.length := fun e he => hwithin e ((sort_perm edits).mem_iff.1 he)
  have hordered := sort_of_apart hwithin hapart
  have hperm' : edits'.Perm (sort edits) := hperm.symm.trans (sort_perm edits).symm
  rw [applyAll_of_pairwise hperm' hsorted hordered, applyAll_of_pairwise (sort_perm edits).symm hsorted hordered]

namespace Plan

variable {c : Category} {text locale : Text}

/-! ## Single sites -/

/-- The same edits and the same entries in another order. -/
structure Reordered (plan plan' : Plan) : Prop where
  edits : plan.edits.Perm plan'.edits
  entries : plan.entries.Perm plan'.entries

/-- What is planned for each of some things is planned for each of them in another order. -/
theorem exists_forEach_perm {α : Type} {things things' : List α} {step : α → Logged Failure Plan} {plan : Plan}
    (hperm : things.Perm things') (h : (forEach things step).result = .ok plan) :
    ∃ plan', (forEach things' step).result = .ok plan' ∧ plan.Reordered plan' := by
  rw [result_forEach] at h
  obtain ⟨parts, hparts, rfl⟩ := Except.map_eq_ok_iff.1 h
  obtain ⟨parts', hparts', hperm'⟩ := Except.exists_mapM_perm hperm hparts
  refine ⟨concat parts', ?_, hperm'.flatMap_right _, hperm'.flatMap_right _⟩
  rw [result_forEach, hparts']
  rfl

theorem exists_keyed_perm {pattern : Pattern} {texts texts' : FlatMap} {plan : Plan} (hperm : List.Perm texts texts')
    (h : (keyed c text pattern texts).result = .ok plan) :
    ∃ plan', (keyed c text pattern texts').result = .ok plan' ∧ plan.Reordered plan' := by
  unfold keyed at h ⊢
  rw [Logged.result_bind] at h ⊢
  obtain ⟨occurrences, hoccurrences, h⟩ := Except.bind_eq_ok_iff.1 h
  obtain ⟨plan', hplan', hsame⟩ := exists_forEach_perm hperm h
  exact ⟨plan', Except.bind_eq_ok_iff.2 ⟨occurrences, hoccurrences, hplan'⟩, hsame⟩

theorem exists_documents_perm {texts texts' : FlatMap} {plan : Plan} (hperm : List.Perm texts texts')
    (h : (documents c text locale texts).result = .ok plan) :
    ∃ plan', (documents c text locale texts').result = .ok plan' ∧ plan.Reordered plan' := by
  unfold documents at h ⊢
  rw [Logged.result_bind] at h ⊢
  obtain ⟨bodies, hbodies, h⟩ := Except.bind_eq_ok_iff.1 h
  obtain ⟨plan', hplan', hsame⟩ := exists_forEach_perm hperm h
  exact ⟨plan', Except.bind_eq_ok_iff.2 ⟨bodies, hbodies, hplan'⟩, hsame⟩

/-! ## Blocks -/

/-- The keys of the new items that entries report. -/
def appendedKeys (entries : List PatchEntry) : List (Option Text) :=
  (entries.filter fun entry => entry.detail = some ("appended" : Text)).map PatchEntry.key

theorem appendedKeys_flatMap {α : Type} (l : List α) (entries : α → List PatchEntry) :
    appendedKeys (l.flatMap entries) = l.flatMap fun a => appendedKeys (entries a) := by
  simp only [appendedKeys, List.filter_flatMap, List.map_flatMap]

/-- Two reported texts have the same block but for the order of its new items: every item that the text had gets the
same source in both, and behind these stand new items, which are the same ones in the orders of their reports. -/
def SameItems (c : Category) (text locale : Text) (entries entries' : List PatchEntry) (patched patched' : Text) :
    Prop :=
  ∃ parsed sources body body', ∃ news news' : List (Text × Text), c.parsedBlock text locale = .ok (some parsed) ∧
    news.Perm news' ∧ news.map (fun new => some new.1) = appendedKeys entries ∧
    news'.map (fun new => some new.1) = appendedKeys entries' ∧
    parsed.renderBody sources (news.map Prod.snd) = .ok body ∧ patched = parsed.block.replaceBody text body ∧
    parsed.renderBody sources (news'.map Prod.snd) = .ok body' ∧ patched' = parsed.block.replaceBody text body'

/-- Without new items the texts are the same. -/
theorem SameItems.eq_of_nil {entries entries' : List PatchEntry} {patched patched' : Text}
    (h : SameItems c text locale entries entries' patched patched') (hnone : appendedKeys entries = []) :
    patched' = patched := by
  obtain ⟨parsed, sources, body, body', news, news', -, hperm, hkeys, -, hbody, rfl, hbody', rfl⟩ := h
  rw [hnone, List.map_eq_nil_iff] at hkeys
  subst hkeys
  rw [List.nil_perm.1 hperm] at hbody'
  cases hbody.symm.trans hbody'
  rfl

/-- Two plans give the same text, but for the order of new items, and the same entries in another order. -/
structure Alike (c : Category) (text locale : Text) (plan plan' : Plan) : Prop where
  entries : plan.entries.Perm plan'.entries
  patched : Edit.applyAll text plan'.edits = Edit.applyAll text plan.edits ∨ ∃ patched patched',
    Edit.applyAll text plan.edits = .ok patched ∧ Edit.applyAll text plan'.edits = .ok patched' ∧
      SameItems c text locale plan.entries plan'.entries patched patched'

theorem Alike.refl (plan : Plan) : Alike c text locale plan plan := ⟨.rfl, .inl rfl⟩

section Changes

variable {parsed : ParsedBlock} {changes changes' : List ItemChange} {entries entries' : List PatchEntry}

/-- If an item gets one source at most, it does not matter where in the changes that is. -/
theorem findSome?_perm (hperm : changes.Perm changes')
    (hone : ∀ i source source', .replace i source ∈ changes → .replace i source' ∈ changes → source = source')
    (i : Nat) : changes'.findSome? (ItemChange.replaced? i) = changes.findSome? (ItemChange.replaced? i) := by
  cases hfound : changes.findSome? (ItemChange.replaced? i) with
  | none =>
    rw [List.findSome?_eq_none_iff] at hfound ⊢
    exact fun change hchange => hfound change (hperm.mem_iff.2 hchange)
  | some source =>
    have hmem := replace_mem_of_findSome? hfound
    obtain ⟨source', hfound'⟩ : ∃ source', changes'.findSome? (ItemChange.replaced? i) = some source' := by
      rw [← Option.isSome_iff_exists, List.findSome?_isSome_iff]
      exact ⟨_, hperm.mem_iff.1 hmem, by simp [ItemChange.replaced?]⟩
    rw [hfound', hone i _ _ hmem (hperm.mem_iff.2 (replace_mem_of_findSome? hfound'))]

/-- Changes in another order give the items of a block the same sources. -/
theorem exists_ofChanges_perm {plan : Plan} (hblock : c.parsedBlock text locale = .ok (some parsed))
    (hone : ∀ i source source', .replace i source ∈ changes → .replace i source' ∈ changes → source = source')
    (hchanges : changes.Perm changes') (hentries : entries.Perm entries') {news news' : List (Text × Text)}
    (hnews : news.Perm news') (hsources : changes.filterMap ItemChange.appended? = news.map Prod.snd)
    (hsources' : changes'.filterMap ItemChange.appended? = news'.map Prod.snd)
    (hkeys : news.map (fun new => some new.1) = appendedKeys entries)
    (hkeys' : news'.map (fun new => some new.1) = appendedKeys entries')
    (h : ofChanges parsed text changes entries = .ok plan) :
    ∃ plan', ofChanges parsed text changes' entries' = .ok plan' ∧ Alike c text locale plan plan' := by
  obtain ⟨kind, parts, last, hlaid, hspan, hend⟩ := Category.exists_laid hblock
  obtain ⟨plan', hplan', -⟩ := ofChanges_spec parsed text changes' entries'
  refine ⟨plan', hplan', ?_⟩
  have hall : changes'.all (· = .keep) = changes.all (· = .keep) := by
    rw [Bool.eq_iff_iff, List.all_eq_true, List.all_eq_true]
    exact forall_congr' fun change => by rw [hchanges.mem_iff]
  unfold ofChanges at h hplan'
  rw [hall] at hplan'
  simp only [findSome?_perm hchanges hone] at hplan'
  split at h
  · next hkeep =>
    rw [if_pos hkeep] at hplan'
    cases h
    cases hplan'
    exact ⟨hentries, .inl rfl⟩
  · next hkeep =>
    rw [if_neg hkeep] at hplan'
    obtain ⟨body, hbody, h⟩ := Except.bind_eq_ok_iff.1 h
    obtain ⟨body', hbody', hplan'⟩ := Except.bind_eq_ok_iff.1 hplan'
    cases h
    cases hplan'
    rw [hsources] at hbody
    rw [hsources'] at hbody'
    exact ⟨hentries, .inr ⟨_, _, applyAll_body hspan hend body, applyAll_body hspan hend body', parsed, _, body, body',
      news, news', hblock, hnews, hkeys, hkeys', hbody, rfl, hbody', rfl⟩⟩

end Changes

/-! ## Entries -/

theorem distinct_overlay {texts : FlatMap} (htexts : OrderedMap.Distinct texts) (merged : List FlatMap) :
    OrderedMap.Distinct (overlay texts merged) := by
  refine htexts.foldl (fun all source hall => hall.foldl (fun all pair hall => ?_) source) merged
  dsimp only
  split
  · exact hall.put _ _
  · exact hall

/-- Maps in another order, overlaid by maps in another order, are in another order. -/
theorem overlay_perm {texts texts' : FlatMap} {merged merged' : List FlatMap} (htexts : OrderedMap.Distinct texts)
    (hmerged : ∀ source ∈ merged, OrderedMap.Distinct source) (hperm : List.Perm texts texts')
    (hsources : List.Forall₂ List.Perm merged merged') :
    List.Perm (overlay texts merged) (overlay texts' merged') := by
  induction hsources generalizing texts texts' with
  | nil => exact hperm
  | @cons source source' rest rest' hsource _ ih =>
    obtain ⟨hdistinct, hrest⟩ := List.forall_mem_cons.1 hmerged
    have hone : List.Perm (overlay texts [source]) (overlay texts' [source']) := by
      refine OrderedMap.perm_of_lookup? (distinct_overlay htexts _) (distinct_overlay (htexts.perm hperm) _)
        fun key => ?_
      rw [lookup?_overlay_one hdistinct, lookup?_overlay_one (hdistinct.perm hsource),
        OrderedMap.lookup?_perm hdistinct hsource, OrderedMap.lookup?_perm htexts hperm]
    exact ih (distinct_overlay htexts [source]) hrest hone

theorem replaceEntry?_congr {item : BlockItem} {texts texts' : FlatMap}
    (h : ∀ key, texts.lookup? key = texts'.lookup? key) :
    replaceEntry? text item texts = replaceEntry? text item texts' := by
  simp only [replaceEntry?_eq, boundText?, h]

/-- The new entries of a block, by their keys. -/
def newEntries (parsed : ParsedBlock) (texts : FlatMap) : List (Text × Text) :=
  texts.filterMap fun (key, value) =>
    if (existingKeys parsed).contains key then none else value.map fun value => (key, parsed.renderEntry key value)

variable {parsed : ParsedBlock} {texts : FlatMap} {replaced : List (Option Text)}

theorem appended_entryChanges : (entryChanges parsed texts replaced).filterMap ItemChange.appended? =
    (newEntries parsed texts).map Prod.snd := by
  rw [entryChanges, List.filterMap_append, List.filterMap_filterMap]
  refine (congrArg₂ List.append (List.filterMap_eq_nil_iff.2 ?_) rfl).trans ?_
  · rintro ⟨source, index⟩ -
    cases source <;> rfl
  · refine (List.nil_append _).trans ?_
    rw [newEntries, List.filterMap_filterMap, List.map_filterMap]
    refine List.filterMap_congr fun pair _ => ?_
    obtain ⟨key, value⟩ := pair
    dsimp only
    split
    · rfl
    · cases value <;> rfl

theorem appendedKeys_entryReports : appendedKeys (entryReports c parsed texts replaced) =
    (newEntries parsed texts).map fun new => some new.1 := by
  unfold appendedKeys entryReports newEntries
  rw [List.filter_map, List.map_map, List.map_filterMap, ← List.filterMap_eq_map, List.filterMap_filter]
  refine List.filterMap_congr fun pair _ => ?_
  obtain ⟨key, value⟩ := pair
  by_cases hkey : key ∈ existingKeys parsed
  · cases value <;> simp [hkey]
  · cases value <;> simp [hkey]

theorem exists_dictBlock_perm {given given' : FlatMap} {merged merged' : List FlatMap} {plan : Plan}
    (hgiven : OrderedMap.Distinct given) (hmerged : ∀ source ∈ merged, OrderedMap.Distinct source)
    (hperm : List.Perm given given') (hsources : List.Forall₂ List.Perm merged merged')
    (h : (dictBlock c text locale given merged).result = .ok plan) :
    ∃ plan', (dictBlock c text locale given' merged').result = .ok plan' ∧ Alike c text locale plan plan' := by
  rw [dictBlock_eq, Logged.result_bind] at h ⊢
  obtain ⟨found, hfound, h⟩ := Except.bind_eq_ok_iff.1 h
  have hoverlay := overlay_perm hgiven hmerged hperm hsources
  have hlookup := OrderedMap.lookup?_perm (distinct_overlay hgiven merged) hoverlay
  cases found with
  | none => exact ⟨plan, Except.bind_eq_ok_iff.2 ⟨none, hfound, h⟩, .refl plan⟩
  | some parsed =>
    have hstep : ∀ item, replaceEntry? text item (overlay given' merged') =
        replaceEntry? text item (overlay given merged) := fun item => (replaceEntry?_congr hlookup).symm
    dsimp only at h
    rw [Logged.result_bind, Logged.result_mapM] at h
    obtain ⟨replaced, hreplaced, h⟩ := Except.bind_eq_ok_iff.1 h
    have hone : ∀ i source source', .replace i source ∈ entryChanges parsed (overlay given merged) replaced →
        .replace i source' ∈ entryChanges parsed (overlay given merged) replaced → source = source' := by
      intro i source source' hmem hmem'
      rw [replace_mem_entryChanges_iff] at hmem hmem'
      rw [hmem] at hmem'
      exact Option.some.inj (Option.some.inj hmem')
    obtain ⟨plan', hplan', halike⟩ := exists_ofChanges_perm hfound hone
      ((hoverlay.filterMap _).append_left _) (hoverlay.map _) (hoverlay.filterMap _) appended_entryChanges
      appended_entryChanges appendedKeys_entryReports.symm appendedKeys_entryReports.symm h
    refine ⟨plan', Except.bind_eq_ok_iff.2 ⟨some parsed, hfound, ?_⟩, halike⟩
    dsimp only
    rw [Logged.result_bind, Logged.result_mapM]
    simp only [hstep]
    exact Except.bind_eq_ok_iff.2 ⟨replaced, hreplaced, hplan'⟩

/-! ## Keyed records -/

/-- Records with the same texts under all keys are planned alike. -/
theorem record_congr {given given' : Option FlatMap} (h : Option.Rel (fun a b => ∀ key, a.lookup? key = b.lookup? key)
    given given') (entry : PatchEntry) (names : List Text) (site : Option (Nat × BlockItem))
    (render : List (Text × Text) → Text) :
    record c text entry names given site render = record c text entry names given' site render := by
  cases h with
  | none => rfl
  | some h => cases site <;> simp only [record, existingRecord, newRecord, completeTexts?, h]

/-- The new item of a planned record, by the key that is reported for it. -/
def newRecord? (planned : ItemChange × List PatchEntry) : Option (Text × Text) := do
  return (← (appendedKeys planned.2).head?.join, ← planned.1.appended?)

/-- A planned record is reported as a new item exactly if it is one, and it only goes to the item at its site. -/
structure Row (site : Option (Nat × BlockItem)) (planned : ItemChange × List PatchEntry) : Prop where
  new : planned.1.appended? = none ∧ appendedKeys planned.2 = [] ∨
    ∃ key source, planned.1.appended? = some source ∧ appendedKeys planned.2 = [some key]
  replace : ∀ i source, planned.1 = .replace i source → ∃ item, site = some (i, item)

open Logged in
theorem ensures_appendedKeys_recordField {entry : PatchEntry} (h : entry.detail = none) (site : Option LiteralSpan)
    (value : Option Text) : Ensures (fun planned => appendedKeys planned.2 = []) (recordField entry site value) := by
  unfold recordField
  match value, site with
  | none, _ => exact ensures_pure (by simp [appendedKeys, h])
  | some value, none =>
    refine ensures_bind fun plan hplan => ensures_pure ?_
    cases hplan
    simp [appendedKeys, report, h]
  | some value, some l =>
    refine ensures_bind fun current _ => ?_
    split
    · exact ensures_pure (by simp [appendedKeys, h])
    · exact ensures_pure (by simp [appendedKeys, h])

open Logged in
theorem ensures_row {entry : PatchEntry} {key : Text} (hkey : entry.key = some key) (hdetail : entry.detail = none)
    (names : List Text) (given : Option FlatMap) (site : Option (Nat × BlockItem))
    (render : List (Text × Text) → Text) : Ensures (Row site) (record c text entry names given site render) := by
  unfold record
  match given, site with
  | none, _ => exact ensures_pure ⟨.inl ⟨rfl, by simp [appendedKeys, hdetail]⟩, by simp⟩
  | some texts, some (index, item) =>
    refine ensures_bind fun planned hplanned => ?_
    have hfields := ensures_mapM (fun name _ => ensures_appendedKeys_recordField (by exact hdetail) _ _) planned
      hplanned
    have hnone : appendedKeys (planned.flatMap Prod.snd) = [] := by
      rw [appendedKeys_flatMap, List.flatMap_eq_nil_iff]
      exact hfields
    dsimp only
    split
    · exact ensures_pure ⟨.inl ⟨rfl, hnone⟩, by simp⟩
    · refine ensures_bind fun source _ => ensures_pure ⟨.inl ⟨rfl, hnone⟩, ?_⟩
      rintro _ _ ⟨⟩
      exact ⟨item, rfl⟩
  | some texts, none =>
    refine ensures_pure ?_
    unfold newRecord
    split
    · have hdiffers : ("incomplete record" : Text) ≠ "appended" := by decide
      exact ⟨.inl ⟨rfl, by simp [appendedKeys, hdiffers]⟩, by simp⟩
    · exact ⟨.inr ⟨key, _, rfl, by simp [appendedKeys, hkey]⟩, by simp⟩

/-- The new items of planned records are those that are reported. -/
theorem appended_of_rows {planned : List (ItemChange × List PatchEntry)}
    (h : ∀ p ∈ planned, ∃ site, Row site p) :
    (planned.map Prod.fst).filterMap ItemChange.appended? = (planned.filterMap newRecord?).map Prod.snd ∧
      (planned.filterMap newRecord?).map (fun new => some new.1) = appendedKeys (planned.flatMap Prod.snd) := by
  constructor
  · rw [List.filterMap_map, List.map_filterMap]
    refine List.filterMap_congr fun p hp => ?_
    obtain ⟨site, hrow⟩ := h p hp
    rcases hrow.new with ⟨hsource, hkeys⟩ | ⟨key, source, hsource, hkeys⟩
    · simp [newRecord?, hsource, hkeys]
    · simp [newRecord?, hsource, hkeys]
  · rw [appendedKeys_flatMap, List.map_filterMap, List.filterMap_eq_flatMap_toList]
    refine List.flatMap_congr fun p hp => ?_
    obtain ⟨site, hrow⟩ := h p hp
    rcases hrow.new with ⟨hsource, hkeys⟩ | ⟨key, source, hsource, hkeys⟩
    · simp [newRecord?, hkeys]
    · simp [newRecord?, hsource, hkeys]

section KeyedRows

variable {names : List Text} {parsed : ParsedBlock} {records records' : OrderedMap (Option FlatMap)}

/-- Plan a keyed record. -/
def keyedRow (c : Category) (text : Text) (names : List Text) (parsed : ParsedBlock) (pair : Text × Option FlatMap) :
    Logged Failure (ItemChange × List PatchEntry) :=
  record c text { category := c.name, status := .skipped, key := some pair.1 } names pair.2 (itemOf? parsed pair.1)
    (parsed.renderKeyedRecord text pair.1)

theorem keyedRecordBlock_eq : keyedRecordBlock c text locale names records = (do
    match ← c.parsedBlock text locale with
    | none => notFound { category := c.name, status := .notFound }
    | some parsed =>
      let planned ← records.mapM (keyedRow c text names parsed)
      ofChanges parsed text (planned.map Prod.fst) (planned.flatMap Prod.snd)) := rfl

/-- Records in another order that have the same texts are planned alike. -/
theorem mapM_keyedRow_congr {between : OrderedMap (Option FlatMap)}
    (hsame : List.Forall₂ (fun a b => a.1 = b.1 ∧ Option.Rel List.Perm a.2 b.2) between records')
    (hdistinct : ∀ key texts, (key, some texts) ∈ between → OrderedMap.Distinct texts) :
    between.mapM (keyedRow c text names parsed) = records'.mapM (keyedRow c text names parsed) := by
  induction hsame with
  | nil => rfl
  | @cons a b _ _ hab _ ih =>
    obtain ⟨key, given⟩ := a
    obtain ⟨key', given'⟩ := b
    obtain ⟨hkey, hgiven⟩ := hab
    have hkey : key = key' := hkey
    subst hkey
    have hlookup : Option.Rel (fun a b : FlatMap => ∀ key, a.lookup? key = b.lookup? key) given given' := by
      cases hgiven with
      | none => exact .none
      | some hperm => exact .some (OrderedMap.lookup?_perm (hdistinct key _ (List.mem_cons_self ..)) hperm)
    have hrow : keyedRow c text names parsed (key, given) = keyedRow c text names parsed (key, given') :=
      record_congr hlookup ..
    have hdistinct' := fun key texts hmem => hdistinct key texts (List.mem_cons_of_mem _ hmem)
    rw [List.mapM_cons, List.mapM_cons, hrow, ih hdistinct']

/-- Of records with distinct keys, one at most goes to an item. -/
theorem replace_keyedRow_unique (hdistinct : OrderedMap.Distinct records)
    {planned : List (ItemChange × List PatchEntry)}
    (hplanned : List.Forall₂ (fun pair p => (keyedRow c text names parsed pair).result = .ok p) records planned)
    {i : Nat} {source source' : Text} (h : .replace i source ∈ planned.map Prod.fst)
    (h' : .replace i source' ∈ planned.map Prod.fst) : source = source' := by
  have hsite : ∀ source, .replace i source ∈ planned.map Prod.fst → ∃ pair ∈ records, ∃ p item,
      (keyedRow c text names parsed pair).result = .ok p ∧ p.1 = .replace i source ∧
        parsed.items[i]? = some item ∧ item.key?.map ItemKey.value = some pair.1 := by
    intro source hmem
    obtain ⟨p, hp, hreplace⟩ := List.mem_map.1 hmem
    obtain ⟨pair, hpair, hrow⟩ := List.Forall₂.exists_of_mem_right hplanned hp
    obtain ⟨item, hitem⟩ := (ensures_row rfl rfl _ _ _ _ p hrow).replace i source hreplace
    exact ⟨pair, hpair, p, item, hrow, hreplace, itemOf?_eq_some hitem⟩
  obtain ⟨pair, hpair, p, item, hrow, hreplace, hitem, hkey⟩ := hsite source h
  obtain ⟨pair', hpair', p', item', hrow', hreplace', hitem', hkey'⟩ := hsite source' h'
  -- both records have the key of the item, so they are the same one
  cases hitem.symm.trans hitem'
  have hkeys : pair.1 = pair'.1 := Option.some.inj (hkey.symm.trans hkey')
  have hvalue := OrderedMap.lookup?_of_mem hdistinct hpair
  rw [hkeys, OrderedMap.lookup?_of_mem hdistinct hpair'] at hvalue
  cases Prod.ext hkeys (Option.some.inj hvalue).symm
  cases hrow.symm.trans hrow'
  cases hreplace.symm.trans hreplace'
  rfl

theorem exists_keyedRecordBlock_perm {plan : Plan} (hdistinct : (Content.keyedRecords records).Distinct)
    (hsame : (Content.keyedRecords records).SameMap (.keyedRecords records'))
    (h : (keyedRecordBlock c text locale names records).result = .ok plan) :
    ∃ plan', (keyedRecordBlock c text locale names records').result = .ok plan' ∧ Alike c text locale plan plan' := by
  rw [keyedRecordBlock_eq, Logged.result_bind] at h ⊢
  obtain ⟨found, hfound, h⟩ := Except.bind_eq_ok_iff.1 h
  cases found with
  | none => exact ⟨plan, Except.bind_eq_ok_iff.2 ⟨none, hfound, h⟩, .refl plan⟩
  | some parsed =>
    obtain ⟨between, hperm, hrecords⟩ := hsame
    dsimp only at h
    rw [Logged.result_bind, Logged.result_mapM] at h
    obtain ⟨planned, hplanned, h⟩ := Except.bind_eq_ok_iff.1 h
    obtain ⟨planned', hplanned', hperm'⟩ := Except.exists_mapM_perm hperm hplanned
    have hrows : ∀ p ∈ planned, ∃ site, Row site p := by
      intro p hp
      obtain ⟨pair, -, hrow⟩ := List.Forall₂.exists_of_mem_right (Except.mapM_eq_ok_iff.1 hplanned) hp
      exact ⟨_, ensures_row rfl rfl _ _ _ _ p hrow⟩
    have hrows' : ∀ p ∈ planned', ∃ site, Row site p := fun p hp => hrows p (hperm'.mem_iff.2 hp)
    obtain ⟨hsources, hkeys⟩ := appended_of_rows hrows
    obtain ⟨hsources', hkeys'⟩ := appended_of_rows hrows'
    obtain ⟨plan', hplan', halike⟩ := exists_ofChanges_perm hfound
      (fun i source source' => replace_keyedRow_unique hdistinct.1 (Except.mapM_eq_ok_iff.1 hplanned))
      (hperm'.map _) (hperm'.flatMap_right _) (hperm'.filterMap _) hsources hsources' hkeys hkeys' h
    refine ⟨plan', Except.bind_eq_ok_iff.2 ⟨some parsed, hfound, ?_⟩, halike⟩
    dsimp only
    rw [Logged.result_bind, ← mapM_keyedRow_congr hrecords fun key texts hmem =>
      hdistinct.2 key texts (hperm.mem_iff.2 hmem), Logged.result_mapM]
    exact Except.bind_eq_ok_iff.2 ⟨planned', hplanned', hplan'⟩

end KeyedRows

end Plan

end Bilingual
