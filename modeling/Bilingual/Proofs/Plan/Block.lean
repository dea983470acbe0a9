import Bilingual.Patch.Block
import Bilingual.Proofs.OrderedMap
import Bilingual.Proofs.Plan

set_option autoImplicit false

/-! # When the plan of a block rests

A block is planned as a whole: its plan has one edit as soon as one item gets a new source or one text
becomes a new item. For each kind of block the plan is honest, and it rests exactly when the block can be
read, every literal that a text is bound to stands for that text, and no text is left without an item
(`Plan.rests_dictBlock_iff`, `Plan.rests_recordBlock_iff`, `Plan.rests_keyedRecordBlock_iff`). -/

namespace Bilingual

namespace Plan

/-! ## Carrying out changes -/

theorem length_zipIdx_map {α β : Type} (l : List α) (f : α × Nat → β) :
    (l.zipIdx.map f).length = l.length := by
  rw [List.length_map, List.length_zipIdx]

/-- Changes are always carried out, and there is an edit unless all of them keep what is there. -/
theorem ofChanges_spec (parsed : ParsedBlock) (text : Text) (changes : List ItemChange)
    (entries : List PatchEntry) :
    ∃ plan, ofChanges parsed text changes entries = .ok plan ∧ plan.entries = entries ∧
      (plan.edits = [] ↔ ∀ change ∈ changes, change = .keep) := by
  unfold ofChanges
  by_cases h : changes.all (· = .keep)
  · refine ⟨{ entries }, by rw [if_pos h]; rfl, rfl, iff_of_true rfl ?_⟩
    simpa using h
  -- rendering only fails for a wrong number of sources, and here each item has one
  · have hbody : ∃ body, parsed.renderBody (parsed.items.zipIdx.map fun pair =>
        (changes.findSome? (ItemChange.replaced? pair.2)).getD (pair.1.source text))
        (changes.filterMap ItemChange.appended?) = .ok body := by
      unfold ParsedBlock.renderBody
      rw [if_neg (not_not.2 (length_zipIdx_map _ _))]
      split
      · exact ⟨_, rfl⟩
      · split
        · exact ⟨_, rfl⟩
        · exact ⟨_, rfl⟩
    obtain ⟨body, hbody⟩ := hbody
    refine ⟨{ edits := [⟨parsed.block.bodyStart, parsed.block.bodyEnd, body⟩], entries }, ?_, rfl,
      iff_of_false (by simp) ?_⟩
    · rw [if_neg h]
      exact Except.bind_eq_ok_iff.2 ⟨body, hbody, rfl⟩
    · simpa using h

theorem honestStep_ofChanges {parsed : ParsedBlock} {text : Text} {changes : List ItemChange}
    {entries : List PatchEntry}
    (h : (∀ change ∈ changes, change = .keep) ↔ ∀ entry ∈ entries, entry.status ≠ .updated) :
    HonestStep (liftM (ofChanges parsed text changes entries)) := by
  obtain ⟨plan, hplan, hentries, hedits⟩ := ofChanges_spec parsed text changes entries
  intro found hfound
  rw [Logged.result_lift, hplan] at hfound
  cases hfound
  unfold Honest NoUpdate
  rw [hedits, hentries]
  exact h

theorem rests_ofChanges_iff {parsed : ParsedBlock} {text : Text} {changes : List ItemChange}
    {entries : List PatchEntry}
    (h : (∀ change ∈ changes, change = .keep) ↔ ∀ entry ∈ entries, entry.status ≠ .updated) :
    Rests (liftM (ofChanges parsed text changes entries)) ↔ ∀ change ∈ changes, change = .keep := by
  obtain ⟨plan, hplan, hentries, hedits⟩ := ofChanges_spec parsed text changes entries
  unfold Rests NoUpdate
  rw [Logged.result_lift, hplan]
  constructor
  · rintro ⟨found, hfound, hnil, -⟩
    cases hfound
    exact hedits.1 hnil
  · intro hkeep
    exact ⟨plan, rfl, hedits.2 hkeep, hentries ▸ h.1 hkeep⟩

/-! ## Entries -/

/-- The text that an item's key is bound to. -/
def boundText? (texts : FlatMap) (item : BlockItem) : Option Text :=
  item.key?.bind fun key => (texts.lookup? key.value).join

theorem replaceEntry?_eq_none_iff {text : Text} {item : BlockItem} {texts : FlatMap} :
    replaceEntry? text item texts = .ok none ↔
      ∀ l value, item.literal? = some l → boundText? texts item = some value → l.value = .ok value := by
  unfold replaceEntry? boundText?
  cases item.key? with
  | none => exact iff_of_true rfl (by simp)
  | some key =>
    cases item.literal? with
    | none => exact iff_of_true rfl (by simp)
    | some l =>
      dsimp only [Option.bind]
      cases (texts.lookup? key.value).join with
      | none => exact iff_of_true rfl (by simp)
      | some value =>
        dsimp only
        rw [Except.bind_eq_ok_iff]
        constructor
        · rintro ⟨current, hcurrent, h⟩ l' value' hl hvalue
          cases hl
          cases hvalue
          split at h
          · next heq => rw [hcurrent, heq]
          · obtain ⟨source, -, h⟩ := Except.bind_eq_ok_iff.1 h
            cases h
        · intro h
          refine ⟨value, h l value rfl rfl, ?_⟩
          rw [if_pos rfl]
          rfl

/-- An item with a new source has a key, and a text is bound to it. -/
theorem boundText?_of_replaceEntry? {text : Text} {item : BlockItem} {texts : FlatMap} {source : Text}
    (h : replaceEntry? text item texts = .ok (some source)) :
    ∃ value, boundText? texts item = some value := by
  by_contra hnone
  have hrest : replaceEntry? text item texts = .ok none :=
    replaceEntry?_eq_none_iff.2 fun _ value _ hvalue => absurd ⟨value, hvalue⟩ hnone
  rw [hrest] at h
  cases h

/-- The keys of the items of a block. -/
def existingKeys (parsed : ParsedBlock) : List Text :=
  parsed.items.filterMap fun item => item.key?.map ItemKey.value

theorem exists_of_mem_existingKeys {parsed : ParsedBlock} {key : Text} :
    key ∈ existingKeys parsed ↔ ∃ item ∈ parsed.items, ∃ k, item.key? = some k ∧ k.value = key := by
  unfold existingKeys
  rw [List.mem_filterMap]
  refine exists_congr fun item => and_congr_right fun _ => ?_
  rw [Option.map_eq_some_iff]

/-- What the texts of a block of entries do to it, given the new sources of its items. -/
def entryChanges (parsed : ParsedBlock) (texts : FlatMap) (replaced : List (Option Text)) :
    List ItemChange :=
  (replaced.zipIdx.filterMap fun (source, index) => source.map (ItemChange.replace index)) ++
    texts.filterMap fun (key, value) =>
      if (existingKeys parsed).contains key then none
      else value.map fun value => ItemChange.append (parsed.renderEntry key value)

/-- The keys of the items that get a new source. -/
def updatedKeys (parsed : ParsedBlock) (replaced : List (Option Text)) : List Text :=
  (parsed.items.zip replaced).filterMap fun (item, source) =>
    if source.isSome then item.key?.map ItemKey.value else none

/-- The entries that report the texts of a block of entries. -/
def entryReports (c : Category) (parsed : ParsedBlock) (texts : FlatMap)
    (replaced : List (Option Text)) : List PatchEntry :=
  texts.map fun (key, value) =>
    let isNew := value.isSome && !(existingKeys parsed).contains key
    { category := c.name
      status :=
        if value.isNone then .skipped
        else if (updatedKeys parsed replaced).contains key || isNew then .updated else .unchanged
      key := some key
      detail := if isNew then some "appended" else none : PatchEntry }

theorem dictBlock_eq (c : Category) (text locale : Text) (given : FlatMap) (merged : List FlatMap) :
    dictBlock c text locale given merged = (do
      match ← c.parsedBlock text locale with
      | none => notFound { category := c.name, status := .notFound }
      | some parsed =>
        let replaced ← parsed.items.mapM fun item => replaceEntry? text item (overlay given merged)
        ofChanges parsed text (entryChanges parsed (overlay given merged) replaced)
          (entryReports c parsed (overlay given merged) replaced)) := rfl

/-- An item gets a new source exactly if one has been made for it. -/
theorem replace_mem_entryChanges_iff {parsed : ParsedBlock} {texts : FlatMap} {replaced : List (Option Text)} {i : Nat}
    {source : Text} : .replace i source ∈ entryChanges parsed texts replaced ↔ replaced[i]? = some (some source) := by
  unfold entryChanges
  rw [List.mem_append, List.mem_filterMap]
  constructor
  · rintro (⟨⟨found, index⟩, hfound, heq⟩ | happend)
    · obtain ⟨t, rfl, heq⟩ := Option.map_eq_some_iff.1 heq
      cases heq
      exact List.mem_zipIdx_iff_getElem?.1 hfound
    · obtain ⟨⟨key, value⟩, hkey, heq⟩ := List.mem_filterMap.1 happend
      cases value <;> simp at heq
  · intro h
    exact .inl ⟨(some source, i), List.mem_zipIdx_iff_getElem?.2 h, rfl⟩

/-- Nothing is replaced and nothing is appended. -/
theorem entryChanges_keep_iff {parsed : ParsedBlock} {texts : FlatMap} {replaced : List (Option Text)} :
    (∀ change ∈ entryChanges parsed texts replaced, change = .keep) ↔
      (∀ source ∈ replaced, source = none) ∧
        ∀ key value, (key, some value) ∈ texts → key ∈ existingKeys parsed := by
  unfold entryChanges
  rw [List.forall_mem_append]
  refine and_congr ⟨fun h source hsource => ?_, fun h change hchange => ?_⟩
    ⟨fun h key value hmem => ?_, fun h change hchange => ?_⟩
  · obtain ⟨index, hindex⟩ := List.mem_iff_getElem?.1 hsource
    cases source with
    | none => rfl
    | some new =>
      have hmem : (some new, index) ∈ replaced.zipIdx := List.mem_zipIdx_iff_getElem?.2 hindex
      exact absurd (h _ (List.mem_filterMap.2 ⟨_, hmem, rfl⟩)) (by simp)
  · obtain ⟨⟨source, index⟩, hmem, hsome⟩ := List.mem_filterMap.1 hchange
    have hsource : source ∈ replaced :=
      List.mem_iff_getElem?.2 ⟨index, List.mem_zipIdx_iff_getElem?.1 hmem⟩
    rw [h source hsource] at hsome
    cases hsome
  · by_contra hnew
    refine absurd (h (.append (parsed.renderEntry key value))
      (List.mem_filterMap.2 ⟨(key, some value), hmem, ?_⟩)) (by simp)
    show (if (existingKeys parsed).contains key then none else _) = _
    rw [if_neg (by simpa using hnew)]
    rfl
  · obtain ⟨⟨key, value⟩, hmem, hsome⟩ := List.mem_filterMap.1 hchange
    cases value with
    | none => simp at hsome
    | some value =>
      have hkey := h key value hmem
      simp [hkey] at hsome

theorem mem_updatedKeys_iff {parsed : ParsedBlock} {replaced : List (Option Text)} {key : Text} :
    key ∈ updatedKeys parsed replaced ↔
      ∃ item source, (item, some source) ∈ parsed.items.zip replaced ∧
        item.key?.map ItemKey.value = some key := by
  unfold updatedKeys
  rw [List.mem_filterMap]
  constructor
  · rintro ⟨⟨item, source⟩, hmem, hkey⟩
    cases source with
    | none => cases hkey
    | some source => exact ⟨item, source, hmem, hkey⟩
  · rintro ⟨item, source, hmem, hkey⟩
    exact ⟨(item, some source), hmem, hkey⟩

/-- A block of entries is reported as updated exactly if something is done to it. -/
theorem entryChanges_honest {c : Category} {text : Text} {parsed : ParsedBlock} {texts : FlatMap}
    {replaced : List (Option Text)}
    (h : List.Forall₂ (fun item source => replaceEntry? text item texts = .ok source) parsed.items
      replaced) :
    (∀ change ∈ entryChanges parsed texts replaced, change = .keep) ↔
      ∀ entry ∈ entryReports c parsed texts replaced, entry.status ≠ .updated := by
  rw [entryChanges_keep_iff]
  unfold entryReports
  rw [List.forall_mem_map]
  constructor
  · rintro ⟨hnone, hold⟩ ⟨key, value⟩ hmem
    have hkeys : key ∉ updatedKeys parsed replaced := by
      intro hkey
      obtain ⟨item, source, hzip, -⟩ := mem_updatedKeys_iff.1 hkey
      cases hnone _ (List.of_mem_zip hzip).2
    cases value with
    | none => simp
    | some value => simp [hkeys, hold key value hmem]
  · intro hentries
    refine ⟨fun source hsource => ?_, fun key value hmem => ?_⟩
    -- an item with a new source has a key with a text, and the entry of that text tells of it
    · cases source with
      | none => rfl
      | some source =>
        obtain ⟨item, hitem, hzip, hstep⟩ : ∃ item ∈ parsed.items,
            (item, some source) ∈ parsed.items.zip replaced ∧
              replaceEntry? text item texts = .ok (some source) := by
          obtain ⟨index, hindex⟩ := List.mem_iff_getElem?.1 hsource
          obtain ⟨item, hitem⟩ : ∃ item, parsed.items[index]? = some item := by
            have hlt : index < parsed.items.length := by
              rw [h.length_eq]
              exact (List.getElem?_eq_some_iff.1 hindex).1
            exact ⟨_, List.getElem?_eq_getElem hlt⟩
          have hzip : (item, some source) ∈ parsed.items.zip replaced :=
            List.mem_iff_getElem?.2 ⟨index, by
              rw [List.getElem?_zip_eq_some]
              exact ⟨hitem, hindex⟩⟩
          exact ⟨item, (List.of_mem_zip hzip).1, hzip, List.forall₂_zip h hzip⟩
        obtain ⟨value, hbound⟩ := boundText?_of_replaceEntry? hstep
        unfold boundText? at hbound
        obtain ⟨k, hk, hvalue⟩ := Option.bind_eq_some_iff.1 hbound
        have hmem : (k.value, some value) ∈ texts :=
          OrderedMap.mem_of_lookup? (Option.join_eq_some_iff.1 hvalue)
        have hkey : k.value ∈ updatedKeys parsed replaced :=
          mem_updatedKeys_iff.2 ⟨item, source, hzip, by rw [hk]; rfl⟩
        exact absurd (by simp [hkey]) (hentries _ hmem)
    · by_contra hnew
      exact absurd (by simp [hnew]) (hentries _ hmem)

theorem honestStep_dictBlock (c : Category) (text locale : Text) (given : FlatMap)
    (merged : List FlatMap) : HonestStep (dictBlock c text locale given merged) := by
  rw [dictBlock_eq]
  refine honestStep_bind fun found _ => ?_
  cases found with
  | none => exact honestStep_notFound _
  | some parsed =>
    refine honestStep_bind fun replaced hreplaced => honestStep_ofChanges ?_
    rw [Logged.result_mapM] at hreplaced
    exact entryChanges_honest (Except.mapM_eq_ok_iff.1 hreplaced)

theorem rests_dictBlock_iff {c : Category} {text locale : Text} {given : FlatMap}
    {merged : List FlatMap} :
    Rests (dictBlock c text locale given merged) ↔
      ∃ found, c.parsedBlock text locale = .ok found ∧ ∀ parsed, found = some parsed →
        (∀ item ∈ parsed.items, ∀ l value, item.literal? = some l →
          boundText? (overlay given merged) item = some value → l.value = .ok value) ∧
        ∀ key value, (key, some value) ∈ overlay given merged → key ∈ existingKeys parsed := by
  rw [dictBlock_eq, rests_bind_iff]
  refine exists_congr fun found => and_congr_right fun _ => ?_
  cases found with
  | none => exact iff_of_true (rests_notFound _) (by simp)
  | some parsed =>
    show Rests ((parsed.items.mapM fun item => _) >>= _) ↔ _
    rw [rests_bind_iff, Logged.result_mapM]
    constructor
    · rintro ⟨replaced, hreplaced, hrest⟩ parsed' hparsed
      cases hparsed
      have hstep := Except.mapM_eq_ok_iff.1 hreplaced
      obtain ⟨hnone, hold⟩ :=
        entryChanges_keep_iff.1 ((rests_ofChanges_iff (entryChanges_honest hstep)).1 hrest)
      refine ⟨fun item hitem => ?_, hold⟩
      obtain ⟨source, hsource, heq⟩ := List.Forall₂.exists_of_mem_left hstep hitem
      rw [hnone source hsource] at heq
      exact replaceEntry?_eq_none_iff.1 heq
    · intro h
      obtain ⟨hitems, hold⟩ := h parsed rfl
      have hreplaced : (parsed.items.mapM fun item => replaceEntry? text item (overlay given merged))
          = .ok (parsed.items.map fun _ => none) :=
        Except.mapM_eq_ok_map fun item hitem => replaceEntry?_eq_none_iff.2 (hitems item hitem)
      refine ⟨_, hreplaced, ?_⟩
      rw [rests_ofChanges_iff (entryChanges_honest (Except.mapM_eq_ok_iff.1 hreplaced)),
        entryChanges_keep_iff]
      exact ⟨by simp, hold⟩

end Plan

end Bilingual
