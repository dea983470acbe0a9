import Bilingual.Proofs.Plan.Block

set_option autoImplicit false

/-! # When the plan of a block of records rests

A record is planned field by field for an existing item, and as a whole for a new one. What a record does
to the block is honest as well: it keeps the block as it is exactly if none of its entries reports an
update. From this the blocks of records, of literals and of keyed records follow alike. -/

namespace Bilingual

namespace Plan

/-! ## Fields of an existing record -/

theorem recordField_honest {entry : PatchEntry} {site : Option LiteralSpan} {value : Option Text}
    {replacement : Option (LiteralSpan × Text)} {entries : List PatchEntry}
    (h : (recordField entry site value).result = .ok (replacement, entries)) :
    replacement = none ↔ ∀ e ∈ entries, e.status ≠ .updated := by
  unfold recordField at h
  match value, site with
  | none, _ =>
    cases h
    simp
  | some value, none =>
    cases h
    simp [report]
  | some value, some l =>
    rw [Logged.result_bind, Logged.result_lift] at h
    obtain ⟨current, -, h⟩ := Except.bind_eq_ok_iff.1 h
    split at h
    · cases h
      simp
    · cases h
      simp

/-- A field needs no replacement exactly if its literal stands for its text. -/
theorem recordField_rests_iff {entry : PatchEntry} {site : Option LiteralSpan} {value : Option Text} :
    (∃ entries, (recordField entry site value).result = .ok (none, entries)) ↔
      ∀ v l, value = some v → site = some l → l.value = .ok v := by
  unfold recordField
  match value, site with
  | none, _ => exact iff_of_true ⟨_, rfl⟩ (by simp)
  | some value, none => exact iff_of_true ⟨_, rfl⟩ (by simp)
  | some value, some l =>
    show (∃ entries, ((liftM l.value : Logged Failure Text) >>= fun current => _).result = _) ↔ _
    rw [Logged.result_bind, Logged.result_lift]
    constructor
    · rintro ⟨entries, h⟩ v l' hv hl
      cases hv
      cases hl
      obtain ⟨current, hcurrent, h⟩ := Except.bind_eq_ok_iff.1 h
      split at h
      · next heq => rw [hcurrent, heq]
      · cases h
    · intro h
      rw [h value l rfl rfl]
      refine ⟨[{ entry with status := .unchanged }], ?_⟩
      show (if value = value then _ else _ : Logged Failure _).result = _
      rw [if_pos rfl]
      rfl

theorem distinctLiterals_eq_nil_iff {l : List (LiteralSpan × Text)} : distinctLiterals l = [] ↔ l = [] := by
  cases l with
  | nil => simp [distinctLiterals]
  | cons pair rest => simp [distinctLiterals]

/-! ## Records -/

/-- Every literal of an item that a text of the record is bound to stands for that text. -/
def RecordSettled (c : Category) (names : List Text) (record : FlatMap) (item : BlockItem) : Prop :=
  ∀ name ∈ names, ∀ value l, (record.lookup? name).join = some value → siteIn? c item name = some l →
    l.value = .ok value

theorem existingRecord_result (c : Category) (text : Text) (entry : PatchEntry) (names : List Text)
    (record : FlatMap) (index : Nat) (item : BlockItem) :
    (existingRecord c text entry names record index item).result = do
      let planned ← names.mapM fun name =>
        (recordField { entry with field := some name } (siteIn? c item name)
          (record.lookup? name).join).result
      match distinctLiterals (planned.filterMap Prod.fst) with
      | [] => return (.keep, planned.flatMap Prod.snd)
      | replacements =>
        return (.replace index (← item.withLiterals text replacements), planned.flatMap Prod.snd) := by
  unfold existingRecord
  rw [Logged.result_bind, Logged.result_mapM]
  congr 1
  funext planned
  dsimp only
  cases distinctLiterals (planned.filterMap Prod.fst) with
  | nil => rfl
  | cons pair rest =>
    show ((liftM (item.withLiterals text (pair :: rest)) : Logged Failure Text) >>= _).result = _
    rw [Logged.result_bind]
    rfl

theorem existingRecord_honest {c : Category} {text : Text} {entry : PatchEntry} {names : List Text}
    {record : FlatMap} {index : Nat} {item : BlockItem} {change : ItemChange}
    {entries : List PatchEntry}
    (h : (existingRecord c text entry names record index item).result = .ok (change, entries)) :
    change = .keep ↔ ∀ e ∈ entries, e.status ≠ .updated := by
  rw [existingRecord_result] at h
  obtain ⟨planned, hplanned, h⟩ := Except.bind_eq_ok_iff.1 h
  have hfields : ∀ p ∈ planned, p.1 = none ↔ ∀ e ∈ p.2, e.status ≠ .updated := by
    intro p hp
    obtain ⟨name, -, hname⟩ := List.Forall₂.exists_of_mem_right (Except.mapM_eq_ok_iff.1 hplanned) hp
    exact recordField_honest hname
  have hentries : (∀ e ∈ planned.flatMap Prod.snd, e.status ≠ .updated) ↔
      planned.filterMap Prod.fst = [] := by
    rw [List.filterMap_eq_nil_iff]
    constructor
    · intro h p hp
      exact (hfields p hp).2 fun e he => h e (List.mem_flatMap.2 ⟨p, hp, he⟩)
    · intro h e he
      obtain ⟨p, hp, he⟩ := List.mem_flatMap.1 he
      exact (hfields p hp).1 (h p hp) e he
  split at h
  · next hnil =>
    cases h
    exact iff_of_true rfl (hentries.2 (distinctLiterals_eq_nil_iff.1 hnil))
  · next hcons =>
    obtain ⟨source, -, h⟩ := Except.bind_eq_ok_iff.1 h
    cases h
    refine iff_of_false (by simp) fun hnone => hcons ?_
    exact distinctLiterals_eq_nil_iff.2 (hentries.1 hnone)

theorem existingRecord_rests_iff {c : Category} {text : Text} {entry : PatchEntry} {names : List Text}
    {record : FlatMap} {index : Nat} {item : BlockItem} :
    (∃ entries, (existingRecord c text entry names record index item).result = .ok (.keep, entries)) ↔
      RecordSettled c names record item := by
  rw [existingRecord_result]
  constructor
  · rintro ⟨entries, h⟩ name hname value l hvalue hl
    obtain ⟨planned, hplanned, h⟩ := Except.bind_eq_ok_iff.1 h
    obtain ⟨p, hp, hstep⟩ := List.Forall₂.exists_of_mem_left (Except.mapM_eq_ok_iff.1 hplanned) hname
    have hnone : p.1 = none := by
      split at h
      · next hnil =>
        exact List.filterMap_eq_nil_iff.1 (distinctLiterals_eq_nil_iff.1 hnil) p hp
      · obtain ⟨source, -, h⟩ := Except.bind_eq_ok_iff.1 h
        cases h
    -- whether a field needs a replacement does not depend on the entries of the others
    have hrest : ∃ entries, (recordField { entry with field := some name } (siteIn? c item name)
        (record.lookup? name).join).result = .ok (none, entries) :=
      ⟨p.2, by rw [hstep, ← hnone]⟩
    exact recordField_rests_iff.1 hrest value l hvalue hl
  · intro h
    have hfields : ∀ name ∈ names, ∃ p : Option (LiteralSpan × Text) × List PatchEntry,
        (recordField { entry with field := some name } (siteIn? c item name)
          (record.lookup? name).join).result = .ok p ∧ p.1 = none := by
      intro name hname
      obtain ⟨entries, hentries⟩ := recordField_rests_iff.2 fun value l => h name hname value l
      exact ⟨(none, entries), hentries, rfl⟩
    obtain ⟨planned, hplanned, hnone⟩ := Except.exists_mapM_of_forall hfields
    have hnil : planned.filterMap Prod.fst = [] := List.filterMap_eq_nil_iff.2 hnone
    refine ⟨planned.flatMap Prod.snd, Except.bind_eq_ok_iff.2 ⟨planned, hplanned, ?_⟩⟩
    rw [hnil]
    rfl

theorem record_honest {c : Category} {text : Text} {entry : PatchEntry} {names : List Text}
    {given : Option FlatMap} {site : Option (Nat × BlockItem)} {render : List (Text × Text) → Text}
    {change : ItemChange} {entries : List PatchEntry}
    (h : (record c text entry names given site render).result = .ok (change, entries)) :
    change = .keep ↔ ∀ e ∈ entries, e.status ≠ .updated := by
  unfold record at h
  match given, site with
  | none, _ =>
    cases h
    simp
  | some texts, some (index, item) => exact existingRecord_honest h
  | some texts, none =>
    change Except.ok (newRecord entry names texts render) = _ at h
    unfold newRecord at h
    cases hcomplete : completeTexts? texts names with
    | none =>
      rw [hcomplete] at h
      cases h
      simp
    | some complete =>
      rw [hcomplete] at h
      cases h
      simp

/-- A record leaves a block as it is: it is missing, its item holds its texts already, or it has no item
and is not complete. -/
def RecordRests (c : Category) (names : List Text) (given : Option FlatMap)
    (site : Option (Nat × BlockItem)) : Prop :=
  ∀ texts, given = some texts →
    (∀ index item, site = some (index, item) → RecordSettled c names texts item) ∧
      (site = none → completeTexts? texts names = none)

theorem record_rests_iff {c : Category} {text : Text} {entry : PatchEntry} {names : List Text}
    {given : Option FlatMap} {site : Option (Nat × BlockItem)} {render : List (Text × Text) → Text} :
    (∃ entries, (record c text entry names given site render).result = .ok (.keep, entries)) ↔
      RecordRests c names given site := by
  unfold record RecordRests
  match given, site with
  | none, _ => exact iff_of_true ⟨_, rfl⟩ (by simp)
  | some texts, some (index, item) =>
    show (∃ entries, (existingRecord c text entry names texts index item).result = _) ↔ _
    rw [existingRecord_rests_iff]
    simp
  | some texts, none =>
    show (∃ entries, Except.ok (newRecord entry names texts render) = _) ↔ _
    unfold newRecord
    cases hcomplete : completeTexts? texts names with
    | none => simp [hcomplete]
    | some complete => simp [hcomplete]

/-! ## Records in a row -/

section Rows

variable {α : Type} {things : List α} {plan : α → Logged Failure (ItemChange × List PatchEntry)}
  {parsed : ParsedBlock} {text : Text}

/-- Records in a row are reported as updated exactly if one of them does something. -/
theorem planned_honest {planned : List (ItemChange × List PatchEntry)}
    (h : ∀ p ∈ planned, p.1 = .keep ↔ ∀ e ∈ p.2, e.status ≠ .updated) :
    (∀ change ∈ planned.map Prod.fst, change = .keep) ↔
      ∀ entry ∈ planned.flatMap Prod.snd, entry.status ≠ .updated := by
  rw [List.forall_mem_map]
  constructor
  · intro hkeep entry hentry
    obtain ⟨p, hp, hentry⟩ := List.mem_flatMap.1 hentry
    exact (h p hp).1 (hkeep p hp) entry hentry
  · intro hentries p hp
    exact (h p hp).2 fun e he => hentries e (List.mem_flatMap.2 ⟨p, hp, he⟩)

/-- What a step does to the block it reports. -/
def HonestChange (step : Logged Failure (ItemChange × List PatchEntry)) : Prop :=
  ∀ change entries, step.result = .ok (change, entries) →
    (change = .keep ↔ ∀ e ∈ entries, e.status ≠ .updated)

theorem honest_of_mapM (h : ∀ a ∈ things, HonestChange (plan a))
    {planned : List (ItemChange × List PatchEntry)} (hplanned : (things.mapM plan).result = .ok planned) :
    ∀ p ∈ planned, p.1 = .keep ↔ ∀ e ∈ p.2, e.status ≠ .updated :=
  Logged.ensures_mapM (fun a ha p => h a ha p.1 p.2) planned hplanned

theorem honestStep_rows (h : ∀ a ∈ things, HonestChange (plan a)) :
    HonestStep (things.mapM plan >>= fun planned =>
      liftM (ofChanges parsed text (planned.map Prod.fst) (planned.flatMap Prod.snd))) :=
  honestStep_bind fun _ hplanned => honestStep_ofChanges (planned_honest (honest_of_mapM h hplanned))

/-- Records in a row leave the block as it is exactly if every one of them does. -/
theorem rests_rows_iff (h : ∀ a ∈ things, HonestChange (plan a)) :
    Rests (things.mapM plan >>= fun planned =>
      liftM (ofChanges parsed text (planned.map Prod.fst) (planned.flatMap Prod.snd))) ↔
      ∀ a ∈ things, ∃ entries, (plan a).result = .ok (.keep, entries) := by
  rw [rests_bind_iff]
  constructor
  · rintro ⟨planned, hplanned, hrest⟩ a ha
    rw [rests_ofChanges_iff (planned_honest (honest_of_mapM h hplanned)), List.forall_mem_map] at hrest
    rw [Logged.result_mapM] at hplanned
    obtain ⟨p, hp, hstep⟩ := List.Forall₂.exists_of_mem_left (Except.mapM_eq_ok_iff.1 hplanned) ha
    refine ⟨p.2, ?_⟩
    rw [hstep, ← hrest p hp]
  · intro hkeep
    obtain ⟨planned, hplanned, hrest⟩ := Except.exists_mapM_of_forall
      (P := fun p : ItemChange × List PatchEntry => p.1 = .keep) fun a ha =>
        (hkeep a ha).imp' (Prod.mk ItemChange.keep) fun _ hentries => ⟨hentries, rfl⟩
    have hresult : (things.mapM plan).result = .ok planned := by
      rw [Logged.result_mapM]
      exact hplanned
    refine ⟨planned, hresult, ?_⟩
    rw [rests_ofChanges_iff (planned_honest (honest_of_mapM h hresult)), List.forall_mem_map]
    exact hrest

end Rows

/-! ## Blocks of records -/

theorem honestStep_recordBlock (c : Category) (text locale : Text) (names : List Text)
    (records : List (Option FlatMap)) : HonestStep (recordBlock c text locale names records) := by
  refine honestStep_bind fun found _ => ?_
  cases found with
  | none => exact honestStep_notFound _
  | some parsed => exact honestStep_rows fun _ _ _ _ h => record_honest h

theorem rests_recordBlock_iff {c : Category} {text locale : Text} {names : List Text}
    {records : List (Option FlatMap)} :
    Rests (recordBlock c text locale names records) ↔
      ∃ found, c.parsedBlock text locale = .ok found ∧ ∀ parsed, found = some parsed →
        ∀ i given, records[i]? = some given →
          RecordRests c names given (parsed.items[i]?.map (i, ·)) := by
  unfold recordBlock
  rw [rests_bind_iff]
  refine exists_congr fun found => and_congr_right fun _ => ?_
  cases found with
  | none => exact iff_of_true (rests_notFound _) (by simp)
  | some parsed =>
    refine (rests_rows_iff fun _ _ _ _ h => record_honest h).trans ?_
    constructor
    · intro h parsed' hparsed i given hgiven
      cases hparsed
      exact record_rests_iff.1 (h (given, i) (List.mem_zipIdx_iff_getElem?.2 hgiven))
    · rintro h ⟨given, i⟩ hmem
      exact record_rests_iff.2 (h parsed rfl i given (List.mem_zipIdx_iff_getElem?.1 hmem))

theorem honestStep_keyedRecordBlock (c : Category) (text locale : Text) (names : List Text)
    (records : OrderedMap (Option FlatMap)) :
    HonestStep (keyedRecordBlock c text locale names records) := by
  refine honestStep_bind fun found _ => ?_
  cases found with
  | none => exact honestStep_notFound _
  | some parsed => exact honestStep_rows fun _ _ _ _ h => record_honest h

theorem rests_keyedRecordBlock_iff {c : Category} {text locale : Text} {names : List Text}
    {records : OrderedMap (Option FlatMap)} :
    Rests (keyedRecordBlock c text locale names records) ↔
      ∃ found, c.parsedBlock text locale = .ok found ∧ ∀ parsed, found = some parsed →
        ∀ key given, (key, given) ∈ records → RecordRests c names given (itemOf? parsed key) := by
  unfold keyedRecordBlock
  rw [rests_bind_iff]
  refine exists_congr fun found => and_congr_right fun _ => ?_
  cases found with
  | none => exact iff_of_true (rests_notFound _) (by simp)
  | some parsed =>
    refine (rests_rows_iff fun _ _ _ _ h => record_honest h).trans ?_
    constructor
    · intro h parsed' hparsed key given hmem
      cases hparsed
      exact record_rests_iff.1 (h (key, given) hmem)
    · rintro h ⟨key, given⟩ hmem
      exact record_rests_iff.2 (h parsed rfl key given hmem)

end Plan

end Bilingual
