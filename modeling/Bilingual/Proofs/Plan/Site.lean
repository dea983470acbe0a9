import Bilingual.Proofs.Plan

set_option autoImplicit false

/-! # When the plan of single sites rests

For each kind of category that is patched site by site: its plan is honest, and it rests exactly when its
sites can be read and every site that a text is bound to stands for that text. Which text is bound to which
site is said without the plan: by number for pairs (`Plan.rests_pairs_iff`), by the key at the site for
keyed pairs and choices (`Plan.rests_keyed_iff`), by name or key for scalar fields and documents
(`Plan.rests_scalarFields_iff`, `Plan.rests_documents_iff`). -/

namespace Bilingual

/-! ## One literal -/

/-- No edit is needed exactly if the literal stands for the text already. -/
theorem LiteralSpan.editTo?_eq_none_iff {l : LiteralSpan} {value : Text} :
    l.editTo? value = .ok none ↔ l.value = .ok value := by
  unfold LiteralSpan.editTo?
  rw [Except.bind_eq_ok_iff]
  constructor
  · rintro ⟨current, hcurrent, h⟩
    split at h
    · next heq => rw [hcurrent, heq]
    · cases h
  · intro h
    refine ⟨value, h, ?_⟩
    rw [if_pos rfl]
    rfl

namespace Plan

theorem honestStep_literal (entry : PatchEntry) (site : Option LiteralSpan) (value : Option Text) :
    HonestStep (literal entry site value) := by
  unfold literal
  match value, site with
  | none, _ => exact honestStep_pure (honest_report (by simp))
  | some _, none => exact honestStep_notFound entry
  | some value, some l => exact honestStep_bind fun edit _ => honestStep_pure (honest_ofEdits entry _)

theorem rests_literal_iff {entry : PatchEntry} {site : Option LiteralSpan} {value : Option Text} :
    Rests (literal entry site value) ↔
      ∀ v l, value = some v → site = some l → l.value = .ok v := by
  unfold literal
  match value, site with
  | none, site =>
    refine iff_of_true ?_ (by simp)
    exact rests_pure_report_iff.2 (by simp)
  | some v, none => exact iff_of_true (rests_notFound entry) (by simp)
  | some v, some l =>
    rw [rests_bind_iff]
    constructor
    · rintro ⟨edit, hedit, hrest⟩ v' l' hv hl
      cases hv
      cases hl
      rw [rests_pure_ofEdits_iff, Option.toList_eq_nil_iff] at hrest
      rw [hrest] at hedit
      exact LiteralSpan.editTo?_eq_none_iff.1 hedit
    · intro h
      exact ⟨none, LiteralSpan.editTo?_eq_none_iff.2 (h v l rfl rfl), rests_pure_ofEdits_iff.2 rfl⟩

/-! ## Pairs -/

theorem honestStep_pairField (c : Category) (field : PairField) (occurrences : List Occurrence)
    (records : List (Option FlatMap)) : HonestStep (pairField c field occurrences records) :=
  honestStep_forEach fun _ _ => honestStep_literal _ _ _

theorem honestStep_pairs (c : Category) (text : Text) (locales : Locales) (fields : List PairField)
    (records : List (Option FlatMap)) : HonestStep (pairs c text locales fields records) :=
  honestStep_forEach fun _ _ => honestStep_bind fun _ _ => honestStep_pairField _ _ _ _

/-- The text that records bind to the occurrence number `i` of a field. -/
def recordText? (records : List (Option FlatMap)) (i : Nat) (name : Text) : Option Text :=
  records[i]?.join.bind fun texts => (texts.lookup? name).join

theorem rests_pairField_iff {c : Category} {field : PairField} {occurrences : List Occurrence}
    {records : List (Option FlatMap)} :
    Rests (pairField c field occurrences records) ↔
      ∀ i value o, recordText? records i field.name = some value → occurrences[i]? = some o →
        o.secondary.value = .ok value := by
  unfold pairField
  rw [rests_forEach_iff]
  constructor
  · intro h i value o hvalue ho
    unfold recordText? at hvalue
    cases hrecord : records[i]? with
    | none =>
      rw [hrecord] at hvalue
      cases hvalue
    | some record =>
      rw [hrecord] at hvalue
      have hmem : (record, i) ∈ records.zipIdx := List.mem_zipIdx_iff_getElem?.2 hrecord
      exact rests_literal_iff.1 (h _ hmem) value o.secondary hvalue (by simp [ho])
  · rintro h ⟨record, i⟩ hmem
    have hrecord : records[i]? = some record := List.mem_zipIdx_iff_getElem?.1 hmem
    refine rests_literal_iff.2 fun value l hvalue hl => ?_
    obtain ⟨o, ho, rfl⟩ := Option.map_eq_some_iff.1 hl
    refine h i value o ?_ ho
    unfold recordText?
    rw [hrecord]
    exact hvalue

theorem rests_pairs_iff {c : Category} {text : Text} {locales : Locales} {fields : List PairField}
    {records : List (Option FlatMap)} :
    Rests (pairs c text locales fields records) ↔
      ∀ field ∈ fields, ∃ occurrences, c.occurrences text (field.pattern locales) = .ok occurrences ∧
        ∀ i value o, recordText? records i field.name = some value → occurrences[i]? = some o →
          o.secondary.value = .ok value := by
  unfold pairs
  rw [rests_forEach_iff]
  refine forall₂_congr fun field _ => ?_
  rw [rests_bind_iff]
  exact exists_congr fun occurrences => and_congr_right fun _ => rests_pairField_iff

/-! ## Keyed pairs and choices -/

/-- The key that an occurrence goes by, if it can be decoded. -/
def keyAt? (o : Occurrence) : Option Text := o.keyLiteral.value.toOption

theorem keyAt?_eq_some_iff {o : Occurrence} {key : Text} :
    keyAt? o = some key ↔ o.keyLiteral.value = .ok key := Except.toOption_eq_some_iff

theorem filterAuxM_keys {key : Text} {occurrences kept found : List Occurrence} :
    occurrences.filterAuxM (fun o => do return decide ((← o.keyLiteral.value) = key)) kept = .ok found ↔
      (∀ o ∈ occurrences, ∃ k, o.keyLiteral.value = .ok k) ∧
        found = (occurrences.filter fun o => decide (keyAt? o = some key)).reverse ++ kept := by
  induction occurrences generalizing kept with
  | nil =>
    constructor
    · intro h
      cases h
      exact ⟨by simp, rfl⟩
    · rintro ⟨-, rfl⟩
      rfl
  | cons o rest ih =>
    rw [List.filterAuxM]
    cases ho : o.keyLiteral.value with
    | error failure =>
      refine iff_of_false (fun h => ?_) (fun h => ?_)
      · cases h
      · obtain ⟨k, hk⟩ := h.1 o (List.mem_cons_self ..)
        rw [ho] at hk
        cases hk
    | ok k =>
      have hkey : keyAt? o = some k := keyAt?_eq_some_iff.2 ho
      have hhead : ∃ k, o.keyLiteral.value = .ok k := ⟨k, ho⟩
      -- a key that can be decoded is kept or dropped, and the rest is gone through as before
      show rest.filterAuxM (fun o => do return decide ((← o.keyLiteral.value) = key))
        (cond (decide (k = key)) (o :: kept) kept) = Except.ok found ↔ _
      rw [ih, List.forall_mem_cons, and_iff_right hhead]
      by_cases h : k = key
      · simp [hkey, h]
      · simp [hkey, h]

/-- The occurrences of a key are found when every key can be decoded. -/
theorem occurrencesOf_eq_ok_iff {key : Text} {occurrences found : List Occurrence} :
    occurrencesOf key occurrences = .ok found ↔
      (∀ o ∈ occurrences, ∃ k, o.keyLiteral.value = .ok k) ∧
        found = occurrences.filter fun o => decide (keyAt? o = some key) := by
  unfold occurrencesOf List.filterM
  rw [Except.bind_eq_ok_iff]
  constructor
  · rintro ⟨reversed, hreversed, h⟩
    obtain ⟨hkeys, rfl⟩ := filterAuxM_keys.1 hreversed
    refine ⟨hkeys, ?_⟩
    rw [← Except.ok.inj h, List.append_nil, List.reverse_reverse]
  · rintro ⟨hkeys, rfl⟩
    refine ⟨_, filterAuxM_keys.2 ⟨hkeys, rfl⟩, ?_⟩
    rw [List.append_nil, List.reverse_reverse]
    rfl

/-- No edit is needed at any of some occurrences exactly if all of them stand for the text already. -/
theorem rests_matching_iff {entry : PatchEntry} {matching : List Occurrence} {value : Text} :
    Rests ((matching.mapM fun o => (liftM (o.secondary.editTo? value) : Logged Failure _)) >>= fun edits =>
      pure (ofEdits entry (edits.filterMap id))) ↔ ∀ o ∈ matching, o.secondary.value = Except.ok value := by
  rw [rests_bind_iff, Logged.result_mapM]
  constructor
  · rintro ⟨edits, hedits, hrest⟩ o ho
    rw [rests_pure_ofEdits_iff, List.filterMap_eq_nil_iff] at hrest
    obtain ⟨edit, hedit, hstep⟩ := List.Forall₂.exists_of_mem_left (Except.mapM_eq_ok_iff.1 hedits) ho
    rw [show edit = none from hrest edit hedit] at hstep
    exact LiteralSpan.editTo?_eq_none_iff.1 hstep
  · intro h
    refine ⟨matching.map fun _ => none, Except.mapM_eq_ok_map fun o ho =>
      LiteralSpan.editTo?_eq_none_iff.2 (h o ho), ?_⟩
    rw [rests_pure_ofEdits_iff, List.filterMap_eq_nil_iff]
    simp

theorem honestStep_keyed (c : Category) (text : Text) (pattern : Pattern) (texts : FlatMap) :
    HonestStep (keyed c text pattern texts) := by
  refine honestStep_bind fun occurrences _ => honestStep_forEach fun pair _ => ?_
  obtain ⟨key, value⟩ := pair
  cases value with
  | none => exact honestStep_pure (honest_report (by simp))
  | some value =>
    refine honestStep_bind fun matching _ => ?_
    cases matching with
    | nil => exact honestStep_notFound _
    | cons o rest => exact honestStep_bind fun edits _ => honestStep_pure (honest_ofEdits _ _)

theorem rests_keyed_iff {c : Category} {text : Text} {pattern : Pattern} {texts : FlatMap} :
    Rests (keyed c text pattern texts) ↔
      ∃ occurrences, c.occurrences text pattern = .ok occurrences ∧
        ∀ key value, (key, some value) ∈ texts → ∀ o ∈ occurrences,
          ∃ k, o.keyLiteral.value = .ok k ∧ (k = key → o.secondary.value = .ok value) := by
  unfold keyed
  rw [rests_bind_iff]
  refine exists_congr fun occurrences => and_congr_right fun _ => ?_
  rw [rests_forEach_iff]
  constructor
  · intro h key value hmem
    obtain ⟨matching, hmatching, hrest⟩ := rests_bind_iff.1 (h _ hmem)
    obtain ⟨hkeys, rfl⟩ := occurrencesOf_eq_ok_iff.1 hmatching
    intro o ho
    obtain ⟨k, hk⟩ := hkeys o ho
    refine ⟨k, hk, fun hkey => ?_⟩
    have hfound : o ∈ occurrences.filter fun o => decide (keyAt? o = some key) :=
      List.mem_filter.2 ⟨ho, decide_eq_true (keyAt?_eq_some_iff.2 (hkey ▸ hk))⟩
    -- the plan tells a key without occurrences apart
    generalize occurrences.filter (fun o => decide (keyAt? o = some key)) = matching at hrest hfound
    cases matching with
    | nil => cases hfound
    | cons first rest => exact rests_matching_iff.1 hrest o hfound
  · rintro h ⟨key, value⟩ hmem
    cases value with
    | none => exact rests_pure_report_iff.2 (by simp)
    | some value =>
      have hkeys : ∀ o ∈ occurrences, ∃ k, o.keyLiteral.value = .ok k := fun o ho =>
        (h key value hmem o ho).imp fun _ => And.left
      refine rests_bind_iff.2 ⟨_, occurrencesOf_eq_ok_iff.2 ⟨hkeys, rfl⟩, ?_⟩
      have hsettled : ∀ o ∈ occurrences.filter fun o => decide (keyAt? o = some key),
          o.secondary.value = .ok value := by
        intro o ho
        obtain ⟨ho, hkey⟩ := List.mem_filter.1 ho
        obtain ⟨k, hk, hvalue⟩ := h key value hmem o ho
        have hkey : o.keyLiteral.value = .ok key := keyAt?_eq_some_iff.1 (of_decide_eq_true hkey)
        exact hvalue (Except.ok.inj (hk.symm.trans hkey))
      generalize occurrences.filter (fun o => decide (keyAt? o = some key)) = matching at hsettled
      cases matching with
      | nil => exact rests_notFound _
      | cons first rest => exact rests_matching_iff.2 hsettled

/-! ## Documents -/

theorem honestStep_documents (c : Category) (text locale : Text) (texts : FlatMap) :
    HonestStep (documents c text locale texts) := by
  refine honestStep_bind fun bodies _ => honestStep_forEach fun pair _ => ?_
  obtain ⟨key, value⟩ := pair
  match value, h : (bodies.getD []).lookup? key with
  | none, _ => exact honestStep_pure (honest_report (by simp))
  | some value, none =>
    simp only [h]
    exact honestStep_notFound _
  | some value, some (start, stop) =>
    simp only [h]
    refine honestStep_bind fun current _ => ?_
    split
    · exact honestStep_pure (honest_ofEdits _ _)
    · exact honestStep_pure (honest_ofEdits _ _)

theorem rests_documents_iff {c : Category} {text locale : Text} {texts : FlatMap} :
    Rests (documents c text locale texts) ↔
      ∃ bodies, c.documentBodies text locale = .ok bodies ∧
        ∀ key value, (key, some value) ∈ texts → ∀ start stop,
          (bodies.getD []).lookup? key = some (start, stop) →
            Literal.decode (text.slice start stop) = .ok value := by
  unfold documents
  rw [rests_bind_iff]
  refine exists_congr fun bodies => and_congr_right fun _ => ?_
  rw [rests_forEach_iff]
  constructor
  · intro h key value hmem start stop hbody
    have hrest := h _ hmem
    simp only [hbody] at hrest
    obtain ⟨current, hcurrent, hrest⟩ := rests_bind_iff.1 hrest
    split at hrest
    · next heq => rw [show Literal.decode (text.slice start stop) = .ok current from hcurrent, heq]
    · exact absurd (rests_pure_ofEdits_iff.1 hrest) (by simp)
  · rintro h ⟨key, value⟩ hmem
    match value, hbody : (bodies.getD []).lookup? key with
    | none, _ => exact rests_pure_report_iff.2 (by simp)
    | some value, none =>
      simp only [hbody]
      exact rests_notFound _
    | some value, some (start, stop) =>
      simp only [hbody]
      refine rests_bind_iff.2 ⟨value, h key value hmem start stop hbody, ?_⟩
      rw [if_pos rfl]
      exact rests_pure_ofEdits_iff.2 rfl

/-! ## Scalar fields -/

theorem honestStep_scalarFields (c : Category) (text locale : Text) (texts : FlatMap) :
    HonestStep (scalarFields c text locale texts) := by
  unfold scalarFields
  cases c.scalarLiterals? text locale with
  | none => exact honestStep_notFound _
  | some literals => exact honestStep_forEach fun _ _ => honestStep_literal _ _ _

theorem rests_scalarFields_iff {c : Category} {text locale : Text} {texts : FlatMap} :
    Rests (scalarFields c text locale texts) ↔
      ∀ literals, c.scalarLiterals? text locale = some literals →
        ∀ key value, (key, some value) ∈ texts → ∀ l, literals.lookup? key = some l →
          l.value = .ok value := by
  unfold scalarFields
  cases c.scalarLiterals? text locale with
  | none => exact iff_of_true (rests_notFound _) (by simp)
  | some literals =>
    show Rests (forEach texts _) ↔ _
    rw [rests_forEach_iff]
    constructor
    · intro h literals' hliterals key value hmem l hl
      cases hliterals
      exact rests_literal_iff.1 (h _ hmem) value l rfl hl
    · rintro h ⟨key, value⟩ hmem
      refine rests_literal_iff.2 fun v l hvalue hl => ?_
      cases hvalue
      exact h literals rfl key v hmem l hl

end Plan

end Bilingual
