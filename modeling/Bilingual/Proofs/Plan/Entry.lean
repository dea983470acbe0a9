import Bilingual.Proofs.Patch

set_option autoImplicit false

/-! # The entries of a plan

A plan reports what becomes of the texts of its category, so its entries name the category, and none of them says that
the category was refused or that its contents were invalid (`PatchInput.ensures_plan`). A category that contents are
brought for is reported by its plan or refused, so its contents are never invalid
(`PatchInput.status_of_patchCategory`). -/

namespace Bilingual

open Logged

/-- The entry tells what became of a text of the category. -/
structure PatchEntry.Tells (c : Category) (entry : PatchEntry) : Prop where
  category : entry.category = c.name
  notShifted : entry.status ≠ .shifted
  notInvalid : entry.status ≠ .invalid

namespace Plan

variable {c : Category} {entry : PatchEntry} {text locale : Text}

/-- All entries of the plan tell what became of texts of the category. -/
def Tells (c : Category) (plan : Plan) : Prop := ∀ entry ∈ plan.entries, entry.Tells c

theorem tells_report (h : entry.Tells c) : (report entry).Tells c := by
  intro other hother
  rw [List.mem_singleton.1 hother]
  exact h

theorem tells_ofEdits (h : entry.category = c.name) (edits : List Edit) : (ofEdits entry edits).Tells c := by
  intro other hother
  rw [List.mem_singleton.1 hother]
  cases edits with
  | nil => exact ⟨h, by simp, by simp⟩
  | cons e rest => exact ⟨h, by simp, by simp⟩

theorem ensures_notFound (h : entry.category = c.name) : Ensures (Tells c) (notFound entry) := by
  rintro _ ⟨⟩
  exact tells_report ⟨h, by simp, by simp⟩

theorem ensures_forEach {α : Type} {things : List α} {plan : α → Logged Failure Plan}
    (h : ∀ a ∈ things, Ensures (Tells c) (plan a)) : Ensures (Tells c) (forEach things plan) := by
  refine ensures_bind fun plans hplans => ensures_pure fun entry hentry => ?_
  obtain ⟨p, hp, hentry⟩ := List.mem_flatMap.1 hentry
  exact ensures_mapM h plans hplans p hp entry hentry

/-! ## Single sites -/

theorem ensures_literal (h : entry.category = c.name) (site : Option LiteralSpan) (value : Option Text) :
    Ensures (Tells c) (literal entry site value) := by
  unfold literal
  match value, site with
  | none, _ => exact ensures_pure (tells_report ⟨h, by simp, by simp⟩)
  | some _, none => exact ensures_notFound h
  | some value, some l => exact ensures_bind fun edit _ => ensures_pure (tells_ofEdits h _)

theorem ensures_pairs (locales : Locales) (fields : List PairField) (records : List (Option FlatMap)) :
    Ensures (Tells c) (pairs c text locales fields records) :=
  ensures_forEach fun _ _ => ensures_bind fun _ _ => ensures_forEach fun _ _ => ensures_literal rfl _ _

theorem ensures_keyed (pattern : Pattern) (texts : FlatMap) : Ensures (Tells c) (keyed c text pattern texts) := by
  refine ensures_bind fun occurrences _ => ensures_forEach fun pair _ => ?_
  obtain ⟨key, value⟩ := pair
  cases value with
  | none => exact ensures_pure (tells_report ⟨rfl, by simp, by simp⟩)
  | some value =>
    refine ensures_bind fun matching _ => ?_
    cases matching with
    | nil => exact ensures_notFound rfl
    | cons o rest => exact ensures_bind fun edits _ => ensures_pure (tells_ofEdits rfl _)

theorem ensures_documents (texts : FlatMap) : Ensures (Tells c) (documents c text locale texts) := by
  refine ensures_bind fun bodies _ => ensures_forEach fun pair _ => ?_
  obtain ⟨key, value⟩ := pair
  match value, h : (bodies.getD []).lookup? key with
  | none, _ => exact ensures_pure (tells_report ⟨rfl, by simp, by simp⟩)
  | some value, none =>
    simp only [h]
    exact ensures_notFound rfl
  | some value, some (start, stop) =>
    simp only [h]
    refine ensures_bind fun current _ => ?_
    split
    · exact ensures_pure (tells_ofEdits rfl _)
    · exact ensures_pure (tells_ofEdits rfl _)

theorem ensures_scalarFields (texts : FlatMap) : Ensures (Tells c) (scalarFields c text locale texts) := by
  unfold scalarFields
  cases c.scalarLiterals? text locale with
  | none => exact ensures_notFound rfl
  | some literals => exact ensures_forEach fun _ _ => ensures_literal rfl _ _

/-! ## Blocks -/

/-- The entries of a block are those that come with its changes. -/
theorem ensures_ofChanges {parsed : ParsedBlock} {changes : List ItemChange} {entries : List PatchEntry}
    (h : ∀ entry ∈ entries, entry.Tells c) :
    Ensures (Tells c) (liftM (ofChanges parsed text changes entries) : Logged Failure Plan) := by
  obtain ⟨plan, hplan, hentries, -⟩ := ofChanges_spec parsed text changes entries
  intro found hfound
  rw [result_lift, hplan] at hfound
  cases hfound
  rw [Tells, hentries]
  exact h

theorem ensures_dictBlock (given : FlatMap) (merged : List FlatMap) :
    Ensures (Tells c) (dictBlock c text locale given merged) := by
  rw [dictBlock_eq]
  refine ensures_bind fun found _ => ?_
  cases found with
  | none => exact ensures_notFound rfl
  | some parsed =>
    refine ensures_bind fun replaced _ => ensures_ofChanges fun entry hentry => ?_
    obtain ⟨⟨key, value⟩, -, rfl⟩ := List.mem_map.1 hentry
    refine ⟨rfl, ?_, ?_⟩
    · dsimp only
      split_ifs <;> simp
    · dsimp only
      split_ifs <;> simp

theorem ensures_recordField (h : entry.category = c.name) (site : Option LiteralSpan) (value : Option Text) :
    Ensures (fun planned => ∀ e ∈ planned.2, e.Tells c) (recordField entry site value) := by
  unfold recordField
  match value, site with
  | none, _ => exact ensures_pure (tells_report ⟨h, by simp, by simp⟩)
  | some value, none => exact ensures_bind fun plan hplan => ensures_pure (ensures_notFound h plan hplan)
  | some value, some l =>
    refine ensures_bind fun current _ => ?_
    split
    · exact ensures_pure (tells_report ⟨h, by simp, by simp⟩)
    · exact ensures_pure (tells_report ⟨h, by simp, by simp⟩)

theorem ensures_existingRecord (h : entry.category = c.name) (names : List Text) (given : FlatMap) (index : Nat)
    (item : BlockItem) :
    Ensures (fun planned => ∀ e ∈ planned.2, e.Tells c) (existingRecord c text entry names given index item) := by
  have hfields : ∀ name ∈ names, Ensures (fun planned => ∀ e ∈ planned.2, e.Tells c)
      (recordField { entry with field := some name } (siteIn? c item name) (OrderedMap.lookup? given name).join) := by
    intro name _
    refine ensures_recordField ?_ _ _
    exact h
  refine ensures_bind fun planned hplanned => ?_
  have hentries : ∀ e ∈ planned.flatMap Prod.snd, e.Tells c := by
    intro e he
    obtain ⟨p, hp, he⟩ := List.mem_flatMap.1 he
    exact ensures_mapM hfields planned hplanned p hp e he
  dsimp only
  split
  · exact ensures_pure hentries
  · exact ensures_bind fun source _ => ensures_pure hentries

theorem ensures_record (h : entry.category = c.name) (names : List Text) (given : Option FlatMap)
    (site : Option (Nat × BlockItem)) (render : List (Text × Text) → Text) :
    Ensures (fun planned => ∀ e ∈ planned.2, e.Tells c) (record c text entry names given site render) := by
  unfold record
  match given, site with
  | none, _ => exact ensures_pure (tells_report ⟨h, by simp, by simp⟩)
  | some texts, some (index, item) => exact ensures_existingRecord h names texts index item
  | some texts, none =>
    dsimp only
    unfold newRecord
    split
    · exact ensures_pure (tells_report ⟨h, by simp, by simp⟩)
    · exact ensures_pure (tells_report ⟨h, by simp, by simp⟩)

/-- Records in a row tell what each of them tells. -/
theorem ensures_rows {α : Type} {things : List α} {plan : α → Logged Failure (ItemChange × List PatchEntry)}
    {parsed : ParsedBlock} (h : ∀ a ∈ things, Ensures (fun planned => ∀ e ∈ planned.2, e.Tells c) (plan a)) :
    Ensures (Tells c) (things.mapM plan >>= fun planned =>
      liftM (ofChanges parsed text (planned.map Prod.fst) (planned.flatMap Prod.snd))) := by
  refine ensures_bind fun planned hplanned => ensures_ofChanges fun entry hentry => ?_
  obtain ⟨p, hp, hentry⟩ := List.mem_flatMap.1 hentry
  exact ensures_mapM h planned hplanned p hp entry hentry

theorem ensures_recordBlock (names : List Text) (records : List (Option FlatMap)) :
    Ensures (Tells c) (recordBlock c text locale names records) := by
  refine ensures_bind fun found _ => ?_
  cases found with
  | none => exact ensures_notFound rfl
  | some parsed => exact ensures_rows fun _ _ => ensures_record rfl _ _ _ _

theorem ensures_keyedRecordBlock (names : List Text) (records : OrderedMap (Option FlatMap)) :
    Ensures (Tells c) (keyedRecordBlock c text locale names records) := by
  refine ensures_bind fun found _ => ?_
  cases found with
  | none => exact ensures_notFound rfl
  | some parsed => exact ensures_rows fun _ _ => ensures_record rfl _ _ _ _

end Plan

namespace PatchInput

variable {input : PatchInput} {c : Category} {text : Text}

/-! ## Categories -/

/-- Whatever contents are planned, the entries tell what became of texts of the category. -/
theorem ensures_plan (content : Content) (merged : List FlatMap) :
    Ensures (Plan.Tells c) (input.plan c text content merged) := by
  have hnothing : Plan.Tells c {} := fun entry hentry => by cases hentry
  unfold plan
  dsimp only
  split
  · exact Plan.ensures_pairs _ _ _
  · exact Plan.ensures_documents _
  · exact Plan.ensures_scalarFields _
  · exact Plan.ensures_dictBlock _ _
  · exact Plan.ensures_recordBlock _ _
  · exact Plan.ensures_recordBlock _ _
  · exact Plan.ensures_keyedRecordBlock _ _
  · split
    · exact Plan.ensures_keyed _ _
    · exact ensures_pure hnothing
  · exact ensures_pure hnothing

/-- Contents that are brought for a category are not reported as invalid. -/
theorem status_of_patchCategory {content : Content} {patched : Text} {entries : List PatchEntry}
    (hgiven : input.given? c = some (.ok content)) (h : (input.patchCategory c text).result = .ok (patched, entries)) :
    ∀ entry ∈ entries, entry.status ≠ .invalid := by
  rw [result_patchCategory, hgiven] at h
  obtain ⟨shifted, hshifted, h⟩ := Except.bind_eq_ok_iff.1 h
  cases shifted with
  | cons first rest =>
    cases h
    intro entry hentry
    rw [status_of_mem_shifts input c text hshifted hentry]
    simp
  | nil =>
    obtain ⟨plan, hplan, h⟩ := Except.bind_eq_ok_iff.1 h
    obtain ⟨patched, -, h⟩ := Except.bind_eq_ok_iff.1 h
    cases h
    exact fun entry hentry => (ensures_plan content _ plan hplan entry hentry).notInvalid

end PatchInput

end Bilingual
