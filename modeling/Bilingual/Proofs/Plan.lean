import Bilingual.Patch.Site
import Bilingual.Proofs.Step

set_option autoImplicit false

/-! # Plans that change nothing

A plan is honest when it has an edit exactly if it reports an update (`Plan.Honest`), and a step rests
when it comes to a plan without edits and without updates (`Plan.Rests`). Both are told member by member
for a plan made for each of a list of things: `Plan.rests_forEach_iff` says that such a step rests exactly
when it does so for every member. -/

namespace Bilingual

namespace Plan

/-- No entry of the plan reports an update. -/
def NoUpdate (plan : Plan) : Prop := ∀ entry ∈ plan.entries, entry.status ≠ .updated

/-- The plan has edits exactly if it reports an update. -/
def Honest (plan : Plan) : Prop := plan.edits = [] ↔ plan.NoUpdate

/-- The step comes to a plan that neither changes anything nor reports an update. -/
def Rests (step : Logged Failure Plan) : Prop :=
  ∃ plan, step.result = .ok plan ∧ plan.edits = [] ∧ plan.NoUpdate

/-- Whatever plan the step comes to is honest. -/
def HonestStep (step : Logged Failure Plan) : Prop := ∀ plan, step.result = .ok plan → plan.Honest

/-! ## Honest plans -/

theorem honest_report {entry : PatchEntry} (h : entry.status ≠ .updated) : (report entry).Honest := by
  constructor
  · intro _ other hother
    rw [List.mem_singleton.1 hother]
    exact h
  · intro _
    rfl

theorem honest_ofEdits (entry : PatchEntry) (edits : List Edit) : (ofEdits entry edits).Honest := by
  unfold Honest NoUpdate
  cases edits with
  | nil => simp [ofEdits]
  | cons e rest => simp [ofEdits]

theorem noUpdate_concat_iff {plans : List Plan} :
    (concat plans).NoUpdate ↔ ∀ plan ∈ plans, plan.NoUpdate := by
  constructor
  · intro h plan hplan entry hentry
    exact h entry (List.mem_flatMap.2 ⟨plan, hplan, hentry⟩)
  · intro h entry hentry
    obtain ⟨plan, hplan, hentry⟩ := List.mem_flatMap.1 hentry
    exact h plan hplan entry hentry

theorem edits_concat_eq_nil_iff {plans : List Plan} :
    (concat plans).edits = [] ↔ ∀ plan ∈ plans, plan.edits = [] := List.flatMap_eq_nil_iff

theorem honest_concat {plans : List Plan} (h : ∀ plan ∈ plans, plan.Honest) :
    (concat plans).Honest := by
  unfold Honest
  rw [edits_concat_eq_nil_iff, noUpdate_concat_iff]
  exact forall₂_congr h

/-! ## Steps -/

theorem honestStep_notFound (entry : PatchEntry) : HonestStep (notFound entry) := by
  intro plan h
  cases h
  exact honest_report (by simp)

theorem rests_notFound (entry : PatchEntry) : Rests (notFound entry) := by
  refine ⟨report { entry with status := .notFound }, rfl, rfl, ?_⟩
  intro other hother
  rw [List.mem_singleton.1 hother]
  simp

theorem rests_pure_iff {plan : Plan} : Rests (pure plan) ↔ plan.edits = [] ∧ plan.NoUpdate := by
  constructor
  · rintro ⟨other, h, hrest⟩
    cases h
    exact hrest
  · intro h
    exact ⟨plan, rfl, h⟩

theorem rests_pure_report_iff {entry : PatchEntry} :
    Rests (pure (report entry)) ↔ entry.status ≠ .updated := by
  rw [rests_pure_iff]
  simp [report, NoUpdate]

theorem rests_pure_ofEdits_iff {entry : PatchEntry} {edits : List Edit} :
    Rests (pure (ofEdits entry edits)) ↔ edits = [] := by
  rw [rests_pure_iff]
  constructor
  · exact And.left
  · intro h
    exact ⟨h, (honest_ofEdits entry edits).1 h⟩

theorem rests_bind_iff {α : Type} {step : Logged Failure α} {plan : α → Logged Failure Plan} :
    Rests (step >>= plan) ↔ ∃ a, step.result = .ok a ∧ Rests (plan a) := by
  unfold Rests
  rw [Logged.result_bind]
  cases step.result with
  | error e => simp [Except.bind]
  | ok a => simp [Except.bind]

theorem honestStep_bind {α : Type} {step : Logged Failure α} {plan : α → Logged Failure Plan}
    (h : ∀ a, step.result = .ok a → HonestStep (plan a)) : HonestStep (step >>= plan) :=
  Logged.ensures_bind h

theorem honestStep_pure {plan : Plan} (h : plan.Honest) : HonestStep (pure plan) := Logged.ensures_pure h

/-! ## Plans for each of a list of things -/

theorem result_forEach {α : Type} (things : List α) (plan : α → Logged Failure Plan) :
    (forEach things plan).result = (things.mapM fun a => (plan a).result).map concat := by
  unfold forEach
  rw [Logged.result_bind, Logged.result_mapM]
  rfl

theorem honestStep_forEach {α : Type} {things : List α} {plan : α → Logged Failure Plan}
    (h : ∀ a ∈ things, HonestStep (plan a)) : HonestStep (forEach things plan) :=
  honestStep_bind fun plans hplans => honestStep_pure (honest_concat (Logged.ensures_mapM h plans hplans))

/-- A plan made for each of a list of things rests exactly if it does so for every one of them. -/
theorem rests_forEach_iff {α : Type} {things : List α} {plan : α → Logged Failure Plan} :
    Rests (forEach things plan) ↔ ∀ a ∈ things, Rests (plan a) := by
  unfold Rests
  rw [result_forEach]
  constructor
  · rintro ⟨found, hfound, hedits, hupdate⟩ a ha
    obtain ⟨plans, hplans, rfl⟩ := Except.map_eq_ok_iff.1 hfound
    obtain ⟨p, hp, hstep⟩ := List.Forall₂.exists_of_mem_left (Except.mapM_eq_ok_iff.1 hplans) ha
    exact ⟨p, hstep, edits_concat_eq_nil_iff.1 hedits p hp, noUpdate_concat_iff.1 hupdate p hp⟩
  · intro h
    obtain ⟨plans, hplans, hrest⟩ := Except.exists_mapM_of_forall h
    refine ⟨concat plans, by rw [hplans]; rfl, ?_, ?_⟩
    · exact edits_concat_eq_nil_iff.2 fun p hp => (hrest p hp).1
    · exact noUpdate_concat_iff.2 fun p hp => (hrest p hp).2

end Plan

end Bilingual
