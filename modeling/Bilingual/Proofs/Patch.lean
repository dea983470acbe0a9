import Bilingual.Patch.Artifact
import Bilingual.Proofs.Content
import Bilingual.Proofs.Legible
import Bilingual.Proofs.Plan.Record
import Bilingual.Proofs.Plan.Site

set_option autoImplicit false

/-! # When patching leaves a text as it is

What patching does to a category depends on what the snapshot brings for it (`PatchInput.given?`): nothing,
contents of a wrong shape, or contents. A category is at rest in a text when it has no contents to put
there, its number of sites has changed, or the plan of its contents rests (`PatchInput.AtRest`). A text is
patched without a report of an update exactly if every category is at rest in it, and then it stays as it is
(`PatchInput.quiet_patchText_iff`). -/

namespace Bilingual

/-- A patched text without a report of an update. -/
def Quiet (step : Logged Failure (Text × List PatchEntry)) (text : Text) : Prop :=
  ∃ entries, step.result = .ok (text, entries) ∧ ∀ entry ∈ entries, entry.status ≠ .updated

theorem Edit.applyAll_nil (text : Text) : Edit.applyAll text [] = .ok text := rfl

namespace PatchInput

variable (input : PatchInput) (c : Category) (text : Text)

/-! ## What a snapshot brings for a category -/

/-- The texts of a category that is merged into a block; none when it has none or they are of a wrong
shape. -/
def mergedText? (name : Text) : Option FlatMap :=
  (input.mergeSource? name).bind fun raw =>
    match Content.checkTexts (Data.ofJson raw) with
    | .ok texts => some texts
    | .bad _ => none

/-- The texts that the block of a category merges. -/
def mergedTexts : List FlatMap :=
  match c.placement with
  | .dictBlock _ merge _ => merge.filterMap input.mergedText?
  | _ => []

theorem result_mergeSources : (input.mergeSources c).result = .ok (input.mergedTexts c) := by
  unfold mergeSources mergedTexts
  cases c.placement with
  | dictBlock place merge defaults =>
    dsimp only
    rw [Logged.result_bind, Logged.result_mapM]
    refine Except.bind_eq_ok_iff.2 ⟨merge.map input.mergedText?, Except.mapM_eq_ok_map fun name _ => ?_, ?_⟩
    · unfold mergedText?
      cases input.mergeSource? name with
      | none => rfl
      | some raw =>
        dsimp only [Option.bind]
        cases Content.checkTexts (Data.ofJson raw) <;> rfl
    · show Except.ok _ = Except.ok _
      rw [List.filterMap_map]
      rfl
  | _ => rfl

/-- The contents that a snapshot brings for a category, or what is wrong with them; none when it has
nothing for it. A category that only merges other ones has empty contents of its own. -/
def given? : Option (Checked Content) :=
  let raw := input.raw? c.name
  if raw.isNone && (input.mergedTexts c).isEmpty then none
  else some (Content.ofJson c.placement.shape (raw.getD (.object [])))

variable {input} in
/-- Whatever a snapshot has counts, unless it is null. -/
theorem raw?_of_lookup? {name : Text} {raw : Json} (h : input.snapshot.categories.lookup? name = some raw)
    (hraw : raw ≠ .null) : input.raw? name = some raw := by
  unfold raw?
  rw [h]
  split
  · next heq => exact absurd (Option.some.inj heq) hraw
  · rfl

/-- Written contents of the right shape are brought as they are. -/
theorem given?_of_lookup? {content : Content}
    (h : input.snapshot.categories.lookup? c.name = some content.toJson)
    (hshape : content.shape = c.placement.shape) (hcontent : content.Distinct) :
    input.given? c = some (.ok content) := by
  unfold given?
  rw [raw?_of_lookup? h content.toJson_ne_null]
  dsimp only [Option.isNone, Bool.false_and, Option.getD_some]
  rw [← hshape, Content.ofJson_toJson hcontent]
  rfl

/-- Patching a category has one of three results: skipped, refused, or what its plan gives. -/
theorem result_patchCategory : (input.patchCategory c text).result =
    match input.given? c with
    | none => .ok (text, [{ category := c.name, status := .skipped, detail := some "not in snapshot" }])
    | some (.bad _) =>
      .ok (text, [{ category := c.name, status := .invalid, detail := some "unexpected shape" }])
    | some (.ok content) => do
      match ← (input.shifts c text).result with
      | [] => do
        let plan ← (input.plan c text content (input.mergedTexts c)).result
        return (← Edit.applyAll text plan.edits, plan.entries)
      | shifted => return (text, shifted) := by
  unfold patchCategory given?
  rw [Logged.result_bind, result_mergeSources]
  dsimp only [Except.bind]
  split
  · rfl
  · cases Content.ofJson c.placement.shape ((input.raw? c.name).getD (.object [])) with
    | bad problems => rfl
    | ok content =>
      dsimp only
      rw [Logged.result_bind]
      congr 1
      funext shifted
      cases shifted with
      | cons entry rest => rfl
      | nil =>
        dsimp only
        rw [Logged.result_bind]
        congr 1
        funext plan
        rw [Logged.result_bind]
        rfl

/-! ## Numbers of sites -/

/-- The numbers of sites that the snapshot records are the given ones. -/
def Expects (counts : OrderedMap Nat) : Prop :=
  ∀ key current, counts.lookup? key = some current →
    ∀ expected, input.snapshot.expected? key = some expected → expected = current

theorem ordinalCounts_of_not_ordinal {locales : Locales} (h : c.placement.isOrdinal = false) :
    c.ordinalCounts text locales = .ok [] := by
  unfold Category.ordinalCounts
  cases hkind : c.placement with
  | pairs fields defaults =>
    rw [hkind] at h
    cases h
  | recordBlock place names defaults =>
    rw [hkind] at h
    cases h
  | listBlock place name defaults =>
    rw [hkind] at h
    cases h
  | _ => rfl

/-- The entry for a recorded number of sites that is not the current one. -/
def shift? (key : Text) (current : Nat) : Option PatchEntry :=
  match input.snapshot.expected? key with
  | none => none
  | some expected =>
    if expected = current then none
    else
      let detail : Text := "expected " ++ Text.ofInt expected ++ " occurrences, found " ++
        Text.ofNat current
      some { category := c.name, status := .shifted, key := some key, detail := some detail }

theorem shift?_eq_none_iff {key : Text} {current : Nat} :
    input.shift? c key current = none ↔
      ∀ expected, input.snapshot.expected? key = some expected → expected = current := by
  unfold shift?
  cases input.snapshot.expected? key with
  | none => simp
  | some expected =>
    dsimp only
    split
    · next heq => simp [heq]
    · next hne => simp [hne]

/-- Counted sites are compared with the recorded numbers. -/
theorem result_shifts {counts : OrderedMap Nat}
    (h : c.ordinalCounts text input.manifest.locales = .ok counts) :
    (input.shifts c text).result = .ok ((OrderedMap.keys counts).filterMap fun key =>
      input.shift? c key ((counts.lookup? key).getD 0)) := by
  unfold shifts
  cases hordinal : c.placement.isOrdinal with
  | false =>
    rw [ordinalCounts_of_not_ordinal c text hordinal] at h
    cases h
    rfl
  | true =>
    rw [h]
    show (List.mapM (m := Logged Failure) _ (OrderedMap.keys counts) >>= _).result = _
    rw [Logged.result_bind, Logged.result_mapM]
    refine Except.bind_eq_ok_iff.2 ⟨(OrderedMap.keys counts).map fun key =>
      input.shift? c key ((counts.lookup? key).getD 0), Except.mapM_eq_ok_map fun key _ => ?_, ?_⟩
    · unfold shift?
      cases input.snapshot.expected? key with
      | none => rfl
      | some expected =>
        dsimp only
        split
        · rfl
        · rfl
    · show Except.ok _ = Except.ok _
      rw [List.filterMap_map]
      rfl

theorem result_shifts_of_error {failure : Failure}
    (h : c.ordinalCounts text input.manifest.locales = .error failure) :
    (input.shifts c text).result = .error failure := by
  unfold shifts
  cases hordinal : c.placement.isOrdinal with
  | false =>
    rw [ordinalCounts_of_not_ordinal c text hordinal] at h
    cases h
  | true =>
    rw [h]
    rfl

/-- Nothing has shifted exactly if the recorded numbers are the current ones. -/
theorem shifts_eq_nil_iff {counts : OrderedMap Nat}
    (h : c.ordinalCounts text input.manifest.locales = .ok counts) :
    (input.shifts c text).result = .ok [] ↔ input.Expects counts := by
  rw [result_shifts input c text h, Except.ok.injEq, List.filterMap_eq_nil_iff]
  unfold Expects
  constructor
  · intro hnone key current hcurrent
    have hkey : key ∈ OrderedMap.keys counts :=
      OrderedMap.mem_keys_of_mem (OrderedMap.mem_of_lookup? hcurrent)
    have hshift := hnone key hkey
    rw [hcurrent] at hshift
    exact (shift?_eq_none_iff input c).1 hshift
  · intro hexpects key hkey
    cases hcurrent : counts.lookup? key with
    | none => exact absurd hkey (OrderedMap.lookup?_eq_none_iff.1 hcurrent)
    | some current => exact (shift?_eq_none_iff input c).2 (hexpects key current hcurrent)

/-- Changed numbers of sites are reported as such. -/
theorem status_of_mem_shifts {entries : List PatchEntry} (h : (input.shifts c text).result = .ok entries)
    {entry : PatchEntry} (hentry : entry ∈ entries) : entry.status = .shifted := by
  cases hcounts : c.ordinalCounts text input.manifest.locales with
  | error failure =>
    rw [result_shifts_of_error input c text hcounts] at h
    cases h
  | ok counts =>
    rw [result_shifts input c text hcounts] at h
    cases h
    obtain ⟨key, -, hshift⟩ := List.mem_filterMap.1 hentry
    unfold shift? at hshift
    split at hshift
    · cases hshift
    · split at hshift
      · cases hshift
      · cases hshift
        rfl

/-! ## Categories at rest -/

variable {input c text} in
/-- Keyed pairs and choices are planned alike. -/
theorem plan_of_keyedPattern? {texts : FlatMap} {merged : List FlatMap} {pattern : Pattern}
    (h : c.placement.keyedPattern? input.manifest.locales = some pattern) :
    input.plan c text (.map texts) merged = Plan.keyed c text pattern texts := by
  unfold plan
  cases hkind : c.placement with
  | keyedPairs keyField label defaults =>
    rw [hkind] at h
    cases h
    rfl
  | choices condition defaults =>
    rw [hkind] at h
    cases h
    rfl
  | _ =>
    rw [hkind] at h
    cases h

theorem honestStep_plan (content : Content) (merged : List FlatMap) :
    Plan.HonestStep (input.plan c text content merged) := by
  unfold plan
  dsimp only
  split
  · exact Plan.honestStep_pairs _ _ _ _ _
  · exact Plan.honestStep_documents _ _ _ _
  · exact Plan.honestStep_scalarFields _ _ _ _
  · exact Plan.honestStep_dictBlock _ _ _ _ _
  · exact Plan.honestStep_recordBlock _ _ _ _ _
  · exact Plan.honestStep_recordBlock _ _ _ _ _
  · exact Plan.honestStep_keyedRecordBlock _ _ _ _ _
  · split
    · exact Plan.honestStep_keyed _ _ _ _
    · exact Plan.honestStep_pure (by simp [Plan.Honest, Plan.NoUpdate])
  · exact Plan.honestStep_pure (by simp [Plan.Honest, Plan.NoUpdate])

/-- The contents that the snapshot brings for a category ask for no change of the text, or they are not put
there because the number of sites has changed. -/
def AtRest : Prop :=
  ∀ content, input.given? c = some (.ok content) → ∃ shifted, (input.shifts c text).result = .ok shifted ∧
    (shifted = [] → Plan.Rests (input.plan c text content (input.mergedTexts c)))

variable {input c text}

/-- A category is patched without a report of an update exactly if it is at rest, and then the text stays
as it is. -/
theorem quiet_patchCategory_iff {text' : Text} :
    Quiet (input.patchCategory c text) text' ↔ text' = text ∧ input.AtRest c text := by
  unfold Quiet AtRest
  rw [result_patchCategory]
  cases hgiven : input.given? c with
  | none =>
    constructor
    · rintro ⟨entries, h, -⟩
      cases h
      exact ⟨rfl, fun content h => by cases h⟩
    · rintro ⟨rfl, -⟩
      exact ⟨_, rfl, by simp⟩
  | some checked =>
    cases checked with
    | bad problems =>
      constructor
      · rintro ⟨entries, h, -⟩
        cases h
        exact ⟨rfl, fun content h => by cases h⟩
      · rintro ⟨rfl, -⟩
        exact ⟨_, rfl, by simp⟩
    | ok content =>
      dsimp only
      constructor
      · rintro ⟨entries, h, hquiet⟩
        obtain ⟨shifted, hshifted, h⟩ := Except.bind_eq_ok_iff.1 h
        cases shifted with
        | cons entry rest =>
          cases h
          exact ⟨rfl, fun content _ => ⟨_, hshifted, fun hnil => by cases hnil⟩⟩
        | nil =>
          obtain ⟨plan, hplan, h⟩ := Except.bind_eq_ok_iff.1 h
          obtain ⟨patched, hpatched, h⟩ := Except.bind_eq_ok_iff.1 h
          cases h
          -- this is where honesty is needed: no update is reported, so there are no edits
          have hedits : plan.edits = [] := (honestStep_plan input c text content _ plan hplan).2 hquiet
          rw [hedits, Edit.applyAll_nil] at hpatched
          cases hpatched
          refine ⟨rfl, fun content' hcontent => ⟨[], hshifted, fun _ => ?_⟩⟩
          cases hcontent
          exact ⟨plan, hplan, hedits, hquiet⟩
      · rintro ⟨rfl, hrest⟩
        obtain ⟨shifted, hshifted, hplan⟩ := hrest content rfl
        cases shifted with
        | cons entry rest =>
          refine ⟨entry :: rest, Except.bind_eq_ok_iff.2 ⟨_, hshifted, rfl⟩, fun other hother => ?_⟩
          rw [status_of_mem_shifts input c _ hshifted hother]
          simp
        | nil =>
          obtain ⟨plan, hplan, hedits, hquiet⟩ := hplan rfl
          refine ⟨plan.entries, Except.bind_eq_ok_iff.2 ⟨_, hshifted, ?_⟩, hquiet⟩
          refine Except.bind_eq_ok_iff.2 ⟨plan, hplan, ?_⟩
          rw [hedits, Edit.applyAll_nil]
          rfl

theorem result_patchText_cons {rest : List Category} : (input.patchText text (c :: rest)).result = do
    let (patched, entries) ← (input.patchCategory c text).result
    let (patched, others) ← (input.patchText patched rest).result
    return (patched, entries ++ others) := by
  rw [patchText, Logged.result_bind]
  congr 1
  funext patched
  dsimp only
  rw [Logged.result_bind]
  rfl

/-- A text is patched without a report of an update exactly if every category is at rest in it, and then it
stays as it is. -/
theorem quiet_patchText_iff {cs : List Category} {text' : Text} :
    Quiet (input.patchText text cs) text' ↔ text' = text ∧ ∀ c ∈ cs, input.AtRest c text := by
  induction cs with
  | nil =>
    constructor
    · rintro ⟨entries, h, -⟩
      cases h
      exact ⟨rfl, by simp⟩
    · rintro ⟨rfl, -⟩
      exact ⟨[], rfl, by simp⟩
  | cons c rest ih =>
    constructor
    · rintro ⟨entries, h, hquiet⟩
      rw [result_patchText_cons] at h
      obtain ⟨⟨patched, first⟩, hfirst, h⟩ := Except.bind_eq_ok_iff.1 h
      obtain ⟨⟨patched', others⟩, hothers, h⟩ := Except.bind_eq_ok_iff.1 h
      cases h
      -- the first category leaves the text, so the others are patched in the same one
      obtain ⟨rfl, hc⟩ := quiet_patchCategory_iff.1
        ⟨first, hfirst, fun e he => hquiet e (List.mem_append_left _ he)⟩
      obtain ⟨rfl, hrest⟩ := ih.1 ⟨others, hothers, fun e he => hquiet e (List.mem_append_right _ he)⟩
      exact ⟨rfl, List.forall_mem_cons.2 ⟨hc, hrest⟩⟩
    · rintro ⟨rfl, hall⟩
      obtain ⟨hc, hrest⟩ := List.forall_mem_cons.1 hall
      obtain ⟨first, hfirst, hquiet⟩ := quiet_patchCategory_iff.2 ⟨rfl, hc⟩
      obtain ⟨others, hothers, hquiet'⟩ := ih.2 ⟨rfl, hrest⟩
      refine ⟨first ++ others, ?_, List.forall_mem_append.2 ⟨hquiet, hquiet'⟩⟩
      rw [result_patchText_cons, hfirst]
      show ((input.patchText text' rest).result >>= _) = _
      rw [hothers]
      rfl

/-- When every category is patched without a report of an update or fails in a certain way, so is the
text. -/
theorem quiet_or_fails_patchText {fails : Failure → Prop} {cs : List Category}
    (h : ∀ c ∈ cs, input.AtRest c text ∨
      ∃ failure, (input.patchCategory c text).result = .error failure ∧ fails failure) :
    Quiet (input.patchText text cs) text ∨
      ∃ failure, (input.patchText text cs).result = .error failure ∧ fails failure := by
  induction cs with
  | nil => exact .inl (quiet_patchText_iff.2 ⟨rfl, by simp⟩)
  | cons c rest ih =>
    obtain ⟨hc, hrest⟩ := List.forall_mem_cons.1 h
    rcases hc with hc | ⟨failure, hfailure, hfails⟩
    · rcases ih hrest with hquiet | ⟨failure, hfailure, hfails⟩
      · obtain ⟨-, hrest⟩ := quiet_patchText_iff.1 hquiet
        exact .inl (quiet_patchText_iff.2 ⟨rfl, List.forall_mem_cons.2 ⟨hc, hrest⟩⟩)
      · refine .inr ⟨failure, ?_, hfails⟩
        obtain ⟨entries, hentries, -⟩ := quiet_patchCategory_iff.2 ⟨rfl, hc⟩
        rw [result_patchText_cons, hentries]
        show ((input.patchText text rest).result >>= _) = _
        rw [hfailure]
        rfl
    · refine .inr ⟨failure, ?_, hfails⟩
      rw [result_patchText_cons, hfailure]
      rfl

/-! ## Failures -/

theorem terminated_check (size : Nat) (start : Int) (edits : List Edit) :
    Terminated (Edit.check size start edits) := by
  induction edits generalizing start with
  | nil => exact terminated_ok _
  | cons e rest ih =>
    rw [Edit.check]
    split
    · intro delimiter offset h
      cases h
    · exact ih e.stop

theorem terminated_applyAll (text : Text) (edits : List Edit) : Terminated (Edit.applyAll text edits) :=
  (terminated_check _ _ _).bind fun _ _ => terminated_pure _

theorem terminated_editTo? (l : LiteralSpan) (value : Text) : Terminated (l.editTo? value) := by
  refine l.terminated_value.bind fun current _ => ?_
  split
  · exact terminated_pure _
  · exact terminated_pure _

theorem terminated_occurrencesOf (key : Text) (occurrences : List Occurrence) :
    Terminated (Plan.occurrencesOf key occurrences) := by
  unfold Plan.occurrencesOf List.filterM
  refine Terminated.bind ?_ fun _ _ => terminated_pure _
  generalize ([] : List Occurrence) = kept
  induction occurrences generalizing kept with
  | nil => exact terminated_pure _
  | cons o rest ih =>
    rw [List.filterAuxM]
    refine Terminated.bind ?_ fun isKept _ => ih _
    exact o.keyLiteral.terminated_value.bind fun _ _ => terminated_pure _

theorem terminated_keyed (c : Category) (text : Text) (pattern : Pattern) (texts : FlatMap) :
    Terminated (Plan.keyed c text pattern texts).result := by
  unfold Plan.keyed
  rw [Logged.result_bind]
  refine (c.terminated_occurrences text pattern).bind fun occurrences _ => ?_
  rw [Plan.result_forEach]
  refine (terminated_mapM fun pair _ => ?_).map Plan.concat
  obtain ⟨key, value⟩ := pair
  cases value with
  | none => exact terminated_pure _
  | some value =>
    dsimp only
    rw [Logged.result_bind]
    refine (terminated_occurrencesOf key occurrences).bind fun matching _ => ?_
    cases matching with
    | nil => exact terminated_ok _
    | cons o rest =>
      dsimp only
      rw [Logged.result_bind, Logged.result_mapM]
      refine (terminated_mapM fun o _ => ?_).bind fun _ _ => terminated_pure _
      exact terminated_editTo? _ _

theorem terminated_replaceEntry? (text : Text) (item : BlockItem) (texts : FlatMap) :
    Terminated (Plan.replaceEntry? text item texts) := by
  unfold Plan.replaceEntry?
  split
  · split
    · exact terminated_pure _
    · refine (LiteralSpan.terminated_value _).bind fun current _ => ?_
      split
      · exact terminated_pure _
      · exact (terminated_applyAll _ _).bind fun _ _ => terminated_pure _
  · exact terminated_pure _

theorem terminated_dictBlock (c : Category) (text locale : Text) (given : FlatMap)
    (merged : List FlatMap) : Terminated (Plan.dictBlock c text locale given merged).result := by
  rw [Plan.dictBlock_eq, Logged.result_bind]
  refine (c.terminated_parsedBlock text locale).bind fun block _ => ?_
  cases block with
  | none => exact terminated_ok _
  | some parsed =>
    dsimp only
    rw [Logged.result_bind, Logged.result_mapM]
    refine (terminated_mapM fun item _ => terminated_replaceEntry? _ _ _).bind fun replaced _ => ?_
    obtain ⟨plan, hplan, -⟩ := Plan.ofChanges_spec parsed text
      (Plan.entryChanges parsed (Plan.overlay given merged) replaced)
      (Plan.entryReports c parsed (Plan.overlay given merged) replaced)
    rw [Logged.result_lift, hplan]
    exact terminated_ok _

end PatchInput

end Bilingual
