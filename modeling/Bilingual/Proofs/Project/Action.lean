import Bilingual.Project.Action
import Bilingual.Proofs.Step

set_option autoImplicit false

/-! # Work that leaves the files as they are

An action that changes no file has a result that only depends on the files, so a row of such actions has the
result of the plain steps (`Action.mapM_of_unchanged`, `Action.foldlM_of_unchanged`). -/

namespace Bilingual

namespace Action

variable {α β : Type}

/-- Some files are left as they are. -/
def Leaves (x : Action α) (files : Files) : Prop := (x files).files = files

section Bind

variable {x : Action α} {f : α → Action β} {files : Files}

theorem bind_of_ok {a : α} (h : (x files).result = .ok a) :
    (x >>= f) files = ⟨(f a (x files).files).files, (x files).events ++ (f a (x files).files).events,
      (f a (x files).files).result⟩ := by
  dsimp only [bind]
  rw [h]

theorem bind_of_error {e : ProjectFailure} (h : (x files).result = .error e) :
    (x >>= f) files = ⟨(x files).files, (x files).events, .error e⟩ := by
  dsimp only [bind]
  rw [h]

theorem pure_apply (a : α) : (pure a : Action α) files = ⟨files, [], .ok a⟩ := rfl

end Bind

instance : LawfulMonad Action := LawfulMonad.mk' Action
  (by
    intro α x
    funext files
    show (x >>= pure) files = x files
    cases h : (x files).result with
    | error e =>
      rw [bind_of_error h, ← h]
    | ok a =>
      rw [bind_of_ok h, pure_apply]
      dsimp only
      rw [List.append_nil, ← h])
  (by
    intro α β a f
    funext files
    rw [bind_of_ok (x := pure a) (a := a) rfl]
    rfl)
  (by
    intro α β γ x f g
    funext files
    cases hx : (x files).result with
    | error e =>
      rw [bind_of_error hx, bind_of_error (x := x >>= f) (e := e)]
      · rw [bind_of_error hx]
      · rw [bind_of_error hx]
    | ok a =>
      rw [bind_of_ok hx]
      cases hf : (f a (x files).files).result with
      | error e =>
        rw [bind_of_error (x := x >>= f) (e := e) (by rw [bind_of_ok hx]; exact hf), bind_of_error hf,
          bind_of_ok hx]
      | ok b =>
        rw [bind_of_ok (x := x >>= f) (a := b) (by rw [bind_of_ok hx]; exact hf), bind_of_ok hf,
          bind_of_ok hx]
        dsimp only
        rw [List.append_assoc])

/-! ## One action after another -/

section Bind

variable {x : Action α} {f : α → Action β} {files : Files}

theorem Leaves.bind (hx : x.Leaves files) (hf : ∀ a, (x files).result = .ok a → (f a).Leaves files) :
    (x >>= f).Leaves files := by
  unfold Leaves
  cases h : (x files).result with
  | error e =>
    rw [bind_of_error h]
    exact hx
  | ok a =>
    rw [bind_of_ok h, hx]
    exact hf a h

theorem Leaves.result_bind (hx : x.Leaves files) :
    ((x >>= f) files).result = (x files).result.bind fun a => (f a files).result := by
  cases h : (x files).result with
  | error e =>
    rw [bind_of_error h]
    rfl
  | ok a =>
    rw [bind_of_ok h, hx]
    rfl

theorem leaves_pure (a : α) : (pure a : Action α).Leaves files := rfl

theorem leaves_read (path : Path) : (read path).Leaves files := rfl

theorem leaves_attempt (step : Logged Failure α) : (attempt step).Leaves files := rfl

theorem leaves_tell (event : LogEvent) : (tell event).Leaves files := rfl

theorem leaves_ofExcept (result : Except ProjectFailure α) : (ofExcept result).Leaves files := by
  cases result <;> rfl

theorem result_ofExcept (result : Except ProjectFailure α) : (ofExcept result files).result = result := by
  cases result <;> rfl

theorem leaves_ofStep (step : Logged Failure α) : (ofStep step).Leaves files := by
  refine (leaves_attempt step).bind fun result _ => ?_
  cases result <;> rfl

theorem result_ofStep (step : Logged Failure α) :
    (ofStep step files).result = step.result.mapError .text := by
  unfold ofStep
  rw [(leaves_attempt step).result_bind]
  cases h : step.result with
  | ok a =>
    show Except.bind (Except.ok step.result) _ = _
    rw [h]
    rfl
  | error failure =>
    show Except.bind (Except.ok step.result) _ = _
    rw [h]
    rfl

end Bind

/-! ## Actions in a row -/

section Rows

variable {files : Files}

/-- Actions for each of a list of things that leave the files as they are. -/
theorem mapM_of_unchanged {f : α → Action β} {l : List α} (h : ∀ a ∈ l, (f a).Leaves files) :
    (l.mapM f).Leaves files ∧ ((l.mapM f) files).result = l.mapM fun a => (f a files).result := by
  induction l with
  | nil => exact ⟨rfl, rfl⟩
  | cons a rest ih =>
    obtain ⟨ha, hrest⟩ := List.forall_mem_cons.1 h
    obtain ⟨hleaves, hresult⟩ := ih hrest
    rw [List.mapM_cons, List.mapM_cons]
    refine ⟨ha.bind fun b _ => hleaves.bind fun bs _ => leaves_pure _, ?_⟩
    rw [ha.result_bind]
    congr 1
    funext b
    rw [hleaves.result_bind, hresult]
    rfl

/-- Actions in a row on a state that leave the files as they are. -/
theorem foldlM_of_unchanged {f : β → α → Action β} {l : List α}
    (h : ∀ b, ∀ a ∈ l, (f b a).Leaves files) (start : β) :
    (l.foldlM f start).Leaves files ∧
      ((l.foldlM f start) files).result = l.foldlM (fun b a => (f b a files).result) start := by
  induction l generalizing start with
  | nil => exact ⟨rfl, rfl⟩
  | cons a rest ih =>
    have ha := h start a (List.mem_cons_self ..)
    have hrest := ih fun b a ha => h b a (List.mem_cons_of_mem _ ha)
    rw [List.foldlM_cons, List.foldlM_cons]
    refine ⟨ha.bind fun b _ => (hrest b).1, ?_⟩
    rw [ha.result_bind]
    congr 1
    funext b
    exact (hrest b).2

/-- How a row of actions ends: its first one fails, a later one does, or all of them come to a result. -/
inductive Row (f : α → Action β) (files : Files) (a : α) (rest : List α) : Outcome (List β) → Prop where
  | first {events : List LogEvent} {e : ProjectFailure} (hfirst : (f a files).result = .error e) :
    Row f files a rest ⟨(f a files).files, events, .error e⟩
  | later {events : List LogEvent} {b : β} {e : ProjectFailure} (hfirst : (f a files).result = .ok b)
      (hrest : ((rest.mapM f) (f a files).files).result = .error e) :
    Row f files a rest ⟨((rest.mapM f) (f a files).files).files, events, .error e⟩
  | all {events : List LogEvent} {b : β} {bs : List β} (hfirst : (f a files).result = .ok b)
      (hrest : ((rest.mapM f) (f a files).files).result = .ok bs) :
    Row f files a rest ⟨((rest.mapM f) (f a files).files).files, events, .ok (b :: bs)⟩

theorem row_mapM (f : α → Action β) (files : Files) (a : α) (rest : List α) :
    Row f files a rest (((a :: rest).mapM f) files) := by
  rw [List.mapM_cons]
  cases hfirst : (f a files).result with
  | error e =>
    rw [bind_of_error hfirst]
    exact .first hfirst
  | ok b =>
    rw [bind_of_ok hfirst]
    cases hrest : ((rest.mapM f) (f a files).files).result with
    | error e =>
      rw [bind_of_error hrest]
      exact .later hfirst hrest
    | ok bs =>
      rw [bind_of_ok hrest]
      exact .all hfirst hrest

/-- What every action of a row does to the files, the row does, as far as it can be put together. -/
theorem files_mapM {R : Files → Files → Prop} (hrefl : ∀ files, R files files)
    (htrans : ∀ {files files' files''}, R files files' → R files' files'' → R files files'') {f : α → Action β}
    {l : List α} (h : ∀ a ∈ l, ∀ files, R files (f a files).files) : R files ((l.mapM f) files).files := by
  induction l generalizing files with
  | nil => exact hrefl files
  | cons a rest ih =>
    obtain ⟨ha, hrest⟩ := List.forall_mem_cons.1 h
    have hrow := row_mapM f files a rest
    generalize ((a :: rest).mapM f) files = out at hrow ⊢
    cases hrow with
    | first => exact ha files
    | later | all => exact htrans (ha files) (ih hrest)

/-- A row of actions fails at one of them, when those in front of it have come to their results. -/
theorem exists_of_mapM_error {f : α → Action β} {l : List α} {e : ProjectFailure}
    (h : ((l.mapM f) files).result = .error e) : ∃ done a later bs, l = done ++ a :: later ∧
      ((done.mapM f) files).result = .ok bs ∧ (f a ((done.mapM f) files).files).result = .error e ∧
        ((l.mapM f) files).files = (f a ((done.mapM f) files).files).files := by
  induction l generalizing files with
  | nil => cases h
  | cons first rest ih =>
    have hrow := row_mapM f files first rest
    generalize ((first :: rest).mapM f) files = out at hrow h ⊢
    cases hrow with
    | first hfirst =>
      cases h
      exact ⟨[], first, rest, [], rfl, rfl, hfirst, rfl⟩
    | all => cases h
    | @later _ b _ hfirst hrest =>
      cases h
      obtain ⟨done, a, later, bs, rfl, hdone, hfails, hfiles⟩ := ih hrest
      -- the first action is one more of those that come to a result
      have hrun : (((first :: done).mapM f) files).result = .ok (b :: bs) ∧
          (((first :: done).mapM f) files).files = ((done.mapM f) (f first files).files).files := by
        rw [List.mapM_cons, bind_of_ok hfirst, bind_of_ok hdone]
        exact ⟨rfl, rfl⟩
      refine ⟨first :: done, a, later, b :: bs, rfl, hrun.1, ?_, ?_⟩
      · rw [hrun.2]
        exact hfails
      · rw [hrun.2]
        exact hfiles

end Rows

end Action

end Bilingual
