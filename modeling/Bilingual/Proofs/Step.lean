import Bilingual.Log
import Mathlib.Data.List.Forall2

set_option autoImplicit false

/-! # Results of steps in a row

A step that may fail goes through a list by `mapM`, and it comes to a result exactly when it does so for
every member. `Except.mapM_eq_ok_iff` says so for plain steps; a logged step has the same result as the
plain step without its events (`Logged.result_mapM`), so both kinds of steps are reasoned about alike. What
every result of a step has is carried through steps in a row (`Logged.Ensures`). -/

namespace Bilingual

universe u v

/-! ## Related lists -/

theorem List.Forall₂.exists_of_mem_left {α : Type u} {β : Type v} {R : α → β → Prop} {as : List α}
    {bs : List β} (h : List.Forall₂ R as bs) {a : α} (ha : a ∈ as) : ∃ b ∈ bs, R a b := by
  induction h with
  | nil => cases ha
  | @cons first other _ _ hfirst _ ih =>
    rcases List.mem_cons.1 ha with rfl | ha
    · exact ⟨other, List.mem_cons_self .., hfirst⟩
    · obtain ⟨b, hb, hab⟩ := ih ha
      exact ⟨b, List.mem_cons_of_mem _ hb, hab⟩

theorem List.Forall₂.exists_of_mem_right {α : Type u} {β : Type v} {R : α → β → Prop} {as : List α}
    {bs : List β} (h : List.Forall₂ R as bs) {b : β} (hb : b ∈ bs) : ∃ a ∈ as, R a b := by
  obtain ⟨a, ha, hab⟩ := List.Forall₂.exists_of_mem_left h.flip hb
  exact ⟨a, ha, hab⟩

theorem List.Forall₂.map_eq_map {α : Type u} {β : Type v} {γ : Type} {R : α → β → Prop} {f : α → γ}
    {g : β → γ} {as : List α} {bs : List β} (h : List.Forall₂ R as bs) (hR : ∀ a b, R a b → f a = g b) :
    as.map f = bs.map g := by
  induction h with
  | nil => rfl
  | cons hab _ ih => rw [List.map_cons, List.map_cons, hR _ _ hab, ih]

theorem List.Forall₂.of_getElem? {α : Type u} {β : Type v} {R : α → β → Prop} {as : List α} {bs : List β}
    (h : List.Forall₂ R as bs) {i : Nat} {a : α} {b : β} (ha : as[i]? = some a) (hb : bs[i]? = some b) :
    R a b := by
  obtain ⟨ha', rfl⟩ := List.getElem?_eq_some_iff.1 ha
  obtain ⟨hb', rfl⟩ := List.getElem?_eq_some_iff.1 hb
  exact (List.forall₂_iff_get.1 h).2 i ha' hb'

theorem List.Forall₂.exists_of_getElem? {α : Type u} {β : Type v} {R : α → β → Prop} {as : List α}
    {bs : List β} (h : List.Forall₂ R as bs) {i : Nat} {a : α} (ha : as[i]? = some a) :
    ∃ b, bs[i]? = some b ∧ R a b := by
  obtain ⟨hlt, -⟩ := List.getElem?_eq_some_iff.1 ha
  have hlt' : i < bs.length := h.length_eq ▸ hlt
  have hb : bs[i]? = some (bs.get ⟨i, hlt'⟩) := List.getElem?_eq_getElem hlt'
  exact ⟨_, hb, List.Forall₂.of_getElem? h ha hb⟩

theorem List.exists_forall₂ {α : Type u} {β : Type v} {R : α → β → Prop} {as : List α}
    (h : ∀ a ∈ as, ∃ b, R a b) : ∃ bs, List.Forall₂ R as bs := by
  induction as with
  | nil => exact ⟨[], .nil⟩
  | cons a rest ih =>
    obtain ⟨ha, hrest⟩ := List.forall_mem_cons.1 h
    obtain ⟨b, hb⟩ := ha
    obtain ⟨bs, hbs⟩ := ih hrest
    exact ⟨b :: bs, .cons hb hbs⟩

/-! ## Plain steps -/

section Plain

variable {ε : Type u} {α β : Type v}

theorem Except.bind_eq_ok_iff {x : Except ε α} {f : α → Except ε β} {b : β} :
    (x >>= f) = .ok b ↔ ∃ a, x = .ok a ∧ f a = .ok b := by
  cases x with
  | error e => simp [bind, Except.bind]
  | ok a => simp [bind, Except.bind]

/-- A step fails when its first part does, or when its second one does. -/
theorem Except.bind_eq_error_iff {x : Except ε α} {f : α → Except ε β} {e : ε} :
    (x >>= f) = .error e ↔ x = .error e ∨ ∃ a, x = .ok a ∧ f a = .error e := by
  cases x with
  | error e' => simp [bind, Except.bind]
  | ok a => simp [bind, Except.bind]

theorem Except.toOption_eq_some_iff {x : Except ε α} {a : α} : x.toOption = some a ↔ x = .ok a := by
  cases x <;> simp [Except.toOption]

theorem Except.map_eq_ok_iff {x : Except ε α} {f : α → β} {b : β} :
    x.map f = .ok b ↔ ∃ a, x = .ok a ∧ f a = b := by
  cases x with
  | error e => simp [Except.map]
  | ok a => simp [Except.map]

theorem Except.mapError_eq_ok_iff {x : Except ε α} {f : ε → β} {a : α} : x.mapError f = .ok a ↔ x = .ok a := by
  cases x <;> simp [Except.mapError]

/-- A step through a list comes to a result exactly when it does so for every member. -/
theorem Except.mapM_eq_ok_iff {γ : Type} {f : γ → Except ε α} {l : List γ} {bs : List α} :
    l.mapM f = .ok bs ↔ List.Forall₂ (fun a b => f a = .ok b) l bs := by
  induction l generalizing bs with
  | nil =>
    rw [List.mapM_nil, List.forall₂_nil_left_iff]
    constructor
    · intro h
      exact (Except.ok.inj h).symm
    · rintro rfl
      rfl
  | cons a rest ih =>
    rw [List.mapM_cons, List.forall₂_cons_left_iff, Except.bind_eq_ok_iff]
    constructor
    · rintro ⟨b, hb, h⟩
      obtain ⟨others, hothers, h⟩ := Except.bind_eq_ok_iff.1 h
      exact ⟨b, others, hb, ih.1 hothers, (Except.ok.inj h).symm⟩
    · rintro ⟨b, others, hb, hothers, rfl⟩
      exact ⟨b, hb, Except.bind_eq_ok_iff.2 ⟨others, ih.2 hothers, rfl⟩⟩

/-- A step that comes to a result for every member does so for the list. -/
theorem Except.mapM_ok_of_forall {γ : Type} {f : γ → Except ε α} {l : List γ}
    (h : ∀ a ∈ l, ∃ b, f a = .ok b) : ∃ bs, l.mapM f = .ok bs := by
  induction l with
  | nil => exact ⟨[], rfl⟩
  | cons a rest ih =>
    obtain ⟨b, hb⟩ := h a (List.mem_cons_self ..)
    obtain ⟨bs, hbs⟩ := ih fun a ha => h a (List.mem_cons_of_mem _ ha)
    exact ⟨b :: bs, Except.mapM_eq_ok_iff.2 (.cons hb (Except.mapM_eq_ok_iff.1 hbs))⟩

/-- When a step comes to a result with a property for every member, so it does for the list. -/
theorem Except.exists_mapM_of_forall {γ : Type} {f : γ → Except ε α} {l : List γ} {P : α → Prop}
    (h : ∀ a ∈ l, ∃ b, f a = .ok b ∧ P b) : ∃ bs, l.mapM f = .ok bs ∧ ∀ b ∈ bs, P b := by
  obtain ⟨bs, hbs⟩ := Except.mapM_ok_of_forall fun a ha => (h a ha).imp fun _ => And.left
  refine ⟨bs, hbs, fun b hb => ?_⟩
  obtain ⟨a, ha, hstep⟩ := List.Forall₂.exists_of_mem_right (Except.mapM_eq_ok_iff.1 hbs) hb
  obtain ⟨b', hb', hP⟩ := h a ha
  cases hstep.symm.trans hb'
  exact hP

/-- A step whose result is known for every member has those results for the list. -/
theorem Except.mapM_eq_ok_map {γ : Type} {f : γ → Except ε α} {g : γ → α} {l : List γ}
    (h : ∀ a ∈ l, f a = .ok (g a)) : l.mapM f = .ok (l.map g) := by
  rw [Except.mapM_eq_ok_iff, List.forall₂_map_right_iff]
  exact List.forall₂_same.2 h

/-- When a step through a list fails, it fails so for the first member that it fails for. -/
theorem Except.split_of_mapM_eq_error {γ : Type} {f : γ → Except ε α} {l : List γ} {e : ε}
    (h : l.mapM f = .error e) :
    ∃ before a after, l = before ++ a :: after ∧ (∀ other ∈ before, ∃ b, f other = .ok b) ∧ f a = .error e := by
  induction l with
  | nil => cases h
  | cons a rest ih =>
    rw [List.mapM_cons] at h
    -- the first member fails, or one of the rest; building the list of results never does
    rcases Except.bind_eq_error_iff.1 h with hhead | ⟨b, hb, hrest⟩
    · exact ⟨[], a, rest, rfl, List.forall_mem_nil _, hhead⟩
    · rcases Except.bind_eq_error_iff.1 hrest with htail | ⟨bs, -, hpure⟩
      · obtain ⟨before, other, after, rfl, hbefore, hother⟩ := ih htail
        exact ⟨a :: before, other, after, rfl, List.forall_mem_cons.2 ⟨⟨b, hb⟩, hbefore⟩, hother⟩
      · cases hpure

/-- When a step through a list fails, it fails so for some member. -/
theorem Except.exists_of_mapM_eq_error {γ : Type} {f : γ → Except ε α} {l : List γ} {e : ε}
    (h : l.mapM f = .error e) : ∃ a ∈ l, f a = .error e := by
  obtain ⟨before, a, after, rfl, -, ha⟩ := Except.split_of_mapM_eq_error h
  exact ⟨a, by simp, ha⟩

end Plain

/-! ## Logged steps -/

namespace Logged

variable {ε α β : Type}

theorem eq_of_parts {x y : Logged ε α} (hevents : x.events = y.events) (hresult : x.result = y.result) :
    x = y := by
  cases x
  cases y
  subst hevents
  subst hresult
  rfl

theorem events_bind_ok {x : Logged ε α} {f : α → Logged ε β} {a : α} (h : x.result = .ok a) :
    (x >>= f).events = x.events ++ (f a).events := by
  dsimp only [bind]
  rw [h]

theorem events_bind_error {x : Logged ε α} {f : α → Logged ε β} {e : ε} (h : x.result = .error e) :
    (x >>= f).events = x.events := by
  dsimp only [bind]
  rw [h]

theorem bind_pure_self (x : Logged ε α) : (x >>= pure) = x := by
  apply eq_of_parts
  · cases h : x.result with
    | ok a =>
      rw [events_bind_ok h]
      exact List.append_nil _
    | error e => rw [events_bind_error h]
  · rw [result_bind]
    cases h : x.result <;> rfl

theorem bind_assoc_self {γ : Type} (x : Logged ε α) (f : α → Logged ε β) (g : β → Logged ε γ) :
    ((x >>= f) >>= g) = x >>= fun a => f a >>= g := by
  apply eq_of_parts
  -- the events end where the first step fails, on both sides alike
  · cases hx : x.result with
    | error e =>
      have hxf : (x >>= f).result = .error e := by
        rw [result_bind, hx]
        rfl
      rw [events_bind_error hxf, events_bind_error hx, events_bind_error hx]
    | ok a =>
      have hxf : (x >>= f).result = (f a).result := by
        rw [result_bind, hx]
        rfl
      cases hf : (f a).result with
      | error e =>
        rw [events_bind_error (hxf.trans hf), events_bind_ok hx, events_bind_ok hx,
          events_bind_error hf]
      | ok b =>
        rw [events_bind_ok (hxf.trans hf), events_bind_ok hx, events_bind_ok hx,
          events_bind_ok hf, List.append_assoc]
  · simp only [result_bind]
    cases x.result <;> rfl

instance : LawfulMonad (Logged ε) :=
  LawfulMonad.mk' (Logged ε) bind_pure_self
    (fun a f => eq_of_parts (events_bind_ok (result_pure a)) (result_bind _ _)) bind_assoc_self

/-- A plain step keeps its result among logged ones. -/
@[simp] theorem result_lift (x : Except ε α) : (liftM x : Logged ε α).result = x := rfl

@[simp] theorem result_tell (event : LogEvent) : (tell event : Logged ε Unit).result = .ok () := rfl

@[simp] theorem result_throw (e : ε) : (throw e : Logged ε α).result = .error e := rfl

@[simp] theorem result_map (f : α → β) (x : Logged ε α) : (f <$> x).result = x.result.map f := by
  show (x >>= fun a => pure (f a)).result = _
  rw [result_bind]
  cases x.result <;> rfl

/-- Through a list, a logged step has the results of the plain step. -/
theorem result_mapM {γ : Type} (f : γ → Logged ε α) (l : List γ) :
    (l.mapM f).result = l.mapM fun a => (f a).result := by
  induction l with
  | nil => rfl
  | cons a rest ih =>
    rw [List.mapM_cons, List.mapM_cons, result_bind]
    congr 1
    funext b
    rw [result_bind, ih]
    rfl

/-- On a state, logged steps in a row have the results of the plain ones. -/
theorem result_foldlM {γ : Type} (f : α → γ → Logged ε α) (l : List γ) (start : α) :
    (l.foldlM f start).result = l.foldlM (fun b a => (f b a).result) start := by
  induction l generalizing start with
  | nil => rfl
  | cons a rest ih =>
    rw [List.foldlM_cons, List.foldlM_cons, result_bind]
    congr 1
    funext b
    exact ih b

/-! ## What every result has -/

section Ensures

variable {P : α → Prop} {Q : β → Prop}

/-- Whatever result the step comes to has the property. -/
def Ensures (P : α → Prop) (step : Logged ε α) : Prop := ∀ a, step.result = .ok a → P a

theorem ensures_pure {a : α} (h : P a) : Ensures P (pure a : Logged ε α) := by
  rintro _ ⟨⟩
  exact h

theorem ensures_bind {step : Logged ε α} {next : α → Logged ε β} (h : ∀ a, step.result = .ok a → Ensures Q (next a)) :
    Ensures Q (step >>= next) := by
  intro b hb
  rw [result_bind] at hb
  obtain ⟨a, ha, hb⟩ := Except.bind_eq_ok_iff.1 hb
  exact h a ha b hb

theorem ensures_mapM {things : List α} {step : α → Logged ε β} (h : ∀ a ∈ things, Ensures Q (step a)) :
    Ensures (fun results => ∀ b ∈ results, Q b) (things.mapM step) := by
  intro results hresults b hb
  rw [result_mapM] at hresults
  obtain ⟨a, ha, hstep⟩ := List.Forall₂.exists_of_mem_right (Except.mapM_eq_ok_iff.1 hresults) hb
  exact h a ha b hstep

end Ensures

end Logged

end Bilingual
