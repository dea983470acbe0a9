import Bilingual.Data.Checked
import Bilingual.Proofs.OrderedMap

set_option autoImplicit false

/-! # What checked values are

A check ensures a property when whatever value it comes to has it (`Checked.Ensures`). A check that is made of others
ensures what follows from what these ensure: there is one lemma for each way of putting checks together. A checked map
has distinct keys, however often the data repeats one (`Checked.ensures_map`). -/

namespace Bilingual

namespace Checked

variable {α β : Type} {P : α → Prop} {Q : β → Prop} {check : Data → Checked α}

/-- Whatever value the check comes to has the property. -/
def Ensures (P : α → Prop) (x : Checked α) : Prop := ∀ a, x = .ok a → P a

theorem ensures_ok {a : α} (h : P a) : Ensures P (ok a) := by
  rintro _ ⟨⟩
  exact h

theorem ensures_problem (kind : ProblemKind) : Ensures P (problem kind : Checked α) := by
  rintro _ ⟨⟩

theorem ensures_true (x : Checked α) : Ensures (fun _ => True) x := fun _ _ => trivial

theorem Ensures.mono {P' : α → Prop} {x : Checked α} (hx : Ensures P x) (h : ∀ a, P a → P' a) : Ensures P' x :=
  fun a ha => h a (hx a ha)

/-! ## Checks put together -/

theorem Ensures.map {x : Checked β} {f : β → α} (hx : Ensures Q x) (hf : ∀ b, Q b → P (f b)) :
    Ensures P (f <$> x) := by
  cases x with
  | ok b =>
    rintro _ ⟨⟩
    exact hf b (hx b rfl)
  | bad problems => rintro _ ⟨⟩

theorem Ensures.seq {f : Checked (β → α)} {x : Checked β} (hf : Ensures (fun f => ∀ b, Q b → P (f b)) f)
    (hx : Ensures Q x) : Ensures P (f <*> x) := by
  cases f with
  | ok f =>
    cases x with
    | ok b =>
      rintro _ ⟨⟩
      exact hf f rfl b (hx b rfl)
    | bad problems => rintro _ ⟨⟩
  | bad problems =>
    cases x with
    | ok b => rintro _ ⟨⟩
    | bad others => rintro _ ⟨⟩

/-- What two checks ensure goes into what is made of their values. -/
theorem ensures_map₂ {γ : Type} {R : γ → Prop} {f : γ → β → α} {x : Checked γ} {y : Checked β} (hx : Ensures R x)
    (hy : Ensures Q y) (hf : ∀ c b, R c → Q b → P (f c b)) : Ensures P (f <$> x <*> y) :=
  Ensures.seq (Ensures.map hx fun c hc b hb => hf c b hc hb) hy

/-- So does what three ensure. -/
theorem ensures_map₃ {γ δ : Type} {R : γ → Prop} {S : δ → Prop} {f : γ → δ → β → α} {x : Checked γ} {y : Checked δ}
    {z : Checked β} (hx : Ensures R x) (hy : Ensures S y) (hz : Ensures Q z)
    (hf : ∀ c d b, R c → S d → Q b → P (f c d b)) : Ensures P (f <$> x <*> y <*> z) :=
  Ensures.seq (ensures_map₂ hx hy fun c d hc hd b hb => hf c d b hc hd hb) hz

theorem Ensures.under {x : Checked α} (hx : Ensures P x) (step : DataKey) : Ensures P (x.under step) := by
  cases x with
  | ok a => exact hx
  | bad problems => rintro _ ⟨⟩

theorem andThen_eq_ok_iff {x : Checked β} {f : β → Checked α} {a : α} :
    x.andThen f = .ok a ↔ ∃ b, x = .ok b ∧ f b = .ok a := by
  cases x with
  | ok b => simp [andThen]
  | bad problems => simp [andThen]

/-! ## Texts -/

/-- What a text that must not be empty is. -/
theorem ensures_nonEmptyText (d : Data) :
    Ensures (fun t : Text => t ≠ [] ∧ t.hasSurrogate = false) (nonEmptyText d) := by
  intro t ht
  obtain ⟨given, -, ht⟩ := andThen_eq_ok_iff.1 ht
  split at ht
  · cases ht
  · next hsound =>
    split at ht
    · cases ht
    · next hempty =>
      cases ht
      exact ⟨fun hnil => hempty (List.isEmpty_iff.2 hnil), Bool.eq_false_iff.2 hsound⟩

/-! ## Lists and maps -/

theorem ensures_itemsFrom (h : ∀ d, Ensures P (check d)) (index : Nat) (items : List Data) :
    Ensures (fun as => ∀ a ∈ as, P a) (itemsFrom check index items) := by
  induction items generalizing index with
  | nil => exact ensures_ok (by simp)
  | cons item items ih =>
    refine Ensures.seq (Ensures.map ((h item).under _) fun a ha as has => ?_) (ih (index + 1))
    exact List.forall_mem_cons.2 ⟨ha, has⟩

theorem ensures_list (h : ∀ d, Ensures P (check d)) (d : Data) :
    Ensures (fun as => ∀ a ∈ as, P a) (list check d) := by
  cases d with
  | list items => exact ensures_itemsFrom h 0 items
  | set items => exact ensures_itemsFrom h 0 items
  | _ => exact ensures_problem _

/-- A list that must not be empty has an item. -/
theorem ensures_nonEmptyList (h : ∀ d, Ensures P (check d)) (d : Data) :
    Ensures (fun as => as ≠ [] ∧ ∀ a ∈ as, P a) (nonEmptyList check d) := by
  have hcons : ∀ item items, Ensures (fun as => as ≠ [] ∧ ∀ a ∈ as, P a) (itemsFrom check 0 (item :: items)) :=
    fun item items => Ensures.seq (Ensures.map ((h item).under _) fun a ha as has =>
      ⟨List.cons_ne_nil a as, List.forall_mem_cons.2 ⟨ha, has⟩⟩) (ensures_itemsFrom h 1 items)
  cases d with
  | list items | set items =>
    cases items with
    | nil => exact ensures_problem _
    | cons item items => exact hcons item items
  | _ => exact ensures_problem _

theorem ensures_entries (h : ∀ d, Ensures P (check d)) (fields : List (DataKey × Data)) :
    Ensures (fun pairs => ∀ pair ∈ pairs, P pair.2) (entries check fields) := by
  induction fields with
  | nil => exact ensures_ok (by simp)
  | cons field rest ih =>
    refine Ensures.seq (Ensures.seq (Ensures.map (ensures_true _) fun key _ value hvalue pairs hpairs => ?_)
      ((h field.2).under _)) ih
    exact List.forall_mem_cons.2 ⟨hvalue, hpairs⟩

/-- A checked map has distinct keys. -/
theorem ensures_map (h : ∀ d, Ensures P (check d)) (d : Data) :
    Ensures (fun m => OrderedMap.Distinct m ∧ ∀ pair ∈ m, P pair.2) (map check d) := by
  cases d with
  | map fields =>
    refine Ensures.map (ensures_entries h fields) fun pairs hpairs => ⟨OrderedMap.distinct_ofPairs pairs, ?_⟩
    exact fun pair hpair => hpairs pair (OrderedMap.mem_of_mem_ofPairs hpair)
  | _ => exact ensures_problem _

theorem ensures_distinct (check : Data → Checked α) (d : Data) : Ensures OrderedMap.Distinct (map check d) :=
  (ensures_map (fun d => ensures_true (check d)) d).mono fun _ h => h.1

/-! ## Models -/

variable {fields : List (DataKey × Data)}

theorem ensures_required (h : ∀ d, Ensures P (check d)) (name : Text) : Ensures P (required fields name check) := by
  unfold required
  split
  · exact (h _).under _
  · exact Ensures.under (ensures_problem _) _

theorem ensures_defaulted {default : α} (hdefault : P default) (h : ∀ d, Ensures P (check d)) (name : Text) :
    Ensures P (defaulted fields name default check) := by
  unfold defaulted
  split
  · exact (h _).under _
  · exact ensures_ok hdefault

theorem ensures_model {check : List (DataKey × Data) → Checked α} (h : ∀ fields, Ensures P (check fields))
    (names : List Text) (d : Data) : Ensures P (model names check d) := by
  cases d with
  | map fields =>
    show Ensures P (withSoundKeys fields _)
    unfold withSoundKeys
    split
    · exact ensures_problem _
    · exact Ensures.seq (Ensures.map (h fields) fun a ha _ _ => ha) (ensures_true _)
  | _ => exact ensures_problem _

end Checked

end Bilingual
