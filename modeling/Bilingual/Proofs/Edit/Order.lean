import Bilingual.Proofs.Edit
import Mathlib.Data.List.Chain

set_option autoImplicit false

/-! # Edits are carried out at once

Edits are sorted by their spans, checked from left to right and carried out from right to left. Which text they make is
told without any of that: in the one order of their spans that keeps edits of the same span as they are given
(`Edit.Arranges`), the replacements stand between the pieces of the text that no span covers (`Edit.splice`). They are
refused exactly when a span is none of the text or, in that order, an edit starts before the one in front of it ends
(`Edit.applyAll_simultaneous`). -/

namespace Bilingual.Edit

variable {edits ordered : List Edit}

/-! ## The order of edits -/

/-- The edits of one span, as they are given. -/
def onSpan (start stop : Int) (edits : List Edit) : List Edit :=
  edits.filter fun e => decide (e.start = start ∧ e.stop = stop)

theorem mem_onSpan {start stop : Int} {e : Edit} :
    e ∈ onSpan start stop edits ↔ e ∈ edits ∧ e.start = start ∧ e.stop = stop := by
  rw [onSpan, List.mem_filter, decide_eq_true_iff]

theorem onSpan_cons_of {start stop : Int} {e : Edit} (h : e.start = start ∧ e.stop = stop) (edits : List Edit) :
    onSpan start stop (e :: edits) = e :: onSpan start stop edits := List.filter_cons_of_pos (decide_eq_true h)

theorem onSpan_cons_of_not {start stop : Int} {e : Edit} (h : ¬ (e.start = start ∧ e.stop = stop))
    (edits : List Edit) : onSpan start stop (e :: edits) = onSpan start stop edits :=
  List.filter_cons_of_neg fun hspan => h (of_decide_eq_true hspan)

/-- The edits in order of start and then of end, where those of the same span are in the order in which they are
given. -/
structure Arranges (edits ordered : List Edit) : Prop where
  perm : ordered.Perm edits
  sorted : ordered.Pairwise fun a b => a.start < b.start ∨ a.start = b.start ∧ a.stop ≤ b.stop
  stable : ∀ start stop, onSpan start stop ordered = onSpan start stop edits

theorem onSpan_insert (start stop : Int) (e : Edit) (edits : List Edit) :
    onSpan start stop (insert e edits) = onSpan start stop (e :: edits) := by
  induction edits with
  | nil => rfl
  | cons first rest ih =>
    rw [insert]
    split
    · rfl
    · next hgt =>
      -- an edit that is passed over has another span
      have hne : ¬ (e.start = first.start ∧ e.stop = first.stop) := by
        rw [le, decide_eq_true_eq] at hgt
        omega
      by_cases hfirst : first.start = start ∧ first.stop = stop
      · have he : ¬ (e.start = start ∧ e.stop = stop) := by omega
        rw [onSpan_cons_of hfirst, ih, onSpan_cons_of_not he, onSpan_cons_of_not he, onSpan_cons_of hfirst]
      · by_cases he : e.start = start ∧ e.stop = stop
        · rw [onSpan_cons_of_not hfirst, ih, onSpan_cons_of he, onSpan_cons_of he, onSpan_cons_of_not hfirst]
        · rw [onSpan_cons_of_not hfirst, ih, onSpan_cons_of_not he, onSpan_cons_of_not he,
            onSpan_cons_of_not hfirst]

theorem onSpan_sort (start stop : Int) (edits : List Edit) :
    onSpan start stop (sort edits) = onSpan start stop edits := by
  induction edits with
  | nil => rfl
  | cons e rest ih =>
    show onSpan start stop (insert e (sort rest)) = _
    rw [onSpan_insert]
    by_cases he : e.start = start ∧ e.stop = stop
    · rw [onSpan_cons_of he, onSpan_cons_of he, ih]
    · rw [onSpan_cons_of_not he, onSpan_cons_of_not he, ih]

theorem arranges_sort (edits : List Edit) : Arranges edits (sort edits) where
  perm := sort_perm edits
  sorted := (sort_sorted edits).imp fun hle => by
    rw [le, decide_eq_true_eq] at hle
    exact hle
  stable start stop := onSpan_sort start stop edits

/-- Of two lists in order with the same edits of every span, the second one does not begin with a greater span. -/
theorem le_head_of_onSpan {first first' : Edit} {rest rest' : List Edit}
    (hsorted : (first' :: rest').Pairwise fun a b => a.start < b.start ∨ a.start = b.start ∧ a.stop ≤ b.stop)
    (h : ∀ start stop, onSpan start stop (first :: rest) = onSpan start stop (first' :: rest')) :
    first'.start < first.start ∨ first'.start = first.start ∧ first'.stop ≤ first.stop := by
  have hmem : first ∈ onSpan first.start first.stop (first' :: rest') := by
    rw [← h]
    exact mem_onSpan.2 ⟨List.mem_cons_self, rfl, rfl⟩
  rcases List.mem_cons.1 (mem_onSpan.1 hmem).1 with heq | hrest
  · rw [heq]
    omega
  · exact (List.pairwise_cons.1 hsorted).1 first hrest

theorem eq_of_onSpan {a b : List Edit}
    (ha : a.Pairwise fun a b => a.start < b.start ∨ a.start = b.start ∧ a.stop ≤ b.stop)
    (hb : b.Pairwise fun a b => a.start < b.start ∨ a.start = b.start ∧ a.stop ≤ b.stop)
    (h : ∀ start stop, onSpan start stop a = onSpan start stop b) : a = b := by
  induction a generalizing b with
  | nil =>
    cases b with
    | nil => rfl
    | cons first' rest' =>
      have := h first'.start first'.stop
      rw [onSpan_cons_of ⟨rfl, rfl⟩] at this
      cases this
  | cons first rest ih =>
    cases b with
    | nil =>
      have := h first.start first.stop
      rw [onSpan_cons_of ⟨rfl, rfl⟩] at this
      cases this
    | cons first' rest' =>
      have hle := le_head_of_onSpan hb h
      have hge := le_head_of_onSpan ha fun start stop => (h start stop).symm
      have hspan : first'.start = first.start ∧ first'.stop = first.stop := by omega
      have hhead := h first.start first.stop
      rw [onSpan_cons_of ⟨rfl, rfl⟩, onSpan_cons_of hspan] at hhead
      obtain ⟨rfl, -⟩ := List.cons.inj hhead
      refine congrArg _ (ih (List.pairwise_cons.1 ha).2 (List.pairwise_cons.1 hb).2 fun start stop => ?_)
      have hrest := h start stop
      by_cases hfirst : first.start = start ∧ first.stop = stop
      · rw [onSpan_cons_of hfirst, onSpan_cons_of hfirst] at hrest
        exact (List.cons.inj hrest).2
      · rwa [onSpan_cons_of_not hfirst, onSpan_cons_of_not hfirst] at hrest

/-- There is one such order, and sorting finds it. -/
theorem Arranges.eq_sort (h : Arranges edits ordered) : ordered = sort edits :=
  eq_of_onSpan h.sorted (arranges_sort edits).sorted fun start stop =>
    (h.stable start stop).trans (onSpan_sort start stop edits).symm

/-- Where no two edits have the same span, the order in which they are given does not matter. -/
theorem sort_eq_sort {given : List Edit} (hperm : given.Perm edits)
    (hdistinct : edits.Pairwise fun a b => ¬ (a.start = b.start ∧ a.stop = b.stop)) : sort given = sort edits := by
  have hsorted := (sort_perm given).trans hperm
  refine List.Perm.eq_of_pairwise (fun a b ha hb hab hba => ?_) (sort_sorted given) (sort_sorted edits)
    (hsorted.trans (sort_perm edits).symm)
  have : Std.Symm fun a b : Edit => ¬ (a.start = b.start ∧ a.stop = b.stop) :=
    ⟨fun _ _ hne heq => hne ⟨heq.1.symm, heq.2.symm⟩⟩
  by_contra hne
  refine hdistinct.forall (hsorted.mem_iff.1 ha) ((sort_perm edits).mem_iff.1 hb) hne ?_
  unfold le at hab hba
  rw [decide_eq_true_eq] at hab hba
  omega

/-! ## Edits that are refused -/

/-- Edits in order cannot be carried out together in a text of the given size: a span starts in front of the text, ends
behind it or before it starts, or an edit starts before the one in front of it ends. -/
def Refused (size : Nat) (ordered : List Edit) : Prop :=
  (∃ e ∈ ordered, e.start < 0 ∨ e.stop < e.start ∨ (size : Int) < e.stop) ∨
    ¬ ordered.IsChain fun a b => a.stop ≤ b.start

theorem check_eq_ok_iff {size : Nat} {start : Int} : check size start ordered = .ok () ↔
    (∀ e ∈ ordered.head?, start ≤ e.start) ∧ (∀ e ∈ ordered, e.start ≤ e.stop ∧ e.stop ≤ size) ∧
      ordered.IsChain fun a b => a.stop ≤ b.start := by
  induction ordered generalizing start with
  | nil => simp [check]
  | cons e rest ih =>
    rw [check, List.isChain_cons, List.forall_mem_cons]
    by_cases hspan : e.start < start ∨ e.stop < e.start ∨ (size : Int) < e.stop
    · rw [if_pos hspan]
      refine iff_of_false (fun h => by cases h) fun h => ?_
      have := h.1 e rfl
      omega
    · rw [if_neg hspan, ih]
      constructor
      · rintro ⟨hnext, hspans, hchain⟩
        refine ⟨?_, ⟨by omega, hspans⟩, hnext, hchain⟩
        rintro _ ⟨⟩
        omega
      · rintro ⟨-, ⟨-, hspans⟩, hnext, hchain⟩
        exact ⟨hnext, hspans, hchain⟩

/-- A check that fails names one of the edits. -/
theorem exists_of_check_ne_ok {size : Nat} {start : Int} (h : check size start ordered ≠ .ok ()) :
    ∃ e ∈ ordered, check size start ordered = .error (.editSpan e.start e.stop) := by
  induction ordered generalizing start with
  | nil => exact absurd rfl h
  | cons e rest ih =>
    rw [check] at h ⊢
    split at h
    · next hspan =>
      rw [if_pos hspan]
      exact ⟨e, List.mem_cons_self, rfl⟩
    · next hspan =>
      obtain ⟨other, hother, hcheck⟩ := ih h
      rw [if_neg hspan]
      exact ⟨other, List.mem_cons_of_mem _ hother, hcheck⟩

theorem Arranges.check_eq_ok_iff {size : Nat} (h : Arranges edits ordered) :
    check size 0 ordered = .ok () ↔ ¬ Refused size ordered := by
  rw [Edit.check_eq_ok_iff, Refused, not_or, not_not]
  constructor
  · rintro ⟨hfirst, hspans, hchain⟩
    refine ⟨?_, hchain⟩
    rintro ⟨e, he, hbad⟩
    have hspan := hspans e he
    -- no edit starts before the first one
    have hstart : 0 ≤ e.start := by
      cases ordered with
      | nil => cases he
      | cons first rest =>
        have hfirst := hfirst first rfl
        rcases List.mem_cons.1 he with rfl | hrest
        · exact hfirst
        · have := (List.pairwise_cons.1 h.sorted).1 e hrest
          omega
    omega
  · rintro ⟨hspans, hchain⟩
    have hwithin : ∀ e ∈ ordered, 0 ≤ e.start ∧ e.start ≤ e.stop ∧ e.stop ≤ size := by
      intro e he
      by_contra hnot
      exact hspans ⟨e, he, by omega⟩
    exact ⟨fun e he => (hwithin e (List.mem_of_mem_head? he)).1, fun e he => (hwithin e he).2, hchain⟩

/-! ## Simultaneous replacement -/

/-- Several edits of a text are carried out at once. In the order of their spans, which exists, they are refused exactly
when a span is none of the text or two of them overlap, and then the failure names one of them; otherwise the result is
the text with the replacements between the pieces that no span covers. When no two edits have the same span, this is so
in whatever order they are given. -/
theorem applyAll_simultaneous (text : Text) (edits : List Edit) :
    (∃ ordered, Arranges edits ordered) ∧
      (∀ ordered, Arranges edits ordered →
        (Refused text.length ordered ↔ ∃ e ∈ edits, applyAll text edits = .error (.editSpan e.start e.stop)) ∧
          (¬ Refused text.length ordered → applyAll text edits = .ok (splice text 0 ordered))) ∧
      ∀ given, given.Perm edits → (edits.Pairwise fun a b => ¬ (a.start = b.start ∧ a.stop = b.stop)) →
        applyAll text given = applyAll text edits := by
  refine ⟨⟨sort edits, arranges_sort edits⟩, fun ordered h => ?_, fun given hperm hdistinct => ?_⟩
  · obtain rfl := h.eq_sort
    have hcarried : ¬ Refused text.length (sort edits) → applyAll text edits = .ok (splice text 0 (sort edits)) := by
      intro hrefused
      have hcheck := h.check_eq_ok_iff.2 hrefused
      have hspans := (Edit.check_eq_ok_iff.1 hcheck).2.1
      have horder : InOrder text.length 0 (sort edits) :=
        inOrder_of_pairwise (Nat.zero_le _) (fun e he => ⟨(pairwise_of_check hcheck).1 e he, hspans e he⟩)
          (pairwise_of_check hcheck).2
      unfold applyAll
      dsimp only
      rw [hcheck, foldr_apply_eq horder]
      rfl
    refine ⟨⟨fun hrefused => ?_, ?_⟩, hcarried⟩
    · obtain ⟨e, he, hcheck⟩ := exists_of_check_ne_ok (mt h.check_eq_ok_iff.1 (not_not.2 hrefused))
      refine ⟨e, (sort_perm edits).mem_iff.1 he, ?_⟩
      unfold applyAll
      dsimp only
      rw [hcheck]
      rfl
    · rintro ⟨e, -, hfails⟩
      by_contra hrefused
      rw [hcarried hrefused] at hfails
      cases hfails
  · unfold applyAll
    rw [sort_eq_sort hperm hdistinct]

/-- Two insertions at the same place, an edit that touches them and one that empties a span, out of order. -/
def touchingEdits : List Edit := [⟨4, 5, []⟩, ⟨2, 2, "b"⟩, ⟨2, 4, "cc"⟩, ⟨2, 2, "a"⟩]

/-- Insertions at one place stay in the order in which they are given. An insertion inside another span is refused, and
edits of different spans may be given in any order. -/
theorem applyAll_touchingEdits :
    (Arranges touchingEdits [⟨2, 2, "b"⟩, ⟨2, 2, "a"⟩, ⟨2, 4, "cc"⟩, ⟨4, 5, []⟩] ∧
      ¬ Refused 6 [⟨2, 2, "b"⟩, ⟨2, 2, "a"⟩, ⟨2, 4, "cc"⟩, ⟨4, 5, []⟩] ∧
        applyAll "012345" touchingEdits = .ok "01bacc5") ∧
      (Refused 6 [⟨1, 4, "x"⟩, ⟨3, 3, "y"⟩] ∧
        ∃ e ∈ [(⟨3, 3, "y"⟩ : Edit), ⟨1, 4, "x"⟩],
          applyAll "012345" [⟨3, 3, "y"⟩, ⟨1, 4, "x"⟩] = .error (.editSpan e.start e.stop)) ∧
      applyAll "012345" [⟨2, 4, "c"⟩, ⟨4, 5, []⟩, ⟨0, 1, "d"⟩] =
        applyAll "012345" [⟨0, 1, "d"⟩, ⟨4, 5, []⟩, ⟨2, 4, "c"⟩] := by
  have htouching : Arranges touchingEdits [⟨2, 2, "b"⟩, ⟨2, 2, "a"⟩, ⟨2, 4, "cc"⟩, ⟨4, 5, []⟩] :=
    arranges_sort touchingEdits
  have hfree : ¬ Refused 6 [⟨2, 2, "b"⟩, ⟨2, 2, "a"⟩, ⟨2, 4, "cc"⟩, ⟨4, 5, []⟩] := by
    simp [Refused]
  have hinside : Arranges [⟨3, 3, "y"⟩, ⟨1, 4, "x"⟩] [⟨1, 4, "x"⟩, ⟨3, 3, "y"⟩] := arranges_sort _
  have hrefused : Refused 6 [⟨1, 4, "x"⟩, ⟨3, 3, "y"⟩] := by simp [Refused]
  refine ⟨⟨htouching, hfree, ?_⟩, ⟨hrefused, ?_⟩, ?_⟩
  · exact ((applyAll_simultaneous "012345" touchingEdits).2.1 _ htouching).2 hfree
  · exact ((applyAll_simultaneous "012345" _).2.1 _ hinside).1.1 hrefused
  · have hperm := List.reverse_perm [(⟨0, 1, "d"⟩ : Edit), ⟨4, 5, []⟩, ⟨2, 4, "c"⟩]
    exact (applyAll_simultaneous "012345" _).2.2 _ hperm (by simp)

end Bilingual.Edit
