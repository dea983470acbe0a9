import Bilingual.Edit
import Bilingual.Proofs.Step
import Bilingual.Text.Search
import Mathlib.Data.List.Pairwise

set_option autoImplicit false

/-! # What edits do to a text

Edits are carried out from the right, one after the other. When none of them reaches into another one, the
result is the text read from left to right with the replacements in place of the spans (`Edit.splice`), in
whatever order the edits are given (`Edit.applyAll_eq_splice`). -/

namespace Bilingual

theorem Text.slice_append_drop {t : Text} {start stop : Nat} (h : start ≤ stop) :
    t.slice start stop ++ t.drop stop = t.drop start := by
  obtain ⟨n, rfl⟩ := Nat.exists_eq_add_of_le h
  rw [slice, List.drop_take, Nat.add_sub_cancel_left, ← List.drop_drop, List.take_append_drop]

namespace Edit

/-! ## Sorting -/

theorem insert_perm (e : Edit) (edits : List Edit) : (insert e edits).Perm (e :: edits) := by
  induction edits with
  | nil => exact List.Perm.refl _
  | cons first rest ih =>
    rw [insert]
    split
    · exact List.Perm.refl _
    · exact (ih.cons first).trans (List.Perm.swap ..)

theorem sort_perm (edits : List Edit) : (sort edits).Perm edits := by
  induction edits with
  | nil => exact List.Perm.refl _
  | cons e rest ih => exact (insert_perm e _).trans (ih.cons e)

theorem le_trans {a b c : Edit} (hab : a.le b = true) (hbc : b.le c = true) : a.le c = true := by
  unfold le at *
  rw [decide_eq_true_eq] at *
  omega

theorem le_total {a b : Edit} (h : ¬ a.le b = true) : b.le a = true := by
  unfold le at *
  rw [decide_eq_true_eq] at *
  omega

theorem insert_sorted {e : Edit} {edits : List Edit} (h : edits.Pairwise fun a b => a.le b = true) :
    (insert e edits).Pairwise fun a b => a.le b = true := by
  induction edits with
  | nil => exact List.pairwise_singleton _ _
  | cons first rest ih =>
    obtain ⟨hfirst, hrest⟩ := List.pairwise_cons.1 h
    rw [insert]
    split
    · next hle =>
      refine List.pairwise_cons.2 ⟨fun other hother => ?_, h⟩
      rcases List.mem_cons.1 hother with rfl | hother
      · exact hle
      · exact le_trans hle (hfirst other hother)
    · next hgt =>
      refine List.pairwise_cons.2 ⟨fun other hother => ?_, ih hrest⟩
      rcases List.mem_cons.1 ((insert_perm e rest).mem_iff.1 hother) with rfl | hother
      · exact le_total hgt
      · exact hfirst other hother

theorem sort_sorted (edits : List Edit) : (sort edits).Pairwise fun a b => a.le b = true := by
  induction edits with
  | nil => exact List.Pairwise.nil
  | cons e rest ih => exact insert_sorted ih

/-- Edits in order of their starts, no two of which are the same, are what sorting them gives. -/
theorem sort_eq_of_perm {edits ordered : List Edit} (hperm : edits.Perm ordered)
    (hordered : ordered.Pairwise fun a b => a.start < b.start) : sort edits = ordered := by
  refine List.Perm.eq_of_pairwise ?_ (sort_sorted edits) ?_ ((sort_perm edits).trans hperm)
  -- the order of edits is only antisymmetric among edits that start at different places
  · intro a b ha hb hab hba
    have ha := ((sort_perm edits).trans hperm).mem_iff.1 ha
    by_contra hne
    have : Std.Symm fun a b : Edit => a.start ≠ b.start := ⟨fun _ _ => Ne.symm⟩
    have hdistinct : ordered.Pairwise fun a b => a.start ≠ b.start := hordered.imp fun h => Int.ne_of_lt h
    have hstarts : a.start ≠ b.start := hdistinct.forall ha hb hne
    unfold le at hab hba
    rw [decide_eq_true_eq] at hab hba
    omega
  · refine hordered.imp fun h => ?_
    unfold le
    rw [decide_eq_true_eq]
    exact .inl h

/-! ## Carrying out -/

/-- Edits from left to right in a text of the given size: each starts at `start` or later, behind the end of
the one before it. -/
def InOrder (size : Nat) : Nat → List Edit → Prop
  | start, [] => start ≤ size
  | start, e :: rest =>
    (start : Int) ≤ e.start ∧ e.start ≤ e.stop ∧ InOrder size e.stop.toNat rest

/-- The text from an offset on, with replacements in place of spans that come from left to right. -/
def splice (text : Text) : Nat → List Edit → Text
  | offset, [] => text.drop offset
  | offset, e :: rest =>
    text.slice offset e.start.toNat ++ e.replacement ++ splice text e.stop.toNat rest

theorem InOrder.le_size {size start : Nat} {edits : List Edit} (h : InOrder size start edits) :
    start ≤ size := by
  induction edits generalizing start with
  | nil => exact h
  | cons e rest ih =>
    obtain ⟨hstart, hstop, hrest⟩ := h
    have := ih hrest
    omega

theorem InOrder.mono {size start start' : Nat} {edits : List Edit} (h : InOrder size start edits)
    (hle : start' ≤ start) : InOrder size start' edits := by
  cases edits with
  | nil => exact Nat.le_trans hle h
  | cons e rest =>
    obtain ⟨hstart, hstop, hrest⟩ := h
    exact ⟨by omega, hstop, hrest⟩

/-- Edits of a text that come from left to right without reaching into each other are in order. -/
theorem inOrder_of_pairwise {size start : Nat} {edits : List Edit} (hsize : start ≤ size)
    (hspan : ∀ e ∈ edits, (start : Int) ≤ e.start ∧ e.start ≤ e.stop ∧ e.stop ≤ size)
    (hedits : edits.Pairwise fun a b => a.stop ≤ b.start) : InOrder size start edits := by
  induction edits generalizing start with
  | nil => exact hsize
  | cons e rest ih =>
    obtain ⟨hbehind, hrest⟩ := List.pairwise_cons.1 hedits
    obtain ⟨hstart, hstop, hle⟩ := hspan e (List.mem_cons_self ..)
    refine ⟨hstart, hstop, ih (by omega) (fun other hother => ?_) hrest⟩
    obtain ⟨-, hother', hle'⟩ := hspan other (List.mem_cons_of_mem _ hother)
    have := hbehind other hother
    exact ⟨by omega, hother', hle'⟩

theorem check_eq_ok {size start : Nat} {edits : List Edit} (h : InOrder size start edits) :
    check size start edits = .ok () := by
  induction edits generalizing start with
  | nil => rfl
  | cons e rest ih =>
    obtain ⟨hstart, hstop, hrest⟩ := h
    have hsize := hrest.le_size
    have hcast : ((e.stop.toNat : Nat) : Int) = e.stop := Int.toNat_of_nonneg (by omega)
    rw [check, if_neg (by omega), ← hcast]
    exact ih hrest

theorem take_append_slice {text : Text} {start stop : Nat} (h : start ≤ stop) :
    text.take start ++ text.slice start stop = text.take stop := by
  have hstart : text.take start = (text.take stop).take start := by
    rw [List.take_take, Nat.min_eq_left h]
  rw [Text.slice, hstart, List.take_append_drop]

theorem slice_append_slice {text : Text} {start between stop : Nat} (hstart : start ≤ between)
    (hstop : between ≤ stop) : text.slice start between ++ text.slice between stop = text.slice start stop := by
  obtain ⟨m, rfl⟩ := Nat.exists_eq_add_of_le hstart
  obtain ⟨n, rfl⟩ := Nat.exists_eq_add_of_le hstop
  rw [Text.slice, Text.slice, Text.slice, List.drop_take, List.drop_take, List.drop_take, Nat.add_sub_cancel_left,
    Nat.add_sub_cancel_left, Nat.add_assoc, Nat.add_sub_cancel_left, List.take_add, List.drop_drop]

/-- Edits in order leave what is in front of them, and give the text with their replacements behind. -/
theorem foldr_apply_eq {text : Text} {offset : Nat} {edits : List Edit}
    (h : InOrder text.length offset edits) :
    edits.foldr apply text = text.take offset ++ splice text offset edits := by
  induction edits generalizing offset with
  | nil => exact (List.take_append_drop offset text).symm
  | cons e rest ih =>
    obtain ⟨hstart, hstop, hrest⟩ := h
    have hsize := hrest.le_size
    have hlength : (text.take e.stop.toNat).length = e.stop.toNat := by
      rw [List.length_take, Nat.min_eq_left hsize]
    -- the edits behind have left the text up to the end of this one's span as it was
    rw [List.foldr_cons, ih hrest, apply, splice, List.take_append_of_le_length (by omega),
      List.take_take, Nat.min_eq_left (by omega), List.drop_append_of_le_length (by omega),
      List.drop_eq_nil_of_le (by omega), List.nil_append, ← List.append_assoc, ← List.append_assoc,
      take_append_slice (by omega)]

/-- In whatever order edits are given that do not reach into each other, they put their replacements in
place of their spans. -/
theorem applyAll_eq_splice {text : Text} {edits ordered : List Edit} (hperm : edits.Perm ordered)
    (hstarts : ordered.Pairwise fun a b => a.start < b.start) (h : InOrder text.length 0 ordered) :
    applyAll text edits = .ok (splice text 0 ordered) := by
  unfold applyAll
  rw [sort_eq_of_perm hperm hstarts]
  dsimp only
  have hcheck : check text.length 0 ordered = .ok () := check_eq_ok h
  rw [hcheck, foldr_apply_eq h]
  rfl

/-! ## Edits that change nothing -/

/-- What stands in front of the first edit may be read on its own. -/
theorem slice_append_splice {text : Text} {start offset : Nat} {edits : List Edit} (hle : start ≤ offset)
    (h : InOrder text.length offset edits) :
    text.slice start offset ++ splice text offset edits = splice text start edits := by
  cases edits with
  | nil => exact Text.slice_append_drop hle
  | cons e rest =>
    obtain ⟨hstart, -, -⟩ := h
    rw [splice, splice, ← List.append_assoc, ← List.append_assoc, slice_append_slice hle (by omega)]

/-- An edit that puts back what stands in its span may be left out. -/
theorem splice_cons_slice {text : Text} {start : Nat} {e : Edit} {rest : List Edit}
    (h : InOrder text.length start (e :: rest))
    (hsame : e.replacement = text.slice e.start.toNat e.stop.toNat) :
    splice text start (e :: rest) = splice text start rest := by
  obtain ⟨hstart, hstop, hrest⟩ := h
  rw [splice, hsame, slice_append_slice (by omega) (by omega), slice_append_splice (by omega) hrest]

/-- Of edits that each replace a span for some thing, those that put back what stands there may be left
out. -/
theorem splice_filterMap {α : Type} {text : Text} {start : Nat} {things : List α} {whole : α → Edit}
    {edit? : α → Option Edit} (h : InOrder text.length start (things.map whole))
    (hedit : ∀ a ∈ things, edit? a = some (whole a) ∨ edit? a = none ∧
      (whole a).replacement = text.slice (whole a).start.toNat (whole a).stop.toNat) :
    InOrder text.length start (things.filterMap edit?) ∧
      splice text start (things.map whole) = splice text start (things.filterMap edit?) := by
  induction things generalizing start with
  | nil => exact ⟨h, rfl⟩
  | cons a rest ih =>
    obtain ⟨ha, hrest⟩ := List.forall_mem_cons.1 hedit
    rw [List.map_cons] at h ⊢
    have ⟨hstart, hstop, horder⟩ := h
    rcases ha with hsome | ⟨hnone, hsame⟩
    · obtain ⟨hin, heq⟩ := ih horder hrest
      rw [List.filterMap_cons_some hsome]
      exact ⟨⟨hstart, hstop, hin⟩, by rw [splice, splice, heq]⟩
    -- without the edit, what is behind it is read from further left on
    · have hrestOrder : InOrder text.length start (rest.map whole) := horder.mono (by omega)
      obtain ⟨hin, heq⟩ := ih hrestOrder hrest
      rw [List.filterMap_cons_none hnone, splice_cons_slice h hsame]
      exact ⟨hin, heq⟩

/-! ## Edits apart from each other -/

/-- The spans of two edits neither overlap nor touch. -/
def Apart (a b : Edit) : Prop := a.stop < b.start ∨ b.stop < a.start

theorem Apart.symm {a b : Edit} (h : a.Apart b) : b.Apart a := Or.symm h

/-- The span of an edit lies between two offsets. -/
structure Within (e : Edit) (start stop : Nat) : Prop where
  start_le : (start : Int) ≤ e.start
  start_le_stop : e.start ≤ e.stop
  stop_le : e.stop ≤ stop

/-- Edits apart from each other come from left to right when they are sorted. -/
theorem sort_of_apart {start stop : Nat} {edits : List Edit} (hwithin : ∀ e ∈ edits, e.Within start stop)
    (hapart : edits.Pairwise Apart) : (sort edits).Pairwise fun a b => a.stop < b.start := by
  have hsorted : (sort edits).Pairwise Apart := ((sort_perm edits).pairwise_iff Apart.symm).2 hapart
  refine ((sort_sorted edits).and hsorted).imp_of_mem fun {a b} ha hb h => ?_
  obtain ⟨hle, hapart⟩ := h
  have ha' := (hwithin a ((sort_perm edits).mem_iff.1 ha)).start_le_stop
  have hb' := (hwithin b ((sort_perm edits).mem_iff.1 hb)).start_le_stop
  unfold le at hle
  rw [decide_eq_true_eq] at hle
  rcases hapart with hapart | hapart
  · exact hapart
  · omega

theorem inOrder_of_within {start stop : Nat} {edits : List Edit} (hle : start ≤ stop)
    (hwithin : ∀ e ∈ edits, e.Within start stop) (hordered : edits.Pairwise fun a b => a.stop < b.start) :
    InOrder stop start edits := by
  refine inOrder_of_pairwise hle (fun e he => ?_) (hordered.imp Int.le_of_lt)
  obtain ⟨hstart, hspan, hstop⟩ := hwithin e he
  exact ⟨hstart, hspan, hstop⟩

/-- Edits that come from left to right with something between them are carried out in any order. -/
theorem applyAll_of_pairwise {text : Text} {edits ordered : List Edit} (hperm : edits.Perm ordered)
    (hwithin : ∀ e ∈ ordered, e.Within 0 text.length)
    (hordered : ordered.Pairwise fun a b => a.stop < b.start) :
    applyAll text edits = .ok (splice text 0 ordered) := by
  refine applyAll_eq_splice hperm (hordered.imp_of_mem fun {a b} ha _ h => ?_)
    (inOrder_of_within (Nat.zero_le _) hwithin hordered)
  have := (hwithin a ha).start_le_stop
  omega

/-- One edit puts its replacement in place of its span. -/
theorem applyAll_single (before body behind replacement : Text) {e : Edit} (hstart : e.start = before.length)
    (hstop : e.stop = before.length + body.length) (hreplacement : e.replacement = replacement) :
    applyAll (before ++ (body ++ behind)) [e] = .ok (before ++ (replacement ++ behind)) := by
  have hwithin : e.Within 0 (before ++ (body ++ behind)).length := by
    rw [List.length_append, List.length_append]
    constructor <;> omega
  have hstop' : e.stop.toNat = (before ++ body).length := by rw [List.length_append]; omega
  rw [applyAll_of_pairwise .rfl (List.forall_mem_singleton.2 hwithin) (List.pairwise_singleton _ _)]
  show Except.ok (Text.slice _ 0 e.start.toNat ++ e.replacement ++ List.drop e.stop.toNat _) = _
  rw [hstart, hreplacement, hstop', ← List.append_assoc before body, List.drop_left, Text.slice, List.drop_zero,
    List.append_assoc before body, Int.toNat_natCast, List.take_left, List.append_assoc]

/-! ## Edits that are refused -/

/-- The spans of two edits do not overlap; they may touch. -/
def Clear (a b : Edit) : Prop := a.stop ≤ b.start ∨ b.stop ≤ a.start

theorem Clear.symm {a b : Edit} (h : a.Clear b) : b.Clear a := Or.symm h

/-- Edits that pass the check come from left to right without overlap. -/
theorem pairwise_of_check {size : Nat} {start : Int} {edits : List Edit} (h : check size start edits = .ok ()) :
    (∀ e ∈ edits, start ≤ e.start) ∧ edits.Pairwise fun a b => a.stop ≤ b.start := by
  induction edits generalizing start with
  | nil => exact ⟨List.forall_mem_nil _, .nil⟩
  | cons e rest ih =>
    rw [check] at h
    split at h
    · cases h
    · next hspan =>
      obtain ⟨hbehind, hrest⟩ := ih h
      refine ⟨List.forall_mem_cons.2 ⟨by omega, fun other hother => ?_⟩, List.pairwise_cons.2 ⟨hbehind, hrest⟩⟩
      have := hbehind other hother
      omega

/-- Edits of a text are carried out exactly if no two of them overlap. -/
theorem applyAll_ok_iff {text : Text} {edits : List Edit} (hwithin : ∀ e ∈ edits, e.Within 0 text.length) :
    (∃ patched, applyAll text edits = .ok patched) ↔ edits.Pairwise Clear := by
  rw [← (sort_perm edits).pairwise_iff Clear.symm]
  constructor
  · rintro ⟨patched, h⟩
    obtain ⟨⟨⟩, hcheck, -⟩ := Except.bind_eq_ok_iff.1 h
    exact (pairwise_of_check hcheck).2.imp .inl
  · intro hclear
    have hwithin : ∀ e ∈ sort edits, e.Within 0 text.length := fun e he => hwithin e ((sort_perm edits).mem_iff.1 he)
    have hordered : (sort edits).Pairwise fun a b => a.stop ≤ b.start := by
      refine ((sort_sorted edits).and hclear).imp_of_mem fun {a b} ha hb h => ?_
      obtain ⟨hle, hclear⟩ := h
      have ha := (hwithin a ha).start_le_stop
      have hb := (hwithin b hb).start_le_stop
      unfold le at hle
      rw [decide_eq_true_eq] at hle
      -- of spans that touch on the wrong side both are empty, and then they are the same
      rcases hclear with hclear | hclear
      · exact hclear
      · omega
    have hcheck : check text.length ((0 : Nat) : Int) (sort edits) = .ok () :=
      check_eq_ok (inOrder_of_pairwise (Nat.zero_le _)
        (fun e he => ⟨(hwithin e he).start_le, (hwithin e he).start_le_stop, (hwithin e he).stop_le⟩) hordered)
    exact ⟨_, Except.bind_eq_ok_iff.2 ⟨(), hcheck, rfl⟩⟩

/-! ## Pieces of a text -/

/-- Edits of a text up to an offset and edits behind it. -/
theorem splice_append {text : Text} {start stop : Nat} {edits rest : List Edit} (h : InOrder stop start edits)
    (hrest : InOrder text.length stop rest) :
    splice text start (edits ++ rest) = splice (text.take stop) start edits ++ splice text stop rest := by
  induction edits generalizing start with
  | nil => exact (slice_append_splice h hrest).symm
  | cons e edits ih =>
    obtain ⟨hstart, hspan, hedits⟩ := h
    have hle := hedits.le_size
    have hslice : Text.slice (text.take stop) start e.start.toNat = text.slice start e.start.toNat := by
      rw [Text.slice, Text.slice, List.take_take, Nat.min_eq_left (by omega)]
    rw [List.cons_append, splice, splice, ih hedits, hslice]
    simp only [List.append_assoc]

/-- What edits make of a piece of a text: what is in front of its first span, the span, and what is behind it. -/
theorem splice_piece {text : Text} {offset start stop size : Nat} {edits rest : List Edit} (hoffset : offset ≤ start)
    (hsize : size ≤ text.length) (h : InOrder stop start edits) (hrest : InOrder size stop rest) :
    splice (text.take size) offset (edits ++ rest) =
      text.slice offset start ++ splice (text.take stop) start edits ++ splice (text.take size) stop rest := by
  have hstart := h.le_size
  have hstop := hrest.le_size
  have hlength : ∀ n ≤ text.length, (text.take n).length = n := fun n hn => List.length_take_of_le hn
  have hslice : Text.slice (text.take stop) offset start = text.slice offset start := by
    rw [Text.slice, Text.slice, List.take_take, Nat.min_eq_left hstart]
  rw [← hlength size hsize] at hrest
  have hpiece := splice_append (h.mono hoffset) hrest
  rw [List.take_take, Nat.min_eq_left hstop] at hpiece
  rw [← hlength stop (by omega)] at h
  rw [hpiece, ← slice_append_splice hoffset h, hslice]

/-- An edit of the text that begins at an offset. -/
def shift (e : Edit) (offset : Nat) : Edit := ⟨e.start - offset, e.stop - offset, e.replacement⟩

theorem splice_shift {text : Text} {offset start size : Nat} {edits : List Edit} (h : InOrder size start edits)
    (hle : offset ≤ start) : splice (text.drop offset) (start - offset) (edits.map (shift · offset)) =
      splice text start edits := by
  induction edits generalizing start with
  | nil =>
    show (text.drop offset).drop (start - offset) = text.drop start
    rw [List.drop_drop, Nat.add_sub_cancel' hle]
  | cons e edits ih =>
    obtain ⟨hstart, hspan, hedits⟩ := h
    have hstarts : (e.shift offset).start.toNat = e.start.toNat - offset := by
      show (e.start - offset).toNat = _
      omega
    have hstops : (e.shift offset).stop.toNat = e.stop.toNat - offset := by
      show (e.stop - offset).toNat = _
      omega
    have hslice : Text.slice (text.drop offset) (start - offset) (e.start.toNat - offset) =
        text.slice start e.start.toNat := by
      rw [Text.slice, Text.slice, List.take_drop, List.drop_drop, Nat.add_sub_cancel' hle,
        Nat.add_sub_cancel' (by omega)]
    rw [List.map_cons, splice, splice, hstarts, hstops, ih hedits (by omega), hslice]
    rfl

/-- Edits of a piece of a text, which count from its start, are carried out in it as they are in the text. -/
theorem applyAll_shift {text : Text} {start stop : Nat} {edits ordered : List Edit} (hperm : edits.Perm ordered)
    (hle : start ≤ stop) (hstop : stop ≤ text.length) (hwithin : ∀ e ∈ ordered, e.Within start stop)
    (hordered : ordered.Pairwise fun a b => a.stop < b.start) :
    applyAll (text.slice start stop) (edits.map (shift · start)) = .ok (splice (text.take stop) start ordered) := by
  have hlength : (text.slice start stop).length = stop - start := by
    rw [Text.slice, List.length_drop, List.length_take_of_le hstop]
  have hwithin' : ∀ e ∈ ordered.map (shift · start), e.Within 0 (text.slice start stop).length := by
    intro shifted hshifted
    obtain ⟨e, he, rfl⟩ := List.mem_map.1 hshifted
    obtain ⟨hstart, hspan, hend⟩ := hwithin e he
    rw [hlength]
    constructor
    · show ((0 : Nat) : Int) ≤ e.start - start
      omega
    · show e.start - start ≤ e.stop - start
      omega
    · show e.stop - start ≤ ((stop - start : Nat) : Int)
      omega
  have hordered' : (ordered.map (shift · start)).Pairwise fun a b => a.stop < b.start := by
    refine List.pairwise_map.2 (hordered.imp fun {a b} hlt => ?_)
    show a.stop - start < b.start - start
    omega
  have hsplice : splice (text.slice start stop) (start - start) (ordered.map (shift · start)) =
      splice (text.take stop) start ordered :=
    splice_shift (inOrder_of_within hle hwithin hordered) (Nat.le_refl start)
  rw [Nat.sub_self] at hsplice
  rw [applyAll_of_pairwise (hperm.map _) hwithin' hordered', hsplice]

end Edit

end Bilingual
