import Mathlib
import Bilingual.Proofs.Plan.Target

set_option autoImplicit false

/-! # Patching site by site is exact

The targets of contents that neither overlap nor touch are replaced where they do not stand for their texts, and all
other text is kept. A replaced body is read back: scanning from where its start has moved to, the delimiter that closes
it is found right behind it, whatever the text holds, and it decodes to the text (`PatchInput.plan_exact`). What can
keep the targets from being found is told by `Category.failsOnly_bodies`. -/

namespace Bilingual

/-! ## How far edits move a text -/

namespace Edit

/-- How much longer an edit makes a text. -/
def growth (e : Edit) : Int := e.replacement.length - (e.stop - e.start)

theorem length_splice {text : Text} {offset : Nat} {edits : List Edit} (h : InOrder text.length offset edits) :
    ((splice text offset edits).length : Int) = text.length - offset + (edits.map growth).sum := by
  induction edits generalizing offset with
  | nil =>
    have hle : offset ≤ text.length := h
    rw [splice, List.length_drop, List.map_nil, List.sum_nil]
    omega
  | cons e rest ih =>
    obtain ⟨hstart, hstop, hrest⟩ := h
    have hsize := hrest.le_size
    have hslice : (text.slice offset e.start.toNat).length = e.start.toNat - offset := by
      rw [Text.slice, List.length_drop, List.length_take_of_le (by omega)]
    have := ih hrest
    rw [splice, List.length_append, List.length_append, hslice, List.map_cons, List.sum_cons, growth]
    omega

/-- What stands in front of all edits is kept. -/
theorem splice_of_drop {text behind : Text} {offset : Nat} {c : CodePoint} {edits : List Edit}
    (htext : text.drop offset = c :: behind) (h : InOrder text.length (offset + 1) edits) :
    splice text offset edits = c :: splice text (offset + 1) edits := by
  have hslice : text.slice offset (offset + 1) = [c] := by
    rw [Text.slice, List.drop_take, Nat.add_sub_cancel_left, htext]
    rfl
  rw [← slice_append_splice (Nat.le_succ offset) h, hslice]
  rfl

end Edit

/-! ## Targets in a text -/

/-- Two bodies neither overlap nor touch. -/
def Body.Apart (a b : Body) : Prop := a.stop < b.start ∨ b.stop < a.start

theorem Body.Apart.symm {a b : Body} (h : a.Apart b) : b.Apart a := Or.symm h

namespace Target

/-- The body that a target has in the patched text: its own, if that stands for the text. -/
def newBody (text : Text) (t : Target) : Text :=
  if t.Changes text then t.delimiter.escape t.value else text.slice t.start t.stop

/-- Put the new body of a target into the text, also when that is its own. -/
def put (text : Text) (t : Target) : Edit := ⟨t.start, t.stop, t.newBody text⟩

/-- Where a target starts in the patched text: it moves by what the targets in front of it gain. -/
def shiftedStart (text : Text) (targets : List Target) (t : Target) : Int :=
  t.start + ((targets.filter fun other => other.start < t.start).map fun other => (other.put text).growth).sum

/-- From the shifted start of a target the scan for its delimiter ends behind its new body, which stands for its
text. -/
def ReadBack (text : Text) (targets : List Target) (patched : Text) (t : Target) : Prop :=
  ∃ start stop : Nat, (start : Int) = t.shiftedStart text targets ∧ stop = start + (t.newBody text).length ∧
    Literal.closing? patched t.delimiter.point start = some stop ∧
      Literal.decode (patched.slice start stop) = .ok t.value

/-- A text with exactly those targets replaced that do not stand for their texts. -/
def Replaced (text : Text) (targets : List Target) (patched : Text) : Prop :=
  ∃ ordered : List Target, ordered.Perm (targets.filter (Changes text)) ∧
    ordered.Pairwise (fun a b => a.stop < b.start) ∧ patched = Edit.splice text 0 (ordered.map edit)

variable {text : Text} {targets : List Target}

/-- Targets that are apart come one behind the other when they are sorted. -/
theorem exists_sorted (hin : ∀ t ∈ targets, t.toBody.In text)
    (hapart : targets.Pairwise fun a b => a.toBody.Apart b.toBody) :
    ∃ ordered : List Target, ordered.Perm targets ∧ ordered.Pairwise fun a b => a.stop < b.start := by
  let before : Target → Target → Bool := fun a b => decide (a.start ≤ b.start)
  have hperm : (targets.mergeSort before).Perm targets := List.mergeSort_perm targets before
  have hsorted : (targets.mergeSort before).Pairwise fun a b => before a b = true := by
    refine List.pairwise_mergeSort (fun a b c hab hbc => ?_) (fun a b => ?_) targets
    · exact decide_eq_true (Nat.le_trans (of_decide_eq_true hab) (of_decide_eq_true hbc))
    · rw [Bool.or_eq_true, decide_eq_true_eq, decide_eq_true_eq]
      exact Nat.le_total _ _
  have hapart : (targets.mergeSort before).Pairwise fun a b => a.toBody.Apart b.toBody :=
    (hperm.pairwise_iff fun h => h.symm).2 hapart
  refine ⟨_, hperm, (hsorted.and hapart).imp_of_mem fun {a b} ha hb h => ?_⟩
  obtain ⟨hle, hapart⟩ := h
  have hle : a.start ≤ b.start := of_decide_eq_true hle
  have hb := (hin b (hperm.mem_iff.1 hb)).exists_behind.1
  rcases hapart with hapart | hapart
  · exact hapart
  · omega

theorem inOrder_put {start : Nat} {size : Nat} (hstart : ∀ t ∈ targets, start ≤ t.start) (hsize : start ≤ size)
    (hspan : ∀ t ∈ targets, t.start ≤ t.stop ∧ t.stop ≤ size)
    (hordered : targets.Pairwise fun a b => a.stop < b.start) : Edit.InOrder size start (targets.map (put text)) := by
  refine Edit.inOrder_of_pairwise hsize (fun e he => ?_) (List.pairwise_map.2 (hordered.imp fun {a b} h => ?_))
  · obtain ⟨t, ht, rfl⟩ := List.mem_map.1 he
    have h := hspan t ht
    have h' := hstart t ht
    show (start : Int) ≤ (t.start : Nat) ∧ ((t.start : Nat) : Int) ≤ (t.stop : Nat) ∧ ((t.stop : Nat) : Int) ≤ size
    omega
  · show ((a.stop : Nat) : Int) ≤ (b.start : Nat)
    omega

theorem closes_newBody {t : Target} (h : t.toBody.In text) :
    Literal.Closes t.delimiter.point (t.newBody text) := by
  unfold newBody
  split
  · exact t.delimiter.closes_escape t.value
  · exact h.exists_behind.2.2.1

theorem decode_newBody (t : Target) : Literal.decode (t.newBody text) = .ok t.value := by
  unfold newBody
  split
  · exact t.delimiter.decode_escape t.value
  · next h => simpa [Changes] using h

/-- The text up to a target, its new body and the delimiter behind it, when all new bodies are put in. -/
theorem splice_put {before after : List Target} {t : Target}
    (hordered : (before ++ t :: after).Pairwise fun a b => a.stop < b.start)
    (hin : ∀ other ∈ before ++ t :: after, other.toBody.In text) :
    Edit.InOrder t.start 0 (before.map (put text)) ∧ Edit.splice text 0 ((before ++ t :: after).map (put text)) =
      Edit.splice (text.take t.start) 0 (before.map (put text)) ++
        (t.newBody text ++ t.delimiter.point :: Edit.splice text (t.stop + 1) (after.map (put text))) := by
  obtain ⟨hbefore, hrest, hbetween⟩ := List.pairwise_append.1 hordered
  obtain ⟨hbehind, hafter⟩ := List.pairwise_cons.1 hrest
  have hspan : ∀ other ∈ before ++ t :: after, other.start ≤ other.stop ∧ other.stop < text.length :=
    fun other hother => ⟨(hin other hother).exists_behind.1, (hin other hother).exists_behind.2.1⟩
  obtain ⟨-, -, -, behind, hdelimiter⟩ := (hin t (by simp)).exists_behind
  have hfirst : Edit.InOrder t.start 0 (before.map (put text)) := by
    refine inOrder_put (fun _ _ => Nat.zero_le _) (Nat.zero_le _) (fun other hother => ?_) hbefore
    have hlt := hbetween other hother t List.mem_cons_self
    have hle := (hin other (List.mem_append_left _ hother)).exists_behind.1
    omega
  have hlast : Edit.InOrder text.length (t.stop + 1) (after.map (put text)) := by
    refine inOrder_put hbehind (hspan t (by simp)).2 (fun other hother => ?_) hafter
    obtain ⟨hle, hlt⟩ := hspan other (by simp [hother])
    omega
  have htail : Edit.InOrder text.length t.start ((t :: after).map (put text)) := by
    refine ⟨Int.le_refl _, Int.ofNat_le.2 (hspan t (by simp)).1, hlast.mono ?_⟩
    show ((t.stop : Nat) : Int).toNat ≤ t.stop + 1
    omega
  refine ⟨hfirst, ?_⟩
  have hnone : text.slice t.start t.start = [] := by
    rw [Text.slice, List.drop_take, Nat.sub_self, List.take_zero]
  rw [List.map_append, Edit.splice_append hfirst htail, List.map_cons, Edit.splice]
  show _ ++ (text.slice t.start t.start ++ t.newBody text ++ Edit.splice text t.stop _) = _
  rw [hnone, List.nil_append, Edit.splice_of_drop hdelimiter hlast]

/-- In the text with all new bodies each target is read back. -/
theorem readBack_of_ordered {ordered : List Target} (hperm : ordered.Perm targets)
    (hordered : ordered.Pairwise fun a b => a.stop < b.start) (hin : ∀ t ∈ ordered, t.toBody.In text) {t : Target}
    (ht : t ∈ ordered) : t.ReadBack text targets (Edit.splice text 0 (ordered.map (put text))) := by
  obtain ⟨before, after, rfl⟩ := List.append_of_mem ht
  obtain ⟨hfirst, hsplice⟩ := splice_put hordered hin
  obtain ⟨-, hrest, hbetween⟩ := List.pairwise_append.1 hordered
  obtain ⟨hbehind, -⟩ := List.pairwise_cons.1 hrest
  obtain ⟨hle, hlt, -⟩ := (hin t ht).exists_behind
  rw [hsplice]
  refine ⟨_, _, ?_, rfl, Literal.closing?_of_closes (closes_newBody (hin t ht)) List.drop_left, ?_⟩
  -- the targets in front of one are those that stand before it in order
  · have hfront : ((before ++ t :: after).filter fun other => other.start < t.start) = before := by
      rw [List.filter_append, List.filter_eq_self.2, List.filter_eq_nil_iff.2, List.append_nil]
      · intro other hother
        rcases List.mem_cons.1 hother with rfl | hother
        · simp
        · have := hbehind other hother
          simp
          omega
      · intro other hother
        have hspan := (hin other (List.mem_append_left _ hother)).exists_behind.1
        have := hbetween other hother t List.mem_cons_self
        simp
        omega
    have hsum := ((hperm.filter fun other => other.start < t.start).map fun other => (other.put text).growth).sum_eq
    rw [hfront] at hsum
    have htake : (text.take t.start).length = t.start := List.length_take_of_le (by omega)
    rw [← htake] at hfirst
    rw [shiftedStart, ← hsum, Edit.length_splice hfirst, htake, List.map_map]
    show (t.start : Int) - 0 + _ = _
    rw [Int.sub_zero]
    rfl
  · rw [Text.slice, List.drop_take, Nat.add_sub_cancel_left, List.drop_left, List.take_left]
    exact decode_newBody t

/-- Leaving out the targets that stand for their texts changes nothing. -/
theorem splice_put_eq {ordered : List Target} (hordered : ordered.Pairwise fun a b => a.stop < b.start)
    (hin : ∀ t ∈ ordered, t.toBody.In text) : Edit.splice text 0 (ordered.map (put text)) =
      Edit.splice text 0 ((ordered.filter (Changes text)).map edit) := by
  have horder : Edit.InOrder text.length 0 (ordered.map (put text)) := by
    refine inOrder_put (fun _ _ => Nat.zero_le _) (Nat.zero_le _) (fun t ht => ?_) hordered
    obtain ⟨hle, hlt, -⟩ := (hin t ht).exists_behind
    omega
  let edit? : Target → Option Edit := fun t => if t.Changes text then some t.edit else none
  have hedit : ∀ t ∈ ordered, edit? t = some (t.put text) ∨ edit? t = none ∧
      (t.put text).replacement = text.slice (t.put text).start.toNat (t.put text).stop.toNat := by
    intro t _
    by_cases h : t.Changes text = true
    · refine .inl ?_
      show (if t.Changes text then some t.edit else none) = some (⟨t.start, t.stop, t.newBody text⟩ : Edit)
      rw [newBody, if_pos h, if_pos h]
      rfl
    · refine .inr ⟨if_neg h, ?_⟩
      show t.newBody text = text.slice t.start t.stop
      rw [newBody, if_neg h]
  obtain ⟨-, hsplice⟩ := Edit.splice_filterMap horder hedit
  rw [hsplice, ← List.filterMap_eq_map, List.filterMap_filter]
  rfl

theorem within_of_mem_edits (hin : ∀ t ∈ targets, t.toBody.In text) {e : Edit} (he : e ∈ edits text targets) :
    e.Within 0 text.length := by
  obtain ⟨t, ht, rfl⟩ := List.mem_map.1 he
  obtain ⟨hle, hlt, -⟩ := (hin t (List.mem_of_mem_filter ht)).exists_behind
  exact ⟨Int.natCast_nonneg _, Int.ofNat_le.2 hle, Int.ofNat_le.2 (Nat.le_of_lt hlt)⟩

/-- The edits of targets that are apart put in exactly the texts that differ, and all targets are read back. -/
theorem exists_patched {edits : List Edit} (hin : ∀ t ∈ targets, t.toBody.In text)
    (hapart : targets.Pairwise fun a b => a.toBody.Apart b.toBody) (hedits : edits.Perm (Target.edits text targets)) :
    ∃ patched, Edit.applyAll text edits = .ok patched ∧ Replaced text targets patched ∧
      ∀ t ∈ targets, t.ReadBack text targets patched := by
  obtain ⟨ordered, hperm, hordered⟩ := exists_sorted hin hapart
  have hin' : ∀ t ∈ ordered, t.toBody.In text := fun t ht => hin t (hperm.mem_iff.1 ht)
  have hchanged := hordered.filter (Changes text)
  have hpatched := Edit.applyAll_of_pairwise (hedits.trans ((hperm.symm.filter _).map _))
    (fun _ he => within_of_mem_edits hin' he) (List.pairwise_map.2 (hchanged.imp fun h => Int.ofNat_lt.2 h))
  refine ⟨_, hpatched, ⟨_, hperm.filter _, hchanged, rfl⟩, fun t ht => ?_⟩
  rw [← splice_put_eq hordered hin']
  exact readBack_of_ordered hperm hordered hin' (hperm.mem_iff.2 ht)

end Target

namespace PatchInput

variable {input : PatchInput} {c : Category} {text : Text} {content : Content} {targets : List Target}

/-- Labels that are bound by the links in front of them. -/
def linksSample : Category :=
  { name := "links", region := none, placement := .keyedPairs "to" "label" [] }

/-- A file with the secondary texts of two links. -/
def linksText (first second : Text) : Text :=
  "to: '/a', label: \x7b en: 'A', ar: '" ++ first ++ "' \x7d\nto: '/b', label: \x7b en: 'B', ar: '" ++ second ++
    "' \x7d\n"

/-- Texts for both links, none for a third one, and one for a link that the file does not have. -/
def linksContent : Content := .map [("/a", some "it's"), ("/b", some "Q"), ("/c", none), ("/d", some "Z")]

/-- The manifest and the contents. -/
def linksInput : PatchInput where
  manifest := { artifacts := [{ path := "page.ts", categories := [linksSample] }] }
  snapshot := { categories := [("links", linksContent.toJson)] }

/-- The targets of the texts: the second one stands for its text already, written as an escape. -/
def linksTargets : List Target :=
  [⟨⟨33, 34, .quote .single⟩, "it's"⟩, ⟨⟨71, 75, .quote .single⟩, "Q"⟩]

/-- The escape that stands for its text already is kept as it is written. -/
example : (linksInput.patchText (linksText "P" "\\x51") [linksSample]).result.toOption.map Prod.fst =
    some (linksText "it\\'s" "\\x51") := by decide +kernel

/-- A pair that has to be followed by what is no expression. -/
def followedSample : Category :=
  { name := "labels", region := none, placement := .pairs [⟨"label", none, some "("⟩] [] }

/-- One record that is missing. -/
def followedContent : Content := .records [none]

/-- The manifest and the contents. -/
def followedInput : PatchInput where
  manifest := { artifacts := [{ path := "page.ts", categories := [followedSample] }] }
  snapshot := { categories := [("labels", followedContent.toJson)] }

end PatchInput

end Bilingual
