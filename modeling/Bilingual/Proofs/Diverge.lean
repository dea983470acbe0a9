import Bilingual.Proofs.Plan.Apart

set_option autoImplicit false

/-! # Edits that show

A body that is closed by the delimiter behind it cannot go on as another one: texts with the one and with the other
stay different, whatever comes behind (`Literal.Closes.diverge`). So the first of some edits that put other bodies in
place of closed ones shows in the text, whatever the edits behind it are (`Edit.diverge_splice`). -/

namespace Bilingual

/-- The texts go apart: whatever comes behind each of them, the two stay different. -/
def Text.Diverge (a b : Text) : Prop := ∀ x y : Text, a ++ x ≠ b ++ y

namespace Text.Diverge

variable {a b : Text}

theorem ne (h : a.Diverge b) : a ≠ b := fun heq => h [] [] (congrArg (· ++ []) heq)

theorem append_left (h : a.Diverge b) (before : Text) : (before ++ a).Diverge (before ++ b) := by
  intro x y heq
  rw [List.append_assoc, List.append_assoc] at heq
  exact h x y (List.append_cancel_left heq)

theorem append_right (h : a.Diverge b) (more more' : Text) : (a ++ more).Diverge (b ++ more') := by
  intro x y heq
  rw [List.append_assoc, List.append_assoc] at heq
  exact h _ _ heq

end Text.Diverge

/-- Two bodies that are closed by the same delimiter go apart with it. -/
theorem Literal.Closes.diverge {delimiter : CodePoint} {a b : Text} (ha : Closes delimiter a) (hb : Closes delimiter b)
    (hne : a ≠ b) : Text.Diverge (a ++ [delimiter]) (b ++ [delimiter]) := by
  intro x y heq
  rw [List.append_assoc, List.append_assoc] at heq
  have hlength : a.length = b.length := by
    have hscan := ha [] x rfl
    rw [show a ++ delimiter :: x = b ++ delimiter :: y from heq, hb [] y rfl] at hscan
    exact (Option.some.inj hscan).symm
  exact hne (List.append_inj_left heq hlength)

namespace Edit

/-- The edit puts another closed body in place of one that is closed by the delimiter behind it. -/
structure Rewords (text : Text) (e : Edit) : Prop where
  start_nonneg : 0 ≤ e.start
  start_le_stop : e.start ≤ e.stop
  exists_delimiter : ∃ delimiter, text[e.stop.toNat]? = some delimiter ∧
    Literal.Closes delimiter (text.slice e.start.toNat e.stop.toNat) ∧ Literal.Closes delimiter e.replacement
  replacement_ne : e.replacement ≠ text.slice e.start.toNat e.stop.toNat

/-- The first of some edits shows, if something stands between it and the next one. -/
theorem diverge_splice {text : Text} {offset : Nat} {e : Edit} {rest : List Edit} (hwords : e.Rewords text)
    (h : InOrder text.length offset (e :: rest)) (hrest : ∀ other ∈ rest, e.stop < other.start) :
    Text.Diverge (splice text offset (e :: rest)) (text.drop offset) := by
  obtain ⟨hnonneg, hspan, ⟨delimiter, hdelimiter, hold, hnew⟩, hne⟩ := hwords
  obtain ⟨hstart, -, horder⟩ := h
  obtain ⟨hlt, hget⟩ := List.getElem?_eq_some_iff.1 hdelimiter
  have hdrop : text.drop e.stop.toNat = delimiter :: text.drop (e.stop.toNat + 1) := by
    rw [List.drop_eq_getElem_cons hlt, hget]
  have hbehind : InOrder text.length (e.stop.toNat + 1) rest := by
    cases rest with
    | nil => exact hlt
    | cons next rest =>
      have hnext := hrest next List.mem_cons_self
      obtain ⟨-, hspan', horder'⟩ := horder
      exact ⟨by omega, hspan', horder'⟩
  have hsplit : text.drop offset = text.slice offset e.start.toNat ++
      (text.slice e.start.toNat e.stop.toNat ++ [delimiter] ++ text.drop (e.stop.toNat + 1)) := by
    rw [List.append_assoc, List.singleton_append, ← hdrop, Text.slice_append_drop (by omega),
      Text.slice_append_drop (by omega)]
  have hsplice : splice text offset (e :: rest) = text.slice offset e.start.toNat ++
      (e.replacement ++ [delimiter] ++ splice text (e.stop.toNat + 1) rest) := by
    rw [splice, splice_of_drop hdrop hbehind, List.append_assoc, List.append_assoc, List.singleton_append]
  rw [hsplit, hsplice]
  exact ((hnew.diverge hold hne).append_right _ _).append_left _

/-- Some edits of a text that put other bodies in place of closed ones show in the patched text. -/
theorem ne_of_rewords {text patched : Text} {edits ordered : List Edit} (hperm : edits.Perm ordered)
    (hwithin : ∀ e ∈ ordered, e.Within 0 text.length) (hordered : ordered.Pairwise fun a b => a.stop < b.start)
    (hwords : ∀ e ∈ ordered, e.Rewords text) (hne : edits ≠ []) (h : applyAll text edits = .ok patched) :
    patched ≠ text := by
  rw [applyAll_of_pairwise hperm hwithin hordered] at h
  cases h
  cases ordered with
  | nil => exact absurd hperm.eq_nil hne
  | cons e rest =>
    have horder := inOrder_of_within (Nat.zero_le _) hwithin hordered
    have hshows := diverge_splice (hwords e List.mem_cons_self) horder (List.pairwise_cons.1 hordered).1
    exact hshows.ne

end Edit

/-! ## Single sites -/

/-- The edit of a target that does not stand for its text shows. -/
theorem Target.rewords_edit {text : Text} {t : Target} (hin : t.toBody.In text) (hchanges : t.Changes text = true) :
    t.edit.Rewords text := by
  obtain ⟨hle, -, hcloses, behind, hdrop⟩ := hin.exists_behind
  refine ⟨Int.natCast_nonneg _, Int.ofNat_le.2 hle, ⟨t.delimiter.point, ?_, hcloses, t.delimiter.closes_escape _⟩, ?_⟩
  · show text[t.stop]? = _
    rw [← List.head?_drop, hdrop]
    rfl
  · intro heq
    have hdecode : Literal.decode (text.slice t.start t.stop) = .ok t.value := by
      rw [show text.slice t.start t.stop = t.delimiter.escape t.value from heq.symm]
      exact t.delimiter.decode_escape t.value
    simp [Changes, hdecode] at hchanges

/-- A plan that puts texts into bodies that stand apart shows in the patched text, if it has edits at all. -/
theorem Plan.PutsApart.patched_ne {text patched : Text} {plan : Plan} (h : plan.PutsApart text)
    (hne : plan.edits ≠ []) (hpatched : Edit.applyAll text plan.edits = .ok patched) : patched ≠ text := by
  obtain ⟨targets, hin, hapart, hedits⟩ := h
  have hin' : ∀ t ∈ targets.filter (Target.Changes text), t.toBody.In text := fun t ht =>
    hin t (List.mem_of_mem_filter ht)
  obtain ⟨ordered, hperm, hordered⟩ := Target.exists_sorted hin' (hapart.filter _)
  refine Edit.ne_of_rewords (hedits.trans (hperm.symm.map _)) (fun e he => ?_)
    (List.pairwise_map.2 (hordered.imp fun h => Int.ofNat_lt.2 h)) (fun e he => ?_) hne hpatched
  · exact Target.within_of_mem_edits hin (((hperm.map _).mem_iff).1 he)
  · obtain ⟨t, ht, rfl⟩ := List.mem_map.1 he
    have ht := hperm.mem_iff.1 ht
    exact Target.rewords_edit (hin' t ht) (List.mem_filter.1 ht).2

end Bilingual
