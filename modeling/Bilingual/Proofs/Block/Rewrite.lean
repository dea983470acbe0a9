import Bilingual.Proofs.Block.Append
import Bilingual.Proofs.Block.Literals
import Bilingual.Proofs.Edit

set_option autoImplicit false

/-! # Items are rewritten literal by literal

An item is rewritten in its own text, with offsets that count from its start, and the body of a block is put
together from the rewritten items and the gaps. That is the same as putting the new bodies into the literals of
the whole text at once (`ParsedBlock.Laid.applyAll_literals`): gaps, keys, commas and untouched literals stay. -/

namespace Bilingual

open ParsedBlock

/-- The edit that makes a literal stand for a value. -/
def LiteralSpan.edit (l : LiteralSpan) (value : Text) : Edit := ⟨l.start, l.stop, l.quote.escape value⟩

/-- New values for literals of an item, no two for the same. -/
structure Replaces (item : BlockItem) (pairs : List (LiteralSpan × Text)) : Prop where
  mem : ∀ pair ∈ pairs, pair.1 ∈ item.content.literals
  nodup : (pairs.map Prod.fst).Nodup

/-! ## One item -/

theorem LiteralSpan.Inside.within {l : LiteralSpan} {text : Text} {start stop : Nat} (h : l.Inside text start stop)
    (value : Text) : (l.edit value).Within start stop := by
  have h₁ := h.start_lt
  have h₂ := h.start_le_stop
  have h₃ := h.stop_lt
  constructor
  · show (start : Int) ≤ (l.start : Nat)
    omega
  · show ((l.start : Nat) : Int) ≤ (l.stop : Nat)
    omega
  · show ((l.stop : Nat) : Int) ≤ stop
    omega

/-- The edits of an item are apart from each other. -/
theorem Replaces.apart {text : Text} {start stop : Nat} {item : BlockItem} {pairs : List (LiteralSpan × Text)}
    (h : Replaces item pairs) (hin : LiteralsIn text start stop item.content.literals) :
    (pairs.map fun pair => pair.1.edit pair.2).Pairwise Edit.Apart := by
  rw [List.pairwise_map]
  refine (List.pairwise_map.1 h.nodup).imp_of_mem fun {a b} ha hb hne => ?_
  have hsymm : Std.Symm fun l l' : LiteralSpan => l.stop < l'.start ∨ l'.stop < l.start := ⟨fun _ _ => Or.symm⟩
  have hordered : item.content.literals.Pairwise fun l l' => l.stop < l'.start ∨ l'.stop < l.start :=
    hin.ordered.imp Or.inl
  have hapart := hordered.forall (h.mem a ha) (h.mem b hb) hne
  show ((a.1.stop : Nat) : Int) < (b.1.start : Nat) ∨ ((b.1.stop : Nat) : Int) < (a.1.start : Nat)
  omega

/-- An item with new values in some literals is its text with the edits of those literals carried out. -/
theorem Replaces.withLiterals {text : Text} {item : BlockItem} {pairs : List (LiteralSpan × Text)}
    (h : Replaces item pairs) (hin : LiteralsIn text item.start item.stop item.content.literals)
    (hle : item.start ≤ item.stop) (hstop : item.stop ≤ text.length) :
    ∃ ordered : List Edit, (pairs.map fun pair => pair.1.edit pair.2).Perm ordered ∧
      (∀ e ∈ ordered, (item.start : Int) < e.start ∧ e.Within item.start item.stop) ∧
      ordered.Pairwise (fun a b => a.stop < b.start) ∧
      item.withLiterals text pairs = .ok (Edit.splice (text.take item.stop) item.start ordered) := by
  have hwithin : ∀ e ∈ pairs.map fun pair => pair.1.edit pair.2,
      (item.start : Int) < e.start ∧ e.Within item.start item.stop := by
    intro e he
    obtain ⟨pair, hpair, rfl⟩ := List.mem_map.1 he
    have hinside := hin.inside _ (h.mem pair hpair)
    exact ⟨Int.ofNat_lt.2 hinside.start_lt, hinside.within pair.2⟩
  have hperm := Edit.sort_perm (pairs.map fun pair => pair.1.edit pair.2)
  have hordered := Edit.sort_of_apart (fun e he => (hwithin e he).2) (h.apart hin)
  refine ⟨_, hperm.symm, fun e he => hwithin e (hperm.mem_iff.1 he), hordered, ?_⟩
  -- in the text of the item the edits count from its start
  have hshift : item.withLiterals text pairs = Edit.applyAll (item.source text)
      ((pairs.map fun pair => pair.1.edit pair.2).map (Edit.shift · item.start)) := by
    rw [BlockItem.withLiterals, List.map_map]
    rfl
  rw [hshift]
  exact Edit.applyAll_shift hperm.symm hle hstop (fun e he => (hwithin e (hperm.mem_iff.1 he)).2) hordered

/-! ## All items -/

/-- The texts of items with new values in some of their literals. -/
def rewriteItems (text : Text) (items : List BlockItem) (wanted : List (List (LiteralSpan × Text))) :
    Except Failure (List Text) :=
  (items.zip wanted).mapM fun (item, pairs) => item.withLiterals text pairs

theorem exists_rewriteItems {text behind : Text} {offset : Nat} {parts : List BlockPart} {items : List BlockItem}
    {wanted : List (List (LiteralSpan × Text))} (hitems : partItems text offset parts = .ok items)
    (htext : text.drop offset = partsText parts ++ behind) (hle : offset ≤ text.length)
    (hwanted : List.Forall₂ Replaces items wanted) :
    ∃ (sources : List Text) (ordered : List Edit), rewriteItems text items wanted = .ok sources ∧
      (wanted.flatten.map fun pair => pair.1.edit pair.2).Perm ordered ∧
      (∀ e ∈ ordered, (offset : Int) < e.start ∧ e.Within offset (offset + (partsText parts).length)) ∧
      ordered.Pairwise (fun a b => a.stop < b.start) ∧
      Edit.splice (text.take (offset + (partsText parts).length)) offset ordered =
        interleave (parts.map BlockPart.gap) sources := by
  induction parts generalizing offset items wanted with
  | nil =>
    cases hitems
    cases hwanted
    refine ⟨[], [], rfl, .nil, List.forall_mem_nil _, .nil, ?_⟩
    show (text.take (offset + 0)).drop offset = []
    rw [Nat.add_zero, List.drop_eq_nil_of_le (List.length_take_le _ _)]
  | cons part parts ih =>
    obtain ⟨content, others, hcontent, hothers, rfl⟩ := partItems_cons_eq_ok_iff.1 hitems
    cases hwanted with
    | @cons _ pairs _ rest hitem hrest =>
    -- the item, and what lies ahead of it and behind it
    have hahead : text.drop offset = part.gap ++ (part.form.text ++ (partsText parts ++ behind)) := by
      rw [htext, partsText_cons, List.append_assoc, List.append_assoc]
    obtain ⟨hgap, hform⟩ := drop_partsText htext
    have hlength : (partsText (part :: parts)).length =
        part.gap.length + (part.form.text.length + (partsText parts).length) := by
      rw [partsText_cons, List.length_append, List.length_append]
    have hsize := congrArg List.length htext
    rw [List.length_drop, List.length_append] at hsize
    obtain ⟨ordered, hperm, hwithin, hordered, hsource⟩ := hitem.withLiterals
      (part.form.literalsIn hgap hcontent) (Nat.le_add_right _ _) (show offset + part.gap.length + _ ≤ _ by omega)
    obtain ⟨sources, orderedRest, hsources, hpermRest, hwithinRest, horderedRest, hsplice⟩ :=
      ih hothers hform (by omega) hrest
    have hwithin : ∀ e ∈ ordered, ((offset + part.gap.length : Nat) : Int) < e.start ∧
        e.Within (offset + part.gap.length) (offset + part.gap.length + part.form.text.length) := hwithin
    have hsum : offset + (partsText (part :: parts)).length =
        offset + part.gap.length + part.form.text.length + (partsText parts).length := by omega
    refine ⟨_ :: sources, ordered ++ orderedRest, Except.mapM_eq_ok_iff.2 (.cons hsource
      (Except.mapM_eq_ok_iff.1 hsources)), ?_, ?_, ?_, ?_⟩
    · rw [List.flatten_cons, List.map_append]
      exact hperm.append hpermRest
    · rw [hsum]
      refine List.forall_mem_append.2 ⟨fun e he => ?_, fun e he => ?_⟩
      · obtain ⟨hlt, hstart, hspan, hstop⟩ := hwithin e he
        exact ⟨by omega, by omega, hspan, by omega⟩
      · obtain ⟨hlt, hstart, hspan, hstop⟩ := hwithinRest e he
        exact ⟨by omega, by omega, hspan, hstop⟩
    · refine List.pairwise_append.2 ⟨hordered, horderedRest, fun a ha b hb => ?_⟩
      have hstop := (hwithin a ha).2.stop_le
      have hlt := (hwithinRest b hb).1
      omega
    · rw [hsum, Edit.splice_piece (Nat.le_add_right _ _) (by omega)
        (Edit.inOrder_of_within (Nat.le_add_right _ _) (fun e he => (hwithin e he).2) hordered)
        (Edit.inOrder_of_within (Nat.le_add_right _ _) (fun e he => (hwithinRest e he).2) horderedRest),
        Text.slice_of_drop hahead, hsplice]
      rfl

/-- An item of a laid out block lies in the text, with its literals inside. -/
theorem ParsedBlock.Laid.literalsIn {parsed : ParsedBlock} {text : Text} {kind : ItemKind} {parts : List BlockPart}
    {last : Text} (h : parsed.Laid text kind parts last) {item : BlockItem} (hitem : item ∈ parsed.items) :
    LiteralsIn text item.start item.stop item.content.literals ∧ item.start ≤ item.stop ∧
      item.stop ≤ text.length := by
  have hsize := congrArg List.length h.text_eq
  have hstart := h.start_le
  rw [List.length_drop, List.length_append] at hsize
  obtain ⟨-, hspan, hstop⟩ := of_mem_partItems h.items_eq hitem
  exact ⟨literalsIn_of_mem_partItems h.items_eq h.text_eq item hitem, hspan, by omega⟩

/-- New values can be put into each item of a laid out block. -/
theorem ParsedBlock.Laid.exists_withLiterals {parsed : ParsedBlock} {text : Text} {kind : ItemKind} {parts : List BlockPart}
    {last : Text} (h : parsed.Laid text kind parts last) {item : BlockItem} (hitem : item ∈ parsed.items)
    {pairs : List (LiteralSpan × Text)} (hreplaces : Replaces item pairs) :
    ∃ source, item.withLiterals text pairs = .ok source := by
  obtain ⟨hin, hspan, hstop⟩ := h.literalsIn hitem
  obtain ⟨_, -, -, -, hsource⟩ := hreplaces.withLiterals hin hspan hstop
  exact ⟨_, hsource⟩

/-- The new values of the literals of a block are put into its items one by one or into the whole text at once, with
the same result. -/
theorem ParsedBlock.Laid.applyAll_literals {parsed : ParsedBlock} {text : Text} {kind : ItemKind}
    {parts : List BlockPart} {last : Text} (h : parsed.Laid text kind parts last)
    {wanted : List (List (LiteralSpan × Text))} (hwanted : List.Forall₂ Replaces parsed.items wanted) :
    ∃ sources, rewriteItems text parsed.items wanted = .ok sources ∧
      ∀ edits : List Edit, edits.Perm (wanted.flatten.map fun pair => pair.1.edit pair.2) →
        Edit.applyAll text edits = .ok (parsed.block.replaceBody text (interleave parsed.gaps sources)) := by
  obtain ⟨sources, ordered, hsources, hperm, hwithin, hordered, hsplice⟩ :=
    exists_rewriteItems h.items_eq h.text_eq h.start_le hwanted
  refine ⟨sources, hsources, fun edits hedits => ?_⟩
  have hlength : (parts.map BlockPart.gap).length = sources.length := by
    rw [List.length_map, ← length_of_partItems h.items_eq, ← (Except.mapM_eq_ok_iff.1 hsources).length_eq,
      List.length_zip, ← hwanted.length_eq, Nat.min_self]
  have hsize := congrArg List.length h.text_eq
  have hstart := h.start_le
  rw [List.length_drop, List.length_append] at hsize
  have hbehind : text.drop (parsed.block.bodyStart + (partsText parts).length) =
      last ++ text.drop parsed.block.bodyEnd := by rw [← List.drop_drop, h.text_eq, List.drop_left]
  have hin := Edit.inOrder_of_within (Nat.le_add_right _ _) (fun e he => (hwithin e he).2) hordered
  have hall : ∀ e ∈ ordered, e.Within 0 text.length := by
    intro e he
    obtain ⟨hlt, hspan, hstop⟩ := (hwithin e he).2
    exact ⟨by omega, hspan, by omega⟩
  have hbody : Edit.splice text parsed.block.bodyStart (ordered ++ []) = _ := Edit.splice_append hin (by
    show _ ≤ text.length
    omega)
  rw [List.append_nil, hsplice, Edit.splice, hbehind] at hbody
  rw [Edit.applyAll_of_pairwise (hedits.trans hperm) hall hordered, ← Edit.slice_append_splice (Nat.zero_le _)
    (Edit.inOrder_of_within hstart (fun e he => ⟨(hwithin e he).2.start_le, (hwithin e he).2.start_le_stop,
      (hall e he).stop_le⟩) hordered), hbody, BlockSpan.replaceBody, h.gaps_eq, interleave_append hlength]
  simp [Text.slice]

end Bilingual
