import Bilingual.Proofs.Block.Relocate
import Bilingual.Proofs.Diverge

set_option autoImplicit false

/-! # Changes of a block that show

A literal with another text shows in its item (`Replaces.diverge`), the first item that differs shows in the body
(`ParsedBlock.diverge_interleave`), and a body with nothing but new items is longer than it was
(`ParsedBlock.length_lt_renderBody`). So a body that is rendered again is not the one that was there
(`ParsedBlock.Laid.renderBody_ne`). -/

namespace Bilingual

open ParsedBlock

/-! ## One item -/

theorem LiteralSpan.Inside.rewords_edit {l : LiteralSpan} {text : Text} {start stop : Nat}
    (h : l.Inside text start stop) {value : Text} (hdiffers : Differs (l, value) = true) :
    (l.edit value).Rewords (text.take stop) := by
  have hlt := h.stop_lt
  have hslice : Text.slice (text.take stop) l.start l.stop = l.raw := by
    rw [h.raw_eq, Text.slice, Text.slice, List.take_take, Nat.min_eq_left (Nat.le_of_lt hlt)]
  refine ⟨Int.natCast_nonneg _, Int.ofNat_le.2 h.start_le_stop, ⟨l.quote.point, ?_, ?_, ?_⟩, ?_⟩
  · show (text.take stop)[l.stop]? = _
    rw [List.getElem?_take_of_lt hlt, h.quote_eq]
  · show Literal.Closes _ (Text.slice (text.take stop) l.start l.stop)
    rw [hslice]
    exact h.enclosed.closes
  · exact (l.quote.encloses_escape value).closes
  · show l.quote.escape value ≠ Text.slice (text.take stop) l.start l.stop
    rw [hslice]
    intro heq
    have hvalue : l.value = .ok value := by
      rw [LiteralSpan.value, ← heq]
      exact Literal.decode_escape l.quote value
    simp [Differs, hvalue] at hdiffers

/-- An item with other texts in some of its literals shows. -/
theorem Replaces.diverge {text source : Text} {item : BlockItem} {pairs : List (LiteralSpan × Text)}
    (h : Replaces item pairs) (hin : LiteralsIn text item.start item.stop item.content.literals)
    (hle : item.start ≤ item.stop) (hstop : item.stop ≤ text.length)
    (hdiffers : ∀ pair ∈ pairs, Differs pair = true) (hne : pairs ≠ [])
    (hsource : item.withLiterals text pairs = .ok source) : Text.Diverge source (item.source text) := by
  obtain ⟨ordered, hperm, hwithin, hordered, hspliced⟩ := h.withLiterals hin hle hstop
  cases hsource.symm.trans hspliced
  cases ordered with
  | nil => exact absurd (List.map_eq_nil_iff.1 hperm.eq_nil) hne
  | cons e rest =>
    obtain ⟨pair, hpair, rfl⟩ := List.mem_map.1 (hperm.mem_iff.2 List.mem_cons_self)
    have hwords := (hin.inside _ (h.mem pair hpair)).rewords_edit (hdiffers (pair.1, pair.2) hpair)
    have horder := Edit.inOrder_of_within hle (fun e he => (hwithin e he).2) hordered
    rw [← List.length_take_of_le hstop] at horder
    exact Edit.diverge_splice hwords horder (List.pairwise_cons.1 hordered).1

/-! ## All items -/

namespace ParsedBlock

/-- The first item that differs shows in the body. -/
theorem diverge_interleave {gaps old new : List Text} (hgaps : gaps.length = old.length)
    (hitems : List.Forall₂ (fun a b => b = a ∨ Text.Diverge b a) old new) (hne : new ≠ old) :
    Text.Diverge (interleave gaps new) (interleave gaps old) := by
  induction hitems generalizing gaps with
  | nil => exact absurd rfl hne
  | @cons a b old new hitem hitems ih =>
    cases gaps with
    | nil => cases hgaps
    | cons gap gaps =>
      rw [interleave, interleave]
      rcases hitem with rfl | hitem
      · exact (ih (Nat.succ.inj hgaps) fun heq => hne (congrArg _ heq)).append_left _
      · exact (hitem.append_left gap).append_right _ _

theorem length_insertLines (gap indent : Text) (cut : Nat) {items : List Text} (h : items ≠ []) :
    gap.length < (insertLines gap indent cut items).length := by
  obtain ⟨item, rest, rfl⟩ := List.exists_cons_of_ne_nil h
  have hgap := congrArg List.length (List.take_append_drop cut gap)
  rw [List.length_append] at hgap
  rw [insertLines, List.length_append, List.length_append, List.flatMap_cons, List.length_append]
  have hline : 0 < (("\n" : Text) ++ indent ++ item).length := by
    rw [List.length_append, List.length_append]
    exact Nat.lt_of_lt_of_le Nat.one_pos (Nat.le_trans (Nat.le_add_right 1 indent.length) (Nat.le_add_right _ _))
  omega

theorem withCommas_ne_nil {trailingComma : Bool} {items : List Text} (h : items ≠ []) :
    withCommas trailingComma items ≠ [] := by
  match items with
  | [] => exact absurd rfl h
  | [item] => simp [withCommas]
  | item :: other :: rest => simp [withCommas]

theorem length_renderAfter (parsed : ParsedBlock) (lastItem : BlockItem) {init items appended : List Text} {last : Text}
    (hgaps : parsed.gaps = init ++ [last]) (happended : appended ≠ []) :
    (interleave init items ++ last).length < (parsed.renderAfter lastItem items appended).length := by
  have hadded : withCommas lastItem.hasComma appended ≠ [] := withCommas_ne_nil happended
  unfold renderAfter
  rw [hgaps, List.dropLast_concat, List.getLastD_concat]
  dsimp only
  split
  · have hlines := length_insertLines last parsed.itemIndent (last.takeWhile (· ≠ ('\n' : CodePoint))).length hadded
    rw [List.length_append, List.length_append, List.length_append]
    omega
  · obtain ⟨item, rest, hcons⟩ := List.exists_cons_of_ne_nil hadded
    have hadd : 0 < ((withCommas lastItem.hasComma appended).flatMap fun item => (" " ++ item : Text)).length := by
      rw [hcons, List.flatMap_cons, List.length_append, List.length_append]
      exact Nat.lt_of_lt_of_le Nat.one_pos (Nat.le_trans (Nat.le_add_right 1 item.length) (Nat.le_add_right _ _))
    rw [List.length_append, List.length_append, List.length_append, List.length_append]
    omega

theorem length_renderFirst (parsed : ParsedBlock) (gap : Text) {appended : List Text} (happended : appended ≠ [])
    (hwritten : ∀ source ∈ appended, source ≠ []) : gap.length < (parsed.renderFirst gap appended).length := by
  unfold renderFirst
  split
  · exact length_insertLines _ _ _ (withCommas_ne_nil happended)
  · obtain ⟨item, rest, rfl⟩ := List.exists_cons_of_ne_nil happended
    have hitem := List.length_pos_iff.2 (hwritten item List.mem_cons_self)
    rw [joinWith_cons, List.length_append, List.length_append]
    omega

/-- A body with nothing but new items behind the old ones is longer. -/
theorem length_lt_renderBody {parsed : ParsedBlock} {init : List Text} {last body : Text} {items appended : List Text}
    (hgaps : parsed.gaps = init ++ [last]) (hinit : init.length = items.length) (happended : appended ≠ [])
    (hwritten : ∀ source ∈ appended, source ≠ []) (h : parsed.renderBody items appended = .ok body) :
    (interleave parsed.gaps items).length < body.length := by
  have hold : interleave parsed.gaps items = interleave init items ++ last := by
    rw [hgaps, interleave_append hinit, List.flatten_singleton]
  rw [hold]
  unfold renderBody at h
  split at h
  · cases h
  · next hcount =>
    rw [if_neg (by simpa using happended)] at h
    split at h
    · cases h
      exact length_renderAfter parsed _ hgaps happended
    -- without items there is one gap
    · next hnone =>
      cases h
      have hitems : items = [] := by
        rw [List.getLast?_eq_none_iff.1 hnone] at hcount
        exact List.length_eq_zero_iff.1 (not_not.1 hcount)
      subst hitems
      obtain rfl := List.length_eq_zero_iff.1 hinit
      rw [hgaps]
      exact length_renderFirst parsed last happended hwritten

/-- A body whose first items have other sources goes apart from the one that was there. -/
theorem diverge_renderBody {parsed : ParsedBlock} {init : List Text} {last body : Text} {old new appended : List Text}
    (hgaps : parsed.gaps = init ++ [last]) (hinit : init.length = old.length)
    (hitems : List.Forall₂ (fun a b => b = a ∨ Text.Diverge b a) old new) (hne : new ≠ old)
    (h : parsed.renderBody new appended = .ok body) : Text.Diverge body (interleave parsed.gaps old) := by
  have hshows := diverge_interleave hinit hitems hne
  have hnew : init.length = new.length := hinit.trans hitems.length_eq
  unfold renderBody at h
  rw [hgaps, interleave_append hinit]
  split at h
  · cases h
  · next hcount =>
    split at h
    · cases h
      rw [hgaps, interleave_append hnew]
      exact hshows.append_right _ _
    · split at h
      · cases h
        unfold renderAfter
        rw [hgaps, List.dropLast_concat]
        dsimp only
        split
        · rw [List.append_assoc]
          exact hshows.append_right _ _
        · rw [List.append_assoc, List.append_assoc]
          exact hshows.append_right _ _
      -- without items there is nothing to differ
      · next hnone =>
        rw [List.getLast?_eq_none_iff.1 hnone] at hcount
        obtain rfl := List.length_eq_zero_iff.1 (not_not.1 hcount)
        cases hitems
        exact absurd rfl hne

variable {parsed : ParsedBlock} {text : Text} {kind : ItemKind} {parts : List BlockPart} {last : Text}

/-- The body of a laid out block is its gaps and items in turn. -/
theorem Laid.body_eq_interleave (h : parsed.Laid text kind parts last)
    (hend : parsed.block.bodyStart ≤ parsed.block.bodyEnd) :
    parsed.block.body text = interleave parsed.gaps (parsed.items.map fun item => item.source text) := by
  rw [h.body_eq hend, h.gaps_eq, sources_of_partItems h.items_eq h.text_eq, interleave_append (by simp),
    interleave_parts, List.flatten_singleton]

/-- A body that is rendered again is another one, if an item has another source or a new item is put behind them. -/
theorem Laid.renderBody_ne (h : parsed.Laid text kind parts last)
    (hend : parsed.block.bodyStart ≤ parsed.block.bodyEnd) {sources appended : List Text} {body : Text}
    (hitems : List.Forall₂ (fun item source => source = item.source text ∨ Text.Diverge source (item.source text))
      parsed.items sources)
    (hshows : sources ≠ parsed.items.map (fun item => item.source text) ∨ appended ≠ [])
    (hwritten : ∀ source ∈ appended, source ≠ []) (hbody : parsed.renderBody sources appended = .ok body) :
    body ≠ parsed.block.body text := by
  have hinit : (parts.map BlockPart.gap).length = (parsed.items.map fun item => item.source text).length := by
    rw [List.length_map, List.length_map, length_of_partItems h.items_eq]
  rw [h.body_eq_interleave hend]
  by_cases hsame : sources = parsed.items.map fun item => item.source text
  · have hnew := hshows.resolve_left (not_not.2 hsame)
    rw [hsame] at hbody
    intro heq
    have hlt := length_lt_renderBody h.gaps_eq hinit hnew hwritten hbody
    rw [heq] at hlt
    exact Nat.lt_irrefl _ hlt
  · exact (diverge_renderBody h.gaps_eq hinit (List.forall₂_map_left_iff.2 hitems) hsame hbody).ne

end ParsedBlock

end Bilingual
