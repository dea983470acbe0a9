import Bilingual.Proofs.Block.Rewrite
import Bilingual.Proofs.Block.Scan

set_option autoImplicit false

/-! # Items with other texts in their literals

A rewritten item is the item it was with another body between the same quotes (`ItemForm.exists_requoted`). The scan
for the closing bracket and the search for the closing line see no difference between such items, whatever the bodies
hold: the one reads a literal as a whole (`closingFrom?_partsText`), and the other finds nothing that has no line
break (`indexOf?_requoted`). -/

namespace Bilingual

open Bilingual.Bracket Text

/-! ## Forms that differ in the body of a literal -/

/-- Two forms of an item whose value is a literal: they differ at most in its body. -/
inductive ItemForm.Requoted : ItemForm → ItemForm → Prop
  | mk (key : Option KeyForm) {quote : Quote} {body body' : Text} (hbody : quote.Encloses body)
      (hbody' : quote.Encloses body') (comma : Option Text)
      (hcomma : ∀ blanks ∈ comma, ∀ c ∈ blanks, c.isBlank = true) :
      Requoted ⟨key, .literal quote body hbody, comma, hcomma⟩ ⟨key, .literal quote body' hbody', comma, hcomma⟩

/-- Two parts with the same gap whose items differ at most in the body of a literal. -/
structure BlockPart.Requoted (part part' : BlockPart) : Prop where
  gap_eq : part'.gap = part.gap
  form : part.form.Requoted part'.form

theorem ItemForm.Requoted.kind_eq {form form' : ItemForm} (h : form.Requoted form') : form'.kind = form.kind := by
  cases h with
  | mk key => cases key <;> rfl

theorem ItemForm.Requoted.isLiteral {form form' : ItemForm} (h : form.Requoted form') :
    form'.kind = .entry ∨ form'.kind = .literal := by
  cases h with
  | mk key =>
    cases key with
    | none => exact .inr rfl
    | some key => exact .inl rfl

theorem ItemForm.Requoted.keyText_eq {form form' : ItemForm} (h : form.Requoted form') :
    form'.keyText = form.keyText := by
  cases h
  rfl

theorem ItemForm.Requoted.symm {form form' : ItemForm} (h : form.Requoted form') : form'.Requoted form := by
  cases h with
  | mk key hbody hbody' comma hcomma => exact .mk key hbody' hbody comma hcomma

/-- The value of an entry or of a literal is a literal. -/
theorem ItemForm.exists_literal (form : ItemForm) (h : form.kind = .entry ∨ form.kind = .literal) :
    ∃ (quote : Quote) (body : Text) (hbody : quote.Encloses body), form.value = .literal quote body hbody := by
  obtain ⟨key, value, comma, hcomma⟩ := form
  cases value with
  | literal quote body hbody => exact ⟨quote, body, hbody, rfl⟩
  | object body hbody => cases key <;> rcases h with h | h <;> cases h

section Parts

variable {parts parts' : List BlockPart}

theorem map_gap_of_requoted (h : List.Forall₂ BlockPart.Requoted parts parts') :
    parts'.map BlockPart.gap = parts.map BlockPart.gap :=
  (List.Forall₂.map_eq_map h fun _ _ hpart => hpart.gap_eq.symm).symm

theorem kind_of_requoted {kind : ItemKind} (h : List.Forall₂ BlockPart.Requoted parts parts')
    (hkind : ∀ part ∈ parts, part.form.kind = kind) : ∀ part' ∈ parts', part'.form.kind = kind := by
  intro part' hpart'
  obtain ⟨part, hpart, hrequoted⟩ := List.Forall₂.exists_of_mem_right h hpart'
  rw [hrequoted.form.kind_eq, hkind part hpart]

theorem line_mem_of_requoted {form form' : ItemForm} (h : form.Requoted form') (hline : ('\n' : CodePoint) ∈ form.text) :
    ('\n' : CodePoint) ∈ form'.text := by
  cases h with
  | mk key hbody hbody' comma hcomma =>
    have hnot := hbody.not_mem_line
    simp only [ItemForm.text, ValueForm.text, List.mem_append, List.mem_cons, hnot] at hline ⊢
    tauto

theorem line_mem_partsText (h : List.Forall₂ BlockPart.Requoted parts parts')
    (hline : ('\n' : CodePoint) ∈ partsText parts) : ('\n' : CodePoint) ∈ partsText parts' := by
  induction h with
  | nil => exact hline
  | cons hpart _ ih =>
    rw [partsText_cons, List.mem_append, List.mem_append] at hline ⊢
    rw [hpart.gap_eq]
    exact hline.imp_right (Or.imp (line_mem_of_requoted hpart.form) ih)

theorem forall₂_requoted_symm (h : List.Forall₂ BlockPart.Requoted parts parts') :
    List.Forall₂ BlockPart.Requoted parts' parts :=
  h.flip.imp fun _ _ hpart => ⟨hpart.gap_eq.symm, hpart.form.symm⟩

/-! ## The scan for the closing bracket -/

theorem Bracket.closingFrom?_add (singleLine : Bool) (skip depth offset k : Nat) (t : Text) :
    closingFrom? singleLine skip depth (k + offset) t = (closingFrom? singleLine skip depth offset t).map (k + ·) := by
  induction t generalizing skip depth offset with
  | nil => rfl
  | cons c rest ih =>
    have hstep : ∀ skip depth, closingFrom? singleLine skip depth (k + offset + 1) rest =
        (closingFrom? singleLine skip depth (offset + 1) rest).map (k + ·) := fun skip depth => ih skip depth (offset + 1)
    rw [closingFrom?.eq_def, closingFrom?.eq_def singleLine skip depth offset]
    dsimp only
    simp only [hstep]
    repeat' split
    all_goals rfl

/-- The scan passes over parts of one line and goes on behind them as at the start of a text. -/
theorem closingFrom?_partsText (hliteral : ∀ part ∈ parts, part.form.kind = .entry ∨ part.form.kind = .literal)
    (offset : Nat) (rest : Text) : closingFrom? true 0 0 offset (partsText parts ++ rest) =
      if ('\n' : CodePoint) ∈ partsText parts then none
      else (closingFrom? true 0 0 0 rest).map (offset + (partsText parts).length + ·) := by
  rw [scans_partsText hliteral, ← closingFrom?_add, Nat.add_zero]

/-! ## The search for the closing line -/

/-- A text that begins with a line break and holds neither quotes nor commas. -/
structure IsLineNeedle (needle : Text) : Prop where
  line : ('\n' : CodePoint) ∈ needle
  quote : ∀ quote : Quote, quote.point ∉ needle
  comma : (',' : CodePoint) ∉ needle

theorem indexOf?_comma {needle : Text} (hneedle : IsLineNeedle needle) (form : ItemForm) (rest : Text) :
    indexOf? needle (form.commaText ++ rest) = (indexOf? needle rest).map (· + form.commaText.length) := by
  obtain ⟨key, value, comma, hcomma⟩ := form
  cases comma with
  | none => simp [ItemForm.commaText]
  | some blanks =>
    have hblanks : ('\n' : CodePoint) ∉ blanks := fun hmem => absurd (hcomma blanks rfl _ hmem) (by decide)
    have htext : ItemForm.commaText ⟨key, value, some blanks, hcomma⟩ = blanks ++ [(',' : CodePoint)] := rfl
    rw [htext, List.append_assoc, List.singleton_append, indexOf?_barrier hneedle.comma,
      indexOf?_eq_none_of_not_mem hneedle.line hblanks, Option.none_or, List.length_append]
    rfl

/-- What is found in parts is found in front of a literal or behind its item. -/
theorem indexOf?_part {needle : Text} (hneedle : IsLineNeedle needle) {part : BlockPart}
    (hpart : part.form.kind = .entry ∨ part.form.kind = .literal) (rest : Text) :
    indexOf? needle (part.text ++ rest) = (indexOf? needle (part.gap ++ part.form.keyText)).or
      ((indexOf? needle rest).map (· + part.text.length)) := by
  obtain ⟨gap, form, hgap⟩ := part
  obtain ⟨quote, body, hbody, hvalue⟩ := form.exists_literal hpart
  have htext : BlockPart.text ⟨gap, form, hgap⟩ ++ rest =
      (gap ++ form.keyText) ++ quote.point :: (body ++ quote.point :: (form.commaText ++ rest)) := by
    simp [BlockPart.text, ItemForm.text, hvalue, ValueForm.text]
  have hlength : (BlockPart.text ⟨gap, form, hgap⟩).length =
      (gap ++ form.keyText).length + (body.length + 2 + form.commaText.length) := by
    have := congrArg List.length htext
    simp only [List.length_append, List.length_cons] at this ⊢
    omega
  rw [htext, indexOf?_barrier (hneedle.quote quote), indexOf?_barrier (hneedle.quote quote),
    indexOf?_eq_none_of_not_mem hneedle.line hbody.not_mem_line, Option.none_or, indexOf?_comma hneedle,
    Option.map_map, Option.map_map, hlength]
  congr 2
  funext n
  show n + form.commaText.length + (body.length + 1) + ((gap ++ form.keyText).length + 1) = _
  omega

/-- Behind the items, a text is found in the same place. -/
theorem indexOf?_requoted {needle rest : Text} {n : Nat} (hneedle : IsLineNeedle needle)
    (h : List.Forall₂ BlockPart.Requoted parts parts') (hfound : indexOf? needle (partsText parts ++ rest) = some n)
    (hend : (partsText parts).length < n + needle.length) :
    ∃ m, n = (partsText parts).length + m ∧
      indexOf? needle (partsText parts' ++ rest) = some ((partsText parts').length + m) := by
  induction h generalizing n with
  | nil => exact ⟨n, (Nat.zero_add n).symm, by rw [hfound]; simp [partsText]⟩
  | @cons part part' parts parts' hpart _ ih =>
    have htext : ∀ (part : BlockPart) (parts : List BlockPart), partsText (part :: parts) =
        part.text ++ partsText parts := fun _ _ => List.flatMap_cons
    have hkey : part'.gap ++ part'.form.keyText = part.gap ++ part.form.keyText := by
      rw [hpart.gap_eq, hpart.form.keyText_eq]
    rw [htext, List.append_assoc, indexOf?_part hneedle hpart.form.symm.isLiteral] at hfound
    rw [htext, List.length_append] at hend
    -- what is found in front of the literal ends there
    have hnone : indexOf? needle (part.gap ++ part.form.keyText) = none := by
      cases hbefore : indexOf? needle (part.gap ++ part.form.keyText) with
      | none => rfl
      | some k =>
        rw [hbefore] at hfound
        cases hfound
        have hle := add_length_le_of_indexOf? hbefore
        have hlength : (part.gap ++ part.form.keyText).length ≤ part.text.length := by
          rw [BlockPart.text, ItemForm.text, List.length_append, List.length_append, List.length_append]
          omega
        omega
    rw [hnone, Option.none_or] at hfound
    obtain ⟨k, hk, rfl⟩ := Option.map_eq_some_iff.1 hfound
    obtain ⟨m, rfl, hagain⟩ := ih hk (by omega)
    refine ⟨m, by rw [htext, List.length_append]; omega, ?_⟩
    rw [htext, List.append_assoc, indexOf?_part hneedle hpart.form.isLiteral, hkey, hnone, Option.none_or, hagain,
      Option.map_some, List.length_append]
    congr 1
    omega

end Parts

/-! ## Rewritten items -/

/-- An item with new values: its key is the same, and its literal stands for the new value, or without one for what it
stood for. -/
structure Overlaid (item : BlockItem) (pairs : List (LiteralSpan × Text)) (item' : BlockItem) : Prop where
  key_eq : item'.key? = item.key?
  literal : ∃ l l', item.literal? = some l ∧ item'.literal? = some l' ∧ (pairs = [] → l'.value = l.value) ∧
    ∀ value, (l, value) ∈ pairs → l'.value = .ok value

/-- New values for the only literal of an item are none or one. -/
theorem Replaces.eq_nil_or_singleton {item : BlockItem} {pairs : List (LiteralSpan × Text)} {l : LiteralSpan}
    (h : Replaces item pairs) (hl : item.content.literals = [l]) : pairs = [] ∨ ∃ value, pairs = [(l, value)] := by
  obtain ⟨hmem, hnodup⟩ := h
  have hfst : ∀ pair ∈ pairs, pair.1 = l := fun pair hpair => List.mem_singleton.1 (hl ▸ hmem pair hpair)
  match pairs, hfst, hnodup with
  | [], _, _ => exact .inl rfl
  | [(l', value)], hfst, _ => exact .inr ⟨value, by rw [← hfst (l', value) (List.mem_singleton_self _)]⟩
  | first :: second :: rest, hfst, hnodup =>
    have heq : first.1 = second.1 := by rw [hfst first (by simp), hfst second (by simp)]
    exact absurd hnodup (by simp [heq])

/-- With another body in its literal, an item has the key it had. -/
theorem exists_content (key : Option KeyForm) {quote : Quote} {body body' : Text} (hbody : quote.Encloses body)
    (hbody' : quote.Encloses body') {comma : Option Text}
    (hcomma : ∀ blanks ∈ comma, ∀ c ∈ blanks, c.isBlank = true) {offset : Nat} {content : ItemContent}
    (h : ItemForm.content ⟨key, .literal quote body hbody, comma, hcomma⟩ offset = .ok content) (offset' : Nat) :
    ∃ content', ItemForm.content ⟨key, .literal quote body' hbody', comma, hcomma⟩ offset' = .ok content' ∧
      ∀ item item' : BlockItem, item.content = content → item'.content = content' → item'.key? = item.key? ∧
        (∃ start, item.literal? = some (.ofBody start quote body)) ∧
          ∃ start, item'.literal? = some (.ofBody start quote body') := by
  cases key with
  | none =>
    cases h
    refine ⟨_, rfl, fun item item' hitem hitem' => ?_⟩
    unfold BlockItem.key? BlockItem.literal?
    rw [hitem, hitem']
    exact ⟨rfl, ⟨_, rfl⟩, _, rfl⟩
  | some key =>
    obtain ⟨k, hk, rfl⟩ := Except.map_eq_ok_iff.1 h
    refine ⟨_, Except.map_eq_ok_iff.2 ⟨k, hk, rfl⟩, fun item item' hitem hitem' => ?_⟩
    unfold BlockItem.key? BlockItem.literal?
    rw [hitem, hitem']
    exact ⟨rfl, ⟨_, rfl⟩, _, rfl⟩

/-- A rewritten item has the form it had, with another body in its literal. -/
theorem ItemForm.exists_requoted {form : ItemForm} {text behind source : Text} {offset : Nat} {content : ItemContent}
    {pairs : List (LiteralSpan × Text)} (hkind : form.kind = .entry ∨ form.kind = .literal)
    (htext : text.drop offset = form.text ++ behind) (hcontent : form.content offset = .ok content)
    (hreplaces : Replaces (form.item text offset content) pairs)
    (hsource : (form.item text offset content).withLiterals text pairs = .ok source) :
    ∃ form', form.Requoted form' ∧ form'.text = source ∧ ∀ text' offset', ∃ content',
      form'.content offset' = .ok content' ∧
        Overlaid (form.item text offset content) pairs (form'.item text' offset' content') := by
  have hitem : (form.item text offset content).source text = form.text := Text.slice_of_drop htext
  have hliterals := literals_of_content hcontent
  obtain ⟨quote, body, hbody, hvalue⟩ := form.exists_literal hkind
  obtain ⟨key, _, comma, hcomma⟩ := form
  cases hvalue
  -- another body that stands for the new value, if there is one
  have hform : ∀ {body' : Text} (hbody' : quote.Encloses body'), (pairs = [] → body' = body) →
      (∀ l value, (l, value) ∈ pairs → Literal.decode body' = .ok value) →
      (ItemForm.text ⟨key, .literal quote body' hbody', comma, hcomma⟩ = source) → ∃ form',
        Requoted ⟨key, .literal quote body hbody, comma, hcomma⟩ form' ∧ form'.text = source ∧ ∀ text' offset',
          ∃ content', form'.content offset' = .ok content' ∧
            Overlaid (item ⟨key, .literal quote body hbody, comma, hcomma⟩ text offset content) pairs
              (form'.item text' offset' content') := by
    intro body' hbody' hkept hput hsource
    refine ⟨_, .mk key hbody hbody' comma hcomma, hsource, fun text' offset' => ?_⟩
    obtain ⟨content', hcontent', hboth⟩ := exists_content key hbody hbody' hcomma hcontent offset'
    refine ⟨content', hcontent', ?_⟩
    obtain ⟨hkey, ⟨start, hl⟩, start', hl'⟩ := hboth (item ⟨key, .literal quote body hbody, comma, hcomma⟩ text
      offset content) (item ⟨key, .literal quote body' hbody', comma, hcomma⟩ text' offset' content') rfl rfl
    exact ⟨hkey, _, _, hl, hl', fun hnil => congrArg Literal.decode (hkept hnil), hput _⟩
  rcases hreplaces.eq_nil_or_singleton hliterals with rfl | ⟨value, rfl⟩
  · have hsame : (item ⟨key, .literal quote body hbody, comma, hcomma⟩ text offset content).withLiterals text [] =
        .ok _ := rfl
    rw [hitem] at hsame
    exact hform hbody (fun _ => rfl) (fun _ _ h => by cases h) (Except.ok.inj (hsame.symm.trans hsource))
  · have htext : ∀ {body : Text} (hbody : quote.Encloses body), ItemForm.text ⟨key, .literal quote body hbody, comma,
        hcomma⟩ = ((key.map KeyForm.text).getD [] ++ [quote.point]) ++
          (body ++ (quote.point :: (comma.map (· ++ [(',' : CodePoint)])).getD [])) := by
      intro body hbody
      simp [ItemForm.text, ItemForm.keyText, ItemForm.commaText, ValueForm.text]
    rw [BlockItem.withLiterals, hitem, htext] at hsource
    refine hform (quote.encloses_escape value) (fun h => by cases h) (fun l value' h => ?_) ?_
    · cases List.mem_singleton.1 h
      exact Literal.decode_escape quote value
    · rw [htext]
      refine Except.ok.inj ((Edit.applyAll_single _ body _ (quote.escape value) ?_ ?_ rfl).symm.trans hsource)
      · show ((offset + ((key.map KeyForm.text).getD []).length + 1 : Nat) : Int) - (offset : Nat) = _
        rw [List.length_append, List.length_singleton]
        omega
      · show ((offset + ((key.map KeyForm.text).getD []).length + 1 + body.length : Nat) : Int) - (offset : Nat) = _
        rw [List.length_append, List.length_singleton]
        omega

/-- Rewritten items have the forms they had, with other bodies in their literals. -/
theorem exists_requoted {text behind : Text} {offset : Nat} {parts : List BlockPart} {items : List BlockItem}
    {wanted : List (List (LiteralSpan × Text))} {sources : List Text}
    (hkind : ∀ part ∈ parts, part.form.kind = .entry ∨ part.form.kind = .literal)
    (hitems : partItems text offset parts = .ok items) (htext : text.drop offset = partsText parts ++ behind)
    (hwanted : List.Forall₂ Replaces items wanted) (hsources : rewriteItems text items wanted = .ok sources) :
    ∃ parts', List.Forall₂ BlockPart.Requoted parts parts' ∧ parts'.map (fun part => part.form.text) = sources ∧
      ∀ text' offset', ∃ items', partItems text' offset' parts' = .ok items' ∧
        List.Forall₂ (fun (p : BlockItem × List (LiteralSpan × Text)) item' => Overlaid p.1 p.2 item')
          (items.zip wanted) items' := by
  induction parts generalizing offset items wanted sources with
  | nil =>
    cases hitems
    cases hwanted
    cases hsources
    exact ⟨[], .nil, rfl, fun _ _ => ⟨[], rfl, .nil⟩⟩
  | cons part parts ih =>
    obtain ⟨content, others, hcontent, hothers, rfl⟩ := partItems_cons_eq_ok_iff.1 hitems
    cases hwanted with
    | @cons _ pairs _ rest hitem hrest =>
    obtain ⟨hpart, hparts⟩ := List.forall_mem_cons.1 hkind
    obtain ⟨hform, hbehind⟩ := drop_partsText htext
    have hall := Except.mapM_eq_ok_iff.1 hsources
    rw [List.zip_cons_cons] at hall
    cases hall with
    | @cons _ source _ others' hsource hothers' =>
    obtain ⟨form', hrequoted, rfl, hitem'⟩ := part.form.exists_requoted hpart hform hcontent hitem hsource
    obtain ⟨parts', hparts', rfl, hitems'⟩ := ih hparts hothers hbehind hrest (Except.mapM_eq_ok_iff.2 hothers')
    refine ⟨⟨part.gap, form', part.isGap⟩ :: parts', .cons ⟨rfl, hrequoted⟩ hparts', rfl, fun text' offset' => ?_⟩
    obtain ⟨content', hcontent', hoverlaid⟩ := hitem' text' (offset' + part.gap.length)
    obtain ⟨items', hitems', hall⟩ := hitems' text' (offset' + part.gap.length + form'.text.length)
    exact ⟨_, partItems_cons_eq_ok_iff.2 ⟨content', items', hcontent', hitems', rfl⟩, .cons hoverlaid hall⟩

end Bilingual
