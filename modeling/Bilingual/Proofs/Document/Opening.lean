import Bilingual.Proofs.Block.Opener
import Bilingual.Proofs.Document

set_option autoImplicit false

/-! # Where fields open

A labelled literal is read only where a text goes on with the label, a colon and a quote (`Text.FieldStart`). No
escape of a template stands inside of that, so a template body has such a place only where the text that it stands
for has one: in the template of a text that opens no field (`Text.Opens`) nothing is taken for one. -/

namespace Bilingual

namespace Text

/-- How a field that holds a literal begins: the label, bare or in quotes, a colon and the opening quote. -/
def FieldStart (name t : Text) : Prop :=
  ∃ (around blanks behind : Text) (q : Quote), around ∈ ([[], "'", "\""] : List Text) ∧
    (∀ c ∈ blanks, c.isSpace = true) ∧ (∀ c ∈ behind, c.isSpace = true) ∧
      t = around ++ name ++ around ++ blanks ++ (':' : CodePoint) :: behind ++ [q.point]

/-- A field that holds a literal begins somewhere in a text, where no identifier ends. -/
def Opens (name t : Text) : Prop :=
  ∃ front start behind : Text, t = front ++ (start ++ behind) ∧ FieldStart name start ∧
    ∀ c ∈ front.getLast?, c.isIdentifier = false

/-- A code point that is never escaped in a template. -/
def IsPlain (c : CodePoint) : Prop := c ≠ '\\' ∧ c ≠ '\x60' ∧ c ≠ '$'

instance (c : CodePoint) : Decidable (IsPlain c) := inferInstanceAs (Decidable (c ≠ '\\' ∧ c ≠ '\x60' ∧ c ≠ '$'))

variable {name : Text}

/-- A text that opens a field has the name of the field in it. -/
theorem Opens.isInfix {t : Text} (h : Opens name t) : name <:+: t := by
  obtain ⟨front, start, behind, rfl, ⟨around, blanks, blanks', q, -, -, -, rfl⟩, -⟩ := h
  exact ⟨front ++ around, around ++ blanks ++ (':' : CodePoint) :: blanks' ++ [q.point] ++ behind, by simp⟩

theorem FieldStart.isPlain {t : Text} (hname : ∀ c ∈ name, IsPlain c) (h : FieldStart name t) :
    ∀ c ∈ t, IsPlain c := by
  obtain ⟨around, blanks, behind, q, haround, hblanks, hbehind, rfl⟩ := h
  have hspace : ∀ c : CodePoint, c.isSpace = true → IsPlain c := by
    refine fun c hc => ⟨?_, ?_, ?_⟩ <;> rintro rfl <;> exact absurd hc (by decide)
  have haround : ∀ c ∈ around, IsPlain c :=
    (by decide : ∀ around ∈ ([[], "'", "\""] : List Text), ∀ c ∈ around, IsPlain c) around haround
  have hquote : IsPlain q.point := by cases q <;> decide
  intro c hc
  simp only [List.mem_append, List.mem_cons, List.not_mem_nil, or_false] at hc
  rcases hc with ((((hc | hc) | hc) | hc) | rfl | hc) | rfl
  · exact haround c hc
  · exact hname c hc
  · exact haround c hc
  · exact hspace c (hblanks c hc)
  · decide
  · exact hspace c (hbehind c hc)
  · exact hquote

/-! ## Escaped templates -/

/-- A text has a code point at some place, with behind it a text that is written as `rest` in a template, and with the
same code point in front of it as behind `front`. -/
def StandsFor (value front : Text) (c : CodePoint) (rest : Text) : Prop :=
  ∃ front' rest' : Text, value = front' ++ c :: rest' ∧ escapeTemplate rest' = rest ∧
    front'.getLast? = front.getLast?

theorem StandsFor.cons {value front rest : Text} {c : CodePoint} (h : StandsFor value front c rest)
    (d : CodePoint) : StandsFor (d :: value) (d :: front) c rest := by
  obtain ⟨front', rest', rfl, hrest, hlast⟩ := h
  exact ⟨d :: front', rest', rfl, hrest, by simp [List.getLast?_cons, hlast]⟩

theorem exists_of_escaped_append {t front rest : Text} {c d : CodePoint} (hc : IsPlain c) (hd : ¬ IsPlain d)
    (h : ('\\' : CodePoint) :: d :: t = front ++ c :: rest) :
    ∃ front' : Text, front = ('\\' : CodePoint) :: d :: front' ∧ t = front' ++ c :: rest := by
  match front with
  | [] => exact absurd (List.cons.inj h).1.symm hc.1
  | [e] => exact absurd hc ((List.cons.inj (List.cons.inj h).2).1 ▸ hd)
  | e :: e' :: front =>
    obtain ⟨rfl, hrest⟩ := List.cons.inj (List.cons.inj h).2
    rw [← (List.cons.inj h).1]
    exact ⟨front, rfl, hrest⟩

/-- A code point of an escaped template that is never escaped comes from the text that the template stands for. -/
theorem standsFor_of_escapeTemplate {value front rest : Text} {c : CodePoint} (hc : IsPlain c)
    (h : escapeTemplate value = front ++ c :: rest) : StandsFor value front c rest := by
  fun_induction escapeTemplate value generalizing front with
  | case1 => simp at h
  | case2 d value hspecial ih =>
    obtain ⟨front, rfl, hrest⟩ := exists_of_escaped_append hc (fun hd => hspecial.elim hd.1 hd.2.1) h
    exact (ih hrest).cons d
  | case3 d value _ hdollar ih =>
    obtain ⟨front, rfl, hrest⟩ := exists_of_escaped_append hc (fun hd => hd.2.2 hdollar.1) h
    exact (ih hrest).cons d
  | case4 d value _ _ ih =>
    cases front with
    | nil =>
      obtain ⟨rfl, rfl⟩ := List.cons.inj h
      exact ⟨[], value, rfl, rfl, rfl⟩
    | cons e front =>
      obtain ⟨rfl, hrest⟩ := List.cons.inj h
      exact (ih hrest).cons d

theorem exists_of_escapeTemplate_append {value start rest : Text} (hstart : ∀ c ∈ start, IsPlain c)
    (h : escapeTemplate value = start ++ rest) : ∃ rest' : Text, value = start ++ rest' := by
  induction start generalizing value with
  | nil => exact ⟨value, rfl⟩
  | cons c start ih =>
    obtain ⟨hc, hstart⟩ := List.forall_mem_cons.1 hstart
    have hfirst : StandsFor value [] c (start ++ rest) := standsFor_of_escapeTemplate hc h
    obtain ⟨front', rest', rfl, hrest, hlast⟩ := hfirst
    have hnil : front' = [] := List.getLast?_eq_none_iff.1 hlast
    obtain ⟨rest'', rfl⟩ := ih hstart hrest
    exact ⟨rest'', by rw [hnil]; rfl⟩

/-- An escaped template opens a field only if the text that it stands for does. -/
theorem opens_of_escapeTemplate {value : Text} (hname : ∀ c ∈ name, IsPlain c)
    (h : Opens name (escapeTemplate value)) : Opens name value := by
  obtain ⟨front, start, behind, htext, hstart, hfront⟩ := h
  have hplain := hstart.isPlain hname
  cases start with
  | nil =>
    obtain ⟨around, blanks, blanks', q, -, -, -, hnil⟩ := hstart
    simp at hnil
  | cons c start =>
    obtain ⟨hc, hmore⟩ := List.forall_mem_cons.1 hplain
    obtain ⟨front', rest', rfl, hrest, hlast⟩ := standsFor_of_escapeTemplate hc htext
    obtain ⟨behind', rfl⟩ := exists_of_escapeTemplate_append hmore hrest
    exact ⟨front', c :: start, behind', rfl, hstart, hlast ▸ hfront⟩

end Text

/-! ## Reading fields -/

namespace Recogniser

variable {name : Text} {cursor behind : Cursor}

/-- A labelled literal is read only in front of its label, a colon and a quote, where no identifier ends. -/
theorem fieldStart_of_mem_labelledLiteral {l : LiteralSpan} (h : (l, behind) ∈ (labelledLiteral name).run cursor) :
    (∀ c ∈ cursor.previous, c.isIdentifier = false) ∧
      ∃ start more : Text, Text.FieldStart name start ∧ cursor.rest = start ++ more := by
  obtain ⟨⟨⟩, c₁, hfield, hliteral⟩ := mem_run_bind.1 h
  obtain ⟨⟨⟩, c₂, hlabel, hfield⟩ := mem_run_bind.1 hfield
  obtain ⟨⟨⟩, c₃, hspaces, hfield⟩ := mem_run_bind.1 hfield
  obtain ⟨⟨⟩, c₄, hcolon, hspaces'⟩ := mem_run_bind.1 hfield
  obtain ⟨hlabel, hprevious⟩ := mem_run_atWordStart_iff.1 hlabel
  obtain ⟨blanks, hblanks, hrest⟩ := exists_of_mem_many hspaces
  obtain ⟨blanks', hblanks', hrest'⟩ := exists_of_mem_many hspaces'
  obtain ⟨around, haround, hread⟩ : ∃ around ∈ ([[], "'", "\""] : List Text),
      cursor.rest = around ++ name ++ around ++ c₂.rest := by
    have hexactly : ∀ {t : Text}, ((), c₂) ∈ (exactly t).run cursor → cursor.rest = t ++ c₂.rest := by
      intro t ht
      obtain ⟨⟨more, hmore⟩, rfl⟩ := mem_run_exactly_iff.1 ht
      rw [Cursor.rest_advance_append hmore.symm, hmore]
    rcases mem_run_orElse_iff.1 hlabel with hlabel | hlabel
    · exact ⟨[], by simp, by rw [hexactly hlabel]; simp⟩
    · rcases mem_run_orElse_iff.1 hlabel with hlabel | hlabel
      · exact ⟨_, by simp, hexactly hlabel⟩
      · exact ⟨_, by simp, hexactly hlabel⟩
  refine ⟨fun c hc => ?_, _, l.raw ++ l.quote.point :: behind.rest,
    ⟨around, blanks, blanks', l.quote, haround, hblanks, hblanks', rfl⟩, ?_⟩
  · rw [Option.mem_def.1 hc] at hprevious
    simpa using hprevious
  · rw [hread, hrest, eq_of_mem_point hcolon, hrest', (exists_of_mem_literal hliteral).2]
    simp only [List.append_assoc, List.cons_append, List.nil_append]

/-- In front of a backtick nothing in a text that opens no field is taken for one. -/
theorem first?_labelledLiteral_of_not_opens (hname : ∀ c ∈ name, Text.IsPlain c) {t rest : Text}
    (ht : ¬ Text.Opens name t) (h : cursor.rest = t ++ ('\x60' : CodePoint) :: rest) {n : Nat} (hn : n < t.length) :
    (labelledLiteral name).first? (cursor.advance n) = none := by
  cases hfirst : (labelledLiteral name).first? (cursor.advance n) with
  | none => rfl
  | some found =>
    obtain ⟨hprevious, start, more, hstart, hread⟩ := fieldStart_of_mem_labelledLiteral (mem_run_of_first? hfirst)
    have hrest : start <+: t.drop n ++ ('\x60' : CodePoint) :: rest := by
      rw [← List.drop_append_of_le_length (Nat.le_of_lt hn), ← h, ← Cursor.rest_advance]
      exact ⟨more, hread.symm⟩
    obtain ⟨behind, hbehind⟩ := (Text.prefix_barrier (fun hmem => (hstart.isPlain hname _ hmem).2.1 rfl) _ _).1 hrest
    have hsplit : cursor.rest = t.take n ++ (t.drop n ++ ('\x60' : CodePoint) :: rest) := by
      rw [← List.append_assoc, List.take_append_drop, h]
    have hlength : (t.take n).length = n := List.length_take_of_le (Nat.le_of_lt hn)
    refine absurd ⟨t.take n, start, behind, ?_, hstart, fun c hc => hprevious c ?_⟩ ht
    · rw [hbehind, List.take_append_drop]
    · have := Cursor.previous_advance hsplit hc
      rwa [hlength] at this

/-! ## Fields that are there -/

/-- A bare label is read where it stands at a word start. -/
theorem run_label {c : CodePoint} {more rest : Text} (hc : Quote.ofPoint? c = none)
    (hprevious : ∀ d ∈ cursor.previous, d.isIdentifier = false) (h : cursor.rest = c :: more ++ rest) :
    (label (c :: more)).run cursor = [((), cursor.advance (more.length + 1))] := by
  have hhead : ∀ q : Quote, cursor.rest.head? ≠ some q.point := by
    rintro q hq
    rw [h] at hq
    rw [Option.some.inj hq, Quote.ofPoint?_point] at hc
    cases hc
  have hsingle : (exactly ("'" ++ c :: more ++ "'")).run cursor = [] := run_exactly_of_head (hhead .single)
  have hdouble : (exactly ("\"" ++ c :: more ++ "\"")).run cursor = [] := run_exactly_of_head (hhead .double)
  rw [label, run_atWordStart _ hprevious]
  show (exactly _).run cursor ++ ((exactly _).run cursor ++ (exactly _).run cursor) = _
  rw [run_exactly h, hsingle, hdouble]
  rfl

/-- A label is read in front of its first code point or a quote only. -/
theorem run_label_of_head {c : CodePoint} {more : Text}
    (h : ∀ d ∈ cursor.rest.head?, d ≠ c ∧ Quote.ofPoint? d = none) : (label (c :: more)).run cursor = [] := by
  have hquote : ∀ q : Quote, cursor.rest.head? ≠ some q.point := fun q hq => by
    have := (h _ hq).2
    rw [Quote.ofPoint?_point] at this
    cases this
  have hbare : (exactly (c :: more)).run cursor = [] := run_exactly_of_head fun hhead => (h c hhead).1 rfl
  have hsingle : (exactly ("'" ++ c :: more ++ "'")).run cursor = [] := run_exactly_of_head (hquote .single)
  have hdouble : (exactly ("\"" ++ c :: more ++ "\"")).run cursor = [] := run_exactly_of_head (hquote .double)
  refine run_atWordStart_of_nil ?_
  show (exactly _).run cursor ++ ((exactly _).run cursor ++ (exactly _).run cursor) = _
  rw [hbare, hsingle, hdouble]
  rfl

/-- What follows a label and its colon is read behind them, if it does not begin in front of whitespace. -/
theorem run_fieldLabel_bind {α : Type} {f : Unit → Recogniser α} {c : CodePoint} {more rest : Text}
    (hc : Quote.ofPoint? c = none) (hprevious : ∀ d ∈ cursor.previous, d.isIdentifier = false)
    (h : cursor.rest = c :: more ++ (':' : CodePoint) :: ' ' :: rest) (hrest : ∀ d ∈ rest.head?, d.isSpace = false)
    (hf : ∀ between : Cursor, ∀ d ∈ between.rest.head?, d.isSpace = true → (f ()).run between = []) :
    (fieldLabel (c :: more) >>= f).run cursor = (f ()).run (cursor.advance (more.length + 3)) := by
  have hcolon := Cursor.rest_advance_append h
  have hspace : ((cursor.advance (c :: more).length).advance 1).rest = [(' ' : CodePoint)] ++ rest := by
    rw [Cursor.rest_advance, hcolon]
    rfl
  have hblank : spaces.run (cursor.advance (c :: more).length) = [((), cursor.advance (c :: more).length)] := by
    refine run_many_of_not ?_
    rw [hcolon]
    rintro d ⟨⟩
    decide
  simp only [fieldLabel, bind_assoc]
  rw [run_bind_of_eq (run_label hc hprevious h), ← List.length_cons, run_bind_of_eq hblank,
    run_bind_of_eq (run_point hcolon), run_spaces_bind hspace (by decide) hrest hf, ← Cursor.advance_add,
    ← Cursor.advance_add]
  rfl

/-- The label of a template is read up to its backtick. -/
theorem run_templateOpening {c : CodePoint} {more rest : Text} (hc : (c.isAsciiLetter || c == '_') = true)
    (hmore : ∀ d ∈ more, (d.isWord || d == '-') = true) (hprevious : ∀ d ∈ cursor.previous, d.isIdentifier = false)
    (h : cursor.rest = c :: (more ++ (':' : CodePoint) :: ' ' :: '\x60' :: rest)) :
    templateOpening.run cursor = [(c :: more, cursor.advance (more.length + 4))] := by
  have hbehind : (cursor.advance 1).rest = more ++ (':' : CodePoint) :: ' ' :: '\x60' :: rest := by
    rw [Cursor.rest_advance, h]
    rfl
  have hcolon := Cursor.rest_advance_append hbehind
  have hspace : (((cursor.advance 1).advance more.length).advance 1).rest =
      [(' ' : CodePoint)] ++ ('\x60' : CodePoint) :: rest := by
    rw [Cursor.rest_advance, hcolon]
    rfl
  have hbacktick := Cursor.rest_advance_append hspace
  have hword : ((':' : CodePoint).isWord || (':' : CodePoint) == '-') = false := by decide
  have hlongest := run_longest (p := fun d => d.isWord || d == '-') hbehind hmore (by rintro d ⟨⟩; exact hword)
  have hblank : spaces.run ((cursor.advance 1).advance more.length) = [((), (cursor.advance 1).advance more.length)] := by
    refine run_many_of_not ?_
    rw [hcolon]
    rintro d ⟨⟩
    decide
  rw [templateOpening, run_atWordStart _ hprevious,
    run_bind_of_eq (run_satisfying (p := fun d => d.isAsciiLetter || d == '_') h hc), run_bind_of_eq hlongest,
    run_bind_of_eq hblank, run_bind_of_eq (run_point hcolon), run_spaces_bind hspace (by decide) ?_ ?_,
    run_bind_of_eq (run_point hbacktick), run_pure]
  · have hlength : 1 + (more.length + (1 + ([(' ' : CodePoint)].length + 1))) = more.length + 4 := by
      rw [List.length_singleton]
      omega
    rw [← Cursor.advance_add, ← Cursor.advance_add, ← Cursor.advance_add, ← Cursor.advance_add, hlength]
  · rintro d ⟨⟩
    decide
  · intro between d hd hspace
    refine run_bind_of_nil (run_point_of_ne fun hhead => ?_) _
    rw [hhead] at hd
    cases hd
    exact absurd hspace (by decide)

/-- The label of a template begins with a letter or an underscore. -/
theorem first?_templateOpening_of_head {t : Text} (ht : ∀ c ∈ t, (c.isAsciiLetter || c == '_') = false)
    (cursor : Cursor) (h : ∃ c ∈ t, cursor.rest.head? = some c) : templateOpening.first? cursor = none := by
  obtain ⟨c, hc, hhead⟩ := h
  have hrun : templateOpening.run cursor = [] := by
    refine run_atWordStart_of_nil (run_bind_of_nil (run_satisfying_of_not fun d hd => ?_) _)
    rw [hhead] at hd
    cases hd
    exact ht c hc
  rw [first?, hrun]
  rfl

end Recogniser

end Bilingual
