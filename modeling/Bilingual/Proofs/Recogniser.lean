import Bilingual.Pattern.Occurrence
import Bilingual.Proofs.Literal
import Mathlib.Data.List.Pairwise

set_option autoImplicit false

/-! # What recognisers read

A recogniser only moves forward in its window (`Recogniser.Forward`), and a literal that it reads is the
piece of the text between its offsets (`LiteralSpan.Inside`). The places that `Recogniser.all` finds come
from left to right and do not overlap (`Recogniser.pairwise_all`). -/

namespace Bilingual

/-! ## Cursors of a window -/

namespace Cursor

/-- The cursor is in the part of a text in front of `stop`, and the rest of that part lies ahead. -/
structure In (cursor : Cursor) (text : Text) (stop : Nat) : Prop where
  offset_le : cursor.offset ≤ (text.take stop).length
  rest_eq : cursor.rest = text.slice cursor.offset stop

variable {cursor : Cursor} {text : Text} {stop : Nat}

theorem In.offset_add_length (h : cursor.In text stop) :
    cursor.offset + cursor.rest.length = (text.take stop).length := by
  rw [h.rest_eq, Text.slice, List.length_drop]
  have := h.offset_le
  omega

theorem in_ofWindow {start : Nat} (h : start ≤ (text.take stop).length) :
    (ofWindow text start stop).In text stop := ⟨h, rfl⟩

theorem In.step {c : CodePoint} {rest : Text} (h : cursor.In text stop) (hrest : cursor.rest = c :: rest) :
    (cursor.step c rest).In text stop := by
  have hlength := h.offset_add_length
  rw [hrest, List.length_cons] at hlength
  refine ⟨?_, ?_⟩
  · show cursor.offset + 1 ≤ _
    omega
  · show rest = (text.take stop).drop (cursor.offset + 1)
    have htail : rest = cursor.rest.tail := by rw [hrest, List.tail_cons]
    rw [htail, h.rest_eq, Text.slice, List.tail_drop]

theorem In.advance {n : Nat} (h : cursor.In text stop) (hn : n ≤ cursor.rest.length) :
    (cursor.advance n).In text stop ∧ (cursor.advance n).offset = cursor.offset + n := by
  induction n generalizing cursor with
  | zero => exact ⟨h, rfl⟩
  | succ n ih =>
    cases hrest : cursor.rest with
    | nil =>
      rw [hrest] at hn
      cases hn
    | cons c rest =>
      rw [hrest, List.length_cons] at hn
      obtain ⟨hin, hoffset⟩ := ih (h.step hrest) (show n ≤ rest.length by omega)
      rw [Cursor.advance, hrest]
      refine ⟨hin, ?_⟩
      rw [hoffset]
      show cursor.offset + 1 + n = _
      omega

/-- The next code point is the one of the text. -/
theorem In.getElem?_of_rest {c : CodePoint} {rest : Text} (h : cursor.In text stop) (hrest : cursor.rest = c :: rest) :
    text[cursor.offset]? = some c := by
  have hlength := h.offset_add_length
  rw [hrest, List.length_cons, List.length_take] at hlength
  have hhead : cursor.rest[0]? = (text.take stop)[cursor.offset + 0]? := by
    rw [h.rest_eq, Text.slice, List.getElem?_drop]
  rw [hrest, Nat.add_zero, List.getElem?_take_of_lt (by omega)] at hhead
  exact hhead.symm

/-- The text up to `n` code points ahead of a cursor. -/
theorem In.take_rest {n : Nat} (h : cursor.In text stop) (hn : n ≤ cursor.rest.length) :
    cursor.rest.take n = text.slice cursor.offset (cursor.offset + n) := by
  have hlength := h.offset_add_length
  rw [List.length_take] at hlength
  rw [h.rest_eq, Text.slice, Text.slice, List.take_drop, List.take_take, Nat.min_eq_left]
  omega

end Cursor

/-- A literal stands between two offsets of a text, with its quotes, and its body is the text there, which is
read as a whole between the quotes. -/
structure LiteralSpan.Inside (l : LiteralSpan) (text : Text) (start stop : Nat) : Prop where
  start_lt : start < l.start
  stop_lt : l.stop < stop
  start_le_stop : l.start ≤ l.stop
  raw_eq : l.raw = text.slice l.start l.stop
  enclosed : l.quote.Encloses l.raw
  quote_eq : text[l.stop]? = some l.quote.point
  opening_eq : text[l.start - 1]? = some l.quote.point

theorem LiteralSpan.Inside.mono {l : LiteralSpan} {text : Text} {start stop start' stop' : Nat}
    (h : l.Inside text start stop) (hstart : start' ≤ start) (hstop : stop ≤ stop') :
    l.Inside text start' stop' :=
  ⟨Nat.lt_of_le_of_lt hstart h.start_lt, Nat.lt_of_lt_of_le h.stop_lt hstop, h.start_le_stop, h.raw_eq,
    h.enclosed, h.quote_eq, h.opening_eq⟩

theorem LiteralSpan.Inside.lt {l : LiteralSpan} {text : Text} {start stop : Nat}
    (h : l.Inside text start stop) : start < stop :=
  Nat.lt_of_lt_of_le h.start_lt (Nat.le_trans h.start_le_stop (Nat.le_of_lt h.stop_lt))

/-- The literals of an occurrence stand between two offsets of a text. -/
structure Literals.Inside (literals : Literals) (text : Text) (start stop : Nat) : Prop where
  key : ∀ l, literals.key = some l → l.Inside text start stop
  primary : literals.primary.Inside text start stop
  secondary : literals.secondary.Inside text start stop

theorem Literals.Inside.mono {literals : Literals} {text : Text} {start stop stop' : Nat}
    (h : literals.Inside text start stop) (hstop : stop ≤ stop') : literals.Inside text start stop' :=
  ⟨fun l hl => (h.key l hl).mono (Nat.le_refl _) hstop, h.primary.mono (Nat.le_refl _) hstop,
    h.secondary.mono (Nat.le_refl _) hstop⟩

namespace Recogniser

/-! ## Ways to read -/

section Run

variable {α β : Type}

theorem mem_run_pure {a b : α} {cursor behind : Cursor} :
    (b, behind) ∈ (pure a : Recogniser α).run cursor ↔ b = a ∧ behind = cursor := by
  show (b, behind) ∈ [(a, cursor)] ↔ _
  rw [List.mem_singleton, Prod.mk.injEq]

theorem mem_run_bind {r : Recogniser α} {f : α → Recogniser β} {b : β} {cursor behind : Cursor} :
    (b, behind) ∈ (r >>= f).run cursor ↔
      ∃ a between, (a, between) ∈ r.run cursor ∧ (b, behind) ∈ (f a).run between := by
  show (b, behind) ∈ (r.run cursor).flatMap (fun way => (f way.1).run way.2) ↔ _
  rw [List.mem_flatMap]
  constructor
  · rintro ⟨⟨a, between⟩, ha, hb⟩
    exact ⟨a, between, ha, hb⟩
  · rintro ⟨a, between, ha, hb⟩
    exact ⟨(a, between), ha, hb⟩

theorem mem_run_of_first? {r : Recogniser α} {cursor behind : Cursor} {a : α}
    (h : r.first? cursor = some (a, behind)) : (a, behind) ∈ r.run cursor :=
  List.mem_of_mem_head? h

end Run

/-- Whatever way a recogniser reads at a cursor, what it reads and the cursor behind are as told. -/
def Reads {α : Type} (r : Recogniser α) (cursor : Cursor) (told : α → Cursor → Prop) : Prop :=
  ∀ a behind, (a, behind) ∈ r.run cursor → told a behind

/-- In any window the recogniser moves forward and stays inside. -/
def Forward {α : Type} (r : Recogniser α) : Prop :=
  ∀ (text : Text) (stop : Nat) (cursor : Cursor), cursor.In text stop →
    r.Reads cursor fun _ behind => behind.In text stop ∧ cursor.offset ≤ behind.offset

section Combinators

variable {α β : Type} {r : Recogniser α} {f : α → Recogniser β} {text : Text} {stop : Nat}
  {cursor : Cursor}

theorem reads_pure {a : α} {told : α → Cursor → Prop} (h : told a cursor) :
    Reads (pure a : Recogniser α) cursor told := by
  intro b behind hb
  obtain ⟨rfl, rfl⟩ := mem_run_pure.1 hb
  exact h

theorem reads_bind {told : β → Cursor → Prop}
    (h : r.Reads cursor fun a between => (f a).Reads between told) : (r >>= f).Reads cursor told := by
  intro b behind hb
  obtain ⟨a, between, ha, hb⟩ := mem_run_bind.1 hb
  exact h a between ha b behind hb

/-- Behind a recogniser that moves forward, go on from wherever it leads. -/
theorem Forward.reads_bind (hr : r.Forward) (hcursor : cursor.In text stop)
    {told : β → Cursor → Prop}
    (h : ∀ a between, between.In text stop → cursor.offset ≤ between.offset →
      (f a).Reads between told) : (r >>= f).Reads cursor told := by
  refine Recogniser.reads_bind fun a between ha => ?_
  obtain ⟨hin, hle⟩ := hr text stop cursor hcursor a between ha
  exact h a between hin hle

theorem forward_pure (a : α) : (pure a : Recogniser α).Forward :=
  fun _ _ _ hcursor => reads_pure ⟨hcursor, Nat.le_refl _⟩

theorem Forward.bind (hr : r.Forward) (hf : ∀ a, (f a).Forward) : (r >>= f).Forward := by
  intro text stop cursor hcursor
  refine hr.reads_bind hcursor fun a between hin hle b behind hb => ?_
  obtain ⟨hin', hle'⟩ := hf a text stop between hin b behind hb
  exact ⟨hin', Nat.le_trans hle hle'⟩

theorem Forward.orElse {s : Recogniser α} (hr : r.Forward) (hs : s.Forward) :
    (Recogniser.orElse r s).Forward := by
  intro text stop cursor hcursor a behind ha
  rcases List.mem_append.1 ha with ha | ha
  · exact hr text stop cursor hcursor a behind ha
  · exact hs text stop cursor hcursor a behind ha

theorem Forward.optional (hr : r.Forward) : (Recogniser.optional r).Forward :=
  (hr.bind fun _ => forward_pure _).orElse (forward_pure none)

theorem forward_satisfying (p : CodePoint → Bool) : (satisfying p).Forward := by
  intro text stop cursor hcursor a behind ha
  unfold satisfying at ha
  dsimp only at ha
  split at ha
  · cases ha
  · next c rest hrest =>
    split at ha
    · obtain ⟨rfl, rfl⟩ := Prod.mk.inj (List.mem_singleton.1 ha)
      exact ⟨hcursor.step hrest, Nat.le_succ _⟩
    · cases ha

theorem forward_point (c : CodePoint) : (point c).Forward :=
  (forward_satisfying _).bind fun _ => forward_pure _

theorem forward_exactly (t : Text) : (exactly t).Forward := by
  intro text stop cursor hcursor a behind ha
  unfold exactly at ha
  dsimp only at ha
  split at ha
  · next hstarts =>
    obtain ⟨-, rfl⟩ := Prod.mk.inj (List.mem_singleton.1 ha)
    have hlength := (List.isPrefixOf_iff_prefix.1 hstarts).length_le
    obtain ⟨hin, hoffset⟩ := hcursor.advance hlength
    exact ⟨hin, by rw [hoffset]; exact Nat.le_add_right _ _⟩
  · cases ha

theorem mem_cursorsBehind {p : CodePoint → Bool} (hcursor : cursor.In text stop) {behind : Cursor}
    (h : behind ∈ cursorsBehind p cursor cursor.rest) :
    behind.In text stop ∧ cursor.offset ≤ behind.offset := by
  generalize hrest : cursor.rest = rest at h
  induction rest generalizing cursor with
  | nil =>
    rw [List.mem_singleton.1 h]
    exact ⟨hcursor, Nat.le_refl _⟩
  | cons c rest ih =>
    rw [cursorsBehind] at h
    rcases List.mem_cons.1 h with rfl | h
    · exact ⟨hcursor, Nat.le_refl _⟩
    · split at h
      · obtain ⟨hin, hle⟩ := ih (hcursor.step hrest) rfl h
        exact ⟨hin, Nat.le_of_succ_le hle⟩
      · cases h

theorem forward_many (p : CodePoint → Bool) : (many p).Forward := by
  intro text stop cursor hcursor a behind ha
  obtain ⟨found, hfound, heq⟩ := List.mem_map.1 ha
  obtain ⟨-, rfl⟩ := Prod.mk.inj heq
  exact mem_cursorsBehind hcursor (List.mem_reverse.1 hfound)

theorem forward_spaces : spaces.Forward := forward_many _

theorem forward_longest (p : CodePoint → Bool) : (longest p).Forward := by
  intro text stop cursor hcursor t behind h
  obtain ⟨-, rfl⟩ := Prod.mk.inj (List.mem_singleton.1 h)
  obtain ⟨hin, hoffset⟩ := hcursor.advance (List.takeWhile_prefix p).length_le
  exact ⟨hin, by rw [hoffset]; exact Nat.le_add_right _ _⟩

theorem Forward.atWordStart (hr : r.Forward) : (Recogniser.atWordStart r).Forward := by
  intro text stop cursor hcursor a behind ha
  unfold Recogniser.atWordStart at ha
  dsimp only at ha
  split at ha
  · cases ha
  · split at ha
    · cases ha
    · exact hr text stop cursor hcursor a behind ha

theorem forward_ahead (r : Recogniser α) : (ahead r).Forward := by
  intro text stop cursor hcursor a behind ha
  unfold ahead at ha
  dsimp only at ha
  split at ha
  · cases ha
  · obtain ⟨-, rfl⟩ := Prod.mk.inj (List.mem_singleton.1 ha)
    exact ⟨hcursor, Nat.le_refl _⟩

end Combinators

/-! ## Literals and labels -/

/-- The body of a literal, its closing quote and what lies behind make up the text. -/
theorem eq_of_literalBody? {quote : CodePoint} {t body behind : Text}
    (h : literalBody? quote t = some (body, behind)) : t = body ++ quote :: behind := by
  fun_induction literalBody? quote t generalizing body behind with
  | case1 => cases h
  | case2 =>
    cases h
    rfl
  | case3 => cases h
  | case4 =>
    cases h
    rfl
  | case5 => cases h
  | case6 => cases h
  | case7 d rest hq hn hd ih =>
    obtain ⟨⟨body', behind'⟩, hfound, heq⟩ := Option.map_eq_some_iff.1 h
    cases heq
    rw [ih hfound]
    rfl
  | case8 c d rest hc hn hb ih =>
    obtain ⟨⟨body', behind'⟩, hfound, heq⟩ := Option.map_eq_some_iff.1 h
    cases heq
    rw [ih hfound]
    rfl

section Literals

variable {text : Text} {stop : Nat} {cursor : Cursor}

theorem reads_literal (hcursor : cursor.In text stop) :
    literal.Reads cursor fun l behind =>
      behind.In text stop ∧ l.Inside text cursor.offset behind.offset := by
  intro l behind hl
  unfold literal at hl
  dsimp only at hl
  split at hl
  · cases hl
  next c rest hrest =>
  split at hl
  · cases hl
  next quote hquote =>
  split at hl
  · cases hl
  next raw remaining hbody =>
  obtain ⟨rfl, rfl⟩ := Prod.mk.inj (List.mem_singleton.1 hl)
  -- the rest is the body, the closing quote and what remains, so the cursor behind is in the window
  have hsplit := eq_of_literalBody? hbody
  have hlength : raw.length + 1 ≤ (cursor.step c rest).rest.length := by
    show _ ≤ rest.length
    rw [hsplit, List.length_append, List.length_cons]
    omega
  have hin := hcursor.step hrest
  obtain ⟨hadvanced, hoffset⟩ := hin.advance hlength
  have hstep : (cursor.step c rest).offset = cursor.offset + 1 := rfl
  refine ⟨⟨?_, ?_⟩, ⟨?_, ?_, ?_, ?_, ?_, ?_, ?_⟩⟩
  · have hle := hadvanced.offset_le
    show cursor.offset + 1 + raw.length + 1 ≤ _
    omega
  · show remaining = text.slice (cursor.offset + 1 + raw.length + 1) stop
    have hdrop : remaining = (cursor.step c rest).rest.drop (raw.length + 1) := by
      show _ = rest.drop _
      rw [hsplit, List.drop_append, List.drop_eq_nil_of_le (Nat.le_succ _)]
      simp
    rw [hdrop, hin.rest_eq, Text.slice, Text.slice, List.drop_drop, hstep]
    congr 1
  · show cursor.offset < cursor.offset + 1
    omega
  · show cursor.offset + 1 + raw.length < cursor.offset + 1 + raw.length + 1
    omega
  · show cursor.offset + 1 ≤ cursor.offset + 1 + raw.length
    omega
  · show raw = text.slice (cursor.offset + 1) (cursor.offset + 1 + raw.length)
    rw [← hstep, ← hin.take_rest (by omega)]
    show raw = rest.take raw.length
    rw [hsplit, List.take_left]
  · rw [← Quote.point_of_ofPoint? hquote] at hbody
    exact literalBody?_again hbody
  · show text[cursor.offset + 1 + raw.length]? = some quote.point
    have hwindow : (cursor.step c rest).rest[raw.length]? = (text.take stop)[cursor.offset + 1 + raw.length]? := by
      rw [hin.rest_eq, Text.slice, List.getElem?_drop, hstep]
    have hle := hadvanced.offset_le
    rw [hoffset, hstep, List.length_take] at hle
    rw [List.getElem?_take_of_lt (by omega)] at hwindow
    rw [← hwindow]
    show rest[raw.length]? = _
    rw [hsplit, List.getElem?_append_right (Nat.le_refl _), Nat.sub_self, Quote.point_of_ofPoint? hquote]
    rfl
  · show text[cursor.offset]? = some quote.point
    rw [hcursor.getElem?_of_rest hrest, Quote.point_of_ofPoint? hquote]

theorem forward_label (name : Text) : (label name).Forward :=
  ((forward_exactly _).orElse ((forward_exactly _).orElse (forward_exactly _))).atWordStart

theorem forward_fieldLabel (name : Text) : (fieldLabel name).Forward :=
  (forward_label name).bind fun _ => forward_spaces.bind fun _ => (forward_point _).bind fun _ =>
    forward_spaces

theorem reads_labelledLiteral (name : Text) (hcursor : cursor.In text stop) :
    (labelledLiteral name).Reads cursor fun l behind =>
      behind.In text stop ∧ l.Inside text cursor.offset behind.offset := by
  refine (forward_fieldLabel name).reads_bind hcursor fun _ between hin hle l behind hl => ?_
  obtain ⟨hbehind, hl⟩ := reads_literal hin l behind hl
  exact ⟨hbehind, hl.mono hle (Nat.le_refl _)⟩

end Literals

/-! ## All places -/

section All

variable {α : Type} {r : Recogniser α} {text : Text} {stop : Nat}

/-- A place that a recogniser finds is read at a cursor of the window, and no place is found before the
code points that are skipped. -/
theorem read_of_mem_allFrom {skip : Nat} {cursor : Cursor} (hcursor : cursor.In text stop)
    {place : Nat × α × Nat} (h : place ∈ allFrom r skip cursor cursor.rest) :
    cursor.offset + skip ≤ place.1 ∧ ∃ first behind : Cursor, first.In text stop ∧
      first.offset = place.1 ∧ behind.offset = place.2.2 ∧ (place.2.1, behind) ∈ r.run first := by
  generalize hrest : cursor.rest = rest at h
  induction rest generalizing cursor skip with
  | nil => cases h
  | cons c rest ih =>
    have hstep := hcursor.step hrest
    have hoffset : (cursor.step c rest).offset = cursor.offset + 1 := rfl
    rw [allFrom.eq_def] at h
    dsimp only at h
    split at h
    -- this code point belongs to a place that was found before
    · next skip =>
      obtain ⟨hle, hread⟩ := ih hstep rfl h
      exact ⟨by omega, hread⟩
    · split at h
      · next a behind hfirst =>
        rcases List.mem_cons.1 h with rfl | h
        · exact ⟨Nat.le_refl _, cursor, behind, hcursor, rfl, rfl, mem_run_of_first? hfirst⟩
        · obtain ⟨hle, hread⟩ := ih hstep rfl h
          exact ⟨by omega, hread⟩
      · obtain ⟨hle, hread⟩ := ih hstep rfl h
        exact ⟨by omega, hread⟩

theorem pairwise_allFrom (hr : r.Forward) {skip : Nat} {cursor : Cursor}
    (hcursor : cursor.In text stop) :
    (allFrom r skip cursor cursor.rest).Pairwise fun first second => first.2.2 ≤ second.1 := by
  generalize hrest : cursor.rest = rest
  induction rest generalizing cursor skip with
  | nil => exact List.Pairwise.nil
  | cons c rest ih =>
    have hstep := hcursor.step hrest
    have hoffset : (cursor.step c rest).offset = cursor.offset + 1 := rfl
    rw [allFrom.eq_def]
    dsimp only
    split
    · exact ih hstep rfl
    · split
      · next a behind hfirst =>
        refine List.Pairwise.cons ?_ (ih hstep rfl)
        -- as many code points are skipped as the place is long
        intro place hplace
        obtain ⟨-, hle⟩ := hr text stop cursor hcursor a behind (mem_run_of_first? hfirst)
        obtain ⟨hle', -⟩ := read_of_mem_allFrom hstep hplace
        show behind.offset ≤ place.1
        omega
      · exact ih hstep rfl

theorem in_or_all_eq_nil (r : Recogniser α) (text : Text) (start stop : Nat) :
    (Cursor.ofWindow text start stop).In text stop ∨ r.all text start stop = [] := by
  by_cases h : start ≤ (text.take stop).length
  · exact .inl (Cursor.in_ofWindow h)
  · right
    have hrest : (Cursor.ofWindow text start stop).rest = [] :=
      List.drop_eq_nil_of_le (Nat.le_of_not_le h)
    unfold all
    dsimp only
    rw [hrest]
    rfl

/-- Every place of a window is read at a cursor of the window. -/
theorem read_of_mem_all {start : Nat} {place : Nat × α × Nat} (h : place ∈ r.all text start stop) :
    start ≤ place.1 ∧ ∃ first behind : Cursor, first.In text stop ∧ first.offset = place.1 ∧
      behind.offset = place.2.2 ∧ (place.2.1, behind) ∈ r.run first := by
  rcases in_or_all_eq_nil r text start stop with hin | hnil
  · exact read_of_mem_allFrom hin h
  · rw [hnil] at h
    cases h

/-- Places come from left to right, and one ends before the next begins. -/
theorem pairwise_all (hr : r.Forward) (text : Text) (start stop : Nat) :
    (r.all text start stop).Pairwise fun first second => first.2.2 ≤ second.1 := by
  rcases in_or_all_eq_nil r text start stop with hin | hnil
  · exact pairwise_allFrom hr hin
  · rw [hnil]
    exact List.Pairwise.nil

end All

end Recogniser

end Bilingual
