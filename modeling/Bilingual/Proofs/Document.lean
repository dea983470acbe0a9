import Bilingual.Proofs.Body

set_option autoImplicit false

/-! # Where the bodies of documents stand

A template is opened by a backtick behind a colon and whitespace, so no escape stands right in front of it
(`Document.Opened`). The scan of a body that begins further left therefore stops at that backtick at the latest
(`Literal.closing?_le`), also when the body runs past the key field of the next document. So the bodies of the
documents of a text come from left to right with something between them (`Category.pairwise_documentBodies`). -/

namespace Bilingual

/-! ## Bodies end at delimiters that are not escaped -/

namespace Literal

variable {delimiter : CodePoint}

theorem closingIn?_le {before t : Text} {n m : Nat} (h : closingIn? ['\\'] delimiter before t = some n)
    (hdelimiter : t[m]? = some delimiter) (hfirst : m = 0 → escapesBefore before % 2 = 0)
    (hplain : ∀ k, m = k + 1 → t[k]? ≠ some '\\') : n ≤ m := by
  induction t generalizing before n m with
  | nil => cases h
  | cons c rest ih =>
    by_cases hc : c = delimiter ∧ escapesBefore before % 2 = 0
    · obtain ⟨rfl, heven⟩ := hc
      rw [closingIn?_delimiter _ heven] at h
      cases h
      exact Nat.zero_le _
    · cases m with
      | zero => exact absurd ⟨Option.some.inj hdelimiter, hfirst rfl⟩ hc
      | succ m =>
        rw [closingIn?_cons _ hc] at h
        obtain ⟨n, hn, rfl⟩ := Option.map_eq_some_iff.1 h
        have hne : c ≠ '\\' ∨ m ≠ 0 := by
          rcases Nat.eq_zero_or_pos m with rfl | hpos
          · exact .inl fun heq => hplain 0 rfl (congrArg some heq)
          · exact .inr (by omega)
        refine Nat.succ_le_succ (ih hn hdelimiter (fun hm => ?_) fun k hk => ?_)
        · rw [escapesBefore_cons_of_ne _ (hne.resolve_right fun hne => hne hm)]
        · exact hplain (k + 1) (by omega)

/-- A body ends at the latest at a delimiter with no escape right in front of it. -/
theorem closing?_le {text : Text} {start stop n : Nat} (h : closing? text delimiter start = some stop)
    (hstart : start ≤ n) (hdelimiter : text[n]? = some delimiter) (hplain : ∀ k, n = k + 1 → text[k]? ≠ some '\\') :
    stop ≤ n := by
  obtain ⟨m, hm, rfl⟩ := Option.map_eq_some_iff.1 h
  have hle : m ≤ n - start := by
    refine closingIn?_le hm ?_ (fun _ => rfl) fun k hk => ?_
    · rw [List.getElem?_drop, Nat.add_sub_cancel' hstart, hdelimiter]
    · rw [List.getElem?_drop]
      exact hplain _ (by omega)
  omega

end Literal

namespace Document

/-- A backtick without an escape in front of it stands right in front of an offset. -/
structure Opened (text : Text) (start : Nat) : Prop where
  pos : 0 < start
  backtick : text[start - 1]? = some '\x60'
  plain : ∀ k, start = k + 2 → text[k]? ≠ some '\\'

/-- A body that begins in front of the backtick that opens another one ends in front of that one. -/
theorem Opened.stop_lt {text : Text} {start stop next : Nat} (h : Opened text next)
    (hclosing : Literal.closing? text '\x60' start = some stop) (hstart : start < next) : stop < next := by
  have hpos := h.pos
  have hle := Literal.closing?_le hclosing (by omega) h.backtick fun k hk => h.plain k (by omega)
  omega

end Document

namespace Recogniser

/-! ## What opens a template -/

theorem forward_labelledLiteral (name : Text) : (labelledLiteral name).Forward := by
  intro text stop cursor hcursor l behind h
  obtain ⟨hin, hl⟩ := reads_labelledLiteral name hcursor l behind h
  exact ⟨hin, Nat.le_of_lt hl.lt⟩

theorem forward_bodyOpening (bodyField : Text) : (bodyOpening bodyField).Forward :=
  (forward_fieldLabel bodyField).bind fun _ => forward_point _

/-- What opens a template is its label, where no identifier ends, a colon with whitespace around it and a backtick. -/
theorem written_of_mem_templateOpening {label : Text} {cursor behind : Cursor}
    (h : (label, behind) ∈ templateOpening.run cursor) : cursor.previous.any CodePoint.isIdentifier = false ∧
      (∃ c rest, label = c :: rest ∧ (c.isAsciiLetter || c == '_') = true ∧ ∀ d ∈ rest, (d.isWord || d == '-') = true) ∧
        ∃ blanks blanks' : Text, (∀ c ∈ blanks, c.isSpace = true) ∧ (∀ c ∈ blanks', c.isSpace = true) ∧
          cursor.rest = label ++ blanks ++ (':' : CodePoint) :: blanks' ++ ('\x60' : CodePoint) :: behind.rest := by
  obtain ⟨h, hstart⟩ := mem_run_atWordStart_iff.1 h
  obtain ⟨first, c₁, hfirst, h⟩ := mem_run_bind.1 h
  obtain ⟨more, c₂, hmore, h⟩ := mem_run_bind.1 h
  obtain ⟨⟨⟩, c₃, hspaces, h⟩ := mem_run_bind.1 h
  obtain ⟨⟨⟩, c₄, hcolon, h⟩ := mem_run_bind.1 h
  obtain ⟨⟨⟩, c₅, hspaces', h⟩ := mem_run_bind.1 h
  obtain ⟨⟨⟩, c₆, hbacktick, h⟩ := mem_run_bind.1 h
  obtain ⟨rfl, rfl⟩ := mem_run_pure.1 h
  obtain ⟨blanks, hblanks, hspaces⟩ := exists_of_mem_many hspaces
  obtain ⟨blanks', hblanks', hspaces'⟩ := exists_of_mem_many hspaces'
  obtain ⟨hletter, hfirst⟩ := eq_of_mem_satisfying hfirst
  obtain ⟨hword, hmore⟩ := eq_of_mem_longest hmore
  refine ⟨hstart, ⟨first, more, rfl, hletter, hword⟩, blanks, blanks', hblanks, hblanks', ?_⟩
  rw [hfirst, hmore, hspaces, eq_of_mem_point hcolon, hspaces', eq_of_mem_point hbacktick]
  simp

/-- What opens a template ends with a backtick, and no escape is in front of that. -/
theorem exists_of_mem_templateOpening {label : Text} {cursor behind : Cursor}
    (h : (label, behind) ∈ templateOpening.run cursor) :
    ∃ (front : Text) (c : CodePoint), c ≠ '\\' ∧ cursor.rest = front ++ c :: ('\x60' : CodePoint) :: behind.rest := by
  obtain ⟨-, -, blanks, blanks', -, hspace, htext⟩ := written_of_mem_templateOpening h
  -- the colon and the whitespace behind it end with one of their own code points
  have hplain : ∀ c ∈ (':' : CodePoint) :: blanks', c ≠ '\\' := by
    refine List.forall_mem_cons.2 ⟨by decide, fun c hc heq => ?_⟩
    have := hspace c hc
    rw [heq] at this
    exact absurd this (by decide)
  obtain ⟨front, c, hlast⟩ : ∃ (front : Text) (c : CodePoint), (':' : CodePoint) :: blanks' = front ++ [c] :=
    ⟨_, _, (List.dropLast_append_getLast (List.cons_ne_nil _ _)).symm⟩
  refine ⟨label ++ blanks ++ front, c, hplain c (by rw [hlast]; simp), ?_⟩
  rw [htext, hlast]
  simp

theorem forward_templateOpening : templateOpening.Forward :=
  Forward.atWordStart <| (forward_satisfying _).bind fun _ => (forward_longest _).bind fun _ =>
    forward_spaces.bind fun _ => (forward_point _).bind fun _ => forward_spaces.bind fun _ =>
      (forward_point _).bind fun _ => forward_pure _

variable {text : Text} {start stop first behind : Nat}

/-- What is found to open a template lies in its window, and the body begins behind its backtick. -/
theorem opened_of_find? {label : Text}
    (h : templateOpening.find? text start stop = some (first, label, behind)) :
    start < behind ∧ behind ≤ stop ∧ Document.Opened text behind := by
  obtain ⟨hle, cursor, after, hcursor, rfl, rfl, hread⟩ := read_of_mem_all (mem_all_of_find? h)
  obtain ⟨hafter, -⟩ := forward_templateOpening _ _ _ hcursor _ _ hread
  obtain ⟨front, c, hplain, hrest⟩ := exists_of_mem_templateOpening hread
  have hlength := hcursor.offset_add_length
  rw [hrest, List.length_append, List.length_cons, List.length_cons, ← hafter.offset_add_length] at hlength
  have hstop := hafter.offset_le
  rw [List.length_take] at hstop
  -- the code points that have been read are those of the text
  have hget : ∀ k < front.length + 2, text[cursor.offset + k]? = cursor.rest[k]? := by
    intro k hk
    rw [hcursor.rest_eq, Text.slice, List.getElem?_drop, List.getElem?_take_of_lt (by omega)]
  refine ⟨by dsimp only at hle ⊢; omega, by omega, ⟨by omega, ?_, fun k hk heq => ?_⟩⟩
  · rw [show after.offset - 1 = cursor.offset + (front.length + 1) by omega, hget _ (by omega), hrest,
      List.getElem?_append_right (by omega), Nat.add_sub_cancel_left]
    rfl
  · rw [show k = cursor.offset + front.length by omega, hget _ (by omega), hrest,
      List.getElem?_append_right (Nat.le_refl _), Nat.sub_self] at heq
    exact hplain (Option.some.inj heq)

end Recogniser

namespace Document

variable {text bodyField locale : Text} {start stop : Nat}

/-! ## Bodies in order -/

/-- The body of a template begins behind its backtick. -/
theorem le_of_bodySpan {found : Nat × Nat} (h : Literal.bodySpan text '\x60' start = .ok found) :
    found.1 = start ∧ start ≤ found.2 := by
  unfold Literal.bodySpan at h
  split at h
  · next closing hclosing =>
    cases h
    have hin : (Body.ofTemplate (start, closing)).In text := hclosing
    exact ⟨rfl, hin.exists_behind.1⟩
  · cases h

theorem opened_of_templateFrom {fuel cursor : Nat} {span : Nat × Nat}
    (h : templateFrom text locale stop fuel cursor = .ok (some span)) :
    cursor < span.1 ∧ span.1 ≤ stop ∧ Opened text span.1 := by
  induction fuel generalizing cursor with
  | zero => cases h
  | succ fuel ih =>
    rw [templateFrom] at h
    split at h
    · cases h
    · next opening label behind hfind =>
      obtain ⟨found, hfound, h⟩ := Except.bind_eq_ok_iff.1 h
      have hopened := Recogniser.opened_of_find? hfind
      have hspan := le_of_bodySpan hfound
      split at h
      · cases h
        rw [hspan.1]
        exact hopened
      · obtain ⟨hlt, hle, hafter⟩ := ih h
        exact ⟨by omega, hle, hafter⟩

theorem opened_of_body {span : Nat × Nat} (h : body text bodyField locale start stop = .ok (some span)) :
    start < span.1 ∧ span.1 ≤ stop ∧ Opened text span.1 := by
  unfold body at h
  split at h
  · cases h
  · next first behind hfind =>
    obtain ⟨hle, cursor, after, hcursor, hfirst, hbehind, hread⟩ :=
      Recogniser.read_of_mem_all (Recogniser.mem_all_of_find? hfind)
    obtain ⟨-, hforward⟩ := Recogniser.forward_bodyOpening bodyField _ _ _ hcursor _ _ hread
    obtain ⟨hlt, hspan⟩ := opened_of_templateFrom h
    dsimp only at hle hfirst hbehind
    exact ⟨by omega, hspan⟩

/-- The bodies found so far come from left to right, each with its closing backtick in front of the next one, and
all begin in front of an offset. -/
structure InOrder (text : Text) (spans : OrderedMap (Nat × Nat)) (upTo : Nat) : Prop where
  closed : ∀ pair ∈ spans, (Body.ofTemplate pair.2).In text
  start_le : ∀ pair ∈ spans, pair.2.1 ≤ upTo
  ordered : spans.Pairwise fun a b => a.2.2 < b.2.1

theorem InOrder.mono {spans : OrderedMap (Nat × Nat)} {upTo upTo' : Nat} (h : InOrder text spans upTo)
    (hle : upTo ≤ upTo') : InOrder text spans upTo' :=
  ⟨h.closed, fun pair hpair => Nat.le_trans (h.start_le pair hpair) hle, h.ordered⟩

/-- A body that is opened further right goes behind those found so far. -/
theorem InOrder.putNew {spans : OrderedMap (Nat × Nat)} {upTo : Nat} (h : InOrder text spans upTo) (key : Text)
    {span : Nat × Nat} (hin : (Body.ofTemplate span).In text) (hopened : Opened text span.1) (hlt : upTo < span.1) :
    InOrder text (spans.putNew key span) span.1 := by
  unfold OrderedMap.putNew
  split
  · exact h.mono (Nat.le_of_lt hlt)
  · refine ⟨?_, ?_, List.pairwise_append.2 ⟨h.ordered, List.pairwise_singleton _ _, ?_⟩⟩
    · exact List.forall_mem_append.2 ⟨h.closed, List.forall_mem_singleton.2 hin⟩
    · exact List.forall_mem_append.2
        ⟨(h.mono (Nat.le_of_lt hlt)).start_le, List.forall_mem_singleton.2 (Nat.le_refl _)⟩
    · intro pair hpair other hother
      rw [List.mem_singleton.1 hother]
      exact hopened.stop_lt (h.closed pair hpair) (Nat.lt_of_le_of_lt (h.start_le pair hpair) hlt)

/-- The key fields of documents come from left to right and end where they begin or behind. -/
def KeysFrom (start : Nat) (keys : List (Nat × LiteralSpan × Nat)) : Prop :=
  (∀ key ∈ keys, start ≤ key.1 ∧ key.1 ≤ key.2.2) ∧ keys.Pairwise fun a b => a.2.2 ≤ b.1

/-- Behind the first key field, what does not reach beyond its document is in front of the others. -/
theorem KeysFrom.tail {first : Nat × LiteralSpan × Nat} {rest : List (Nat × LiteralSpan × Nat)}
    (h : KeysFrom start (first :: rest)) {upTo : Nat} (hupTo : upTo ≤ segmentEnd stop rest) : KeysFrom upTo rest := by
  obtain ⟨hspan, hordered⟩ := h
  have hrest := (List.pairwise_cons.1 hordered).2
  refine ⟨fun key hkey => ⟨?_, (hspan key (List.mem_cons_of_mem _ hkey)).2⟩, hrest⟩
  cases rest with
  | nil => cases hkey
  | cons next others =>
    obtain ⟨offset, l, behind⟩ := next
    have hupTo : upTo ≤ offset := hupTo
    have hnext : offset ≤ behind := (hspan (offset, l, behind) (by simp)).2
    rcases List.mem_cons.1 hkey with rfl | hkey
    · exact hupTo
    · exact Nat.le_trans (Nat.le_trans hupTo hnext) ((List.pairwise_cons.1 hrest).1 key hkey)

theorem inOrder_bodiesFrom {found spans : OrderedMap (Nat × Nat)} {keys : List (Nat × LiteralSpan × Nat)}
    (hfound : InOrder text found start) (hkeys : KeysFrom start keys)
    (h : bodiesFrom text bodyField locale stop found keys = .ok spans) : ∃ upTo, InOrder text spans upTo := by
  induction keys generalizing found start with
  | nil =>
    cases h
    exact ⟨start, hfound⟩
  | cons first rest ih =>
    obtain ⟨offset, l, behind⟩ := first
    obtain ⟨hstart, hbehind⟩ := hkeys.1 _ List.mem_cons_self
    dsimp only at hstart hbehind
    rw [bodiesFrom] at h
    obtain ⟨key, -, h⟩ := Except.bind_eq_ok_iff.1 h
    obtain ⟨span, hbody, h⟩ := Except.bind_eq_ok_iff.1 h
    split at h
    · next span =>
      -- the body begins in its own document, in front of the next key field
      obtain ⟨hlt, hle, hopened⟩ := opened_of_body hbody
      have hin : (Body.ofTemplate span).In text := Category.in_of_body hbody
      exact ih (hfound.putNew key hin hopened (by omega)) (hkeys.tail hle) h
    · have hrest : KeysFrom start rest :=
        ⟨fun key hkey => hkeys.1 key (List.mem_cons_of_mem _ hkey), (List.pairwise_cons.1 hkeys.2).2⟩
      exact ih hfound hrest h

end Document

theorem Recogniser.keysFrom_all (keyField text : Text) (start stop : Nat) :
    Document.KeysFrom start ((labelledLiteral keyField).all text start stop) := by
  refine ⟨fun place hplace => ?_, pairwise_all (forward_labelledLiteral keyField) text start stop⟩
  obtain ⟨hle, cursor, after, hcursor, hfirst, hbehind, hread⟩ := read_of_mem_all hplace
  have := (forward_labelledLiteral keyField _ _ _ hcursor _ _ hread).2
  exact ⟨hle, by omega⟩

/-- The bodies of the documents of a category come from left to right, each with its closing backtick in front of
the next one, wherever the scan for it ends. -/
theorem Category.pairwise_documentBodies {c : Category} {text locale : Text} {spans : OrderedMap (Nat × Nat)}
    (h : c.documentBodies text locale = .ok (some spans)) : spans.Pairwise fun a b => a.2.2 < b.2.1 := by
  unfold documentBodies at h
  split at h
  · next keyField bodyField _ window _ _ =>
    unfold Document.bodies at h
    split at h
    · cases h
    · obtain ⟨found, hfound, h⟩ := Except.bind_eq_ok_iff.1 h
      cases h
      have hnone : Document.InOrder text [] window.start := ⟨by simp, by simp, .nil⟩
      obtain ⟨upTo, hspans⟩ :=
        Document.inOrder_bodiesFrom hnone (Recogniser.keysFrom_all keyField text window.start window.stop) hfound
      exact hspans.ordered
  · cases h

end Bilingual
