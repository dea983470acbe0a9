import Bilingual.Proofs.Body
import Bilingual.Proofs.Failure
import Bilingual.Proofs.Rewrite
import Mathlib.Algebra.Group.Nat.Defs

set_option autoImplicit false

/-! # Bodies that cannot be decoded

Everything that is decoded is a piece of the text, and decoding a piece fails only where it holds an escape
`\u{…}` of a number beyond the last code point (`Literal.hasWideEscape_of_decode`). So reading a block fails only for
such an escape in a key, or for its opener (`Category.failsOnly_parsedBlock`), and looking for documents only for such
an escape or a body without an end (`Category.failsOnly_documentBodies`). -/

namespace Bilingual

/-! ## Escapes beyond the last code point -/

/-- Somewhere in the text stands an escape `\u{…}` of a number beyond the last code point. -/
def Text.HasWideEscape (t : Text) : Prop :=
  ∃ (digits : Text) (n : Nat), Text.hexNumber? digits = some n ∧ 0x110000 ≤ n ∧
    ("\\u\x7b" ++ digits ++ "\x7d" : Text) <:+: t

theorem Text.HasWideEscape.mono {t t' : Text} (h : t.HasWideEscape) (hin : t <:+: t') : t'.HasWideEscape := by
  obtain ⟨digits, n, hdigits, hn, hescape⟩ := h
  exact ⟨digits, n, hdigits, hn, hescape.trans hin⟩

/-- A text without a backslash has no escapes. -/
theorem Text.not_hasWideEscape_of_not_mem {t : Text} (h : ('\\' : CodePoint) ∉ t) : ¬ t.HasWideEscape := by
  rintro ⟨digits, n, -, -, hescape⟩
  exact h (hescape.subset List.mem_cons_self)

theorem CodePoint.hexValue?_lt {c : CodePoint} {n : Nat} (h : c.hexValue? = some n) : n < 16 := by
  unfold hexValue? isAsciiDigit at h
  split_ifs at h with hdigit hupper hlower
  · cases h
    simp only [Bool.and_eq_true, decide_eq_true_eq] at hdigit
    omega
  · cases h
    simp only [Bool.and_eq_true, decide_eq_true_eq] at hupper
    omega
  · cases h
    simp only [Bool.and_eq_true, decide_eq_true_eq] at hlower
    omega

/-- Hexadecimal digits write a number below the power of sixteen that their count tells. -/
theorem Text.hexNumber?_lt {digits : Text} {n : Nat} (h : hexNumber? digits = some n) : n < 16 ^ digits.length := by
  have hfold : ∀ (start : Option Nat) (read : Nat), (∀ m, start = some m → m < 16 ^ read) →
      digits.foldl (fun n c => do return (← n) * 16 + (← c.hexValue?)) start = some n →
        n < 16 ^ (read + digits.length) := by
    clear h
    induction digits with
    | nil =>
      intro start read hstart h
      exact hstart n h
    | cons c rest ih =>
      intro start read hstart h
      rw [List.foldl_cons] at h
      have hrest := ih _ (read + 1) ?_ h
      · rw [List.length_cons, Nat.add_comm rest.length 1, ← Nat.add_assoc]
        exact hrest
      · intro m hm
        obtain ⟨before, hbefore, hm⟩ := Option.bind_eq_some_iff.1 hm
        obtain ⟨value, hvalue, hm⟩ := Option.bind_eq_some_iff.1 hm
        cases hm
        have hlt := CodePoint.hexValue?_lt hvalue
        have hread := hstart before hbefore
        rw [Nat.pow_succ]
        omega
  unfold hexNumber? at h
  split at h
  · cases h
  · have hlt := hfold (some 0) 0 (fun m hm => by cases hm; exact Nat.one_pos) h
    rwa [Nat.zero_add] at hlt

namespace Literal

theorem le_of_codePoint {n : Nat} {failure : Failure} (h : codePoint n = .error failure) : 0x110000 ≤ n := by
  unfold codePoint CodePoint.ofNat? at h
  split at h
  · cases h
  · next hnone =>
    split_ifs at hnone with hlt
    exact Nat.le_of_not_lt hlt

/-- Escapes of a fixed number of digits name code points. -/
theorem ok_of_fixedHex? {size n : Nat} {t : Text} (hsize : size ≤ 4) (h : fixedHex? size t = some n)
    {failure : Failure} : codePoint n ≠ .error failure := by
  intro hfails
  unfold fixedHex? at h
  dsimp only at h
  split_ifs at h with hlength
  have hlt := Text.hexNumber?_lt h
  have hle := le_of_codePoint hfails
  have hpow : 16 ^ (List.take size t).length ≤ 16 ^ 4 :=
    Nat.pow_le_pow_right (by decide) (by rw [hlength]; exact hsize)
  omega

/-- Where a run of code points is shorter than the text, the code point that it lacks stands behind it. -/
theorem exists_of_takeWhile_lt {c : CodePoint} {t : Text} (h : (t.takeWhile (· ≠ c)).length < t.length) :
    ∃ behind, t = t.takeWhile (· ≠ c) ++ c :: behind := by
  have hsplit := List.takeWhile_append_dropWhile (p := (decide <| · ≠ c)) (l := t)
  cases hdrop : t.dropWhile (decide <| · ≠ c) with
  | nil =>
    rw [hdrop, List.append_nil] at hsplit
    rw [hsplit] at h
    exact absurd h (Nat.lt_irrefl _)
  | cons d behind =>
    have hd := List.head?_dropWhile_not (decide <| · ≠ c) t
    rw [hdrop] at hd
    obtain rfl : d = c := by simpa using hd
    exact ⟨behind, by rw [← hdrop, hsplit]⟩

theorem exists_of_decodeUnicode {rest : Text} {failure : Failure} (h : decodeUnicode rest = .error failure) :
    ∃ (digits behind : Text) (n : Nat), Text.hexNumber? digits = some n ∧ 0x110000 ≤ n ∧
      rest = ('{' : CodePoint) :: (digits ++ ('}' : CodePoint) :: behind) := by
  unfold decodeUnicode at h
  split at h
  · next hhead =>
    obtain ⟨tail, rfl⟩ := List.head?_eq_some_iff.1 hhead
    rw [List.tail_cons] at h
    dsimp only at h
    split at h
    · next n hn =>
      split_ifs at hn with hclosed
      rcases Except.bind_eq_error_iff.1 h with h | ⟨_, -, h⟩
      · obtain ⟨behind, hbehind⟩ := exists_of_takeWhile_lt hclosed
        exact ⟨_, behind, n, hn, le_of_codePoint h, congrArg _ hbehind⟩
      · cases h
    · cases h
  · split at h
    · next n hn =>
      rcases Except.bind_eq_error_iff.1 h with h | ⟨_, -, h⟩
      · exact absurd h (ok_of_fixedHex? (by decide) hn)
      · cases h
    · cases h

/-- An escape that cannot be decoded is `\u{…}` with too large a number. -/
theorem exists_of_decodeEscape {c : CodePoint} {rest : Text} {failure : Failure}
    (h : decodeEscape c rest = .error failure) : c = 'u' ∧ decodeUnicode rest = .error failure := by
  unfold decodeEscape at h
  split at h
  · cases h
  · split_ifs at h with hline hu hx
    · cases h
    · exact ⟨hu, h⟩
    · split at h
      · next n hn =>
        rcases Except.bind_eq_error_iff.1 h with h | ⟨_, -, h⟩
        · exact absurd h (ok_of_fixedHex? (by decide) hn)
        · cases h
      · cases h
    · cases h

theorem hasWideEscape_of_decodeFrom {skip : Nat} {body : Text} {failure : Failure}
    (h : decodeFrom skip body = .error failure) : body.HasWideEscape := by
  induction body generalizing skip with
  | nil => cases skip <;> cases h
  | cons c rest ih =>
    have hrest : ∀ {skip : Nat}, decodeFrom skip rest = .error failure → Text.HasWideEscape (c :: rest) :=
      fun h => (ih h).mono (List.suffix_cons c rest).isInfix
    cases skip with
    | succ skip => exact hrest h
    | zero =>
      rw [decodeFrom.eq_def] at h
      dsimp only at h
      split at h
      · next hc =>
        cases rest with
        | nil => cases h
        | cons d behind =>
          rcases Except.bind_eq_error_iff.1 h with h | ⟨⟨decoded, taken⟩, -, h⟩
          -- the escape itself stands at the beginning of the body
          · obtain ⟨rfl, h⟩ := exists_of_decodeEscape h
            obtain ⟨digits, behind, n, hdigits, hn, rfl⟩ := exists_of_decodeUnicode h
            refine ⟨digits, n, hdigits, hn, [], behind, ?_⟩
            rw [hc]
            show _ = (('\\' : CodePoint) :: ('u' : CodePoint) :: ('{' : CodePoint) :: _)
            simp [Text.ofString]
          · rcases Except.bind_eq_error_iff.1 h with h | ⟨_, -, h⟩
            · exact hrest h
            · cases h
      · rcases Except.bind_eq_error_iff.1 h with h | ⟨_, -, h⟩
        · exact hrest h
        · cases h

/-- A body that cannot be decoded holds an escape of a number beyond the last code point. -/
theorem hasWideEscape_of_decode {body : Text} {failure : Failure} (h : decode body = .error failure) :
    body.HasWideEscape := hasWideEscape_of_decodeFrom h

end Literal

/-! ## Pieces of a text -/

/-- The failure is that of a body without an end. -/
def Failure.IsUnterminated (failure : Failure) : Prop := ∃ delimiter start, failure = .unterminated delimiter start

theorem Failure.IsCodePoint.not_isUnterminated {failure : Failure} (h : failure.IsCodePoint) :
    ¬ failure.IsUnterminated := by
  rintro ⟨delimiter, start, rfl⟩
  rcases h with h | h <;> cases h

/-- The failure is that of decoding some piece of the text. -/
def Failure.Undecoded (text : Text) (failure : Failure) : Prop :=
  ∃ body, body <:+: text ∧ Literal.decode body = .error failure

namespace Failure.Undecoded

variable {text : Text} {failure : Failure}

theorem isCodePoint (h : failure.Undecoded text) : failure.IsCodePoint := by
  obtain ⟨body, -, hbody⟩ := h
  exact Literal.isCodePoint_of_decode hbody

theorem hasWideEscape (h : failure.Undecoded text) : text.HasWideEscape := by
  obtain ⟨body, hin, hbody⟩ := h
  exact (Literal.hasWideEscape_of_decode hbody).mono hin

theorem mono {text' : Text} (h : failure.Undecoded text) (hin : text <:+: text') : failure.Undecoded text' := by
  obtain ⟨body, hbody, hfails⟩ := h
  exact ⟨body, hbody.trans hin, hfails⟩

end Failure.Undecoded

theorem Text.isInfix_slice (text : Text) (start stop : Nat) : text.slice start stop <:+: text :=
  (List.drop_suffix start _).isInfix.trans (List.take_prefix stop text).isInfix

theorem failsOnly_decode_slice (text : Text) (start stop : Nat) :
    FailsOnly (Failure.Undecoded text) (Literal.decode (text.slice start stop)) :=
  fun _ h => ⟨_, text.isInfix_slice start stop, h⟩

theorem LiteralSpan.In.failsOnly_value {l : LiteralSpan} {text : Text} (h : l.In text) :
    FailsOnly (Failure.Undecoded text) l.value := by
  unfold LiteralSpan.value
  rw [h.raw_eq]
  exact failsOnly_decode_slice text l.start l.stop

/-! ## Blocks -/

/-- The kinds of items whose content cannot be wrong: those without a key. -/
def ItemKind.IsKeyless : ItemKind → Prop
  | .record | .literal => True
  | .entry | .keyedRecord => False

/-- The failure is that of decoding a key, in some piece of the text. -/
def ItemKind.Misreads (kind : ItemKind) (text : Text) (failure : Failure) : Prop :=
  failure.Undecoded text ∧ ¬ kind.IsKeyless

theorem ItemKind.Misreads.mono {kind : ItemKind} {text text' : Text} {failure : Failure}
    (h : kind.Misreads text failure) (hin : text <:+: text') : kind.Misreads text' failure := ⟨h.1.mono hin, h.2⟩

/-- What an item holds cannot be told only for a key that cannot be decoded. -/
theorem ItemForm.failsOnly_content (form : ItemForm) (offset : Nat) :
    FailsOnly (form.kind.Misreads form.text) (form.content offset) := by
  have hkey : ∀ key : KeyForm, form.key = some key → FailsOnly (Failure.Undecoded form.text) (ItemKey.ofRaw key.raw) := by
    intro key hform
    unfold ItemKey.ofRaw
    split
    · refine FailsOnly.bind (fun failure h => ⟨key.raw.tail.dropLast, ?_, h⟩) fun _ _ => failsOnly_pure _
      have hprefix : key.raw <+: form.text :=
        ⟨key.before ++ (':' :: key.behind : Text) ++ (form.value.text ++ form.commaText), by
          rw [ItemForm.text, ItemForm.keyText, hform]
          simp [KeyForm.text]⟩
      exact ((List.dropLast_prefix _).isInfix.trans (List.tail_suffix _).isInfix).trans hprefix.isInfix
    · exact failsOnly_pure _
  obtain ⟨key, value, comma, hcomma⟩ := form
  cases key with
  | none => cases value <;> exact failsOnly_pure _
  | some key => cases value <;> exact ((hkey key rfl).map _).mono fun _ h => ⟨h, id⟩

namespace ParsedBlock

variable {text : Text} {kind : ItemKind}

/-- Reading an item fails for what it holds, and behind an item that is read comes the rest of the text. -/
theorem failsOnly_itemAt? (cursor : Cursor) :
    FailsOnly (kind.Misreads cursor.rest) (itemAt? text kind cursor) ∧
      ∀ item behind, itemAt? text kind cursor = .ok (some (item, behind)) → behind.rest <:+ cursor.rest := by
  cases hfirst : (Recogniser.item kind).first? cursor with
  | none =>
    have hnone : itemAt? text kind cursor = .ok none := by
      rw [itemAt?, hfirst]
      rfl
    rw [hnone]
    exact ⟨failsOnly_pure _, fun _ _ h => by cases h⟩
  | some found =>
    obtain ⟨form, rest, rfl, hrest, hcomma⟩ := exists_of_first?_item hfirst
    rw [itemAt?_eq form hrest hcomma]
    constructor
    · refine ((form.failsOnly_content cursor.offset).mono fun _ h => ?_).map _
      exact h.mono ⟨[], rest, hrest.symm⟩
    · intro item behind h
      obtain ⟨content, -, heq⟩ := Except.map_eq_ok_iff.1 h
      cases heq
      rw [Cursor.rest_advance]
      exact List.drop_suffix _ _

/-- Reading the items of a block fails only for a key that cannot be decoded. -/
theorem failsOnly_partsFrom (fuel : Nat) (cursor : Cursor) :
    FailsOnly (kind.Misreads cursor.rest) (partsFrom text kind fuel cursor) := by
  induction fuel generalizing cursor with
  | zero =>
    rw [partsFrom]
    split <;> exact failsOnly_pure _
  | succ fuel ih =>
    rw [partsFrom]
    split
    · exact failsOnly_pure _
    · have hsuffix : (cursor.advance (List.length (cursor.rest.take (gapLength 0 cursor.rest)))).rest <:+ cursor.rest := by
        rw [Cursor.rest_advance]
        exact List.drop_suffix _ _
      obtain ⟨hitem, hbehind⟩ : FailsOnly _ (itemAt? text kind _) ∧ _ := failsOnly_itemAt?
        (cursor.advance (List.length (cursor.rest.take (gapLength 0 cursor.rest))))
      refine (hitem.mono fun _ h => h.mono hsuffix.isInfix).bind fun found hfound => ?_
      split
      · exact failsOnly_pure _
      · next item behind =>
        have hrest : behind.rest <:+ cursor.rest := (hbehind item behind hfound).trans hsuffix
        refine ((ih behind).mono fun _ h => h.mono hrest.isInfix).bind fun others _ => ?_
        split <;> exact failsOnly_pure _

theorem failsOnly_parse (block : BlockSpan) : FailsOnly (kind.Misreads text) (parse text block kind) := by
  refine ((failsOnly_partsFrom _ _).mono fun _ h => ?_).bind fun found _ => ?_
  · exact h.mono (text.isInfix_slice block.bodyStart block.bodyEnd)
  · split <;> exact failsOnly_pure _

end ParsedBlock

namespace Category

variable {c : Category} {text locale : Text}

/-- Reading a block fails for a key that cannot be decoded, or for its opener. -/
theorem failsOnly_parsedBlock (c : Category) (text locale : Text) :
    FailsOnly (fun failure => (∃ kind, c.placement.itemKind? = some kind ∧ kind.Misreads text failure) ∨
      ∃ place, c.placement.blockPlace? = some place ∧
        BlockSpan.opener (substituteLocale (place.openerFor locale) locale) = .error failure)
      (c.parsedBlock text locale) := by
  refine FailsOnly.bind ?_ fun block _ => ?_
  · unfold block
    split
    · next place window hplace hwindow =>
      intro failure h
      exact .inr ⟨place, hplace, BlockSpan.error_of_locate (stop_le_of_window? hwindow) h⟩
    · exact failsOnly_pure _
  · split
    · next kind _ hkind _ => exact (ParsedBlock.failsOnly_parse _).mono fun _ h => .inl ⟨kind, hkind, h⟩
    · exact failsOnly_pure _

theorem terminated_parsedBlock (c : Category) (text locale : Text) : Terminated (c.parsedBlock text locale) := by
  refine terminated_iff_failsOnly.2 ((c.failsOnly_parsedBlock text locale).mono ?_)
  rintro failure (⟨kind, -, hfailure, -⟩ | ⟨place, -, hopener⟩) delimiter start rfl
  · exact hfailure.isCodePoint.not_isUnterminated ⟨delimiter, start, rfl⟩
  · cases BlockSpan.blockOpener_of_opener hopener

/-- The literals of the items of a block stand in the text. -/
theorem in_of_mem_items {parsed : ParsedBlock} (h : c.parsedBlock text locale = .ok (some parsed)) {item : BlockItem}
    (hitem : item ∈ parsed.items) {l : LiteralSpan} (hl : l ∈ item.content.literals) : l.In text := by
  obtain ⟨place, window, kind, block, -, -, -, hlocate, hparse⟩ := c.exists_of_parsedBlock h
  obtain ⟨parts, last, hlaid, -⟩ := ParsedBlock.exists_laid hlocate hparse
  exact ((hlaid.literalsIn hitem).1.inside l hl).in

end Category

/-! ## Documents -/

namespace Document

variable {text locale : Text}

theorem failsOnly_templateFrom (stop fuel cursor : Nat) :
    FailsOnly Failure.IsUnterminated (templateFrom text locale stop fuel cursor) := by
  induction fuel generalizing cursor with
  | zero => exact failsOnly_pure _
  | succ fuel ih =>
    rw [templateFrom]
    split
    · exact failsOnly_pure _
    · next behind _ =>
      refine FailsOnly.bind (fun failure h => ?_) fun span _ => ?_
      · unfold Literal.bodySpan at h
        split at h
        · cases h
        · cases h
          exact ⟨_, _, rfl⟩
      · split
        · exact failsOnly_pure _
        · exact ih _

theorem failsOnly_body (bodyField : Text) (start stop : Nat) :
    FailsOnly Failure.IsUnterminated (body text bodyField locale start stop) := by
  unfold body
  split
  · exact failsOnly_pure _
  · exact failsOnly_templateFrom _ _ _

end Document

/-- Looking for the bodies of documents fails for a body without an end or for a key that cannot be decoded. -/
theorem Category.failsOnly_documentBodies (c : Category) (text locale : Text) :
    FailsOnly (fun failure => failure.IsUnterminated ∨ failure.Undecoded text) (c.documentBodies text locale) := by
  intro failure h
  obtain ⟨keyField, bodyField, _, hplace, s, hs, hkey | hbody⟩ := exists_of_documentBodies_error h
  · obtain ⟨window, -, before, field, rest, hfields, rfl⟩ := exists_of_mem_segments hplace hs
    have hfield : field ∈ (Recogniser.labelledLiteral keyField).all text window.start window.stop := by
      rw [hfields]
      simp
    obtain ⟨-, first, behind, hfirst, -, -, hread⟩ := Recogniser.read_of_mem_all hfield
    exact .inr ((Recogniser.reads_labelledLiteral keyField hfirst _ behind hread).2.in.failsOnly_value failure hkey)
  · exact .inl (Document.failsOnly_body bodyField _ _ failure hbody)

end Bilingual
