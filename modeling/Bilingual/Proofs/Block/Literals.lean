import Bilingual.Proofs.Block.Layout

set_option autoImplicit false

/-! # Where the literals of items stand

The literals of an item are pieces of its text, one behind the other with their quotes between them
(`literalsIn_of_mem_partItems`). For records this is a fact about the fields that are found one after the
other; the body of a record is stripped of whitespace first, and the fields are counted from behind it. -/

namespace Bilingual

open Recogniser

/-! ## Reading fields -/

namespace Recogniser

theorem reads_orElse {α : Type} {r s : Recogniser α} {cursor : Cursor} {told : α → Cursor → Prop}
    (hr : r.Reads cursor told) (hs : s.Reads cursor told) : (orElse r s).Reads cursor told := by
  intro a behind h
  rcases List.mem_append.1 h with h | h
  · exact hr a behind h
  · exact hs a behind h

theorem forward_atEnd : atEnd.Forward := by
  intro text stop cursor hcursor a behind h
  unfold atEnd at h
  dsimp only at h
  split at h
  · obtain ⟨-, rfl⟩ := Prod.mk.inj (List.mem_singleton.1 h)
    exact ⟨hcursor, Nat.le_refl _⟩
  · cases h

theorem forward_fieldEnd : fieldEnd.Forward := (forward_ahead _).orElse forward_atEnd

/-- The literal of a field stands where the field is read. -/
theorem reads_recordField {text : Text} {stop : Nat} {cursor : Cursor} (hcursor : cursor.In text stop) :
    recordField.Reads cursor fun field behind => behind.In text stop ∧ cursor.offset ≤ behind.offset ∧
      ∀ l ∈ field.literal, l.Inside text cursor.offset behind.offset := by
  refine (forward_satisfying _).reads_bind hcursor fun c c₁ h₁ hle₁ => ?_
  refine (forward_longest _).reads_bind h₁ fun name c₂ h₂ hle₂ => ?_
  refine (forward_longest _).reads_bind h₂ fun _ c₃ h₃ hle₃ => ?_
  refine (forward_point _).reads_bind h₃ fun _ c₄ h₄ hle₄ => ?_
  refine (forward_longest _).reads_bind h₄ fun space c₅ h₅ hle₅ => ?_
  refine reads_orElse ?_ ?_
  -- a literal, and then the end of the field
  · refine reads_bind fun l c₆ hl => ?_
    obtain ⟨h₆, hinside⟩ := reads_literal h₅ _ _ hl
    have hlt := hinside.lt
    refine (forward_longest _).reads_bind h₆ fun _ c₇ h₇ hle₇ => ?_
    refine forward_fieldEnd.reads_bind h₇ fun _ c₈ h₈ hle₈ => ?_
    refine reads_pure ⟨h₈, by omega, ?_⟩
    rintro _ ⟨⟩
    exact hinside.mono (by omega) (by omega)
  -- a value that is no literal
  · refine (forward_longest _).reads_bind h₅ fun raw c₆ h₆ hle₆ => ?_
    have hend : ∀ _ : Unit, (fieldEnd >>= fun _ => (pure ⟨c :: name, raw.trim, none⟩ :
        Recogniser RecordField)).Reads c₆ fun field behind => behind.In text stop ∧
          cursor.offset ≤ behind.offset ∧ ∀ l ∈ field.literal, l.Inside text cursor.offset behind.offset := by
      intro _
      refine forward_fieldEnd.reads_bind h₆ fun _ c₇ h₇ hle₇ => reads_pure ⟨h₇, by omega, ?_⟩
      rintro _ ⟨⟩
    split
    · exact reads_bind fun _ _ h => by cases h
    · exact hend ()

theorem forward_recordField : recordField.Forward := fun _ _ _ hcursor field behind h =>
  have hreads := reads_recordField hcursor field behind h
  ⟨hreads.1, hreads.2.1⟩

end Recogniser

/-! ## Literals in order -/

/-- Literals stand between two offsets of a text, one behind the other with a quote between them. -/
structure LiteralsIn (text : Text) (start stop : Nat) (literals : List LiteralSpan) : Prop where
  inside : ∀ l ∈ literals, l.Inside text start stop
  ordered : literals.Pairwise fun first second => first.stop < second.start

theorem LiteralsIn.mono {text : Text} {start stop start' stop' : Nat} {literals : List LiteralSpan}
    (h : LiteralsIn text start stop literals) (hstart : start' ≤ start) (hstop : stop ≤ stop') :
    LiteralsIn text start' stop' literals :=
  ⟨fun l hl => (h.inside l hl).mono hstart hstop, h.ordered⟩

theorem LiteralsIn.nodup {text : Text} {start stop : Nat} {literals : List LiteralSpan}
    (h : LiteralsIn text start stop literals) : literals.Nodup := by
  refine h.ordered.imp_of_mem fun {a b} ha hb hlt heq => ?_
  have := (h.inside a ha).start_le_stop
  rw [heq] at this hlt
  omega

/-- A text is the whitespace that it begins with, what is left of it without whitespace at its ends, and the
whitespace that it ends with. -/
theorem exists_trim (t : Text) : ∃ behind, t = t.leadingSpace ++ (t.trim ++ behind) := by
  refine ⟨(t.trimLeft.reverse.takeWhile CodePoint.isSpace).reverse, ?_⟩
  rw [Text.trim, Text.trimRight, ← List.reverse_append, List.takeWhile_append_dropWhile, List.reverse_reverse,
    Text.leadingSpace, Text.trimLeft, List.takeWhile_append_dropWhile]

/-- The literals of the fields of a record stand in its body. -/
theorem literalsIn_recordFields {text body behind : Text} {offset : Nat} (hle : offset ≤ text.length)
    (h : text.drop offset = body ++ behind) :
    LiteralsIn text offset (offset + body.length)
      ((recordFields offset body).filterMap RecordField.literal) := by
  obtain ⟨trailing, hbody⟩ := exists_trim body
  have htrimmed : text.drop (offset + body.leadingSpace.length) = body.trim ++ (trailing ++ behind) := by
    have hsplit : body ++ behind = body.leadingSpace ++ (body.trim ++ (trailing ++ behind)) := by
      rw [← List.append_assoc body.trim, ← List.append_assoc, ← hbody]
    rw [← List.drop_drop, h, hsplit, List.drop_left]
  have hlengths := congrArg List.length hbody
  have hdrop := congrArg List.length h
  rw [List.length_append, List.length_append] at hlengths
  rw [List.length_drop, List.length_append] at hdrop
  have hcursor : (⟨offset + body.leadingSpace.length, none, body.trim⟩ : Cursor).In text
      (offset + body.leadingSpace.length + body.trim.length) :=
    ⟨by rw [List.length_take]; show offset + _ ≤ _; omega, (Text.slice_of_drop htrimmed).symm⟩
  have hplaces : (recordField.allFrom 0 ⟨offset + body.leadingSpace.length, none, body.trim⟩
      body.trim).Pairwise _ := pairwise_allFrom forward_recordField hcursor
  -- a field stands where it is found, and its literal in it
  have hread : ∀ place ∈ recordField.allFrom 0 ⟨offset + body.leadingSpace.length, none, body.trim⟩ body.trim,
      offset ≤ place.1 ∧ place.2.2 ≤ offset + body.length ∧
        ∀ l ∈ place.2.1.literal, l.Inside text place.1 place.2.2 := by
    intro place hplace
    obtain ⟨hstart, first, last, hfirst, hfirstOffset, hlastOffset, hrun⟩ :=
      read_of_mem_allFrom hcursor hplace
    obtain ⟨hlast, -, hliteral⟩ := reads_recordField hfirst _ _ hrun
    have hstop := hlast.offset_le
    rw [List.length_take] at hstop
    have hstart' : offset + body.leadingSpace.length + 0 ≤ place.1 := hstart
    rw [← hfirstOffset, ← hlastOffset]
    exact ⟨by omega, by omega, hliteral⟩
  rw [recordFields]
  dsimp only
  rw [List.filterMap_map]
  constructor
  · intro l hl
    obtain ⟨place, hplace, hliteral⟩ := List.mem_filterMap.1 hl
    obtain ⟨hstart, hstop, hinside⟩ := hread place hplace
    exact (hinside l hliteral).mono hstart hstop
  · refine List.pairwise_filterMap.2 (hplaces.imp_of_mem fun {a b} ha hb hle l hl l' hl' => ?_)
    have hfirst := ((hread a ha).2.2 l hl).stop_lt
    have hsecond := ((hread b hb).2.2 l' hl').start_lt
    omega

/-! ## The literals of items -/

/-- The literals of what an item holds, in the order in which they stand. -/
def ItemContent.literals : ItemContent → List LiteralSpan
  | entry _ l | literal l => [l]
  | record fields | keyedRecord _ fields => fields.filterMap RecordField.literal

/-- The literals of a literal or an object that stands at an offset. -/
def ValueForm.literals (offset : Nat) : ValueForm → List LiteralSpan
  | literal quote body _ => [.ofBody offset quote body]
  | object body _ => (recordFields (offset + 1) body).filterMap RecordField.literal

theorem ValueForm.literalsIn (value : ValueForm) {text behind : Text} {offset : Nat}
    (h : text.drop offset = value.text ++ behind) :
    LiteralsIn text offset (offset + value.text.length) (value.literals offset) := by
  cases value with
  | literal quote body hbody =>
    have hlength : (literal quote body hbody).text.length = body.length + 2 := by simp [ValueForm.text]
    have hdrop : text.drop (offset + 1) = body ++ (quote.point :: behind) := by
      rw [← List.drop_drop, h]
      simp [ValueForm.text]
    refine ⟨List.forall_mem_singleton.2 ?_, List.pairwise_singleton _ _⟩
    rw [hlength]
    constructor
    · show offset < offset + 1
      omega
    · show offset + 1 + body.length < _
      omega
    · show offset + 1 ≤ offset + 1 + body.length
      omega
    · exact (Text.slice_of_drop hdrop).symm
    · exact hbody
    · show text[offset + 1 + body.length]? = _
      rw [← List.getElem?_drop, hdrop, List.getElem?_append_right (Nat.le_refl _), Nat.sub_self]
      rfl
    · show text[offset]? = _
      rw [← List.head?_drop, h]
      rfl
  | object body hbody =>
    have hlength : (object body hbody).text.length = body.length + 2 := by simp [ValueForm.text]
    have hdrop : text.drop (offset + 1) = body ++ (('}' : CodePoint) :: behind) := by
      rw [← List.drop_drop, h]
      simp [ValueForm.text]
    have hle : offset + 1 ≤ text.length := by
      have := congrArg List.length hdrop
      rw [List.length_drop, List.length_append, List.length_cons] at this
      omega
    rw [hlength]
    exact (literalsIn_recordFields hle hdrop).mono (by omega) (by omega)

theorem ItemForm.literals_of_content {form : ItemForm} {offset : Nat} {content : ItemContent}
    (h : form.content offset = .ok content) :
    content.literals = form.value.literals (offset + form.keyText.length) := by
  obtain ⟨key, value, comma, hcomma⟩ := form
  cases key with
  | none =>
    cases value with
    | literal quote body hbody =>
      cases h
      rfl
    | object body hbody =>
      cases h
      rfl
  | some key =>
    cases value with
    | literal quote body hbody =>
      obtain ⟨k, -, rfl⟩ := Except.map_eq_ok_iff.1 h
      rfl
    | object body hbody =>
      obtain ⟨k, -, rfl⟩ := Except.map_eq_ok_iff.1 h
      rfl

/-- The literals of an item stand in its text, in front of its comma. -/
theorem ItemForm.literalsIn (form : ItemForm) {text behind : Text} {offset : Nat} {content : ItemContent}
    (h : text.drop offset = form.text ++ behind) (hcontent : form.content offset = .ok content) :
    LiteralsIn text offset (offset + form.text.length) content.literals := by
  have hlength : form.text.length = form.keyText.length + (form.value.text.length + form.commaText.length) := by
    rw [ItemForm.text, List.length_append, List.length_append]
  have hvalue : text.drop (offset + form.keyText.length) = form.value.text ++ (form.commaText ++ behind) := by
    rw [← List.drop_drop, h, ItemForm.text, List.append_assoc, List.drop_left, List.append_assoc]
  rw [literals_of_content hcontent]
  exact (form.value.literalsIn hvalue).mono (by omega) (by omega)

/-- The literals of each item of a body stand in its text. -/
theorem literalsIn_of_mem_partItems {text behind : Text} {offset : Nat} {parts : List BlockPart}
    {items : List BlockItem} (h : partItems text offset parts = .ok items)
    (htext : text.drop offset = partsText parts ++ behind) :
    ∀ item ∈ items, LiteralsIn text item.start item.stop item.content.literals := by
  induction parts generalizing offset items with
  | nil =>
    cases h
    exact List.forall_mem_nil _
  | cons part parts ih =>
    obtain ⟨content, others, hcontent, hothers, rfl⟩ := partItems_cons_eq_ok_iff.1 h
    obtain ⟨hform, hrest⟩ := drop_partsText htext
    exact List.forall_mem_cons.2 ⟨part.form.literalsIn hform hcontent, ih hothers hrest⟩

end Bilingual
