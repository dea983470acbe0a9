import Bilingual.Proofs.Block.Gap
import Bilingual.Proofs.CodePoint
import Bilingual.Proofs.Run

set_option autoImplicit false

/-! # How items are written

An item is an optional key with its colon, a literal or an object without nested braces, and an optional
comma (`ItemForm`). Its parts carry what makes them parts: a body between quotes is read as a whole, and so is
the body of an object. Such an item is read back wherever it stands (`ItemForm.itemAt?_eq`), and whatever is
read as an item has such a form (`ItemForm.exists_of_itemAt?`). -/

namespace Bilingual

open Recogniser

/-! ## Keys -/

/-- A code point that a bare key may go on with. -/
def CodePoint.isKeyPart (c : CodePoint) : Bool := c.isIdentifier || c == '.' || c == '-'

/-- A key as it is written: in quotes or bare. -/
inductive IsKey : Text → Prop
  | quoted {quote : Quote} {body : Text} (hbody : quote.Encloses body) :
      IsKey (quote.point :: (body ++ [quote.point]))
  | bare {c : CodePoint} {rest : Text} (hc : c.isIdentifierStart = true)
      (hrest : ∀ d ∈ rest, d.isKeyPart = true) : IsKey (c :: rest)

/-- A key with its colon and the whitespace around it. -/
structure KeyForm where
  raw : Text
  before : Text
  behind : Text
  isKey : IsKey raw
  before_space : ∀ c ∈ before, c.isSpace = true
  behind_space : ∀ c ∈ behind, c.isSpace = true

/-- The text of a key with its colon. -/
def KeyForm.text (key : KeyForm) : Text := key.raw ++ (key.before ++ (':' :: key.behind : Text))

/-- A code point of a kind that no quote is of is no quote. -/
theorem ofPoint?_eq_none {p : CodePoint → Bool} {c : CodePoint} (hc : p c = true)
    (hquote : ∀ quote : Quote, p quote.point = false) : Quote.ofPoint? c = none := by
  cases hfound : Quote.ofPoint? c with
  | none => rfl
  | some quote =>
    rw [← Quote.point_of_ofPoint? hfound, hquote] at hc
    cases hc

theorem ofPoint?_of_isIdentifierStart {c : CodePoint} (h : c.isIdentifierStart = true) :
    Quote.ofPoint? c = none := ofPoint?_eq_none h fun quote => by cases quote <;> decide

theorem ofPoint?_of_isSpace {c : CodePoint} (h : c.isSpace = true) : Quote.ofPoint? c = none :=
  ofPoint?_eq_none h fun quote => by cases quote <;> decide

theorem isKeyPart_of_isSpace {c : CodePoint} (h : c.isSpace = true) : c.isKeyPart = false := by
  have hdot : c ≠ '.' := by
    rintro rfl
    exact absurd h (by decide)
  have hhyphen : c ≠ '-' := by
    rintro rfl
    exact absurd h (by decide)
  rw [CodePoint.isKeyPart, CodePoint.isIdentifier_of_isSpace h, beq_eq_false_iff_ne.2 hdot,
    beq_eq_false_iff_ne.2 hhyphen]
  rfl

theorem run_quotedKey {quote : Quote} {body rest : Text} {cursor : Cursor} (hbody : quote.Encloses body)
    (h : cursor.rest = quote.point :: (body ++ quote.point :: rest)) :
    quotedKey.run cursor =
      [(quote.point :: (body ++ [quote.point]), cursor.advance (body.length + 2))] :=
  run_bind_of_eq (run_literal hbody h) _

theorem run_bareKey {c : CodePoint} {key rest : Text} {cursor : Cursor} (hc : c.isIdentifierStart = true)
    (hkey : ∀ d ∈ key, d.isKeyPart = true) (hrest : ∀ d ∈ rest.head?, d.isKeyPart = false)
    (h : cursor.rest = c :: (key ++ rest)) :
    bareKey.run cursor = [(c :: key, cursor.advance (key.length + 1))] := by
  have hbehind : (cursor.advance 1).rest = key ++ rest := by rw [Cursor.rest_advance, h]; rfl
  refine (run_bind_of_eq (run_satisfying h hc) _).trans ?_
  refine (run_bind_of_eq (run_longest (p := CodePoint.isKeyPart) hbehind hkey hrest) _).trans ?_
  rw [run_pure, ← Cursor.advance_add, Nat.add_comm]

/-- A key is read in one way where whitespace or its colon comes behind. -/
theorem IsKey.run {key rest : Text} (hkey : IsKey key) {cursor : Cursor}
    (hrest : ∀ d ∈ rest.head?, d.isSpace = true ∨ d = ':') (h : cursor.rest = key ++ rest) :
    (orElse quotedKey bareKey).run cursor = [(key, cursor.advance key.length)] := by
  show quotedKey.run cursor ++ bareKey.run cursor = _
  cases hkey with
  | @quoted quote body hbody =>
    rw [List.cons_append, List.append_assoc] at h
    have hstart : ∀ c ∈ cursor.rest.head?, c.isIdentifierStart = false := by
      rw [h]
      rintro c ⟨⟩
      cases quote <;> decide
    have hbare : bareKey.run cursor = [] := run_bind_of_nil (run_satisfying_of_not hstart) _
    rw [run_quotedKey hbody h, hbare, List.append_nil, List.length_cons, List.length_append]
    rfl
  | @bare c key hc hkey =>
    have hquote : ∀ d ∈ cursor.rest.head?, Quote.ofPoint? d = none := by
      rw [h]
      rintro d ⟨⟩
      exact ofPoint?_of_isIdentifierStart hc
    have hquoted : quotedKey.run cursor = [] := run_bind_of_nil (run_literal_of_not hquote) _
    have hrest' : ∀ d ∈ rest.head?, d.isKeyPart = false := by
      intro d hd
      rcases hrest d hd with hspace | rfl
      · exact isKeyPart_of_isSpace hspace
      · decide
    rw [hquoted, List.nil_append, run_bareKey hc hkey hrest' h, List.length_cons]

/-- What follows a key is read behind its colon, if it does not begin in front of whitespace. -/
theorem KeyForm.run_bind {α : Type} (key : KeyForm) {f : Text → Recogniser α} {cursor : Cursor}
    {rest : Text} (h : cursor.rest = key.text ++ rest) (hrest : ∀ c ∈ rest.head?, c.isSpace = false)
    (hf : ∀ between : Cursor, ∀ c ∈ between.rest.head?, c.isSpace = true →
      (f key.raw).run between = []) :
    (itemKey >>= f).run cursor = (f key.raw).run (cursor.advance key.text.length) := by
  have hkey : cursor.rest = key.raw ++ (key.before ++ (':' : CodePoint) :: (key.behind ++ rest)) := by
    rw [h, text]
    simp only [List.append_assoc, List.cons_append]
  have hhead : ∀ d ∈ (key.before ++ (':' : CodePoint) :: (key.behind ++ rest)).head?,
      d.isSpace = true ∨ d = ':' := by
    cases hbefore : key.before with
    | nil =>
      rintro d ⟨⟩
      exact .inr rfl
    | cons c before =>
      rintro d ⟨⟩
      exact .inl (key.before_space c (hbefore ▸ List.mem_cons_self ..))
  -- the cursor behind each part, and what lies ahead of it
  have hbefore := Cursor.rest_advance_append hkey
  have hcolon := Cursor.rest_advance_append hbefore
  have hbehind : (((cursor.advance key.raw.length).advance key.before.length).advance 1).rest =
      key.behind ++ rest := by rw [Cursor.rest_advance, hcolon]; rfl
  have hlength : key.text.length = key.raw.length + (key.before.length + (1 + key.behind.length)) := by
    simp only [text, List.length_append, List.length_cons]
    omega
  simp only [itemKey, bind_assoc, pure_bind]
  rw [run_bind_of_eq (key.isKey.run hhead hkey), run_spaces_bind hbefore key.before_space ?_ ?_,
    run_bind_of_eq (run_point hcolon), run_spaces_bind hbehind key.behind_space hrest hf, hlength,
    Cursor.advance_add, Cursor.advance_add, Cursor.advance_add]
  · rintro d ⟨⟩
    decide
  · intro between d hd hspace
    refine run_bind_of_nil (run_point_of_ne fun hhead => ?_) _
    rw [hhead] at hd
    cases hd
    exact absurd hspace (by decide)

/-! ## Objects -/

/-- Behind the opening brace of an object its body is read up to the closing one, whatever comes behind. -/
def ObjectBody (body : Text) : Prop :=
  ∀ behind, objectBody? 0 (body ++ ('}' : CodePoint) :: behind) = some body.length

theorem prefix_of_literalBody? {quote : CodePoint} {t body behind : Text}
    (h : literalBody? quote t = some (body, behind)) : body ++ [quote] <+: t :=
  ⟨behind, by rw [eq_of_literalBody? h, List.append_assoc]; rfl⟩

/-- The body of a literal is read again in any text that begins with it and its quote. -/
theorem literalBody?_of_prefix {quote : CodePoint} {t t' body behind : Text}
    (h : literalBody? quote t = some (body, behind)) (hstarts : body ++ [quote] <+: t') :
    ∃ behind', literalBody? quote t' = some (body, behind') := by
  obtain ⟨behind', rfl⟩ := hstarts
  exact ⟨behind', by rw [List.append_assoc]; exact literalBody?_again h behind'⟩

/-- The body of an object is read again in front of any text. -/
theorem objectBody?_again {skip n : Nat} {t : Text} (h : objectBody? skip t = some n) :
    ∃ body behind : Text, t = body ++ ('}' : CodePoint) :: behind ∧ body.length = n ∧ skip ≤ n ∧
      ∀ behind' : Text, objectBody? skip (body ++ ('}' : CodePoint) :: behind') = some n := by
  fun_induction objectBody? skip t generalizing n with
  | case1 => cases h
  | case2 c rest skip ih =>
    obtain ⟨n, hn, rfl⟩ := Option.map_eq_some_iff.1 h
    obtain ⟨body, behind, rfl, rfl, hskip, hagain⟩ := ih hn
    refine ⟨c :: body, behind, rfl, rfl, Nat.succ_le_succ hskip, fun behind' => ?_⟩
    rw [List.cons_append, objectBody?, hagain]
    rfl
  | case3 rest =>
    cases h
    exact ⟨[], rest, rfl, rfl, Nat.le_refl _, fun _ => by rw [List.nil_append, objectBody?, if_pos rfl]⟩
  | case4 => cases h
  | case5 c rest hclose hopen hquote ih =>
    obtain ⟨n, hn, rfl⟩ := Option.map_eq_some_iff.1 h
    obtain ⟨body, behind, rfl, rfl, -, hagain⟩ := ih hn
    refine ⟨c :: body, behind, rfl, rfl, Nat.zero_le _, fun behind' => ?_⟩
    rw [List.cons_append, objectBody?, if_neg hclose, if_neg hopen, hquote]
    dsimp only
    rw [hagain]
    rfl
  | case6 => cases h
  | case7 c rest hclose hopen quote hquote raw remaining hliteral ih =>
    obtain ⟨n, hn, rfl⟩ := Option.map_eq_some_iff.1 h
    obtain ⟨body, behind, rfl, rfl, hskip, hagain⟩ := ih hn
    refine ⟨c :: body, behind, rfl, rfl, Nat.zero_le _, fun behind' => ?_⟩
    -- the literal lies in the body as a whole, so it is read in front of any text
    have hstarts : raw ++ [c] <+: body := by
      refine List.prefix_of_prefix_length_le (prefix_of_literalBody? hliteral) (List.prefix_append _ _) ?_
      rw [List.length_append]
      exact hskip
    obtain ⟨remaining', hliteral'⟩ := literalBody?_of_prefix hliteral
      (hstarts.trans (List.prefix_append _ (('}' : CodePoint) :: behind')))
    rw [List.cons_append, objectBody?, if_neg hclose, if_neg hopen, hquote]
    dsimp only
    rw [hliteral']
    dsimp only
    rw [hagain]
    rfl

theorem run_object {body rest : Text} {cursor : Cursor} (hbody : ObjectBody body)
    (h : cursor.rest = ('{' : CodePoint) :: (body ++ ('}' : CodePoint) :: rest)) :
    object.run cursor = [((cursor.offset + 1, body), cursor.advance (body.length + 2))] := by
  have hbehind : (cursor.advance 1).rest = body ++ ('}' : CodePoint) :: rest := by
    rw [Cursor.rest_advance, h]
    rfl
  have hoffset : (cursor.advance 1).offset = cursor.offset + 1 :=
    Cursor.offset_advance (by rw [h]; exact Nat.succ_le_succ (Nat.zero_le _))
  refine (run_bind_of_eq (run_point h) _).trans ?_
  dsimp only
  rw [hbehind, hbody rest]
  dsimp only
  rw [hoffset, List.take_left, ← Cursor.advance_add, Nat.add_comm 1]

theorem run_object_of_not {cursor : Cursor} (h : cursor.rest.head? ≠ some ('{' : CodePoint)) :
    object.run cursor = [] := run_bind_of_nil (run_point_of_ne h) _

/-! ## Items -/

/-- What stands behind the key of an item, or alone: a literal or an object. -/
inductive ValueForm
  | literal (quote : Quote) (body : Text) (hbody : quote.Encloses body)
  | object (body : Text) (hbody : ObjectBody body)

/-- The text of a literal or an object. -/
def ValueForm.text : ValueForm → Text
  | literal quote body _ => quote.point :: (body ++ [quote.point])
  | object body _ => '{' :: (body ++ [('}' : CodePoint)])

/-- The literal with the given body whose opening quote is at `offset`. -/
def LiteralSpan.ofBody (offset : Nat) (quote : Quote) (body : Text) : LiteralSpan :=
  ⟨offset + 1, offset + 1 + body.length, quote, body⟩

/-- A blank in front of the comma of an item. -/
def CodePoint.isBlank (c : CodePoint) : Bool := c == ' ' || c == '\t'

/-- An item as it is written. Only blanks stand in front of its comma. -/
structure ItemForm where
  key : Option KeyForm
  value : ValueForm
  comma : Option Text
  comma_blank : ∀ blanks ∈ comma, ∀ c ∈ blanks, c.isBlank = true

namespace ItemForm

/-- The text of the key and its colon. -/
def keyText (form : ItemForm) : Text := (form.key.map KeyForm.text).getD []

/-- The text of the comma and what is in front of it. -/
def commaText (form : ItemForm) : Text := (form.comma.map (· ++ [(',' : CodePoint)])).getD []

/-- The text of an item. -/
def text (form : ItemForm) : Text := form.keyText ++ (form.value.text ++ form.commaText)

/-- The kind of an item. -/
def kind (form : ItemForm) : ItemKind :=
  match form.key, form.value with
  | some _, .literal .. => .entry
  | none, .object .. => .record
  | none, .literal .. => .literal
  | some _, .object .. => .keyedRecord

/-- What an item holds that stands at `offset`. -/
def content (form : ItemForm) (offset : Nat) : Except Failure ItemContent :=
  match form.key, form.value with
  | some key, .literal quote body _ => (ItemKey.ofRaw key.raw).map fun key' =>
      .entry key' (.ofBody (offset + key.text.length) quote body)
  | none, .object body _ => .ok (.record (recordFields (offset + 1) body))
  | none, .literal quote body _ => .ok (.literal (.ofBody offset quote body))
  | some key, .object body _ => (ItemKey.ofRaw key.raw).map fun key' =>
      .keyedRecord key' (recordFields (offset + key.text.length + 1) body)

end ItemForm

theorem run_literal_text {quote : Quote} {body rest : Text} (hbody : quote.Encloses body) {cursor : Cursor}
    (h : cursor.rest = (ValueForm.literal quote body hbody).text ++ rest) :
    literal.run cursor = [(.ofBody cursor.offset quote body,
      cursor.advance (ValueForm.literal quote body hbody).text.length)] := by
  have hlength : (ValueForm.literal quote body hbody).text.length = body.length + 2 := by
    rw [ValueForm.text, List.length_cons, List.length_append]
    rfl
  rw [ValueForm.text, List.cons_append, List.append_assoc] at h
  rw [hlength]
  exact run_literal hbody h

theorem run_object_text {body rest : Text} (hbody : ObjectBody body) {cursor : Cursor}
    (h : cursor.rest = (ValueForm.object body hbody).text ++ rest) :
    object.run cursor = [((cursor.offset + 1, body),
      cursor.advance (ValueForm.object body hbody).text.length)] := by
  have hlength : (ValueForm.object body hbody).text.length = body.length + 2 := by
    rw [ValueForm.text, List.length_cons, List.length_append]
    rfl
  rw [ValueForm.text, List.cons_append, List.append_assoc] at h
  rw [hlength]
  exact run_object hbody h

theorem run_literal_of_space {cursor : Cursor} {c : CodePoint} (hc : c ∈ cursor.rest.head?)
    (hspace : c.isSpace = true) : literal.run cursor = [] := by
  refine run_literal_of_not fun d hd => ?_
  cases Option.mem_unique hc hd
  exact ofPoint?_of_isSpace hspace

theorem run_object_of_space {cursor : Cursor} {c : CodePoint} (hc : c ∈ cursor.rest.head?)
    (hspace : c.isSpace = true) : object.run cursor = [] := by
  refine run_object_of_not fun hopen => ?_
  rw [hopen] at hc
  cases hc
  exact absurd hspace (by decide)

/-- No literal or object begins with whitespace. -/
theorem ValueForm.head_not_space (value : ValueForm) (rest : Text) :
    ∀ c ∈ (value.text ++ rest).head?, c.isSpace = false := by
  cases value with
  | literal quote body hbody =>
    rintro c ⟨⟩
    cases quote <;> decide
  | object body hbody =>
    rintro c ⟨⟩
    decide

namespace ItemForm

/-- An item is read in one way up to its comma. -/
theorem run_itemContent (form : ItemForm) {cursor : Cursor} {rest : Text}
    (h : cursor.rest = form.keyText ++ (form.value.text ++ rest)) :
    (itemContent form.kind).run cursor =
      [(form.content cursor.offset, cursor.advance (form.keyText.length + form.value.text.length))] := by
  obtain ⟨key, value, comma, hcomma⟩ := form
  cases key with
  | none =>
    have hlength : keyText ⟨none, value, comma, hcomma⟩ = [] := rfl
    rw [hlength, List.length_nil, Nat.zero_add]
    cases value with
    | literal quote body hbody => exact run_bind_of_eq (run_literal_text hbody h) _
    | object body hbody => exact run_bind_of_eq (run_object_text hbody h) _
  | some key =>
    have hkey := Cursor.rest_advance_append h
    have hoffset := Cursor.offset_advance_append h
    rw [Cursor.advance_add]
    cases value with
    | literal quote body hbody =>
      refine (key.run_bind h (ValueForm.head_not_space _ _) fun between c hc hspace =>
        run_bind_of_nil (run_literal_of_space hc hspace) _).trans ?_
      refine (run_bind_of_eq (run_literal_text hbody hkey) _).trans ?_
      rw [run_pure, hoffset]
      rfl
    | object body hbody =>
      refine (key.run_bind h (ValueForm.head_not_space _ _) fun between c hc hspace =>
        run_bind_of_nil (run_object_of_space hc hspace) _).trans ?_
      refine (run_bind_of_eq (run_object_text hbody hkey) _).trans ?_
      rw [run_pure, hoffset]
      rfl

end ItemForm

/-! ## Commas -/

/-- No comma stands ahead on the line. -/
def NoComma (rest : Text) : Prop := (rest.dropWhile CodePoint.isBlank).head? ≠ some (',' : CodePoint)

theorem run_itemComma {cursor : Cursor} {blanks rest : Text} (hblanks : ∀ c ∈ blanks, c.isBlank = true)
    (h : cursor.rest = blanks ++ (',' : CodePoint) :: rest) :
    itemComma.run cursor = [(true, cursor.advance (blanks.length + 1)), (false, cursor)] := by
  have hcomma := Cursor.rest_advance_append h
  have hread : (do
      let _ ← longest fun c => c == ' ' || c == '\t'
      point ',').run cursor = [((), cursor.advance (blanks.length + 1))] := by
    refine (run_bind_of_eq (run_longest (p := CodePoint.isBlank) h hblanks ?_) _).trans ?_
    · rintro c ⟨⟩
      decide
    · rw [run_point hcomma, Cursor.advance_add]
  rw [itemComma, run_bind, run_optional, hread]
  rfl

theorem run_itemComma_of_noComma {cursor : Cursor} (h : NoComma cursor.rest) :
    itemComma.run cursor = [(false, cursor)] := by
  have hlongest : (longest CodePoint.isBlank).run cursor =
    [(cursor.rest.takeWhile CodePoint.isBlank,
      cursor.advance (cursor.rest.takeWhile CodePoint.isBlank).length)] := rfl
  have hread : (do
      let _ ← longest fun c => c == ' ' || c == '\t'
      point ',').run cursor = [] := by
    refine (run_bind_of_eq hlongest _).trans (run_point_of_ne ?_)
    rw [Cursor.rest_advance_append List.takeWhile_append_dropWhile.symm]
    exact h
  rw [itemComma, run_bind, run_optional, hread]
  rfl

/-! ## Reading items -/

/-- An item is read back where no comma could be taken for its own. -/
theorem ItemForm.first?_item (form : ItemForm) {cursor : Cursor} {rest : Text}
    (h : cursor.rest = form.text ++ rest) (hrest : form.comma = none → NoComma rest) :
    (item form.kind).first? cursor =
      some ((form.content cursor.offset, form.comma.isSome), cursor.advance form.text.length) := by
  have hcontent : cursor.rest = form.keyText ++ (form.value.text ++ (form.commaText ++ rest)) := by
    rw [h, text]
    simp only [List.append_assoc]
  have hlength : form.text.length =
      form.keyText.length + form.value.text.length + form.commaText.length := by
    simp only [text, List.length_append]
    omega
  have hbehind : (cursor.advance (form.keyText.length + form.value.text.length)).rest =
      form.commaText ++ rest := by
    rw [Cursor.rest_advance, hcontent, ← List.append_assoc]
    exact List.drop_left' List.length_append
  rw [first?, item, run_bind_of_eq (form.run_itemContent hcontent), run_bind, hlength,
    Cursor.advance_add cursor (form.keyText.length + form.value.text.length)]
  cases hcomma : form.comma with
  | none =>
    have htext : form.commaText = [] := by rw [commaText, hcomma]; rfl
    rw [htext, List.nil_append] at hbehind
    rw [run_itemComma_of_noComma (by rw [hbehind]; exact hrest hcomma), htext]
    rfl
  | some blanks =>
    have htext : form.commaText = blanks ++ [(',' : CodePoint)] := by rw [commaText, hcomma]; rfl
    rw [htext, List.append_assoc] at hbehind
    rw [run_itemComma (form.comma_blank blanks hcomma) hbehind, htext, List.length_append]
    rfl

theorem exists_of_mem_quotedKey {raw : Text} {cursor behind : Cursor}
    (h : (raw, behind) ∈ quotedKey.run cursor) : IsKey raw ∧ cursor.rest = raw ++ behind.rest := by
  obtain ⟨l, between, hl, hbehind⟩ := mem_run_bind.1 h
  obtain ⟨rfl, rfl⟩ := mem_run_pure.1 hbehind
  obtain ⟨hbody, hrest⟩ := exists_of_mem_literal hl
  refine ⟨.quoted hbody, ?_⟩
  rw [hrest]
  simp

theorem exists_of_mem_bareKey {raw : Text} {cursor behind : Cursor}
    (h : (raw, behind) ∈ bareKey.run cursor) : IsKey raw ∧ cursor.rest = raw ++ behind.rest := by
  obtain ⟨c, between, hc, h⟩ := mem_run_bind.1 h
  obtain ⟨rest, last, hrest, hlast⟩ := mem_run_bind.1 h
  obtain ⟨rfl, rfl⟩ := mem_run_pure.1 hlast
  obtain ⟨hstart, hcursor⟩ := eq_of_mem_satisfying hc
  obtain ⟨hpart, hbetween⟩ := eq_of_mem_longest hrest
  refine ⟨.bare hstart hpart, ?_⟩
  rw [hcursor, hbetween]
  rfl

/-- What is read as a key with its colon has the form of one. -/
theorem exists_of_mem_itemKey {raw : Text} {cursor behind : Cursor}
    (h : (raw, behind) ∈ itemKey.run cursor) :
    ∃ key : KeyForm, key.raw = raw ∧ cursor.rest = key.text ++ behind.rest := by
  obtain ⟨raw', c₁, hraw, h⟩ := mem_run_bind.1 h
  obtain ⟨⟨⟩, c₂, hbefore, h⟩ := mem_run_bind.1 h
  obtain ⟨⟨⟩, c₃, hcolon, h⟩ := mem_run_bind.1 h
  obtain ⟨⟨⟩, c₄, hbehind, h⟩ := mem_run_bind.1 h
  obtain ⟨rfl, rfl⟩ := mem_run_pure.1 h
  obtain ⟨hkey, hrest⟩ : IsKey raw ∧ cursor.rest = raw ++ c₁.rest :=
    (List.mem_append.1 hraw).elim exists_of_mem_quotedKey exists_of_mem_bareKey
  obtain ⟨before, hbefore, hrest₁⟩ := exists_of_mem_many hbefore
  obtain ⟨blanks, hblanks, hrest₃⟩ := exists_of_mem_many hbehind
  refine ⟨⟨raw, before, blanks, hkey, hbefore, hblanks⟩, rfl, ?_⟩
  rw [hrest, hrest₁, eq_of_mem_point hcolon, hrest₃]
  simp [KeyForm.text]

theorem exists_of_mem_object {found : Nat × Text} {cursor behind : Cursor}
    (h : (found, behind) ∈ object.run cursor) :
    ∃ (body : Text) (hbody : ObjectBody body),
      cursor.rest = (ValueForm.object body hbody).text ++ behind.rest := by
  obtain ⟨⟨⟩, between, hopen, h⟩ := mem_run_bind.1 h
  have hrest := eq_of_mem_point hopen
  dsimp only at h
  split at h
  · cases h
  · next n hn =>
    cases List.mem_singleton.1 h
    obtain ⟨body, rest, hsplit, rfl, -, hagain⟩ := objectBody?_again hn
    refine ⟨body, hagain, ?_⟩
    rw [hrest, Cursor.rest_advance, hsplit]
    simp [ValueForm.text]

/-- What is read as an item up to its comma has the form of one. -/
theorem exists_of_mem_itemContent {kind : ItemKind} {content : Except Failure ItemContent}
    {cursor behind : Cursor} (h : (content, behind) ∈ (itemContent kind).run cursor) :
    ∃ form : ItemForm, form.comma = none ∧ form.kind = kind ∧
      cursor.rest = form.keyText ++ (form.value.text ++ behind.rest) := by
  have hnone : ∀ blanks ∈ (none : Option Text), ∀ c ∈ blanks, c.isBlank = true := by
    rintro blanks ⟨⟩
  cases kind with
  | entry =>
    obtain ⟨raw, between, hkey, h⟩ := mem_run_bind.1 h
    obtain ⟨l, last, hl, h⟩ := mem_run_bind.1 h
    cases (mem_run_pure.1 h).2
    obtain ⟨key, rfl, hrest⟩ := exists_of_mem_itemKey hkey
    obtain ⟨hbody, hbetween⟩ := exists_of_mem_literal hl
    refine ⟨⟨some key, .literal l.quote l.raw hbody, none, hnone⟩, rfl, rfl, ?_⟩
    rw [hrest, hbetween]
    simp [ItemForm.keyText, ValueForm.text]
  | record =>
    obtain ⟨found, last, hfound, h⟩ := mem_run_bind.1 h
    cases (mem_run_pure.1 h).2
    obtain ⟨body, hbody, hrest⟩ := exists_of_mem_object hfound
    exact ⟨⟨none, .object body hbody, none, hnone⟩, rfl, rfl, hrest⟩
  | literal =>
    obtain ⟨l, last, hl, h⟩ := mem_run_bind.1 h
    cases (mem_run_pure.1 h).2
    obtain ⟨hbody, hrest⟩ := exists_of_mem_literal hl
    refine ⟨⟨none, .literal l.quote l.raw hbody, none, hnone⟩, rfl, rfl, ?_⟩
    rw [hrest]
    simp [ItemForm.keyText, ValueForm.text]
  | keyedRecord =>
    obtain ⟨raw, between, hkey, h⟩ := mem_run_bind.1 h
    obtain ⟨found, last, hfound, h⟩ := mem_run_bind.1 h
    cases (mem_run_pure.1 h).2
    obtain ⟨key, rfl, hrest⟩ := exists_of_mem_itemKey hkey
    obtain ⟨body, hbody, hbetween⟩ := exists_of_mem_object hfound
    refine ⟨⟨some key, .object body hbody, none, hnone⟩, rfl, rfl, ?_⟩
    rw [hrest, hbetween]
    rfl

/-- Whatever stands behind an item, either there is a comma of it or none. -/
theorem comma_or_noComma (rest : Text) : NoComma rest ∨
    ∃ blanks behind : Text, (∀ c ∈ blanks, c.isBlank = true) ∧ rest = blanks ++ (',' : CodePoint) :: behind := by
  by_cases hcomma : (rest.dropWhile CodePoint.isBlank).head? = some (',' : CodePoint)
  · obtain ⟨behind, hbehind⟩ := List.head?_eq_some_iff.1 hcomma
    refine .inr ⟨rest.takeWhile CodePoint.isBlank, behind, fun c hc => List.mem_takeWhile_imp hc, ?_⟩
    rw [← hbehind, List.takeWhile_append_dropWhile]
  · exact .inl hcomma

/-- What is read as an item has the form of one. -/
theorem exists_of_first?_item {kind : ItemKind} {found : Except Failure ItemContent × Bool}
    {cursor behind : Cursor} (h : (item kind).first? cursor = some (found, behind)) :
    ∃ (form : ItemForm) (rest : Text), form.kind = kind ∧ cursor.rest = form.text ++ rest ∧
      (form.comma = none → NoComma rest) := by
  obtain ⟨content, between, hcontent, -⟩ := mem_run_bind.1 (mem_run_of_first? h)
  obtain ⟨⟨key, value, comma, hcomma⟩, rfl, rfl, hrest⟩ := exists_of_mem_itemContent hcontent
  rcases comma_or_noComma between.rest with hno | ⟨blanks, rest, hblanks, hbetween⟩
  · refine ⟨⟨key, value, none, hcomma⟩, between.rest, rfl, ?_, fun _ => hno⟩
    rw [hrest, ItemForm.text, List.append_assoc, List.append_assoc]
    rfl
  · refine ⟨⟨key, value, some blanks, by rintro _ ⟨⟩; exact hblanks⟩, rest, rfl, ?_, fun h => by cases h⟩
    rw [hrest, hbetween, ItemForm.text, List.append_assoc, List.append_assoc]
    simp [ItemForm.keyText, ItemForm.commaText]

end Bilingual
