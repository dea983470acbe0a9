import Bilingual.Block.Render
import Bilingual.Proofs.Block.Layout

set_option autoImplicit false

/-! # New items are read back

An item that is rendered for a block (`NewItem.render`) has the form of an item, and wherever it stands it holds
the key and the texts it was rendered from (`NewItem.exists_form`). Keys and texts may be any text at all: what
could end a literal or an object early is escaped or stands between quotes. -/

namespace Bilingual

open Recogniser

/-- Texts for a new item of a block. -/
inductive NewItem where
  | entry (key value : Text)
  | record (values : List (Text × Text))
  | literal (value : Text)
  | keyedRecord (key : Text) (values : List (Text × Text))

namespace NewItem

/-- The kind of a new item. -/
def kind : NewItem → ItemKind
  | entry .. => .entry
  | record .. => .record
  | literal .. => .literal
  | keyedRecord .. => .keyedRecord

/-- The fields of a new record. -/
def fields : NewItem → List (Text × Text)
  | record values | keyedRecord _ values => values
  | _ => []

/-- The names of the fields are identifiers, each used once. -/
def WellNamed (new : NewItem) : Prop :=
  (new.fields.map Prod.fst).Nodup ∧ ∀ field ∈ new.fields, field.1.isIdentifier = true

/-- The source of a new item in a block of a text. -/
def render (parsed : ParsedBlock) (text : Text) : NewItem → Text
  | entry key value => parsed.renderEntry key value
  | record values => parsed.renderRecord values
  | literal value => parsed.quote.render value
  | keyedRecord key values => parsed.renderKeyedRecord text key values

/-- The fields of a record have the given names and are literals that stand for the given texts, in order. -/
def HeldBy (values : List (Text × Text)) (fields : List RecordField) : Prop :=
  List.Forall₂ (fun value field => field.name = value.1 ∧
    ∃ l, field.literal = some l ∧ l.value = .ok value.2) values fields

/-- The item holds the key and the texts of the new one. -/
def Holds : NewItem → ItemContent → Prop
  | entry key value, .entry k l => k.value = key ∧ l.value = .ok value
  | record values, .record fields => HeldBy values fields
  | literal value, .literal l => l.value = .ok value
  | keyedRecord key values, .keyedRecord k fields => k.value = key ∧ HeldBy values fields
  | _, _ => False

end NewItem

/-! ## Keys -/

theorem isKey_render (quote : Quote) (key : Text) : IsKey (quote.render key) := by
  have h := IsKey.quoted (quote.encloses_escape key)
  rwa [← List.singleton_append, ← List.append_assoc] at h

theorem ofRaw_render (quote : Quote) (key : Text) :
    ItemKey.ofRaw (quote.render key) = .ok ⟨quote.render key, key⟩ := by
  have hbody : (quote.render key).tail.dropLast = quote.escape key := by
    simp [Quote.render]
  have hhead : (quote.render key).head?.bind Quote.ofPoint? = some quote := by
    simp [Quote.render]
  rw [ItemKey.ofRaw, hhead, hbody, Literal.decode_escape]
  rfl

theorem isKeyPart_of_isIdentifier {c : CodePoint} (h : c.isIdentifier = true) : c.isKeyPart = true := by
  rw [CodePoint.isKeyPart, h]
  rfl

/-- A key is rendered so that it is read back. -/
theorem ParsedBlock.renderKey_spec (parsed : ParsedBlock) (key : Text) :
    IsKey (parsed.renderKey key) ∧
      ItemKey.ofRaw (parsed.renderKey key) = .ok ⟨parsed.renderKey key, key⟩ := by
  unfold ParsedBlock.renderKey
  split
  · exact ⟨isKey_render _ _, ofRaw_render _ _⟩
  · split
    · exact ⟨isKey_render _ _, ofRaw_render _ _⟩
    · split
      · next hkey =>
        cases key with
        | nil => cases hkey
        | cons c rest =>
          obtain ⟨hc, hrest⟩ := Bool.and_eq_true_iff.1 hkey
          refine ⟨.bare hc fun d hd => isKeyPart_of_isIdentifier (List.all_eq_true.1 hrest d hd), ?_⟩
          rw [ItemKey.ofRaw, List.head?_cons, Option.bind_some, ofPoint?_of_isIdentifierStart hc]
          rfl
      · exact ⟨isKey_render _ _, ofRaw_render _ _⟩

/-! ## The bodies of new records -/

/-- A text that the body of an object may go on behind, whatever comes there. -/
def ObjectPiece (t : Text) : Prop :=
  ∀ rest, objectBody? 0 (t ++ rest) = (objectBody? 0 rest).map (· + t.length)

theorem objectPiece_nil : ObjectPiece [] := by
  intro rest
  simp

theorem ObjectPiece.append {t other : Text} (h : ObjectPiece t) (hother : ObjectPiece other) :
    ObjectPiece (t ++ other) := by
  intro rest
  rw [List.append_assoc, h, hother, Option.map_map, List.length_append]
  congr 1
  funext n
  show n + other.length + t.length = _
  omega

theorem objectPiece_cons {c : CodePoint} {t : Text} (hclose : c ≠ '}') (hopen : c ≠ '{')
    (hquote : Quote.ofPoint? c = none) (h : ObjectPiece t) : ObjectPiece (c :: t) := by
  intro rest
  rw [List.cons_append, objectBody?, if_neg hclose, if_neg hopen, hquote]
  dsimp only
  rw [h, Option.map_map]
  rfl

theorem objectBody?_skip {n : Nat} {t : Text} (h : n ≤ t.length) :
    objectBody? n t = (objectBody? 0 (t.drop n)).map (· + n) := by
  induction n generalizing t with
  | zero => simp
  | succ n ih =>
    cases t with
    | nil => cases h
    | cons c rest =>
      rw [objectBody?, ih (Nat.le_of_succ_le_succ h), List.drop_succ_cons, Option.map_map]
      rfl

theorem objectPiece_literal {quote : Quote} {body : Text} (hbody : quote.Encloses body) :
    ObjectPiece (quote.point :: (body ++ [quote.point])) := by
  intro rest
  have hclose : quote.point ≠ '}' := by cases quote <;> decide
  have hopen : quote.point ≠ '{' := by cases quote <;> decide
  rw [List.cons_append, List.append_assoc, List.singleton_append, objectBody?, if_neg hclose, if_neg hopen,
    Quote.ofPoint?_point]
  dsimp only
  rw [hbody rest]
  dsimp only
  have hdrop : (body ++ quote.point :: rest).drop (body.length + 1) = rest := by
    rw [← List.singleton_append, ← List.append_assoc]
    exact List.drop_left' List.length_append
  rw [objectBody?_skip (by simp), hdrop, Option.map_map, List.length_cons, List.length_append]
  rfl

theorem ObjectPiece.body {t : Text} (h : ObjectPiece t) : ObjectBody t := by
  intro behind
  rw [h, objectBody?, if_pos rfl, Option.map_some, Nat.zero_add]

/-- A text of code points of a kind that neither braces nor quotes are of. -/
theorem objectPiece_of_forall {p : CodePoint → Bool} {t : Text} (ht : ∀ c ∈ t, p c = true)
    (hclose : p '}' = false) (hopen : p '{' = false) (hquote : ∀ quote : Quote, p quote.point = false) :
    ObjectPiece t := by
  induction t with
  | nil => exact objectPiece_nil
  | cons c rest ih =>
    obtain ⟨hc, hrest⟩ := List.forall_mem_cons.1 ht
    refine objectPiece_cons ?_ ?_ (ofPoint?_eq_none hc hquote) (ih hrest)
    · rintro rfl
      exact absurd hc (by rw [hclose]; exact Bool.false_ne_true)
    · rintro rfl
      exact absurd hc (by rw [hopen]; exact Bool.false_ne_true)

theorem objectPiece_of_spaces {blanks : Text} (h : ∀ c ∈ blanks, c.isSpace = true) : ObjectPiece blanks :=
  objectPiece_of_forall h (by decide) (by decide) fun quote => by cases quote <;> decide

theorem isIdentifier_cons {c : CodePoint} {rest : Text} (h : Text.isIdentifier (c :: rest) = true) :
    c.isIdentifierStart = true ∧ ∀ d ∈ rest, d.isIdentifier = true := by
  obtain ⟨hc, hrest⟩ := Bool.and_eq_true_iff.1 h
  exact ⟨hc, List.all_eq_true.1 hrest⟩

theorem forall_isIdentifier {name : Text} (h : name.isIdentifier = true) :
    ∀ c ∈ name, c.isIdentifier = true := by
  cases name with
  | nil => exact List.forall_mem_nil _
  | cons c rest =>
    obtain ⟨hc, hrest⟩ := isIdentifier_cons h
    exact List.forall_mem_cons.2 ⟨CodePoint.isIdentifier_of_isIdentifierStart hc, hrest⟩

/-! ## The fields of new records -/

/-- A field of a new record. -/
def fieldText (quote : Quote) (field : Text × Text) : Text := field.1 ++ ": " ++ quote.render field.2

theorem render_eq (quote : Quote) (value : Text) :
    quote.render value = quote.point :: (quote.escape value ++ [quote.point]) := by
  rw [Quote.render, List.append_assoc]
  rfl

theorem objectPiece_fieldText (quote : Quote) {field : Text × Text} (h : field.1.isIdentifier = true) :
    ObjectPiece (fieldText quote field) := by
  have hname : ObjectPiece field.1 := objectPiece_of_forall (forall_isIdentifier h) (by decide) (by decide)
    fun quote => by cases quote <;> decide
  have hcolon : ObjectPiece ": " := objectPiece_cons (by decide) (by decide) (by decide)
    (objectPiece_cons (by decide) (by decide) (by decide) objectPiece_nil)
  rw [fieldText, render_eq]
  exact (hname.append hcolon).append (objectPiece_literal (quote.encloses_escape _))

theorem first?_fieldEnd {cursor : Cursor}
    (h : cursor.rest = [] ∨ ∃ more, cursor.rest = (',' : CodePoint) :: more) :
    fieldEnd.first? cursor = some ((), cursor) := by
  rcases h with h | ⟨more, h⟩
  · have hahead : (ahead (point ',')).run cursor = [] := by
      rw [ahead]
      dsimp only
      rw [run_point_of_ne (by rw [h]; simp)]
      rfl
    show ((ahead (point ',')).run cursor ++ atEnd.run cursor).head? = _
    simp [hahead, atEnd, h]
  · refine first?_orElse ?_
    rw [first?, ahead]
    dsimp only
    rw [run_point h]
    rfl

/-- A field of a new record is read back in front of a comma or at the end of the record. -/
theorem first?_fieldText (quote : Quote) {field : Text × Text} (h : field.1.isIdentifier = true)
    {cursor : Cursor} {rest : Text} (hcursor : cursor.rest = fieldText quote field ++ rest)
    (hrest : rest = [] ∨ ∃ more, rest = (',' : CodePoint) :: more) :
    ∃ found l, recordField.first? cursor = some (found, cursor.advance (fieldText quote field).length) ∧
      found.name = field.1 ∧ found.literal = some l ∧ l.value = .ok field.2 := by
  obtain ⟨name, value⟩ := field
  cases name with
  | nil => cases h
  | cons c name =>
  obtain ⟨hc, hname⟩ := isIdentifier_cons h
  -- what lies ahead of the name, the colon, the blank and the literal
  have h₀ : cursor.rest = [c] ++ (name ++ ([(':' : CodePoint)] ++ ([(' ' : CodePoint)] ++
      ((quote.point :: (quote.escape value ++ [quote.point])) ++ rest)))) := by
    rw [hcursor, fieldText, render_eq]
    simp
    rfl
  have h₁ := Cursor.rest_advance_append h₀
  have h₂ := Cursor.rest_advance_append h₁
  have h₃ := Cursor.rest_advance_append h₂
  have h₄ := Cursor.rest_advance_append h₃
  have h₅ := Cursor.rest_advance_append h₄
  have hspace : ∀ d ∈ rest.head?, d.isSpace = false := by
    rcases hrest with rfl | ⟨more, rfl⟩
    · rintro d ⟨⟩
    · rintro d ⟨⟩
      decide
  have hlength : (fieldText quote (c :: name, value)).length =
      1 + (name.length + (1 + (1 + (quote.point :: (quote.escape value ++ [quote.point])).length))) := by
    simp only [fieldText, render_eq, List.length_append, List.length_cons, List.length_nil]
    show _ + 2 + _ = _
    omega
  have hfound : ∃ offset, recordField.first? cursor =
      some (⟨c :: name, quote.render value, some (.ofBody offset quote (quote.escape value))⟩,
        cursor.advance (fieldText quote (c :: name, value)).length) := by
    refine ⟨((((cursor.advance 1).advance name.length).advance 1).advance 1).offset, ?_⟩
    refine first?_bind (first?_of_run (run_satisfying h₀ hc)) ?_
    refine first?_bind (first?_of_run (run_longest h₁ hname (by rintro d ⟨⟩; decide))) ?_
    refine first?_bind (first?_of_run (run_longest (t := []) h₂ (List.forall_mem_nil _)
      (by rintro d ⟨⟩; decide))) ?_
    refine first?_bind (first?_of_run (run_point h₂)) ?_
    refine first?_bind (first?_of_run (run_longest h₃ (by decide) (by rintro d ⟨⟩; cases quote <;> decide))) ?_
    refine first?_orElse ?_
    refine first?_bind (first?_of_run (run_literal_text (quote.encloses_escape value) h₄)) ?_
    refine first?_bind (first?_of_run (run_longest (t := []) h₅ (List.forall_mem_nil _) hspace)) ?_
    refine first?_bind (first?_fieldEnd (h₅.symm ▸ hrest)) ?_
    rw [hlength]
    simp only [Cursor.advance_add]
    rfl
  obtain ⟨offset, hfound⟩ := hfound
  exact ⟨_, _, hfound, rfl, rfl, Literal.decode_escape quote value⟩

theorem recordField_of_not_start {cursor : Cursor}
    (h : ∀ c ∈ cursor.rest.head?, c.isIdentifierStart = false) : recordField.first? cursor = none := by
  have hnil : recordField.run cursor = [] := run_bind_of_nil (run_satisfying_of_not h) _
  rw [first?, hnil]
  rfl

/-- What may stand between fields: a comma and then nothing that begins a field. -/
def IsSeparator (t : Text) : Prop :=
  (∃ more, t = (',' : CodePoint) :: more) ∧ ∀ c ∈ t, c.isIdentifierStart = false

theorem allFrom_separator {cursor : Cursor} {t rest : Text} (ht : ∀ c ∈ t, c.isIdentifierStart = false)
    (h : cursor.rest = t ++ rest) : recordField.allFrom 0 cursor cursor.rest =
      recordField.allFrom 0 (cursor.advance t.length) (cursor.advance t.length).rest := by
  refine allFrom_append h ?_
  rintro between ⟨c, hc, hhead⟩
  refine recordField_of_not_start fun d hd => ?_
  rw [hhead] at hd
  cases hd
  exact ht c hc

/-- The fields of a new record are read back one after the other. -/
theorem heldBy_allFrom (quote : Quote) {separator last : Text} (hseparator : IsSeparator separator)
    (hlast : last = [] ∨ IsSeparator last) {values : List (Text × Text)}
    (hnames : ∀ field ∈ values, field.1.isIdentifier = true) {cursor : Cursor}
    (h : cursor.rest = Text.joinWith separator (values.map (fieldText quote)) ++ last) :
    NewItem.HeldBy values ((recordField.allFrom 0 cursor cursor.rest).map fun place => place.2.1) := by
  have hlast' : ∀ c ∈ last, c.isIdentifierStart = false := by
    rcases hlast with rfl | hlast
    · exact List.forall_mem_nil _
    · exact hlast.2
  induction values generalizing cursor with
  | nil =>
    rw [allFrom_separator hlast' (h.trans (List.append_nil _).symm), Cursor.rest_advance, h]
    show List.Forall₂ _ [] (List.map _ (recordField.allFrom 0 _ (List.drop last.length last)))
    rw [List.drop_length]
    exact .nil
  | cons field values ih =>
    obtain ⟨hname, hnames⟩ := List.forall_mem_cons.1 hnames
    -- behind the field comes the end of the record or another field
    obtain ⟨rest, hrest, hbehind, hmore⟩ : ∃ rest, cursor.rest = fieldText quote field ++ rest ∧
        (rest = [] ∨ ∃ more, rest = (',' : CodePoint) :: more) ∧ ∀ between : Cursor, between.rest = rest →
          NewItem.HeldBy values
            ((recordField.allFrom 0 between between.rest).map fun place => place.2.1) := by
      cases values with
      | nil =>
        refine ⟨last, h, hlast.imp_right And.left, fun between hbetween => ?_⟩
        exact ih hnames hbetween
      | cons other values =>
        refine ⟨separator ++ (Text.joinWith separator ((other :: values).map (fieldText quote)) ++ last),
          ?_, .inr ?_, fun between hbetween => ?_⟩
        · rw [h]
          simp [Text.joinWith]
        · obtain ⟨more, rfl⟩ := hseparator.1
          exact ⟨_, rfl⟩
        · rw [allFrom_separator hseparator.2 hbetween]
          exact ih hnames (Cursor.rest_advance_append hbetween)
    obtain ⟨found, l, hfound, hfoundName, hliteral, hvalue⟩ :=
      first?_fieldText quote hname hrest hbehind
    have hnonempty : fieldText quote field ≠ [] := by
      rw [fieldText, render_eq]
      simp
    rw [allFrom_found hnonempty hrest hfound, List.map_cons]
    exact .cons ⟨hfoundName, l, hliteral, hvalue⟩ (hmore _ (Cursor.rest_advance_append hrest))

/-! ## The texts of new records -/

theorem trim_append {before core behind : Text} (hbefore : ∀ c ∈ before, c.isSpace = true)
    (hbehind : ∀ c ∈ behind, c.isSpace = true) (hhead : ∀ c ∈ core.head?, c.isSpace = false)
    (hlast : ∀ c ∈ core.getLast?, c.isSpace = false) :
    Text.trim (before ++ (core ++ behind)) = core := by
  have hdrop : ∀ t rest : Text, (∀ c ∈ t, c.isSpace = true) → (∀ c ∈ rest.head?, c.isSpace = false) →
      (t ++ rest).dropWhile CodePoint.isSpace = rest := by
    intro t rest ht hrest
    rw [List.dropWhile_append_of_pos ht]
    cases rest with
    | nil => rfl
    | cons c rest => exact List.dropWhile_cons_of_neg (by simp [hrest c rfl])
  have hleft : Text.trimLeft (before ++ (core ++ behind)) = core ++ behind ∨ core = [] ∧
      Text.trimLeft (before ++ (core ++ behind)) = [] := by
    cases core with
    | nil =>
      refine .inr ⟨rfl, ?_⟩
      have hall := hdrop _ [] (List.forall_mem_append.2 ⟨hbefore, hbehind⟩) (by rintro c ⟨⟩)
      rwa [List.append_nil] at hall
    | cons c core => exact .inl (hdrop _ _ hbefore (by rintro d ⟨⟩; exact hhead c rfl))
  rw [Text.trim, Text.trimRight]
  rcases hleft with hleft | ⟨rfl, hleft⟩
  · rw [hleft, List.reverse_append, hdrop _ _ (fun c hc => hbehind c (List.mem_reverse.1 hc)),
      List.reverse_reverse]
    rw [List.head?_reverse]
    exact hlast
  · rw [hleft]
    rfl

theorem recordFields_append (offset : Nat) {before core behind : Text}
    (hbefore : ∀ c ∈ before, c.isSpace = true) (hbehind : ∀ c ∈ behind, c.isSpace = true)
    (hhead : ∀ c ∈ core.head?, c.isSpace = false) (hlast : ∀ c ∈ core.getLast?, c.isSpace = false) :
    ∃ cursor : Cursor, cursor.rest = core ∧ recordFields offset (before ++ (core ++ behind)) =
      (recordField.allFrom 0 cursor cursor.rest).map fun place => place.2.1 := by
  refine ⟨⟨offset + (before ++ (core ++ behind)).leadingSpace.length, none, core⟩, rfl, ?_⟩
  rw [recordFields, trim_append hbefore hbehind hhead hlast]

theorem joinWith_cons (separator t : Text) (rest : List Text) : Text.joinWith separator (t :: rest) =
    t ++ if rest = [] then [] else separator ++ Text.joinWith separator rest := by
  cases rest with
  | nil => simp [Text.joinWith]
  | cons u rest => simp [Text.joinWith]

theorem head_joinWith_fieldText (quote : Quote) (separator last : Text) {values : List (Text × Text)}
    (hnames : ∀ field ∈ values, field.1.isIdentifier = true) (hlast : values = [] → last = []) :
    ∀ c ∈ (Text.joinWith separator (values.map (fieldText quote)) ++ last).head?, c.isSpace = false := by
  cases values with
  | nil =>
    rw [hlast rfl]
    rintro c ⟨⟩
  | cons field values =>
    obtain ⟨hname, -⟩ := List.forall_mem_cons.1 hnames
    obtain ⟨_ | ⟨d, name⟩, value⟩ := field
    · cases hname
    rw [List.map_cons, joinWith_cons]
    rintro c ⟨⟩
    exact CodePoint.isSpace_of_isIdentifierStart (isIdentifier_cons hname).1

theorem getLast_joinWith_fieldText (quote : Quote) (separator : Text) (values : List (Text × Text)) :
    ∀ c ∈ (Text.joinWith separator (values.map (fieldText quote))).getLast?, c.isSpace = false := by
  induction values with
  | nil => rintro c ⟨⟩
  | cons field values ih =>
    intro c hc
    rw [List.map_cons, joinWith_cons] at hc
    cases values with
    | nil =>
      rw [List.map_nil, if_pos rfl, List.append_nil, fieldText, render_eq, ← List.cons_append,
        ← List.append_assoc, List.getLast?_concat] at hc
      cases hc
      cases quote <;> decide
    | cons other values =>
      rw [if_neg (by simp)] at hc
      rcases List.eq_nil_or_concat (Text.joinWith separator ((other :: values).map (fieldText quote))) with
        hnil | ⟨init, d, hjoin⟩
      · rw [List.map_cons, joinWith_cons, fieldText, render_eq] at hnil
        simp at hnil
      · rw [List.concat_eq_append] at hjoin
        rw [hjoin, ← List.append_assoc, ← List.append_assoc, List.getLast?_concat] at hc
        exact ih c (by rw [hjoin, List.getLast?_concat]; exact hc)

/-- The body of a new record is read up to its end, and its fields are read back. -/
structure IsRecordBody (body : Text) (values : List (Text × Text)) : Prop where
  objectBody : ObjectBody body
  heldBy : ∀ offset, NewItem.HeldBy values (recordFields offset body)

theorem objectPiece_joinWith (quote : Quote) {separator : Text} (hseparator : ObjectPiece separator)
    {values : List (Text × Text)} (hnames : ∀ field ∈ values, field.1.isIdentifier = true) :
    ObjectPiece (Text.joinWith separator (values.map (fieldText quote))) := by
  induction values with
  | nil => exact objectPiece_nil
  | cons field values ih =>
    obtain ⟨hname, hnames⟩ := List.forall_mem_cons.1 hnames
    rw [List.map_cons, joinWith_cons]
    split
    · exact (objectPiece_fieldText quote hname).append objectPiece_nil
    · exact (objectPiece_fieldText quote hname).append (hseparator.append (ih hnames))

/-- Fields with separators between them and whitespace around are the body of a record. -/
theorem isRecordBody_of_join (quote : Quote) {before blanks last behind : Text}
    (hbefore : ∀ c ∈ before, c.isSpace = true) (hbehind : ∀ c ∈ behind, c.isSpace = true)
    (hblanks : ∀ c ∈ blanks, c.isSpace = true) {values : List (Text × Text)}
    (hnames : ∀ field ∈ values, field.1.isIdentifier = true)
    (hlast : last = [] ∨ values ≠ [] ∧ last = [(',' : CodePoint)]) :
    IsRecordBody (before ++ ((Text.joinWith ((',' : CodePoint) :: blanks) (values.map (fieldText quote)) ++ last)
      ++ behind)) values := by
  have hstart : ∀ c ∈ (',' : CodePoint) :: blanks, c.isIdentifierStart = false := by
    refine List.forall_mem_cons.2 ⟨by decide, fun c hc => ?_⟩
    cases hs : c.isIdentifierStart with
    | false => rfl
    | true => exact absurd (hblanks c hc) (by rw [CodePoint.isSpace_of_isIdentifierStart hs]; exact Bool.false_ne_true)
  have hcomma : ObjectPiece ((',' : CodePoint) :: blanks) :=
    objectPiece_cons (by decide) (by decide) (by decide) (objectPiece_of_spaces hblanks)
  constructor
  · have hlastPiece : ObjectPiece last := by
      rcases hlast with rfl | ⟨-, rfl⟩
      · exact objectPiece_nil
      · exact objectPiece_cons (by decide) (by decide) (by decide) objectPiece_nil
    exact ((objectPiece_of_spaces hbefore).append (((objectPiece_joinWith quote hcomma hnames).append
      hlastPiece).append (objectPiece_of_spaces hbehind))).body
  · intro offset
    have hhead := head_joinWith_fieldText quote ((',' : CodePoint) :: blanks) last hnames fun hnil =>
      hlast.elim id fun h => absurd hnil h.1
    have hend : ∀ c ∈ (Text.joinWith ((',' : CodePoint) :: blanks) (values.map (fieldText quote)) ++
        last).getLast?, c.isSpace = false := by
      rcases hlast with rfl | ⟨-, rfl⟩
      · rw [List.append_nil]
        exact getLast_joinWith_fieldText quote _ values
      · rw [List.getLast?_concat]
        rintro c ⟨⟩
        decide
    obtain ⟨cursor, hcursor, hfields⟩ := recordFields_append offset hbefore hbehind hhead hend
    rw [hfields]
    refine heldBy_allFrom quote ⟨⟨blanks, rfl⟩, hstart⟩ ?_ hnames hcursor
    exact hlast.imp_right fun h => ⟨⟨[], h.2⟩, by rw [h.2]; decide⟩

/-- The body of a new record on one line. -/
theorem isRecordBody_line (quote : Quote) {values : List (Text × Text)}
    (hnames : ∀ field ∈ values, field.1.isIdentifier = true) :
    IsRecordBody (" " ++ (Text.joinWith ", " (values.map (fieldText quote)) ++ " ")) values := by
  have hblank : ∀ c ∈ [(' ' : CodePoint)], c.isSpace = true := by decide
  have h := isRecordBody_of_join quote hblank hblank hblank hnames (.inl rfl)
  rw [List.append_nil] at h
  exact h

/-- Members on lines of their own, each with a comma, are members with separators between them. -/
theorem flatMap_line (blanks : Text) {members : List Text} (h : members ≠ []) :
    members.flatMap (fun member => blanks ++ member ++ [(',' : CodePoint)]) =
      blanks ++ (Text.joinWith ((',' : CodePoint) :: blanks) members ++ [(',' : CodePoint)]) := by
  induction members with
  | nil => exact absurd rfl h
  | cons member members ih =>
    rw [List.flatMap_cons, joinWith_cons]
    cases members with
    | nil => simp
    | cons other members =>
      rw [ih (List.cons_ne_nil _ _), if_neg (List.cons_ne_nil _ _)]
      simp

/-- The body of a new record with a line for each field. -/
theorem isRecordBody_lines (quote : Quote) {indent : Text} (hindent : ∀ c ∈ indent, c.isSpace = true)
    {values : List (Text × Text)} (hnames : ∀ field ∈ values, field.1.isIdentifier = true) :
    IsRecordBody (((values.map (fieldText quote)).flatMap fun member =>
      ("\n" ++ indent ++ ParsedBlock.indentStep ++ member ++ "," : Text)) ++ ("\n" ++ indent)) values := by
  have hline : ∀ c ∈ ("\n" ++ indent : Text), c.isSpace = true :=
    List.forall_mem_append.2 ⟨by decide, hindent⟩
  cases values with
  | nil =>
    have h := isRecordBody_of_join quote (List.forall_mem_nil _) hline (List.forall_mem_nil _) hnames (.inl rfl)
    exact h
  | cons field values =>
    have hstep : ∀ c ∈ ("\n" ++ indent ++ ParsedBlock.indentStep : Text), c.isSpace = true :=
      List.forall_mem_append.2 ⟨hline, by decide⟩
    have h := isRecordBody_of_join quote hstep hline hstep hnames (.inr ⟨List.cons_ne_nil _ _, rfl⟩)
    rw [← List.append_assoc, ← flatMap_line _ (by simp)] at h
    exact h

/-! ## New items -/

/-- The key of a new item with its colon and a blank. -/
def ParsedBlock.newKey (parsed : ParsedBlock) (key : Text) : KeyForm where
  raw := parsed.renderKey key
  before := []
  behind := [' ']
  isKey := (parsed.renderKey_spec key).1
  before_space := List.forall_mem_nil _
  behind_space := by decide

theorem ParsedBlock.text_newKey (parsed : ParsedBlock) (key : Text) :
    (parsed.newKey key).text = parsed.renderKey key ++ ": " := rfl

theorem ParsedBlock.ofRaw_newKey (parsed : ParsedBlock) (key : Text) :
    ItemKey.ofRaw (parsed.newKey key).raw = .ok ⟨parsed.renderKey key, key⟩ :=
  (parsed.renderKey_spec key).2

namespace NewItem

/-- A record of a new item, on one line or with a line for each field. -/
theorem exists_recordBody (parsed : ParsedBlock) (text key : Text) (values : List (Text × Text))
    (hnames : ∀ field ∈ values, field.1.isIdentifier = true)
    (hindent : ∀ c ∈ parsed.itemIndent, c.isSpace = true) :
    ∃ body, IsRecordBody body values ∧ parsed.renderKeyedRecord text key values =
      parsed.renderKey key ++ ": " ++ ('{' :: (body ++ [('}' : CodePoint)]) : Text) := by
  unfold ParsedBlock.renderKeyedRecord
  dsimp only
  split_ifs
  · refine ⟨_, isRecordBody_lines parsed.quote hindent hnames, ?_⟩
    simp only [List.append_assoc]
    rfl
  · refine ⟨_, isRecordBody_line parsed.quote hnames, ?_⟩
    simp only [List.append_assoc]
    rfl

/-- A new item has the form of an item, and wherever it stands it holds its key and texts. -/
theorem exists_form (new : NewItem) (parsed : ParsedBlock) (text : Text) (hnamed : new.WellNamed)
    (hindent : ∀ c ∈ parsed.itemIndent, c.isSpace = true) :
    ∃ form : ItemForm, form.comma = none ∧ form.kind = new.kind ∧ form.text = new.render parsed text ∧
      ∀ offset, ∃ content, form.content offset = .ok content ∧ new.Holds content := by
  have hnone : ∀ blanks ∈ (none : Option Text), ∀ c ∈ blanks, c.isBlank = true := by
    rintro blanks ⟨⟩
  cases new with
  | entry key value =>
    refine ⟨⟨some (parsed.newKey key), .literal _ _ (parsed.quote.encloses_escape value), none, hnone⟩,
      rfl, rfl, ?_, fun offset => ⟨.entry _ _, congrArg (Except.map _) (parsed.ofRaw_newKey key), ?_⟩⟩
    · show _ ++ _ = parsed.renderKey key ++ ": " ++ parsed.quote.render value
      rw [render_eq, ← parsed.text_newKey]
      simp [ItemForm.keyText, ItemForm.commaText, ValueForm.text]
    · exact ⟨rfl, Literal.decode_escape _ _⟩
  | record values =>
    have hbody := isRecordBody_line parsed.quote hnamed.2
    refine ⟨⟨none, .object _ hbody.objectBody, none, hnone⟩, rfl, rfl, ?_, fun offset =>
      ⟨.record _, rfl, hbody.heldBy _⟩⟩
    show _ = "\x7b " ++ Text.joinWith ", " (values.map (fieldText parsed.quote)) ++ " \x7d"
    simp [ItemForm.text, ItemForm.keyText, ItemForm.commaText, ValueForm.text]
    rfl
  | literal value =>
    refine ⟨⟨none, .literal _ _ (parsed.quote.encloses_escape value), none, hnone⟩, rfl, rfl, ?_,
      fun offset => ⟨.literal _, rfl, Literal.decode_escape _ _⟩⟩
    show _ = parsed.quote.render value
    rw [render_eq]
    simp [ItemForm.text, ItemForm.keyText, ItemForm.commaText, ValueForm.text]
  | keyedRecord key values =>
    obtain ⟨body, hbody, hrender⟩ := exists_recordBody parsed text key values hnamed.2 hindent
    refine ⟨⟨some (parsed.newKey key), .object _ hbody.objectBody, none, hnone⟩, rfl, rfl, ?_,
      fun offset => ⟨.keyedRecord _ _, congrArg (Except.map _) (parsed.ofRaw_newKey key), ?_⟩⟩
    · show _ ++ _ = parsed.renderKeyedRecord text key values
      rw [hrender, ← parsed.text_newKey]
      simp [ItemForm.keyText, ItemForm.commaText, ValueForm.text]
    · exact ⟨rfl, hbody.heldBy _⟩

end NewItem

end Bilingual
