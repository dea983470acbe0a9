import Bilingual.Proofs.Block.Form
import Bilingual.Proofs.Document.Opening
import Bilingual.Proofs.Export.Contents

set_option autoImplicit false

/-! # Written documents are found by their keys

Documents that are written one after the other, each with its key and its bodies escaped, are all found
(`Category.documentBodies_file`), whatever their texts are, as long as no text itself opens a key field
(`Text.Opens`). A text that does so is taken for the start of another document: the search for key fields does not read
over templates, as the one for the body of a locale does. -/

namespace Bilingual

/-- What may stand between two documents. -/
def CodePoint.isFiller (c : CodePoint) : Bool := c.isSpace || c == '{' || c == '}' || c == ','

/-- A document as it is meant: its key, its texts in both locales, and what is written behind it. -/
structure WrittenDocument where
  slug : Text
  primary : Text
  secondary : Text
  gap : Text
  gap_filler : ∀ c ∈ gap, c.isFiller = true

namespace WrittenDocument

/-- The key field of a document. -/
def keyField (d : WrittenDocument) : Text := "slug: '" ++ Quote.single.escape d.slug ++ "'"

/-- From behind the key field up to the primary template. -/
def opening : Text := ", content: \x7b en: \x60"

/-- From the primary template up to the secondary one. -/
def between : Text := "\x60, ar: \x60"

/-- What is written behind the secondary template. -/
def ending (d : WrittenDocument) : Text := "\x60 \x7d" ++ d.gap

/-- What is written behind the key field. -/
def bodies (d : WrittenDocument) : Text :=
  opening ++ (escapeTemplate d.primary ++ (between ++ (escapeTemplate d.secondary ++ d.ending)))

/-- A document as it is written, with what is behind it. -/
def written (d : WrittenDocument) : Text := d.keyField ++ d.bodies

/-- Documents written one after the other. -/
def file (ds : List WrittenDocument) : Text := ds.flatMap written

/-- How far behind its start the secondary body of a document begins. -/
def bodyStart (d : WrittenDocument) : Nat :=
  (d.keyField ++ (opening ++ (escapeTemplate d.primary ++ between))).length

/-- The spans of the secondary bodies of documents that are written from an offset on, by their keys. -/
def spans (offset : Nat) : List WrittenDocument → OrderedMap (Nat × Nat)
  | [] => []
  | d :: rest =>
    (d.slug, offset + d.bodyStart, offset + d.bodyStart + (escapeTemplate d.secondary).length) ::
      spans (offset + d.written.length) rest

/-- The key fields of documents that are written from an offset on, as they are read. -/
def keys (offset : Nat) : List WrittenDocument → List (Nat × LiteralSpan × Nat)
  | [] => []
  | d :: rest =>
    (offset, ⟨offset + 7, offset + 7 + (Quote.single.escape d.slug).length, .single, Quote.single.escape d.slug⟩,
      offset + d.keyField.length) :: keys (offset + d.written.length) rest

open Recogniser

/-! ## Where fields are not read -/

theorem isIdentifier_of_isFiller {c : CodePoint} (h : c.isFiller = true) : c.isIdentifier = false := by
  simp only [CodePoint.isFiller, Bool.or_eq_true, beq_iff_eq] at h
  rcases h with ((h | rfl) | rfl) | rfl
  · exact CodePoint.isIdentifier_of_isSpace h
  · decide
  · decide
  · decide

theorem ofPoint?_of_isFiller {c : CodePoint} (h : c.isFiller = true) : Quote.ofPoint? c = none :=
  ofPoint?_eq_none h fun quote => by cases quote <;> decide

/-- A key field is not read in front of code points that its label does not begin with. -/
theorem first?_slug_of_head {t : Text} (ht : ∀ c ∈ t, c ≠ 's' ∧ Quote.ofPoint? c = none) (cursor : Cursor)
    (h : ∃ c ∈ t, cursor.rest.head? = some c) : (labelledLiteral "slug").first? cursor = none := by
  obtain ⟨c, hc, hhead⟩ := h
  have hlabel : (label "slug").run cursor = [] := by
    refine run_label_of_head fun d hd => ht d ?_
    rw [hhead] at hd
    cases hd
    exact hc
  rw [first?, labelledLiteral, fieldLabel, bind_assoc, run_bind_of_nil hlabel]
  rfl

/-- No field and no identifier is behind a secondary template. -/
theorem of_mem_ending (d : WrittenDocument) :
    ∀ c ∈ d.ending, (c ≠ 's' ∧ Quote.ofPoint? c = none) ∧ c.isIdentifier = false := by
  have hbrace : ∀ c ∈ Text.ofString "\x60 \x7d",
      (c ≠ ('s' : CodePoint) ∧ Quote.ofPoint? c = none) ∧ c.isIdentifier = false := by decide
  intro c hc
  rcases List.mem_append.1 hc with hc | hc
  · exact hbrace c hc
  · have hfiller := d.gap_filler c hc
    refine ⟨⟨?_, ofPoint?_of_isFiller hfiller⟩, isIdentifier_of_isFiller hfiller⟩
    rintro rfl
    exact absurd hfiller (by decide)

/-! ## Key fields -/

/-- A key field is read as it is written. -/
theorem first?_keyField (d : WrittenDocument) {cursor : Cursor} {rest : Text}
    (h : cursor.rest = d.keyField ++ rest) (hprevious : ∀ c ∈ cursor.previous, c.isIdentifier = false) :
    (labelledLiteral "slug").first? cursor = some (⟨cursor.offset + 7,
      cursor.offset + 7 + (Quote.single.escape d.slug).length, .single, Quote.single.escape d.slug⟩,
        cursor.advance d.keyField.length) := by
  have hlabel : cursor.rest = ('s' : CodePoint) :: "lug" ++ (':' : CodePoint) :: ' ' ::
      (Quote.single.point :: (Quote.single.escape d.slug ++ Quote.single.point :: rest)) := by
    rw [h, keyField, List.append_assoc, List.append_assoc]
    rfl
  have hliteral : (cursor.advance 6).rest =
      Quote.single.point :: (Quote.single.escape d.slug ++ Quote.single.point :: rest) := by
    rw [Cursor.rest_advance, hlabel]
    rfl
  have hoffset : (cursor.advance 6).offset = cursor.offset + 6 :=
    Cursor.offset_advance (by rw [hlabel]; simp [Text.ofString])
  have hrun := run_fieldLabel_bind (f := fun _ => literal) (by decide) hprevious hlabel
    (by rintro c ⟨⟩; decide) fun between c hc hspace => run_literal_of_space hc hspace
  have hlength : d.keyField.length = 6 + ((Quote.single.escape d.slug).length + 2) := by
    simp [keyField, Text.ofString]
    omega
  refine first?_of_run (hrun.trans ?_)
  show literal.run (cursor.advance 6) = _
  rw [run_literal (Quote.single.encloses_escape d.slug) hliteral, hoffset, ← Cursor.advance_add, hlength]

/-- Behind a key field none is read up to the next document. -/
theorem allFrom_bodies (d : WrittenDocument) (hprimary : ¬ Text.Opens "slug" d.primary)
    (hsecondary : ¬ Text.Opens "slug" d.secondary) {cursor : Cursor} {rest : Text}
    (h : cursor.rest = d.bodies ++ rest) : (labelledLiteral "slug").allFrom 0 cursor cursor.rest =
      (labelledLiteral "slug").allFrom 0 (cursor.advance d.bodies.length) (cursor.advance d.bodies.length).rest := by
  have hplain : ∀ c ∈ Text.ofString "slug", Text.IsPlain c := by decide
  have hfixed : ∀ t ∈ [opening, between], ∀ c ∈ t, c ≠ ('s' : CodePoint) ∧ Quote.ofPoint? c = none := by decide
  -- what lies ahead behind each part
  have hopening : cursor.rest = opening ++ (escapeTemplate d.primary ++ (between ++ (escapeTemplate d.secondary ++
      (d.ending ++ rest)))) := by simp only [h, bodies, List.append_assoc]
  have hfirst := Cursor.rest_advance_append hopening
  have hbetween := Cursor.rest_advance_append hfirst
  have hsecond := Cursor.rest_advance_append hbetween
  have hending := Cursor.rest_advance_append hsecond
  have hlength : d.bodies.length = opening.length + (escapeTemplate d.primary).length + between.length +
      (escapeTemplate d.secondary).length + d.ending.length := by
    simp only [bodies, List.length_append, Nat.add_assoc]
  rw [hlength, Cursor.advance_add, Cursor.advance_add, Cursor.advance_add, Cursor.advance_add,
    allFrom_append hopening (first?_slug_of_head (hfixed _ (by simp))),
    allFrom_append_of_none hfirst fun _ => first?_labelledLiteral_of_not_opens hplain
      (fun hopens => hprimary (Text.opens_of_escapeTemplate hplain hopens)) hfirst,
    allFrom_append hbetween (first?_slug_of_head (hfixed _ (by simp))),
    allFrom_append_of_none hsecond fun _ => first?_labelledLiteral_of_not_opens hplain
      (fun hopens => hsecondary (Text.opens_of_escapeTemplate hplain hopens)) hsecond,
    allFrom_append hending (first?_slug_of_head fun c hc => (d.of_mem_ending c hc).1)]

/-- The places where key fields are read in written documents are those where they are written. -/
theorem allFrom_file {ds : List WrittenDocument}
    (hclosed : ∀ d ∈ ds, ¬ Text.Opens "slug" d.primary ∧ ¬ Text.Opens "slug" d.secondary) {cursor : Cursor}
    (h : cursor.rest = file ds) (hprevious : ∀ c ∈ cursor.previous, c.isIdentifier = false) :
    (labelledLiteral "slug").allFrom 0 cursor cursor.rest = keys cursor.offset ds := by
  induction ds generalizing cursor with
  | nil =>
    rw [h]
    rfl
  | cons d rest ih =>
    obtain ⟨⟨hprimary, hsecondary⟩, hclosed⟩ := List.forall_mem_cons.1 hclosed
    have hwritten : cursor.rest = d.written ++ file rest := h
    have hkey : cursor.rest = d.keyField ++ (d.bodies ++ file rest) := by
      rw [hwritten, written, List.append_assoc]
    have hbodies := Cursor.rest_advance_append hkey
    have hrest := Cursor.rest_advance_append hwritten
    have hlength : d.written.length = d.keyField.length + d.bodies.length := List.length_append
    have hlast : ∀ c ∈ (cursor.advance d.written.length).previous, c.isIdentifier = false := by
      obtain ⟨front, c, hc⟩ : ∃ (front : Text) (c : CodePoint), d.ending = front ++ [c] :=
        ⟨_, _, (List.dropLast_append_getLast (by simp [ending, Text.ofString])).symm⟩
      have hgetLast : c ∈ d.written.getLast? := by
        simp [written, bodies, hc]
      rw [Cursor.previous_advance hwritten hgetLast]
      rintro _ ⟨⟩
      exact (d.of_mem_ending c (by rw [hc]; simp)).2
    rw [allFrom_found (by simp [keyField, Text.ofString]) hkey (first?_keyField d hkey hprevious),
      d.allFrom_bodies hprimary hsecondary hbodies, ← Cursor.advance_add, ← hlength, ih hclosed hrest hlast,
      Cursor.offset_advance_append hwritten]
    rfl

/-! ## Bodies -/

/-- The first template of a window is read up to its closing backtick. -/
theorem templateFrom_written {text skip label value rest more locale : Text} {start stop fuel : Nat} {c : CodePoint}
    (hslice : text.slice start stop = skip ++ (c :: label ++ ": \x60" ++ rest))
    (hdrop : text.drop (start + (skip ++ (c :: label ++ ": \x60")).length) =
      escapeTemplate value ++ ('\x60' : CodePoint) :: more)
    (hskip : skip ≠ [] ∧ ∀ d ∈ skip, (d.isAsciiLetter || d == '_') = false ∧ d.isIdentifier = false)
    (hc : (c.isAsciiLetter || c == '_') = true) (hlabel : ∀ d ∈ label, (d.isWord || d == '-') = true) :
    Document.templateFrom text locale stop (fuel + 1) start =
      let opened := start + (skip ++ (c :: label ++ ": \x60")).length
      if c :: label = locale then .ok (some (opened, opened + (escapeTemplate value).length))
      else Document.templateFrom text locale stop fuel (opened + (escapeTemplate value).length + 1) := by
  have hfind : templateOpening.find? text start stop =
      some (start + skip.length, c :: label, start + skip.length + (c :: label ++ ": \x60").length) := by
    refine find?_of_slice hslice (List.cons_ne_nil _ _)
      (first?_templateOpening_of_head fun d hd => (hskip.2 d hd).1) fun cursor hrest hprevious => ?_
    have hword : ∀ d ∈ cursor.previous, d.isIdentifier = false := by
      intro d hd
      obtain ⟨front, e, rfl⟩ : ∃ (front : Text) (e : CodePoint), skip = front ++ [e] :=
        ⟨_, _, (List.dropLast_append_getLast hskip.1).symm⟩
      rw [hprevious e (by simp)] at hd
      cases hd
      exact (hskip.2 d (by simp)).2
    have hread : cursor.rest = c :: (label ++ (':' : CodePoint) :: ' ' :: '\x60' :: rest) := by
      rw [hrest]
      simp [Text.ofString]
    rw [first?_of_run (run_templateOpening hc hlabel hword hread)]
    simp [Text.ofString]
  have hopened : start + skip.length + (c :: label ++ ": \x60").length =
      start + (skip ++ (c :: label ++ ": \x60")).length := by
    simp only [List.length_append, Nat.add_assoc]
  have hspan : Literal.bodySpan text '\x60' (start + (skip ++ (c :: label ++ ": \x60")).length) =
      .ok (start + (skip ++ (c :: label ++ ": \x60")).length,
        start + (skip ++ (c :: label ++ ": \x60")).length + (escapeTemplate value).length) := by
    rw [Literal.bodySpan, Literal.closing?_of_closes (Literal.closes_escapeTemplate value) hdrop]
  rw [Document.templateFrom, hfind]
  dsimp only
  rw [hopened, hspan]
  rfl

theorem slice_of_append {text before behind : Text} {start stop : Nat} (h : text.slice start stop = before ++ behind) :
    text.slice (start + before.length) stop = behind := by
  rw [Text.slice, ← List.drop_drop]
  show (text.slice start stop).drop before.length = behind
  rw [h, List.drop_left]

theorem drop_of_append {text before behind : Text} {start : Nat} (h : text.drop start = before ++ behind) :
    text.drop (start + before.length) = behind := by
  rw [← List.drop_drop, h, List.drop_left]

/-- The body field is found behind the key field. -/
theorem find?_bodyOpening {text rest : Text} {start stop : Nat}
    (h : text.slice start stop = ", content: \x7b" ++ rest) :
    (bodyOpening "content").find? text start stop = some (start + 2, (), start + 12) := by
  have hslice : text.slice start stop = ", " ++ ("content: \x7b" ++ rest) := h
  refine find?_of_slice hslice (by decide) (fun cursor hhead => ?_) fun cursor hrest hprevious => ?_
  · obtain ⟨c, hc, hhead⟩ := hhead
    have hlabel : (label "content").run cursor = [] := by
      refine run_label_of_head fun d hd => ?_
      rw [hhead] at hd
      cases hd
      exact (by decide : ∀ c ∈ Text.ofString ", ", c ≠ ('c' : CodePoint) ∧ Quote.ofPoint? c = none) c hc
    rw [first?, bodyOpening, fieldLabel, bind_assoc, run_bind_of_nil hlabel]
    rfl
  · have hlabel : cursor.rest = ('c' : CodePoint) :: "ontent" ++ (':' : CodePoint) :: ' ' :: '\x7b' :: rest := hrest
    have hbrace : (cursor.advance 9).rest = ('\x7b' : CodePoint) :: rest := by
      rw [Cursor.rest_advance, hlabel]
      rfl
    have hspace : ∀ between : Cursor, ∀ d ∈ between.rest.head?, d.isSpace = true → (point '\x7b').run between = [] := by
      intro between d hd hspace
      refine run_point_of_ne fun hhead => ?_
      rw [hhead] at hd
      cases hd
      exact absurd hspace (by decide)
    have hrun := run_fieldLabel_bind (f := fun _ => point '\x7b') (by decide) (by
      rw [hprevious ' ' (by decide)]
      rintro d ⟨⟩
      decide) hlabel (by rintro d ⟨⟩; decide) hspace
    refine first?_of_run (hrun.trans ?_)
    show (point '\x7b').run (cursor.advance 9) = _
    rw [run_point hbrace, ← Cursor.advance_add]
    rfl

/-- The secondary body of a document is found behind its key field. -/
theorem body_written (d : WrittenDocument) {text more : Text} {start : Nat}
    (h : text.drop start = d.bodies ++ more) : Document.body text "content" "ar" start (start + d.bodies.length) =
      let opened := start + (opening ++ (escapeTemplate d.primary ++ between)).length
      .ok (some (opened, opened + (escapeTemplate d.secondary).length)) := by
  generalize hstop : start + d.bodies.length = stop
  have hslice : text.slice start stop = opening ++ (escapeTemplate d.primary ++ (between ++
      (escapeTemplate d.secondary ++ d.ending))) := by
    rw [← hstop, Text.slice, List.drop_take, Nat.add_sub_cancel_left, h, List.take_left, bodies]
  have hdrop : text.drop start = opening ++ (escapeTemplate d.primary ++ (between ++ (escapeTemplate d.secondary ++
      (d.ending ++ more)))) := by
    rw [h, bodies]
    simp only [List.append_assoc]
  have hlength : ∃ fuel, text.length = fuel + 1 := by
    refine ⟨text.length - 1, ?_⟩
    have := congrArg List.length hdrop
    rw [List.length_drop, List.length_append] at this
    have : opening.length = 18 := rfl
    omega
  obtain ⟨fuel, hfuel⟩ := hlength
  -- the template of the primary locale, and behind it that of the secondary one
  have hprimary : text.slice (start + 12) stop = " " ++ ((('e' : CodePoint) :: "n") ++ ": \x60" ++
      (escapeTemplate d.primary ++ (between ++ (escapeTemplate d.secondary ++ d.ending)))) := by
    have hcontent : text.slice start stop = ", content: \x7b" ++ (" en: \x60" ++ (escapeTemplate d.primary ++ (between ++
        (escapeTemplate d.secondary ++ d.ending)))) := hslice
    exact slice_of_append hcontent
  have hprimaryBody := drop_of_append hdrop
  have hsecondary : text.slice (start + opening.length + (escapeTemplate d.primary).length + 1) stop =
      ", " ++ ((('a' : CodePoint) :: "r") ++ ": \x60" ++ (escapeTemplate d.secondary ++ d.ending)) := by
    have hbacktick : text.slice (start + opening.length + (escapeTemplate d.primary).length) stop =
        [('\x60' : CodePoint)] ++ (", ar: \x60" ++ (escapeTemplate d.secondary ++ d.ending)) :=
      slice_of_append (slice_of_append hslice)
    exact slice_of_append hbacktick
  have hsecondaryBody := drop_of_append (drop_of_append hprimaryBody)
  have hfirst : Document.templateFrom text "ar" stop (fuel + 1 + 1) (start + 12) =
      Document.templateFrom text "ar" stop (fuel + 1)
        (start + opening.length + (escapeTemplate d.primary).length + 1) :=
    templateFrom_written hprimary hprimaryBody (by decide) (by decide) (by decide)
  have hopened : start + (opening ++ (escapeTemplate d.primary ++ between)).length =
      start + opening.length + (escapeTemplate d.primary).length + between.length := by
    simp only [List.length_append, Nat.add_assoc]
  have hsecond : Document.templateFrom text "ar" stop (fuel + 1)
      (start + opening.length + (escapeTemplate d.primary).length + 1) =
        .ok (some (start + (opening ++ (escapeTemplate d.primary ++ between)).length,
          start + (opening ++ (escapeTemplate d.primary ++ between)).length + (escapeTemplate d.secondary).length)) := by
    rw [hopened]
    exact templateFrom_written hsecondary hsecondaryBody (by decide) (by decide) (by decide)
  rw [Document.body, find?_bodyOpening hslice]
  dsimp only
  rw [hfuel, hfirst, hsecond]

/-! ## Documents -/

/-- A document ends where the next one begins, or with the text. -/
theorem segmentEnd_keys {ds : List WrittenDocument} {text : Text} {offset : Nat} (h : text.drop offset = file ds)
    (hle : offset ≤ text.length) : Document.segmentEnd text.length (keys offset ds) = offset := by
  cases ds with
  | nil =>
    have hnil : text.drop offset = [] := h
    exact Nat.le_antisymm (List.drop_eq_nil_iff.1 hnil) hle
  | cons d rest => rfl

theorem bodiesFrom_file {ds : List WrittenDocument} {text : Text} {offset : Nat} {found : OrderedMap (Nat × Nat)}
    (h : text.drop offset = file ds) (hle : offset ≤ text.length)
    (hslugs : (OrderedMap.keys found ++ ds.map slug).Nodup) :
    Document.bodiesFrom text "content" "ar" text.length found (keys offset ds) = .ok (found ++ spans offset ds) := by
  induction ds generalizing offset found with
  | nil => exact congrArg Except.ok (List.append_nil found).symm
  | cons d rest ih =>
    have hwritten : text.drop offset = d.written ++ file rest := h
    have hkey : text.drop offset = d.keyField ++ (d.bodies ++ file rest) := by
      rw [hwritten, written, List.append_assoc]
    have hrest := drop_of_append hwritten
    have hle' : offset + d.written.length ≤ text.length := by
      have := congrArg List.length hwritten
      rw [List.length_drop, List.length_append] at this
      omega
    have hstop : Document.segmentEnd text.length (keys (offset + d.written.length) rest) =
        offset + d.keyField.length + d.bodies.length := by
      rw [segmentEnd_keys hrest hle', written, List.length_append, Nat.add_assoc]
    have hvalue : LiteralSpan.value ⟨offset + 7, offset + 7 + (Quote.single.escape d.slug).length, .single,
        Quote.single.escape d.slug⟩ = .ok d.slug := Literal.decode_escape .single d.slug
    have hopened : offset + d.keyField.length + (opening ++ (escapeTemplate d.primary ++ between)).length =
        offset + d.bodyStart := by
      simp only [bodyStart, List.length_append, Nat.add_assoc]
    have hnew : d.slug ∉ OrderedMap.keys found := fun hmem =>
      (List.disjoint_of_nodup_append hslugs) hmem List.mem_cons_self
    have hput : ∀ span : Nat × Nat, found.putNew d.slug span = found ++ [(d.slug, span)] := by
      intro span
      rw [OrderedMap.putNew, OrderedMap.lookup?_eq_none_iff.2 hnew]
    rw [keys, Document.bodiesFrom, hvalue, hstop, d.body_written (drop_of_append hkey)]
    dsimp only
    rw [hopened]
    show Document.bodiesFrom text "content" "ar" text.length (found.putNew d.slug _) _ = _
    rw [hput, ih hrest hle']
    · rw [List.append_assoc]
      rfl
    · rw [OrderedMap.keys_append, List.append_assoc]
      exact hslugs

/-- The span of each secondary body is that of its escaped text. -/
theorem forall₂_spans {ds : List WrittenDocument} {text : Text} {offset : Nat} (h : text.drop offset = file ds) :
    List.Forall₂ (fun span d => span.1 = d.slug ∧ text.slice span.2.1 span.2.2 = escapeTemplate d.secondary)
      (spans offset ds) ds := by
  induction ds generalizing offset with
  | nil => exact .nil
  | cons d rest ih =>
    have hwritten : text.drop offset = d.written ++ file rest := h
    have hsecondary : text.drop offset = d.keyField ++ (opening ++ (escapeTemplate d.primary ++ between)) ++
        (escapeTemplate d.secondary ++ (d.ending ++ file rest)) := by
      rw [hwritten, written, bodies]
      simp only [List.append_assoc]
    refine .cons ⟨rfl, ?_⟩ (ih (drop_of_append hwritten))
    show text.slice (offset + d.bodyStart) (offset + d.bodyStart + (escapeTemplate d.secondary).length) = _
    rw [Text.slice, List.drop_take, Nat.add_sub_cancel_left, bodyStart, drop_of_append hsecondary, List.take_left]

end WrittenDocument

namespace Category

variable {c : Category} {defaults : OrderedMap Text}

open WrittenDocument

/-- Documents with different keys are found one after the other, each with exactly its secondary body, and the export
reads their texts back, if no text of theirs itself opens a key field. -/
theorem documentBodies_file (locales : Locales) {ds : List WrittenDocument}
    (hplace : c.placement = .documents "slug" "content" defaults) (hregion : c.region = none)
    (hslugs : (ds.map slug).Nodup)
    (hclosed : ∀ d ∈ ds, ¬ Text.Opens "slug" d.primary ∧ ¬ Text.Opens "slug" d.secondary) :
    c.documentBodies (file ds) "ar" = .ok (if ds = [] then none else some (spans 0 ds)) ∧
      List.Forall₂ (fun span d => span.1 = d.slug ∧ (file ds).slice span.2.1 span.2.2 = escapeTemplate d.secondary)
        (spans 0 ds) ds ∧
      c.contents? (file ds) locales "ar" =
        .ok (if ds = [] then none else some (.map (ds.map fun d => (d.slug, some d.secondary)))) := by
  have hdrop : (file ds).drop 0 = file ds := List.drop_zero
  have hspans := forall₂_spans hdrop
  have hkeys : (Recogniser.labelledLiteral "slug").all (file ds) 0 (file ds).length = keys 0 ds := by
    have hrest : (Cursor.ofWindow (file ds) 0 (file ds).length).rest = file ds := by
      show ((file ds).take (file ds).length).drop 0 = file ds
      rw [List.take_length, List.drop_zero]
    exact allFrom_file hclosed hrest (by rintro c ⟨⟩)
  have hbodies : c.documentBodies (file ds) "ar" = .ok (if ds = [] then none else some (spans 0 ds)) := by
    have hwindow : c.window? (file ds) = some (Window.whole (file ds)) := by rw [window?, hregion]
    rw [documentBodies, hplace, hwindow]
    show Document.bodies _ (Window.whole _) _ _ _ = _
    rw [Document.bodies, Window.whole]
    dsimp only
    rw [hkeys]
    cases ds with
    | nil => rfl
    | cons d rest =>
      have hfound : Document.bodiesFrom (file (d :: rest)) "content" "ar" (file (d :: rest)).length [] (keys 0 (d :: rest)) =
          .ok ([] ++ spans 0 (d :: rest)) := bodiesFrom_file hdrop (Nat.zero_le _) hslugs
      rw [if_neg (List.cons_ne_nil d rest)]
      show (Document.bodiesFrom _ _ _ _ [] (keys 0 (d :: rest)) >>= fun found => pure (some found)) = _
      rw [hfound]
      rfl
  refine ⟨hbodies, hspans, ?_⟩
  cases ds with
  | nil =>
    simp only [contents?, hplace]
    exact Except.bind_eq_ok_iff.2 ⟨none, hbodies, rfl⟩
  | cons d rest =>
    have htexts : List.Forall₂ (fun (span : Text × Nat × Nat) (t : Text × Text) => span.1 = t.1 ∧
        Literal.decode ((file (d :: rest)).slice span.2.1 span.2.2) = .ok t.2)
          (spans 0 (d :: rest)) ((d :: rest).map fun d => (d.slug, d.secondary)) := by
      refine List.forall₂_map_right_iff.2 (hspans.imp fun span d h => ⟨h.1, ?_⟩)
      rw [h.2]
      exact Literal.decode_escapeTemplate d.secondary
    simp only [contents?, hplace]
    refine Except.bind_eq_ok_iff.2 ⟨some (spans 0 (d :: rest)), hbodies, ?_⟩
    refine Except.bind_eq_ok_iff.2 ⟨_, Except.mapM_keyed_iff.2 htexts, ?_⟩
    rw [if_neg (List.cons_ne_nil d rest)]
    show Except.ok (some (Content.map (Placement.completeRecord _))) = _
    rw [Placement.completeRecord, OrderedMap.mapValues, List.map_map]
    rfl

/-- Documents with their bodies under `content`. -/
def guidesSample : Category :=
  { name := "guides", region := none, placement := .documents "slug" "content" [] }

/-- Two guides whose texts look like source code themselves. -/
def guides : List WrittenDocument :=
  [⟨"it's", "Write content: \x7b ar: \x60\x60 \x7d", "${path}\\n\x60, ar: \x60", " \x7d,\n\x7b ", by decide⟩,
    ⟨"b", "", "to: '/b'", "\n", by decide⟩]

theorem documentBodies_guides :
    ((guides.map slug).Nodup ∧ ∀ d ∈ guides, ¬ Text.Opens "slug" d.primary ∧ ¬ Text.Opens "slug" d.secondary) ∧
    guidesSample.documentBodies (file guides) "ar" = .ok (if guides = [] then none else some (spans 0 guides)) ∧
      List.Forall₂ (fun span d => span.1 = d.slug ∧
        (file guides).slice span.2.1 span.2.2 = escapeTemplate d.secondary) (spans 0 guides) guides ∧
      guidesSample.contents? (file guides) ⟨"en", "ar"⟩ "ar" =
        .ok (if guides = [] then none else some (.map (guides.map fun d => (d.slug, some d.secondary)))) := by
  have hslugs : (guides.map slug).Nodup := by decide
  have hlacks : ∀ d ∈ guides, ¬ Text.ofString "slug" <:+: d.primary ∧ ¬ Text.ofString "slug" <:+: d.secondary := by
    decide +kernel
  have hclosed : ∀ d ∈ guides, ¬ Text.Opens "slug" d.primary ∧ ¬ Text.Opens "slug" d.secondary := fun d hd =>
    ⟨fun h => (hlacks d hd).1 h.isInfix, fun h => (hlacks d hd).2 h.isInfix⟩
  exact ⟨⟨hslugs, hclosed⟩, documentBodies_file ⟨"en", "ar"⟩ rfl rfl hslugs hclosed⟩

/-- A document whose primary text shows a key field. -/
def quotingSample : WrittenDocument := ⟨"a", "slug: 'z'", "B", "\n", by decide⟩

/-- What looks like a key field in a template is taken for one, and the document in front of it loses its body. -/
theorem documentBodies_quoting : ([quotingSample].map slug).Nodup ∧
    guidesSample.documentBodies (file [quotingSample]) "ar" = .ok (some []) ∧
      spans 0 [quotingSample] = [(quotingSample.slug, 44, 45)] ∧
        (file [quotingSample]).slice 44 45 = escapeTemplate quotingSample.secondary := by
  refine ⟨by decide, by decide +kernel, by decide +kernel, by decide +kernel⟩

end Category

end Bilingual
