import Bilingual.Proofs.Block.Bracket
import Bilingual.Proofs.Document
import Bilingual.Proofs.Run

set_option autoImplicit false

/-! # Bodies and the objects they stand in

The body field of a document opens an object, and the search for a template goes on from there up to the next
document: nothing stops it where the object ends. A search in a shorter window finds the same template, as long as
the window reaches up to it (`Document.templateFrom_cut`). So a body lies in its own object exactly when a search
that stops at the closing bracket of the object finds it too (`Category.documentBodies_inside`), and a document
without the locale takes over the template of another field (`Category.documentBodies_outside`). -/

namespace Bilingual

/-! ## Shorter windows -/

namespace Cursor

/-- The same cursor in a window that ends at an offset. -/
def cut (cursor : Cursor) (stop : Nat) : Cursor := { cursor with rest := cursor.rest.take (stop - cursor.offset) }

variable {cursor : Cursor} {stop : Nat} {c : CodePoint} {rest : Text}

theorem rest_cut_of_lt (hrest : cursor.rest = c :: rest) (h : cursor.offset < stop) :
    (cursor.cut stop).rest = c :: ((cursor.step c rest).cut stop).rest := by
  have hlength : stop - cursor.offset = stop - (cursor.offset + 1) + 1 := by omega
  simp only [cut, step, hrest, hlength, List.take_succ_cons]

theorem rest_cut_of_le (h : stop ≤ cursor.offset) : (cursor.cut stop).rest = [] := by
  simp [cut, Nat.sub_eq_zero_of_le h]

theorem advance_cut {n : Nat} (hn : n ≤ cursor.rest.length) (hstop : cursor.offset + n ≤ stop) :
    (cursor.cut stop).advance n = (cursor.advance n).cut stop := by
  induction n generalizing cursor with
  | zero => rfl
  | succ n ih =>
    cases hrest : cursor.rest with
    | nil => simp [hrest] at hn
    | cons c rest =>
      rw [hrest, List.length_cons] at hn
      rw [advance, advance, rest_cut_of_lt hrest (by omega), hrest]
      refine @ih (cursor.step c rest) (Nat.le_of_succ_le_succ hn) ?_
      show cursor.offset + 1 + n ≤ stop
      omega

theorem ofWindow_cut (text : Text) (start : Nat) {stop wide : Nat} (h : stop ≤ wide) :
    (ofWindow text start wide).cut stop = ofWindow text start stop := by
  simp only [cut, ofWindow, Text.slice, List.take_drop, List.take_take]
  by_cases hstart : start ≤ stop
  · rw [Nat.add_sub_cancel' hstart, Nat.min_eq_left h]
  · have hempty : ∀ n, n ≤ start → (text.take n).drop start = [] := fun n hn =>
      List.drop_eq_nil_of_le (Nat.le_trans (List.length_take_le _ _) hn)
    rw [hempty _ (by omega), hempty stop (by omega)]

end Cursor

namespace Recogniser

variable {α β : Type} {r : Recogniser α} {f : α → Recogniser β}

/-- In a shorter window a recogniser has the same ways to read, less those that end behind it. -/
structure Local (r : Recogniser α) : Prop where
  le : ∀ {cursor : Cursor} {way : α × Cursor}, way ∈ r.run cursor → cursor.offset ≤ way.2.offset
  run_cut : ∀ {cursor : Cursor} {stop : Nat}, cursor.offset ≤ stop → r.run (cursor.cut stop) =
    ((r.run cursor).filter fun way => decide (way.2.offset ≤ stop)).map fun way => (way.1, way.2.cut stop)

theorem local_pure (a : α) : (pure a : Recogniser α).Local := by
  refine ⟨fun h => ?_, fun hstop => ?_⟩
  · rw [run_pure, List.mem_singleton] at h
    rw [h]
  · simp [run_pure, hstop]

theorem filter_eq_nil_of_lt {ways : List (α × Cursor)} {stop : Nat} (h : ∀ way ∈ ways, stop < way.2.offset) :
    ways.filter (fun way => decide (way.2.offset ≤ stop)) = [] := by
  rw [List.filter_eq_nil_iff]
  intro way hway
  have := h way hway
  simp only [decide_eq_true_eq]
  omega

theorem Local.bind (hr : r.Local) (hf : ∀ a, (f a).Local) : (r >>= f).Local := by
  refine ⟨fun {cursor way} h => ?_, fun {cursor stop} hstop => ?_⟩
  · obtain ⟨a, between, ha, hb⟩ := mem_run_bind.1 h
    exact Nat.le_trans (hr.le ha) ((hf a).le hb)
  · rw [run_bind, run_bind, hr.run_cut hstop]
    generalize r.run cursor = ways
    induction ways with
    | nil => rfl
    | cons way ways ih =>
      rw [List.flatMap_cons, List.filter_append, List.map_append, ← ih]
      by_cases hway : way.2.offset ≤ stop
      · rw [List.filter_cons_of_pos (by simpa using hway), List.map_cons, List.flatMap_cons,
          (hf way.1).run_cut hway]
      · -- a way that is behind the window already stays there
        have hbehind : ∀ next ∈ (f way.1).run way.2, stop < next.2.offset := fun next hnext =>
          Nat.lt_of_lt_of_le (Nat.lt_of_not_le hway) ((hf way.1).le hnext)
        rw [List.filter_cons_of_neg (by simpa using hway), filter_eq_nil_of_lt hbehind, List.map_nil, List.nil_append]

theorem local_satisfying (p : CodePoint → Bool) : (satisfying p).Local := by
  have hnil : ∀ {cursor : Cursor}, cursor.rest = [] → (satisfying p).run cursor = [] := by
    intro cursor h
    rw [satisfying]
    dsimp only
    rw [h]
  have hcons : ∀ {cursor : Cursor} {c : CodePoint} {rest : Text}, cursor.rest = c :: rest →
      (satisfying p).run cursor = if p c then [(c, cursor.step c rest)] else [] := by
    intro cursor c rest h
    rw [satisfying]
    dsimp only
    rw [h]
  refine ⟨fun {cursor way} h => ?_, fun {cursor stop} hstop => ?_⟩
  · cases hrest : cursor.rest with
    | nil =>
      rw [hnil hrest] at h
      cases h
    | cons c rest =>
      rw [hcons hrest] at h
      split_ifs at h
      · rw [List.mem_singleton.1 h]
        exact Nat.le_succ _
      · cases h
  · cases hrest : cursor.rest with
    | nil => rw [hnil hrest, hnil (by simp [Cursor.cut, hrest])]; rfl
    | cons c rest =>
      by_cases hlt : cursor.offset < stop
      · have hstep : (cursor.step c rest).offset ≤ stop := hlt
        rw [hcons hrest, hcons (Cursor.rest_cut_of_lt hrest hlt)]
        split_ifs
        · simp only [List.filter_cons, hstep, decide_true, if_true, List.filter_nil, List.map_cons, List.map_nil]
          rfl
        · rfl
      · -- the window ends here
        have hstep : ¬ (cursor.step c rest).offset ≤ stop := hlt
        rw [hcons hrest, hnil (Cursor.rest_cut_of_le (Nat.le_of_not_lt hlt))]
        split_ifs
        · simp [hstep]
        · rfl

theorem lt_of_mem_satisfying {p : CodePoint → Bool} {cursor : Cursor} {way : CodePoint × Cursor}
    (h : way ∈ (satisfying p).run cursor) : cursor.offset < way.2.offset := by
  unfold satisfying at h
  dsimp only at h
  split at h
  · cases h
  · split_ifs at h
    · rw [List.mem_singleton.1 h]
      exact Nat.lt_succ_self _
    · cases h

theorem local_point (c : CodePoint) : (point c).Local := (local_satisfying _).bind fun _ => local_pure _

theorem le_of_mem_cursorsBehind {p : CodePoint → Bool} {cursor behind : Cursor}
    (h : behind ∈ cursorsBehind p cursor cursor.rest) : cursor.offset ≤ behind.offset := by
  generalize hrest : cursor.rest = rest at h
  induction rest generalizing cursor with
  | nil => rw [List.mem_singleton.1 h]
  | cons c rest ih =>
    rw [cursorsBehind] at h
    rcases List.mem_cons.1 h with rfl | h
    · exact Nat.le_refl _
    · split_ifs at h
      · exact Nat.le_of_succ_le (@ih (cursor.step c rest) rfl h)
      · cases h

theorem cursorsBehind_cut (p : CodePoint → Bool) {cursor : Cursor} {stop : Nat} (hstop : cursor.offset ≤ stop) :
    cursorsBehind p (cursor.cut stop) (cursor.cut stop).rest =
      ((cursorsBehind p cursor cursor.rest).filter fun behind => decide (behind.offset ≤ stop)).map (·.cut stop) := by
  generalize hrest : cursor.rest = rest
  induction rest generalizing cursor with
  | nil => simp [Cursor.cut, hrest, cursorsBehind, hstop]
  | cons c rest ih =>
    rw [cursorsBehind, List.filter_cons_of_pos (by simpa using hstop), List.map_cons]
    by_cases hlt : cursor.offset < stop
    · rw [Cursor.rest_cut_of_lt hrest hlt, cursorsBehind]
      split_ifs
      · exact congrArg _ (@ih (cursor.step c rest) hlt rfl)
      · rfl
    · -- all that is read from here on ends behind the window
      rw [Cursor.rest_cut_of_le (Nat.le_of_not_lt hlt), cursorsBehind]
      split_ifs
      · have hnone : (cursorsBehind p (cursor.step c rest) rest).filter (fun b => decide (b.offset ≤ stop)) = [] := by
          rw [List.filter_eq_nil_iff]
          intro behind hbehind
          have hbehind : behind ∈ cursorsBehind p (cursor.step c rest) (cursor.step c rest).rest := hbehind
          have hle : cursor.offset + 1 ≤ behind.offset := le_of_mem_cursorsBehind hbehind
          simp only [decide_eq_true_eq]
          omega
        rw [hnone, List.map_nil]
      · rfl

theorem local_many (p : CodePoint → Bool) : (many p).Local := by
  refine ⟨fun {cursor way} h => ?_, fun {cursor stop} hstop => ?_⟩
  · obtain ⟨behind, hbehind, rfl⟩ := List.mem_map.1 h
    exact le_of_mem_cursorsBehind (List.mem_reverse.1 hbehind)
  · show ((cursorsBehind p (cursor.cut stop) (cursor.cut stop).rest).reverse.map _) =
      (((cursorsBehind p cursor cursor.rest).reverse.map _).filter _).map _
    rw [cursorsBehind_cut p hstop, List.filter_map, List.filter_reverse, List.map_map, ← List.map_reverse, List.map_map]
    rfl

/-- The longest run of a shorter window may be shorter, but then nothing is left behind it. -/
theorem Local.longest_bind {p : CodePoint → Bool} {f : Text → Recogniser β} (hf : ∀ t, (f t).Local)
    (hend : ∀ t cursor, cursor.rest = [] → (f t).run cursor = []) : (longest p >>= f).Local := by
  have hrun : ∀ cursor : Cursor, (longest p >>= f).run cursor =
      (f (cursor.rest.takeWhile p)).run (cursor.advance (cursor.rest.takeWhile p).length) := fun cursor =>
    run_bind_of_eq rfl f
  have hlength : ∀ cursor : Cursor, (cursor.rest.takeWhile p).length ≤ cursor.rest.length := fun cursor =>
    (List.takeWhile_prefix p).length_le
  have hle : ∀ {cursor : Cursor} {way : β × Cursor}, way ∈ (longest p >>= f).run cursor →
      cursor.offset + (cursor.rest.takeWhile p).length ≤ way.2.offset := by
    intro cursor way h
    rw [hrun] at h
    rw [← Cursor.offset_advance (hlength cursor)]
    exact (hf _).le h
  refine ⟨fun h => Nat.le_trans (Nat.le_add_right _ _) (hle h), fun {cursor stop} hstop => ?_⟩
  have htake : (cursor.cut stop).rest.takeWhile p = (cursor.rest.takeWhile p).take (stop - cursor.offset) :=
    List.take_takeWhile.symm
  by_cases hrest : cursor.offset + (cursor.rest.takeWhile p).length ≤ stop
  · rw [hrun, hrun, htake, List.take_of_length_le (by omega), Cursor.advance_cut (hlength cursor) hrest]
    exact (hf _).run_cut (by rw [Cursor.offset_advance (hlength cursor)]; exact hrest)
  · have hbehind : (cursor.cut stop).rest.drop ((cursor.cut stop).rest.takeWhile p).length = [] := by
      rw [htake, List.length_take_of_le (by omega)]
      exact List.drop_eq_nil_of_le (List.length_take_le _ _)
    rw [hrun, hend _ _ (by rw [Cursor.rest_advance, hbehind]), filter_eq_nil_of_lt, List.map_nil]
    intro way hway
    have := hle hway
    omega

theorem Local.atWordStart (hr : r.Local) : (Recogniser.atWordStart r).Local := by
  refine ⟨fun h => hr.le (mem_run_atWordStart_iff.1 h).1, fun {cursor stop} hstop => ?_⟩
  rw [run_atWordStart_eq, run_atWordStart_eq, hr.run_cut hstop]
  show (if cursor.previous.any CodePoint.isIdentifier then _ else _) = _
  split_ifs <;> rfl

/-- What follows the first code point of the label of a template. -/
theorem local_labelRest (c : CodePoint) : (do
    let rest ← longest fun c => c.isWord || c == '-'
    spaces
    point ':'
    spaces
    point '\x60'
    return c :: rest : Recogniser Text).Local := by
  refine Local.longest_bind (fun _ => ?_) fun _ cursor h => ?_
  · exact (local_many _).bind fun _ => (local_point _).bind fun _ => (local_many _).bind fun _ =>
      (local_point _).bind fun _ => local_pure _
  · have hspaces : spaces.run cursor = [((), cursor)] := run_many_of_not (by simp [h])
    have hcolon : (point ':').run cursor = [] := run_point_of_ne (by simp [h])
    rw [run_bind_of_eq hspaces, run_bind_of_nil hcolon]

theorem local_templateOpening : templateOpening.Local :=
  Local.atWordStart ((local_satisfying _).bind local_labelRest)

theorem lt_of_mem_templateOpening {cursor : Cursor} {way : Text × Cursor} (h : way ∈ templateOpening.run cursor) :
    cursor.offset < way.2.offset := by
  obtain ⟨c, between, hfirst, hrest⟩ := mem_run_bind.1 (mem_run_atWordStart_iff.1 h).1
  exact Nat.lt_of_lt_of_le (lt_of_mem_satisfying hfirst) ((local_labelRest c).le hrest)

/-- What is found in a window is found in every shorter one that reaches up to its end. -/
theorem Local.findFrom?_cut (hr : r.Local)
    (hlt : ∀ {cursor : Cursor} {way : α × Cursor}, way ∈ r.run cursor → cursor.offset < way.2.offset)
    {cursor : Cursor} {first behind : Nat} {a : α}
    (h : r.findFrom? cursor cursor.rest = some (first, a, behind)) :
    cursor.offset < behind ∧ ∀ stop, behind ≤ stop →
      r.findFrom? (cursor.cut stop) (cursor.cut stop).rest = some (first, a, behind) := by
  generalize hrest : cursor.rest = rest at h
  induction rest generalizing cursor with
  | nil => cases h
  | cons c rest ih =>
    rw [findFrom?] at h
    cases hfirst : r.first? cursor with
    | some way =>
      rw [hfirst] at h
      cases h
      have hpos : cursor.offset < way.2.offset := hlt (mem_run_of_first? hfirst)
      refine ⟨hpos, fun stop hstop => ?_⟩
      have hread : r.first? (cursor.cut stop) = some (way.1, way.2.cut stop) := by
        obtain ⟨others, hways⟩ := List.head?_eq_some_iff.1 hfirst
        rw [first?, hr.run_cut (by omega), hways, List.filter_cons_of_pos (by simpa using hstop)]
        rfl
      rw [Cursor.rest_cut_of_lt hrest (by omega), findFrom?, hread]
      rfl
    | none =>
      rw [hfirst] at h
      obtain ⟨hpos, hfind⟩ := @ih (cursor.step c rest) rfl h
      have hpos : cursor.offset + 1 < behind := hpos
      refine ⟨by omega, fun stop hstop => ?_⟩
      have hnone : r.first? (cursor.cut stop) = none := by
        rw [first?, hr.run_cut (by omega), List.head?_eq_none_iff.1 hfirst]
        rfl
      rw [Cursor.rest_cut_of_lt hrest (by omega), findFrom?, hnone]
      exact hfind stop hstop

theorem find?_templateOpening_cut {text label : Text} {start wide stop first behind : Nat}
    (h : templateOpening.find? text start wide = some (first, label, behind)) (hbehind : behind ≤ stop)
    (hstop : stop ≤ wide) : templateOpening.find? text start stop = some (first, label, behind) := by
  have hfind := (local_templateOpening.findFrom?_cut lt_of_mem_templateOpening h).2 stop hbehind
  rwa [Cursor.ofWindow_cut text start hstop] at hfind

end Recogniser

namespace Document

variable {text bodyField locale key : Text} {start stop : Nat} {span : Nat × Nat}

/-- The search for a template finds it in every shorter window that reaches up to its body. -/
theorem templateFrom_cut {fuel cursor wide : Nat} (h : templateFrom text locale wide fuel cursor = .ok (some span))
    (hspan : span.1 ≤ stop) (hstop : stop ≤ wide) : templateFrom text locale stop fuel cursor = .ok (some span) := by
  induction fuel generalizing cursor with
  | zero => cases h
  | succ fuel ih =>
    rw [templateFrom] at h ⊢
    cases hfind : Recogniser.templateOpening.find? text cursor wide with
    | none =>
      rw [hfind] at h
      cases h
    | some place =>
      obtain ⟨first, label, behind⟩ := place
      rw [hfind] at h
      obtain ⟨found, hfound, h⟩ := Except.bind_eq_ok_iff.1 h
      have hbehind := le_of_bodySpan hfound
      by_cases hlabel : label = locale
      · rw [if_pos hlabel] at h
        cases h
        rw [Recogniser.find?_templateOpening_cut hfind (by omega) hstop]
        exact Except.bind_eq_ok_iff.2 ⟨span, hfound, if_pos hlabel⟩
      · rw [if_neg hlabel] at h
        have hopened := (opened_of_templateFrom h).1
        rw [Recogniser.find?_templateOpening_cut hfind (by omega) hstop]
        exact Except.bind_eq_ok_iff.2 ⟨found, hfound, (if_neg hlabel).trans (ih h)⟩

/-- A window has a document with a key whose body object opens at an offset; the next document begins at the other
one, or the window ends there. -/
def HasObject (text : Text) (window : Window) (keyField bodyField key : Text) (opened stop : Nat) : Prop :=
  ∃ (before rest : List (Nat × LiteralSpan × Nat)) (field : Nat × LiteralSpan × Nat) (first : Nat),
    (Recogniser.labelledLiteral keyField).all text window.start window.stop = before ++ field :: rest ∧
      field.2.1.value = .ok key ∧ stop = segmentEnd window.stop rest ∧
        (Recogniser.bodyOpening bodyField).find? text field.2.2 stop = some (first, (), opened)

/-- A template that is opened in front of the closing bracket of an object ends in front of it, unless the scan for
that bracket passes over its backtick. -/
theorem lt_closing {opened closed : Nat} (h : templateFrom text locale stop (text.length + 1) opened = .ok (some span))
    (hclosed : Bracket.closing? text opened none false = some closed) (hspan : span.1 ≤ closed)
    (hseen : ¬ Bracket.Hides text opened (span.1 - 1)) : span.2 < closed := by
  obtain ⟨hlt, -, hopened⟩ := opened_of_templateFrom h
  have hin : (Body.ofTemplate span).In text := Category.in_of_mem_templateFrom h
  have hpos := hopened.pos
  have hmeets : Bracket.Meets text opened (span.1 - 1) :=
    (Bracket.meets_or_hides hclosed (by omega) (by omega)).resolve_right hseen
  have hend : Literal.closing? text '\x60' (span.1 - 1 + 1) = some span.2 := by
    rw [Nat.sub_add_cancel hpos]
    exact hin
  exact (hmeets.template hopened.backtick hend).le_closing hclosed

end Document

namespace Category

open Document

/-- A body is the first template of its locale behind the brace of its body object, in front of the next document. It
ends in front of the closing bracket of that object exactly when the search finds it with that bracket as its bound,
unless a comment or literal in the object has its backtick in it. -/
theorem documentBodies_inside {c : Category} {text locale keyField bodyField key : Text} {defaults : OrderedMap Text}
    {spans : OrderedMap (Nat × Nat)} {span : Nat × Nat} (hplace : c.placement = .documents keyField bodyField defaults)
    (h : c.documentBodies text locale = .ok (some spans)) (hspan : (key, span) ∈ spans) :
    ∃ (window : Window) (opened stop : Nat), c.window? text = some window ∧
      HasObject text window keyField bodyField key opened stop ∧
        templateFrom text locale stop (text.length + 1) opened = .ok (some span) ∧ opened < span.1 ∧ span.1 ≤ stop ∧
          ∀ closed, Bracket.closing? text opened none false = some closed →
            ¬ Bracket.Hides text opened (span.1 - 1) →
              (span.2 < closed ↔
                templateFrom text locale (min stop closed) (text.length + 1) opened = .ok (some span)) := by
  obtain ⟨_, _, _, hplace', s, hs, hkey, hbody⟩ := exists_of_mem_documentBodies h hspan
  cases hplace.symm.trans hplace'
  obtain ⟨window, hwindow, before, field, rest, hkeys, rfl⟩ := exists_of_mem_segments hplace hs
  rw [Segment.body, body] at hbody
  split at hbody
  · cases hbody
  · next first _ opened hfind =>
    obtain ⟨hlt, hle, -⟩ := opened_of_templateFrom hbody
    have hin : (Body.ofTemplate span).In text := in_of_mem_templateFrom hbody
    have hordered : span.1 ≤ span.2 := hin.exists_behind.1
    refine ⟨window, opened, segmentEnd window.stop rest, hwindow, ⟨before, rest, field, first, hkeys, hkey, rfl, hfind⟩,
      hbody, hlt, hle, fun closed hclosed hseen => ⟨fun hinside => ?_, fun hbounded => ?_⟩⟩
    · have hclosed : span.1 ≤ closed := by omega
      exact templateFrom_cut hbody (Nat.le_min.2 ⟨hle, hclosed⟩) (Nat.min_le_left _ _)
    · have hspan := (opened_of_templateFrom hbounded).2.1
      exact lt_closing hbody hclosed (Nat.le_trans hspan (Nat.min_le_right _ _)) hseen

/-- Articles with their bodies under `content`. -/
def articlesSample : Category :=
  { name := "articles", region := none, placement := .documents "slug" "content" [] }

/-- Two articles, the first one with a comment, brackets in texts and an object of its own in front of the template of
the locale, the second one without that template. -/
def articlesText : Text :=
  "slug: 'a', content: \x7b /* \x7d ar: */ en: \x60x \x7d\x60, meta: \x7b n: ['\x7b', \x22]\x22] \x7d, " ++
    "ar: \x60B \\\x60 \x7d \x7b\x60, fr: \x60F\x60 \x7d,\nslug: 'b', content: \x7b en: \x60C\x60 \x7d\n"

theorem documentBodies_articles :
    (articlesSample.documentBodies articlesText "ar" = .ok (some [("a", 75, 83)]) ∧
      Bracket.closing? articlesText 21 none false = some 94 ∧ ¬ Bracket.Hides articlesText 21 74) ∧
    ∃ (window : Window) (opened stop : Nat), articlesSample.window? articlesText = some window ∧
      HasObject articlesText window "slug" "content" "a" opened stop ∧
        templateFrom articlesText "ar" stop (articlesText.length + 1) opened = .ok (some (75, 83)) ∧ opened < 75 ∧
          75 ≤ stop ∧ ∀ closed, Bracket.closing? articlesText opened none false = some closed →
            ¬ Bracket.Hides articlesText opened (75 - 1) →
              (83 < closed ↔ templateFrom articlesText "ar" (min stop closed) (articlesText.length + 1) opened =
                .ok (some (75, 83))) := by
  have hbodies : articlesSample.documentBodies articlesText "ar" = .ok (some [("a", 75, 83)]) := by decide +kernel
  have hmeets : Bracket.Meets articlesText 21 74 := ⟨0, Bracket.leads_of_iterate (n := 35) (by decide +kernel)⟩
  exact ⟨⟨hbodies, by decide +kernel, hmeets.not_hides⟩, documentBodies_inside rfl hbodies (List.mem_singleton.2 rfl)⟩

/-- The only article has no text in the locale, and another field of it does. -/
def untranslatedText : Text := "slug: 'a', content: \x7b en: \x60A\x60 \x7d, note: \x7b ar: \x60B\x60 \x7d\n"

/-- Without a template of the locale in its body object a document takes over that of another field, behind the
closing bracket of the object. -/
theorem documentBodies_outside :
    articlesSample.documentBodies untranslatedText "ar" = .ok (some [("a", 46, 47)]) ∧
      HasObject untranslatedText (Window.whole untranslatedText) "slug" "content" "a" 21 51 ∧
        Bracket.closing? untranslatedText 21 none false = some 30 ∧ ¬ (21 < 46 ∧ 47 < 30) ∧
          templateFrom untranslatedText "ar" (min 51 30) (untranslatedText.length + 1) 21 = .ok none := by
  refine ⟨by decide +kernel, ⟨[], [], (0, ⟨7, 8, .single, "a"⟩, 9), 11, ?_⟩, by decide +kernel, by decide,
    by decide +kernel⟩
  decide +kernel

end Category

end Bilingual
