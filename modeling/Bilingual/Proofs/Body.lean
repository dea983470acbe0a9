import Bilingual.Proofs.Closing
import Bilingual.Proofs.Edit
import Bilingual.Proofs.Run
import Bilingual.Proofs.Translate.Site

set_option autoImplicit false

/-! # The bodies that texts are put into

A category that is patched site by site puts texts into bodies: secondary literals, the literals of scalar fields
and templates of documents (`Category.bodies`). Each goes with the leaf of the contents that a text is taken from.
However a body was found, the scan for its delimiter ends where the body does (`Category.in_of_mem_bodies`). -/

namespace Bilingual

/-- The body of a literal or a template: its span and what stands around it. -/
structure Body where
  start : Nat
  stop : Nat
  delimiter : Delimiter
deriving DecidableEq, Repr

/-- The body of a literal. -/
def LiteralSpan.body (l : LiteralSpan) : Body := ⟨l.start, l.stop, .quote l.quote⟩

/-- The body of a template. -/
def Body.ofTemplate (span : Nat × Nat) : Body := ⟨span.1, span.2, .template⟩

/-- The scan for the delimiter of a body, from its start on, ends where the body does. -/
def Body.In (b : Body) (text : Text) : Prop := Literal.closing? text b.delimiter.point b.start = some b.stop

/-! ## Where a body ends -/

namespace Literal

variable {delimiter : CodePoint}

theorem getElem?_of_closingIn? {before t : Text} {n : Nat} (h : closingIn? ['\\'] delimiter before t = some n) :
    t[n]? = some delimiter := by
  induction t generalizing n before with
  | nil => cases h
  | cons c rest ih =>
    by_cases hc : c = delimiter ∧ escapesBefore before % 2 = 0
    · obtain ⟨rfl, heven⟩ := hc
      rw [closingIn?_delimiter _ heven] at h
      cases h
      rfl
    · rw [closingIn?_cons _ hc] at h
      obtain ⟨n, hn, rfl⟩ := Option.map_eq_some_iff.1 h
      exact ih hn

/-- In front of its delimiter a body that is closed there ends there. -/
theorem closing?_of_closes {text body behind : Text} {start : Nat} (h : Closes delimiter body)
    (htext : text.drop start = body ++ delimiter :: behind) :
    closing? text delimiter start = some (start + body.length) := by
  rw [closing?, htext, h [] behind rfl, Option.map_some]

end Literal

/-- A body in a text is closed by the delimiter that stands behind it. -/
theorem Body.In.exists_behind {b : Body} {text : Text} (h : b.In text) :
    b.start ≤ b.stop ∧ b.stop < text.length ∧ Literal.Closes b.delimiter.point (text.slice b.start b.stop) ∧
      ∃ behind, text.drop b.stop = b.delimiter.point :: behind := by
  have hcloses := Literal.closes_of_closing? h
  obtain ⟨n, hn, hstop⟩ := Option.map_eq_some_iff.1 h
  have hdelimiter := Literal.getElem?_of_closingIn? hn
  rw [List.getElem?_drop, hstop] at hdelimiter
  obtain ⟨hlt, hget⟩ := List.getElem?_eq_some_iff.1 hdelimiter
  exact ⟨by omega, hlt, hcloses, _, by rw [List.drop_eq_getElem_cons hlt, hget]⟩

/-- A literal stands in a text: its body is the text there, and the scan for its quote ends where the body does. -/
structure LiteralSpan.In (l : LiteralSpan) (text : Text) : Prop where
  raw_eq : l.raw = text.slice l.start l.stop
  body : l.body.In text

theorem LiteralSpan.Inside.in {l : LiteralSpan} {text : Text} {start stop : Nat} (h : l.Inside text start stop) :
    l.In text := by
  obtain ⟨hlt, hget⟩ := List.getElem?_eq_some_iff.1 h.quote_eq
  have hdrop : text.drop l.start = l.raw ++ l.quote.point :: text.drop (l.stop + 1) := by
    rw [h.raw_eq, ← hget, ← List.drop_eq_getElem_cons hlt]
    exact (Text.slice_append_drop h.start_le_stop).symm
  have hlength : l.start + l.raw.length = l.stop := by
    have hle := h.start_le_stop
    rw [h.raw_eq, Text.slice, List.length_drop, List.length_take_of_le (Nat.le_of_lt hlt)]
    omega
  refine ⟨h.raw_eq, ?_⟩
  show Literal.closing? text l.quote.point l.start = some l.stop
  rw [← hlength]
  exact Literal.closing?_of_closes h.enclosed.closes hdrop

namespace Category

/-- The bodies of a category that is patched site by site, each with the leaf that it takes a text from. -/
def bodies (c : Category) (text : Text) (locales : Locales) : Except Failure (List (Leaf × Body)) :=
  match c.placement with
  | .documents .. => do
    return ((← c.documentBodies text locales.secondary).getD []).map fun (key, span) => (.key key, .ofTemplate span)
  | .scalarFields .. =>
    return ((c.scalarLiterals? text locales.secondary).getD []).map fun (key, l) => (.key key, l.body)
  | _ => do return (← c.sites text locales).map fun s => (s.leaf, s.occurrence.secondary.body)

variable {c : Category} {text locale : Text} {locales : Locales}

/-! ## The bodies of each kind -/

theorem in_of_mem_sites {found : List Site} (h : c.sites text locales = .ok found) {s : Site} (hs : s ∈ found) :
    s.occurrence.In text := by
  cases hkind : c.placement with
  | pairs fields defaults =>
    obtain ⟨columns, hcolumns, rfl⟩ := (sites_pairs_iff hkind).1 h
    obtain ⟨column, hcolumn, hs⟩ := List.mem_flatten.1 hs
    obtain ⟨field, -, occurrences, hoccurrences, rfl⟩ := List.Forall₂.exists_of_mem_right hcolumns hcolumn
    obtain ⟨index, -, ho⟩ := mem_fieldSites_iff.1 hs
    exact (occurrences_spec hoccurrences).1 _ (List.mem_of_getElem? ho)
  | keyedPairs | choices =>
    obtain ⟨occurrences, hoccurrences, hsites⟩ := (sites_keyed_iff (by rw [hkind]; rfl)).1 h
    obtain ⟨o, ho, rfl, -⟩ := List.Forall₂.exists_of_mem_right hsites hs
    exact (occurrences_spec hoccurrences).1 _ ho
  | _ =>
    unfold sites at h
    rw [hkind] at h
    cases h
    cases hs

theorem in_of_mem_templateFrom {stop fuel cursor : Nat} {span : Nat × Nat}
    (h : Document.templateFrom text locale stop fuel cursor = .ok (some span)) : (Body.ofTemplate span).In text := by
  induction fuel generalizing cursor with
  | zero => cases h
  | succ fuel ih =>
    rw [Document.templateFrom] at h
    split at h
    · cases h
    · next opening label first hfind =>
      obtain ⟨span, hspan, h⟩ := Except.bind_eq_ok_iff.1 h
      split at h
      · cases h
        unfold Literal.bodySpan at hspan
        split at hspan
        · next hclosing =>
          cases hspan
          exact hclosing
        · cases hspan
      · exact ih h

theorem in_of_body {bodyField : Text} {start stop : Nat} {span : Nat × Nat}
    (h : Document.body text bodyField locale start stop = .ok (some span)) : (Body.ofTemplate span).In text := by
  unfold Document.body at h
  split at h
  · cases h
  · exact in_of_mem_templateFrom h

theorem in_of_mem_documentBodies {spans : OrderedMap (Nat × Nat)}
    (h : c.documentBodies text locale = .ok (some spans)) :
    ∀ pair ∈ spans, (Body.ofTemplate pair.2).In text := by
  intro pair hpair
  obtain ⟨_, _, _, -, s, -, -, hbody⟩ := exists_of_mem_documentBodies h hpair
  exact in_of_body hbody

/-- A literal that is found behind its label is inside the window. -/
theorem inside_of_find?_labelledLiteral {name : Text} {start stop first behind : Nat} {l : LiteralSpan}
    (h : (Recogniser.labelledLiteral name).find? text start stop = some (first, l, behind)) :
    l.Inside text start stop := by
  obtain ⟨hstart, cursor, after, hcursor, hfirst, -, hread⟩ :=
    Recogniser.read_of_mem_all (Recogniser.mem_all_of_find? h)
  obtain ⟨hin, hinside⟩ := Recogniser.reads_labelledLiteral name hcursor l after hread
  have hle := hin.offset_le
  rw [List.length_take] at hle
  exact hinside.mono (by rw [hfirst]; exact hstart) (by omega)

/-- The literals of scalar fields stand between the last anchor and the end of its object or of the window. -/
theorem inside_of_mem_scalarLiterals? {literals : OrderedMap LiteralSpan}
    (h : c.scalarLiterals? text locale = some literals) : ∃ window start anchors, c.window? text = some window ∧
      text.findAllEnd? window.start window.stop anchors = some start ∧ ∀ pair ∈ literals, pair.2.Inside text start
        ((Bracket.closing? text start (some window.stop) false).getD window.stop) := by
  unfold Category.scalarLiterals? at h
  split at h
  · next anchors fields _ window _ hwindow =>
    obtain ⟨start, hstart, h⟩ := Option.bind_eq_some_iff.1 h
    cases h
    refine ⟨window, start, _, hwindow, hstart, ?_⟩
    refine List.foldlRecOn (motive := fun found : OrderedMap LiteralSpan => ∀ pair ∈ found, pair.2.Inside text start
      ((Bracket.closing? text start (some window.stop) false).getD window.stop)) fields _ (List.forall_mem_nil _)
      fun found hfound field _ pair hpair => ?_
    split at hpair
    · next hfind =>
      rcases OrderedMap.mem_of_mem_put hpair with hpair | rfl
      · exact hfound pair hpair
      · exact inside_of_find?_labelledLiteral hfind
    · exact hfound pair hpair
  · cases h

theorem in_of_mem_scalarLiterals? {literals : OrderedMap LiteralSpan}
    (h : c.scalarLiterals? text locale = some literals) : ∀ pair ∈ literals, pair.2.In text := by
  obtain ⟨window, start, anchors, -, -, hinside⟩ := inside_of_mem_scalarLiterals? h
  exact fun pair hpair => (hinside pair hpair).in

/-- The scan for the delimiter of a body of a category ends where the body does. -/
theorem in_of_mem_bodies {found : List (Leaf × Body)} (h : c.bodies text locales = .ok found) {p : Leaf × Body}
    (hp : p ∈ found) : p.2.In text := by
  unfold bodies at h
  split at h
  · obtain ⟨spans, hspans, h⟩ := Except.bind_eq_ok_iff.1 h
    cases h
    obtain ⟨span, hspan, rfl⟩ := List.mem_map.1 hp
    cases spans with
    | none => cases hspan
    | some spans => exact in_of_mem_documentBodies hspans span hspan
  · cases h
    obtain ⟨pair, hpair, rfl⟩ := List.mem_map.1 hp
    cases hliterals : c.scalarLiterals? text locales.secondary with
    | none =>
      rw [hliterals] at hpair
      cases hpair
    | some literals =>
      rw [hliterals] at hpair
      exact (in_of_mem_scalarLiterals? hliterals pair hpair).body
  · obtain ⟨sites, hsites, h⟩ := Except.bind_eq_ok_iff.1 h
    cases h
    obtain ⟨s, hs, rfl⟩ := List.mem_map.1 hp
    exact (in_of_mem_sites hsites hs).inside.secondary.in.body

end Category

end Bilingual
