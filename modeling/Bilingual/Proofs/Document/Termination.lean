import Bilingual.Proofs.Document.Search
import Bilingual.Proofs.Document.Segment
import Mathlib.Data.List.Induction

set_option autoImplicit false

/-! # Looking for documents comes to an end

In every document the search for its body comes to an end (`Document.Segment.terminates`), with a template of the locale
in the segment of the document, without one, or for a template that is not closed. The bodies that are found come in the
order of the first documents with their keys that have one (`Document.Collects`), and looking for them fails in the first
document that cannot be read (`Category.documentBodies_terminates`). -/

namespace Bilingual

/-! ## First values -/

namespace OrderedMap

variable {α : Type}

/-- At a place stands a pair, and no row in front of it has a value under its key. -/
def FirstAt (rows : List (Text × Option α)) (place : Nat) (pair : Text × α) : Prop :=
  rows[place]? = some (pair.1, some pair.2) ∧ ∀ i < place, ∀ found, rows[i]? = some (pair.1, found) → found = none

theorem FirstAt.append {rows : List (Text × Option α)} {place : Nat} {pair : Text × α} (h : FirstAt rows place pair)
    (more : List (Text × Option α)) : FirstAt (rows ++ more) place pair := by
  obtain ⟨hpair, hfirst⟩ := h
  obtain ⟨hlt, -⟩ := List.getElem?_eq_some_iff.1 hpair
  refine ⟨by rw [List.getElem?_append_left hlt, hpair], fun i hi found hfound => hfirst i hi found ?_⟩
  rwa [List.getElem?_append_left (by omega)] at hfound

/-- Putting the values of rows under new keys gives the first value of each key, in the order of the rows. -/
theorem exists_places (rows : List (Text × Option α)) : ∃ places : List Nat, places.Pairwise (· < ·) ∧
    List.Forall₂ (FirstAt rows) places (putNewAll [] (present rows)) := by
  induction rows using List.reverseRecOn with
  | nil => exact ⟨[], .nil, .nil⟩
  | append_singleton rows row ih =>
    obtain ⟨places, hordered, hplaces⟩ := ih
    have hkept : List.Forall₂ (FirstAt (rows ++ [row])) places (putNewAll [] (present rows)) :=
      hplaces.imp fun _ _ h => h.append [row]
    obtain ⟨key, found⟩ := row
    have hpresent : present (rows ++ [(key, found)]) = present rows ++ (found.map (key, ·)).toList := by
      unfold present
      rw [List.filterMap_append]
      cases found <;> rfl
    cases found with
    | none =>
      rw [hpresent, Option.map_none, Option.toList_none, List.append_nil]
      exact ⟨places, hordered, hkept⟩
    | some value =>
      have hput : putNewAll [] (present (rows ++ [(key, some value)])) =
          (putNewAll [] (present rows)).putNew key value := by
        rw [hpresent, putNewAll, List.foldl_append]
        rfl
      rw [hput, putNew]
      cases hlookup : lookup? (putNewAll [] (present rows)) key with
      | some old => exact ⟨places, hordered, hkept⟩
      | none =>
        -- the key is new, so no row in front has a value under it
        have hnew : ∀ value, (key, some value) ∉ rows := by
          intro value hmem
          have hlookup : lookup? (present rows) key = none := (lookup?_putNewAll [] (present rows) key).symm.trans hlookup
          exact lookup?_eq_none_iff.1 hlookup (mem_keys_of_mem (mem_present_iff.2 hmem))
        refine ⟨places ++ [rows.length], List.pairwise_append.2 ⟨hordered, List.pairwise_singleton _ _, ?_⟩,
          List.rel_append hkept (.cons ⟨?_, ?_⟩ .nil)⟩
        · intro place hplace last hlast
          obtain ⟨pair, -, hpair, -⟩ := List.Forall₂.exists_of_mem_left hplaces hplace
          rw [List.mem_singleton.1 hlast]
          exact (List.getElem?_eq_some_iff.1 hpair).1
        · rw [List.getElem?_append_right (Nat.le_refl _), Nat.sub_self]
          rfl
        · intro i hi found hfound
          rw [List.getElem?_append_left hi] at hfound
          cases found with
          | none => rfl
          | some value => exact absurd (List.mem_of_getElem? hfound) (hnew value)

end OrderedMap

/-! ## One document -/

namespace Document

namespace Segment

/-- The search for the body of a document comes to an end. With no body field it has nothing to search. In a body
field it goes through cursors that increase, one for each template of another locale that it reads over, and takes two
backticks with each of them, and another one where a template ends it. -/
structure Terminates (text bodyField locale : Text) (s : Segment) : Prop where
  bare : (Recogniser.bodyOpening bodyField).find? text s.start s.stop = none → s.body text bodyField locale = .ok none
  field : ∀ first opened, (Recogniser.bodyOpening bodyField).find? text s.start s.stop = some (first, (), opened) →
    s.start ≤ opened ∧ ∃ steps, Search text locale s.stop opened steps (s.body text bodyField locale) ∧
      (opened :: steps).Pairwise (· < ·) ∧ 2 * steps.length ≤ Text.backticks (text.drop opened) ∧
        (s.body text bodyField locale ≠ .ok none → 2 * steps.length < Text.backticks (text.drop opened))

/-- A template that is opened in a document is not closed in the text. -/
def Unclosed (text : Text) (failure : Failure) (s : Segment) : Prop :=
  ∃ opened, failure = .unterminated '\x60' opened ∧ s.start < opened ∧ opened ≤ s.stop ∧
    text[opened - 1]? = some ('\x60' : CodePoint) ∧ Literal.firstUnescaped? '\\' '\x60' (text.drop opened) = none

variable {text bodyField locale key : Text} {s : Segment} {failure : Failure} {span : Nat × Nat}

theorem terminates (text bodyField locale : Text) (s : Segment) : s.Terminates text bodyField locale := by
  refine ⟨fun hfield => ?_, fun first opened hfield => ?_⟩
  · rw [body, Document.body, hfield]
    rfl
  · obtain ⟨hle, cursor, after, hcursor, hfirst, hbehind, hread⟩ :=
      Recogniser.read_of_mem_all (Recogniser.mem_all_of_find? hfield)
    obtain ⟨-, hforward⟩ := Recogniser.forward_bodyOpening bodyField _ _ _ hcursor _ _ hread
    obtain ⟨steps, result, hsearch⟩ := Search.exists_search text locale s.stop opened
    have hbody : s.body text bodyField locale = result := by
      rw [body, Document.body, hfield]
      exact hsearch.templateFrom_eq
    rw [hbody]
    dsimp only at hle hfirst hbehind
    exact ⟨by omega, steps, hsearch, hsearch.increasing, hsearch.two_mul_length_le⟩

/-- What comes of a body field comes of a search in it. -/
theorem exists_search_of_body {result : Except Failure (Option (Nat × Nat))} (hresult : result ≠ .ok none)
    (h : s.body text bodyField locale = result) :
    ∃ opened steps, s.start ≤ opened ∧ Search text locale s.stop opened steps result := by
  have hends := s.terminates text bodyField locale
  cases hfield : (Recogniser.bodyOpening bodyField).find? text s.start s.stop with
  | none => exact absurd ((hends.bare hfield).symm.trans h).symm hresult
  | some place =>
    obtain ⟨first, ⟨⟩, opened⟩ := place
    obtain ⟨hle, steps, hsearch, -⟩ := hends.field first opened hfield
    exact ⟨opened, steps, hle, h ▸ hsearch⟩

theorem template_of_body (h : s.body text bodyField locale = .ok (some span)) :
    Template text locale s.start s.stop span := by
  obtain ⟨opened, steps, hle, hsearch⟩ := exists_search_of_body (by simp) h
  obtain ⟨cursor, first, hcursor, hfound⟩ := hsearch.template.found
  exact { hsearch.template with found := ⟨cursor, first, Nat.le_trans hle hcursor, hfound⟩ }

theorem unclosed_of_body (h : s.body text bodyField locale = .error failure) : s.Unclosed text failure := by
  obtain ⟨opened, steps, hle, hsearch⟩ := exists_search_of_body (by simp) h
  obtain ⟨start, hfailure, hlt, hrest⟩ := hsearch.unterminated
  exact ⟨start, hfailure, Nat.lt_of_le_of_lt hle hlt, hrest⟩

end Segment

/-! ## All documents -/

variable {text bodyField locale : Text}

/-- The spans are bodies of the documents, each under its key: one for each key of a document with a body, in the order
of the first of the documents with the key that have one. -/
structure Collects (text bodyField locale : Text) (documents : List Segment) (spans : OrderedMap (Nat × Nat)) :
    Prop where
  ordered : ∃ places : List Nat, places.Pairwise (· < ·) ∧ List.Forall₂ (fun place pair =>
    (∃ s, documents[place]? = some s ∧ s.read text bodyField locale = .ok (pair.1, some pair.2) ∧
      Template text locale s.start s.stop pair.2) ∧
    ∀ i < place, ∀ s found, documents[i]? = some s → s.read text bodyField locale = .ok (pair.1, found) →
      found = none) places spans
  complete : ∀ s ∈ documents, ∀ key span, s.read text bodyField locale = .ok (key, some span) →
    key ∈ OrderedMap.keys spans

theorem collects_of_mapM {documents : List Segment} {rows : List (Text × Option (Nat × Nat))}
    (h : documents.mapM (Segment.read text bodyField locale) = .ok rows) :
    Collects text bodyField locale documents (OrderedMap.putNewAll [] (OrderedMap.present rows)) := by
  have hrows := Except.mapM_eq_ok_iff.1 h
  obtain ⟨places, hordered, hplaces⟩ := OrderedMap.exists_places rows
  refine ⟨⟨places, hordered, hplaces.imp ?_⟩, fun s hs key span hread => ?_⟩
  · rintro place ⟨key, span⟩ ⟨hrow, hfirst⟩
    refine ⟨?_, fun i hi s found hs hread => ?_⟩
    · obtain ⟨s, hs, hread⟩ := List.Forall₂.exists_of_getElem? hrows.flip hrow
      exact ⟨s, hs, hread, Segment.template_of_body (Segment.read_eq_ok_iff.1 hread).2⟩
    · obtain ⟨row, hrow, hread'⟩ := List.Forall₂.exists_of_getElem? hrows hs
      cases Except.ok.inj (hread.symm.trans hread')
      exact hfirst i hi found hrow
  · obtain ⟨row, hrow, hread'⟩ := List.Forall₂.exists_of_mem_left hrows hs
    cases Except.ok.inj (hread.symm.trans hread')
    rw [← not_not (a := key ∈ _), ← OrderedMap.lookup?_eq_none_iff, OrderedMap.lookup?_putNewAll]
    exact fun hnone => OrderedMap.lookup?_eq_none_iff.1 hnone
      (OrderedMap.mem_keys_of_mem (OrderedMap.mem_present_iff.2 hrow))

end Document

namespace Category

variable {c : Category} {keyField bodyField : Text} {defaults : OrderedMap Text}

/-- Looking for the bodies of documents comes to an end in every document. It fails only in the first document that
cannot be read, for its key or for a template that is not closed; without a document it has no result, and else the
bodies of the documents are its result. -/
theorem documentBodies_terminates (h : c.placement = .documents keyField bodyField defaults) (text locale : Text) :
    (∀ s ∈ c.segments text, s.Terminates text bodyField locale) ∧
      match c.documentBodies text locale with
      | .error failure => ∃ before s after, c.segments text = before ++ s :: after ∧
          (∀ other ∈ before, ∃ row, other.read text bodyField locale = .ok row) ∧
            s.read text bodyField locale = .error failure ∧
              (s.key.value = .error failure ∨ s.Unclosed text failure)
      | .ok none => c.segments text = []
      | .ok (some spans) => c.segments text ≠ [] ∧
          (∀ s ∈ c.segments text, ∃ row, s.read text bodyField locale = .ok row) ∧
            Document.Collects text bodyField locale (c.segments text) spans := by
  refine ⟨fun s _ => s.terminates text bodyField locale, ?_⟩
  rcases documentBodies_cases h text locale with ⟨hnone, hbodies⟩ | ⟨hsome, hbodies⟩
  · rw [hbodies]
    exact hnone
  · rw [hbodies]
    cases hrows : (c.segments text).mapM (Document.Segment.read text bodyField locale) with
    | error failure =>
      obtain ⟨before, s, after, hsegments, hbefore, hread⟩ := Except.split_of_mapM_eq_error hrows
      exact ⟨before, s, after, hsegments, hbefore, hread,
        (Document.Segment.of_read_error hread).imp_right Document.Segment.unclosed_of_body⟩
    | ok rows =>
      refine ⟨hsome, fun s hs => ?_, Document.collects_of_mapM hrows⟩
      obtain ⟨row, -, hread⟩ := List.Forall₂.exists_of_mem_left (Except.mapM_eq_ok_iff.1 hrows) hs
      exact ⟨row, hread⟩

/-- Bulletins with their bodies under `body`. -/
def bulletinSample : Category := { name := "bulletins", region := none, placement := .documents "id" "body" [] }

/-- Three bulletins, the first and the last one under the same key. In the first one what looks like the label of the
locale is text of another template, behind an escaped backtick; the second one has the locale behind another one. -/
def bulletinText : Text :=
  "id: 'a', body: \x7b fr: \x60x \\\x60 ar: \x60 \x7d,\n" ++
    "id: 'b', body: \x7b en: \x60B\x60, ar: \x60b \\\x60q\\\x60\x60 \x7d,\nid: 'a', body: \x7b ar: \x60a\x60 \x7d\n"

theorem documentBodies_bulletins :
    bulletinSample.documentBodies bulletinText "ar" = .ok (some [("b", 67, 74), ("a", 101, 102)]) ∧
      (∀ s ∈ bulletinSample.segments bulletinText, s.Terminates bulletinText "body" "ar") ∧
        Document.Collects bulletinText "body" "ar" (bulletinSample.segments bulletinText)
          [("b", 67, 74), ("a", 101, 102)] := by
  have hspans : bulletinSample.documentBodies bulletinText "ar" = .ok (some [("b", 67, 74), ("a", 101, 102)]) := by
    decide +kernel
  obtain ⟨hends, hresult⟩ := documentBodies_terminates (c := bulletinSample) rfl bulletinText "ar"
  rw [hspans] at hresult
  obtain ⟨-, -, hcollects⟩ := hresult
  exact ⟨hspans, hends, hcollects⟩

end Category

end Bilingual
