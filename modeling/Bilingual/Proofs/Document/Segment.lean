import Bilingual.Proofs.OrderedMap
import Bilingual.Proofs.Step
import Bilingual.Site.Document

set_option autoImplicit false

/-! # The documents of a text

A document reaches from its key field to the next one (`Document.Segment`). The bodies of a text are looked for in each
document by itself (`Document.Segment.read`), and of each key the first body counts (`Document.bodiesFrom_eq`). So what
is found comes from a document (`Category.exists_of_mem_documentBodies`), and looking for it fails only where a document
cannot be read (`Category.exists_of_documentBodies_error`). -/

namespace Bilingual

/-! ## Rows with a value -/

namespace OrderedMap

variable {α : Type}

/-- The rows that have a value, as pairs. -/
def present (rows : List (Text × Option α)) : List (Text × α) := rows.filterMap fun row => row.2.map (row.1, ·)

theorem mem_present_iff {rows : List (Text × Option α)} {key : Text} {value : α} :
    (key, value) ∈ present rows ↔ (key, some value) ∈ rows := by
  unfold present
  rw [List.mem_filterMap]
  constructor
  · rintro ⟨⟨key, found⟩, hrow, hvalue⟩
    obtain ⟨value, rfl, hpair⟩ := Option.map_eq_some_iff.1 hvalue
    cases hpair
    exact hrow
  · intro h
    exact ⟨_, h, rfl⟩

end OrderedMap

/-! ## One document -/

namespace Document

/-- A document of a text: its key, and the segment between its key field and the next one. -/
structure Segment where
  key : LiteralSpan
  start : Nat
  stop : Nat
deriving DecidableEq, Repr

/-- The documents with the given key fields, in front of an offset. -/
def segments (stop : Nat) : List (Nat × LiteralSpan × Nat) → List Segment
  | [] => []
  | (_, literal, behind) :: rest => ⟨literal, behind, segmentEnd stop rest⟩ :: segments stop rest

namespace Segment

/-- The span of the template of a locale in the body field of a document. -/
def body (text bodyField locale : Text) (s : Segment) : Except Failure (Option (Nat × Nat)) :=
  Document.body text bodyField locale s.start s.stop

/-- The key of a document, and its body in a locale. -/
def read (text bodyField locale : Text) (s : Segment) : Except Failure (Text × Option (Nat × Nat)) := do
  let key ← s.key.value
  let found ← s.body text bodyField locale
  return (key, found)

variable {text bodyField locale key : Text} {s : Segment} {found : Option (Nat × Nat)} {failure : Failure}

theorem read_eq_ok_iff : s.read text bodyField locale = .ok (key, found) ↔
    s.key.value = .ok key ∧ s.body text bodyField locale = .ok found := by
  unfold read
  cases s.key.value with
  | error failure => exact iff_of_false (fun h => by cases h) fun h => by cases h.1
  | ok key' =>
    cases s.body text bodyField locale with
    | error failure => exact iff_of_false (fun h => by cases h) fun h => by cases h.2
    | ok found' =>
      constructor
      · rintro ⟨⟩
        exact ⟨rfl, rfl⟩
      · rintro ⟨⟨⟩, ⟨⟩⟩
        rfl

/-- Reading a document fails for its key or for its body. -/
theorem of_read_error (h : s.read text bodyField locale = .error failure) :
    s.key.value = .error failure ∨ s.body text bodyField locale = .error failure := by
  rcases Except.bind_eq_error_iff.1 h with hkey | ⟨key, -, h⟩
  · exact .inl hkey
  · rcases Except.bind_eq_error_iff.1 h with hbody | ⟨found, -, hpure⟩
    · exact .inr hbody
    · cases hpure

end Segment

variable {text bodyField locale : Text} {stop : Nat}

/-- A document is told by its key field and by the fields behind that. -/
theorem exists_of_mem_segments {keys : List (Nat × LiteralSpan × Nat)} {s : Segment} (h : s ∈ segments stop keys) :
    ∃ before field rest, keys = before ++ field :: rest ∧ s = ⟨field.2.1, field.2.2, segmentEnd stop rest⟩ := by
  induction keys with
  | nil => cases h
  | cons first rest ih =>
    rcases List.mem_cons.1 h with rfl | h
    · exact ⟨[], first, rest, rfl, rfl⟩
    · obtain ⟨before, field, behind, rfl, hs⟩ := ih h
      exact ⟨first :: before, field, behind, rfl, hs⟩

/-- The bodies of documents are the first ones of their keys, when every document can be read. -/
theorem bodiesFrom_eq (found : OrderedMap (Nat × Nat)) (keys : List (Nat × LiteralSpan × Nat)) :
    bodiesFrom text bodyField locale stop found keys =
      ((segments stop keys).mapM (Segment.read text bodyField locale)).map fun rows =>
        found.putNewAll (OrderedMap.present rows) := by
  induction keys generalizing found with
  | nil => rfl
  | cons first rest ih =>
    obtain ⟨offset, literal, behind⟩ := first
    rw [bodiesFrom, segments, List.mapM_cons, Segment.read]
    cases literal.value with
    | error failure => rfl
    | ok key =>
      dsimp only [Segment.body]
      cases body text bodyField locale behind (segmentEnd stop rest) with
      | error failure => rfl
      | ok span =>
        cases span with
        | none =>
          refine (ih found).trans ?_
          cases (segments stop rest).mapM (Segment.read text bodyField locale) <;> rfl
        | some span =>
          refine (ih (found.putNew key span)).trans ?_
          cases (segments stop rest).mapM (Segment.read text bodyField locale) <;> rfl

end Document

/-! ## The documents of a category -/

/-- The documents of a category in a text. -/
def Category.segments (c : Category) (text : Text) : List Document.Segment :=
  match c.placement, c.window? text with
  | .documents keyField _ _, some window =>
    Document.segments window.stop ((Recogniser.labelledLiteral keyField).all text window.start window.stop)
  | _, _ => []

namespace Category

variable {c : Category} {text locale keyField bodyField : Text} {defaults : OrderedMap Text}

/-- The key of a document is what its key field holds. -/
theorem exists_of_mem_segments (h : c.placement = .documents keyField bodyField defaults) {s : Document.Segment}
    (hs : s ∈ c.segments text) : ∃ window, c.window? text = some window ∧ ∃ before field rest,
      (Recogniser.labelledLiteral keyField).all text window.start window.stop = before ++ field :: rest ∧
        s = ⟨field.2.1, field.2.2, Document.segmentEnd window.stop rest⟩ := by
  unfold segments at hs
  rw [h] at hs
  cases hwindow : c.window? text with
  | none =>
    rw [hwindow] at hs
    cases hs
  | some window =>
    rw [hwindow] at hs
    exact ⟨window, rfl, Document.exists_of_mem_segments hs⟩

/-- Without a document there is no result; else the first bodies of the keys of the documents are the result. -/
theorem documentBodies_cases (h : c.placement = .documents keyField bodyField defaults) (text locale : Text) :
    c.segments text = [] ∧ c.documentBodies text locale = .ok none ∨
      c.segments text ≠ [] ∧ c.documentBodies text locale =
        ((c.segments text).mapM (Document.Segment.read text bodyField locale)).map fun rows =>
          some (OrderedMap.putNewAll [] (OrderedMap.present rows)) := by
  unfold documentBodies segments
  rw [h]
  cases c.window? text with
  | none => exact .inl ⟨rfl, rfl⟩
  | some window =>
    dsimp only [Document.bodies]
    cases hkeys : (Recogniser.labelledLiteral keyField).all text window.start window.stop with
    | nil => exact .inl ⟨rfl, rfl⟩
    | cons first rest =>
      refine .inr ⟨List.cons_ne_nil _ _, ?_⟩
      dsimp only
      rw [Document.bodiesFrom_eq]
      cases (Document.segments window.stop (first :: rest)).mapM (Document.Segment.read text bodyField locale) <;> rfl

/-- What is found comes from reading documents. -/
theorem exists_of_documentBodies_ok {spans : OrderedMap (Nat × Nat)}
    (h : c.documentBodies text locale = .ok (some spans)) :
    ∃ keyField bodyField defaults rows, c.placement = .documents keyField bodyField defaults ∧
      (c.segments text).mapM (Document.Segment.read text bodyField locale) = .ok rows ∧
        spans = OrderedMap.putNewAll [] (OrderedMap.present rows) := by
  cases hplace : c.placement with
  | documents keyField bodyField defaults =>
    rcases documentBodies_cases hplace text locale with ⟨-, hnone⟩ | ⟨-, hbodies⟩
    · cases hnone.symm.trans h
    · obtain ⟨rows, hrows, hspans⟩ := Except.map_eq_ok_iff.1 (hbodies.symm.trans h)
      cases hspans
      exact ⟨keyField, bodyField, defaults, rows, rfl, hrows, rfl⟩
  | _ =>
    unfold documentBodies at h
    rw [hplace] at h
    cases h

/-- Every body that is found is the body of a document. -/
theorem exists_of_mem_documentBodies {spans : OrderedMap (Nat × Nat)}
    (h : c.documentBodies text locale = .ok (some spans)) {pair : Text × Nat × Nat} (hpair : pair ∈ spans) :
    ∃ keyField bodyField defaults, c.placement = .documents keyField bodyField defaults ∧
      ∃ s ∈ c.segments text, s.key.value = .ok pair.1 ∧ s.body text bodyField locale = .ok (some pair.2) := by
  obtain ⟨keyField, bodyField, defaults, rows, hplace, hrows, rfl⟩ := exists_of_documentBodies_ok h
  have hrow := OrderedMap.mem_present_iff.1 (OrderedMap.mem_of_mem_putNewAll_nil hpair)
  obtain ⟨s, hs, hread⟩ := List.Forall₂.exists_of_mem_right (Except.mapM_eq_ok_iff.1 hrows) hrow
  exact ⟨keyField, bodyField, defaults, hplace, s, hs, Document.Segment.read_eq_ok_iff.1 hread⟩

/-- Looking for bodies fails for the key or the body of a document. -/
theorem exists_of_documentBodies_error {failure : Failure} (h : c.documentBodies text locale = .error failure) :
    ∃ keyField bodyField defaults, c.placement = .documents keyField bodyField defaults ∧
      ∃ s ∈ c.segments text, s.key.value = .error failure ∨ s.body text bodyField locale = .error failure := by
  cases hplace : c.placement with
  | documents keyField bodyField defaults =>
    rcases documentBodies_cases hplace text locale with ⟨-, hnone⟩ | ⟨-, hbodies⟩
    · cases hnone.symm.trans h
    · cases hrows : (c.segments text).mapM (Document.Segment.read text bodyField locale) with
      | ok rows =>
        rw [hrows] at hbodies
        cases hbodies.symm.trans h
      | error failure' =>
        rw [hrows] at hbodies
        cases hbodies.symm.trans h
        obtain ⟨s, hs, hread⟩ := Except.exists_of_mapM_eq_error hrows
        exact ⟨keyField, bodyField, defaults, rfl, s, hs, Document.Segment.of_read_error hread⟩
  | _ =>
    unfold documentBodies at h
    rw [hplace] at h
    cases h

end Category

end Bilingual
