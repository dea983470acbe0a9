import Bilingual.Log
import Bilingual.Edit

set_option autoImplicit false

/-! # Report entries and plans

For every text that a snapshot brings, patching reports what became of it. A plan is the edits of one
category together with these entries. -/

namespace Bilingual

/-- What became of a text. -/
inductive PatchStatus where
  | updated
  | unchanged
  | skipped
  | notFound
  | shifted
  | invalid
deriving DecidableEq, Repr

namespace PatchStatus

/-- The name of a status in reports. -/
def name : PatchStatus → Text
  | updated => "updated"
  | unchanged => "unchanged"
  | skipped => "skipped"
  | notFound => "not_found"
  | shifted => "shifted"
  | invalid => "invalid"

/-- All statuses in the order of the tally. -/
def all : List PatchStatus := [updated, unchanged, skipped, notFound, shifted, invalid]

end PatchStatus

/-- What became of a text, a record or a whole category: the number of the record, the key and the field
are given where there are such. -/
structure PatchEntry where
  category : Text
  status : PatchStatus
  index : Option Int := none
  key : Option Text := none
  field : Option Text := none
  detail : Option Text := none
deriving DecidableEq, Repr

namespace PatchEntry

/-- The fields that say which site an entry is about. -/
def placeFields (entry : PatchEntry) : List (Text × Json) :=
  (entry.index.map fun n => (Text.ofString "index", Json.integer n)).toList ++
    (entry.key.map fun t => (Text.ofString "key", Json.text t)).toList ++
    (entry.field.map fun t => (Text.ofString "field", Json.text t)).toList

/-- An entry as it is written, without the fields it does not have. -/
def toJson (entry : PatchEntry) : Json :=
  .object (("category", .text entry.category) :: ("status", .text entry.status.name) ::
    (entry.placeFields ++
      (entry.detail.map fun t => (Text.ofString "detail", Json.text t)).toList))

end PatchEntry

/-- The edits of a category and the entries that report them. -/
structure Plan where
  edits : List Edit := []
  entries : List PatchEntry := []
deriving DecidableEq, Repr

namespace Plan

/-- A plan that changes nothing and reports one entry. -/
def report (entry : PatchEntry) : Plan := { entries := [entry] }

/-- Report a site that is not there; such a site is also told as an event. -/
def notFound (entry : PatchEntry) : Logged Failure Plan := do
  Logged.tell ⟨.info, .patch, "site_not_found", ("category", .text entry.category) :: entry.placeFields⟩
  return report { entry with status := .notFound }

/-- Plans one after the other. -/
def concat (plans : List Plan) : Plan where
  edits := plans.flatMap Plan.edits
  entries := plans.flatMap Plan.entries

/-- Plan for each of a list of things, in order. -/
def forEach {α : Type} (things : List α) (plan : α → Logged Failure Plan) : Logged Failure Plan := do
  return concat (← things.mapM plan)

end Plan

end Bilingual
