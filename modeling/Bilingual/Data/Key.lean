import Bilingual.Calendar
import Bilingual.Json.Basic
import Bilingual.Number.Shortest
import Bilingual.Text.Quoted
import Bilingual.Text.Utf8

set_option autoImplicit false

/-! # Keys of a map

The keys of a map are texts in most documents, but a manifest may hold others. Keys that stand for one
number are the same key, and truth values count as 0 and 1. A key is also a step of the path to a problem,
and there it shows as a text or a small integer. -/

namespace Bilingual

/-- A key of a map. -/
inductive DataKey where
  | text (t : Text)
  | integer (n : Int)
  | real (x : Binary64)
  | null
  | bytes (b : List UInt8)
  | moment (m : Moment)
deriving DecidableEq, Repr

namespace DataKey

/-- Whether two keys are the same key of a map. -/
def same : DataKey → DataKey → Bool
  | integer n, real x => x.toInt? == some n
  | real x, integer n => x.toInt? == some n
  | real x, real y => x == y || (x.toInt? == some 0 && y.toInt? == some 0)
  | moment m, moment n => m.same n
  | a, b => a == b

/-- How a number shows. -/
def shownReal : Binary64 → Text
  | .nan => "nan"
  | .infinite negative => if negative then "-inf" else "inf"
  | x => x.toText

/-- How a key shows as a step of a path. Surrogates in a text are replaced, and only integers of 64 bits
show as integers. -/
def shown : DataKey → Json
  | text t => .text (Text.Utf8.lossy t)
  | integer n =>
    if -(Nat.pow 2 63 : Int) ≤ n ∧ n < Nat.pow 2 63 then .integer n else .text (Text.ofInt n)
  | real x => .text (shownReal x)
  | null => .text "None"
  | bytes b => .text (Text.quotedBytes b)
  | moment m => .text m.shown

end DataKey

end Bilingual
