import Bilingual.Text.Search

set_option autoImplicit false

/-! # Search windows

A region names a text that a search window starts behind and a text that it ends before. Either may be
left out; one that does not occur leaves no window at all. -/

namespace Bilingual

/-- The part of a text from `start` up to `stop`. -/
structure Window where
  start : Nat
  stop : Nat
deriving DecidableEq, Repr

/-- The texts around a window. -/
structure Region where
  start : Option Text
  stop : Option Text
deriving DecidableEq, Repr

/-- The whole of a text. -/
def Window.whole (text : Text) : Window := ⟨0, text.length⟩

/-- The window of a region: behind the first occurrence of its start, before the first occurrence of its
end from there on. -/
def Region.window? (region : Region) (text : Text) : Option Window := do
  let start ← match region.start with
    | some needle => text.findEnd? needle 0 text.length
    | none => some 0
  let stop ← match region.stop with
    | some needle => text.find? needle start text.length
    | none => some text.length
  return ⟨start, stop⟩

end Bilingual
