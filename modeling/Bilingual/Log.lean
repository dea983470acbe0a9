import Bilingual.Json.Printer

set_option autoImplicit false

/-! # Log events

Export and patching tell what they come across by events. A step keeps the events up to its end also when
it fails, so a step is its events together with its result. -/

namespace Bilingual

/-- How important an event is. -/
inductive LogLevel where
  | info
  | warning
  | error
deriving DecidableEq, Repr

/-- The name of a level. -/
def LogLevel.name : LogLevel → Text
  | info => "INFO"
  | warning => "WARNING"
  | error => "ERROR"

/-- Which activity an event belongs to. -/
inductive LogSource where
  | patch
  | extract
deriving DecidableEq, Repr

/-- The name of the logger of an activity. -/
def LogSource.name : LogSource → Text
  | patch => "bisync.patch"
  | extract => "bisync.extract"

/-- An event: its level, its activity, its name and further fields. -/
structure LogEvent where
  level : LogLevel
  source : LogSource
  name : Text
  fields : List (Text × Json)
deriving DecidableEq, Repr

/-- The line of an event: its name and its fields as one object. -/
def LogEvent.message (event : LogEvent) : Text :=
  (Json.object (("event", .text event.name) :: event.fields)).compact

/-- A step that may fail: what it tells on the way, and its result. -/
structure Logged (ε α : Type) where
  events : List LogEvent
  result : Except ε α

namespace Logged

variable {ε α β : Type}

instance : Monad (Logged ε) where
  pure a := ⟨[], .ok a⟩
  bind x f := match x.result with
    | .ok a => ⟨x.events ++ (f a).events, (f a).result⟩
    | .error e => ⟨x.events, .error e⟩

instance : MonadExceptOf ε (Logged ε) where
  throw e := ⟨[], .error e⟩
  tryCatch x handle := match x.result with
    | .ok a => ⟨x.events, .ok a⟩
    | .error e => ⟨x.events ++ (handle e).events, (handle e).result⟩

instance : MonadLift (Except ε) (Logged ε) where
  monadLift result := ⟨[], result⟩

/-- Tell one event. -/
def tell (event : LogEvent) : Logged ε Unit := ⟨[event], .ok ()⟩

/-- Events do not influence results. -/
theorem result_bind (x : Logged ε α) (f : α → Logged ε β) :
    (x >>= f).result = x.result.bind fun a => (f a).result := by
  show (match x.result with
    | .ok a => (⟨x.events ++ (f a).events, (f a).result⟩ : Logged ε β)
    | .error e => ⟨x.events, .error e⟩).result = _
  cases x.result <;> rfl

/-- A step that only returns a value has that value as its result. -/
@[simp] theorem result_pure (a : α) : (pure a : Logged ε α).result = .ok a := rfl

end Logged

end Bilingual
