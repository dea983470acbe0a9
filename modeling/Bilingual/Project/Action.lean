import Bilingual.Log
import Bilingual.Project.Failure

set_option autoImplicit false

/-! # Work on a project

An action reads and writes the files of a project, tells events and comes to a result. When it fails, the
files written and the events told before stay. -/

namespace Bilingual

/-- What an action leads to: the files behind it, its events and its result. -/
structure Outcome (α : Type) where
  files : Files
  events : List LogEvent
  result : Except ProjectFailure α

/-- Work on the files of a project. -/
def Action (α : Type) : Type := Files → Outcome α

namespace Action

variable {α : Type}

instance : Monad Action where
  pure a := fun files => ⟨files, [], .ok a⟩
  bind x f := fun files =>
    let first := x files
    match first.result with
    | .error e => ⟨first.files, first.events, .error e⟩
    | .ok a =>
      let second := f a first.files
      ⟨second.files, first.events ++ second.events, second.result⟩

/-- Stop. -/
def fail (failure : ProjectFailure) : Action α := fun files => ⟨files, [], .error failure⟩

/-- Tell one event. -/
def tell (event : LogEvent) : Action Unit := fun files => ⟨files, [event], .ok ()⟩

/-- The result of something that cannot tell events. -/
def ofExcept : Except ProjectFailure α → Action α
  | .ok a => pure a
  | .error failure => fail failure

/-- A step on texts that may fail; its events are told either way. -/
def attempt (step : Logged Failure α) : Action (Except Failure α) :=
  fun files => ⟨files, step.events, .ok step.result⟩

/-- A step on texts; when it fails, the action does too. -/
def ofStep (step : Logged Failure α) : Action α := do
  match ← attempt step with
  | .ok a => return a
  | .error failure => fail (.text failure)

/-- Whether there is a file at a path. -/
def isFile (path : Path) : Action Bool := fun files => ⟨files, [], (files.isFile path).mapError .file⟩

/-- The text of a file. -/
def read (path : Path) : Action Text :=
  fun files => ⟨files, [], (files.read path).mapError .file⟩

/-- Write the text of a file. -/
def write (path : Path) (text : Text) : Action Unit := fun files =>
  let (files, result) := files.write path text
  ⟨files, [], result.mapError .file⟩

end Action

end Bilingual
