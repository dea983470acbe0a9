import Bilingual.Site.Document
import Bilingual.Proofs.Pattern

set_option autoImplicit false

/-! # Which failures can occur

Decoding fails only for an escape beyond the last code point (`Literal.isCodePoint_of_decode`), looking for occurrences
only for an expression that cannot be read or a group of it (`Pattern.failsOnly_mapOccurrences`), and locating a block
only for its opener (`BlockSpan.error_of_locate`). None of them fails for a body without an end (`Terminated`). -/

namespace Bilingual

/-- An escape names a number that is no code point. -/
def Failure.IsCodePoint (failure : Failure) : Prop :=
  failure = .codePointRange ∨ failure = .codePointOverflow

/-- The operation fails only in the given way. -/
def FailsOnly {α : Type} (P : Failure → Prop) (result : Except Failure α) : Prop :=
  ∀ failure, result = .error failure → P failure

section FailsOnly

variable {α β : Type} {P Q : Failure → Prop}

theorem failsOnly_pure (a : α) : FailsOnly P (pure a) := by
  intro failure h
  cases h

theorem FailsOnly.mono {x : Except Failure α} (h : FailsOnly P x) (hPQ : ∀ failure, P failure → Q failure) :
    FailsOnly Q x := fun failure hfailure => hPQ failure (h failure hfailure)

theorem FailsOnly.bind {x : Except Failure α} {f : α → Except Failure β} (hx : FailsOnly P x)
    (hf : ∀ a, x = .ok a → FailsOnly P (f a)) : FailsOnly P (x >>= f) := by
  intro failure h
  rcases Except.bind_eq_error_iff.1 h with h | ⟨a, ha, h⟩
  · exact hx failure h
  · exact hf a ha failure h

theorem FailsOnly.map {x : Except Failure α} (hx : FailsOnly P x) (f : α → β) : FailsOnly P (x.map f) := by
  intro failure h
  cases x with
  | ok a => cases h
  | error e => exact hx failure (congrArg Except.error (Except.error.inj h))

theorem failsOnly_mapM {γ : Type} {f : γ → Except Failure α} {l : List γ}
    (h : ∀ a ∈ l, FailsOnly P (f a)) : FailsOnly P (l.mapM f) := by
  intro failure hl
  obtain ⟨a, ha, hstep⟩ := Except.exists_of_mapM_eq_error hl
  exact h a ha failure hstep

end FailsOnly

/-- The operation does not fail for a body without an end. -/
def Terminated {α : Type} (result : Except Failure α) : Prop :=
  ∀ delimiter start, result ≠ .error (.unterminated delimiter start)

section Terminated

variable {α β : Type}

theorem terminated_iff_failsOnly {x : Except Failure α} :
    Terminated x ↔ FailsOnly (fun failure => ∀ delimiter start, failure ≠ .unterminated delimiter start) x := by
  constructor
  · rintro h failure hx delimiter start rfl
    exact h delimiter start hx
  · intro h delimiter start hx
    exact h _ hx delimiter start rfl

theorem terminated_pure (a : α) : Terminated (pure a) := terminated_iff_failsOnly.2 (failsOnly_pure a)

theorem terminated_ok (a : α) : Terminated (.ok a) := terminated_pure a

theorem Terminated.bind {x : Except Failure α} {f : α → Except Failure β} (hx : Terminated x)
    (hf : ∀ a, x = .ok a → Terminated (f a)) : Terminated (x >>= f) :=
  terminated_iff_failsOnly.2 <|
    (terminated_iff_failsOnly.1 hx).bind fun a ha => terminated_iff_failsOnly.1 (hf a ha)

theorem Terminated.map {x : Except Failure α} (hx : Terminated x) (f : α → β) : Terminated (x.map f) :=
  terminated_iff_failsOnly.2 ((terminated_iff_failsOnly.1 hx).map f)

theorem terminated_mapM {γ : Type} {f : γ → Except Failure α} {l : List γ}
    (h : ∀ a ∈ l, Terminated (f a)) : Terminated (l.mapM f) :=
  terminated_iff_failsOnly.2 (failsOnly_mapM fun a ha => terminated_iff_failsOnly.1 (h a ha))

theorem Failure.IsCodePoint.terminated {x : Except Failure α}
    (h : ∀ failure, x = .error failure → failure.IsCodePoint) : Terminated x := by
  intro delimiter start hx
  rcases h _ hx with h | h <;> cases h

end Terminated

/-! ## Decoding -/

namespace Literal

theorem isCodePoint_of_codePoint {n : Nat} {failure : Failure} (h : codePoint n = .error failure) :
    failure.IsCodePoint := by
  unfold codePoint at h
  split at h
  · cases h
  · cases h
    unfold Failure.IsCodePoint
    split
    · exact .inl rfl
    · exact .inr rfl

theorem isCodePoint_of_decodeUnicode {rest : Text} {failure : Failure}
    (h : decodeUnicode rest = .error failure) : failure.IsCodePoint := by
  unfold decodeUnicode at h
  split at h
  · dsimp only at h
    split at h
    · rcases Except.bind_eq_error_iff.1 h with h | ⟨_, -, h⟩
      · exact isCodePoint_of_codePoint h
      · cases h
    · cases h
  · split at h
    · rcases Except.bind_eq_error_iff.1 h with h | ⟨_, -, h⟩
      · exact isCodePoint_of_codePoint h
      · cases h
    · cases h

theorem isCodePoint_of_decodeEscape {c : CodePoint} {rest : Text} {failure : Failure}
    (h : decodeEscape c rest = .error failure) : failure.IsCodePoint := by
  unfold decodeEscape at h
  split at h
  · cases h
  · split_ifs at h
    · cases h
    · exact isCodePoint_of_decodeUnicode h
    · split at h
      · rcases Except.bind_eq_error_iff.1 h with h | ⟨_, -, h⟩
        · exact isCodePoint_of_codePoint h
        · cases h
      · cases h
    · cases h

theorem isCodePoint_of_decodeFrom {skip : Nat} {body : Text} {failure : Failure}
    (h : decodeFrom skip body = .error failure) : failure.IsCodePoint := by
  induction body generalizing skip with
  | nil =>
    cases skip <;> cases h
  | cons c rest ih =>
    cases skip with
    | succ skip => exact ih h
    | zero =>
      rw [decodeFrom.eq_def] at h
      dsimp only at h
      split at h
      · cases rest with
        | nil => cases h
        | cons d behind =>
          rcases Except.bind_eq_error_iff.1 h with h | ⟨⟨decoded, taken⟩, -, h⟩
          · exact isCodePoint_of_decodeEscape h
          · rcases Except.bind_eq_error_iff.1 h with h | ⟨_, -, h⟩
            · exact ih h
            · cases h
      · rcases Except.bind_eq_error_iff.1 h with h | ⟨_, -, h⟩
        · exact ih h
        · cases h

/-- Decoding fails only for an escape beyond the last code point. -/
theorem isCodePoint_of_decode {body : Text} {failure : Failure} (h : decode body = .error failure) :
    failure.IsCodePoint :=
  isCodePoint_of_decodeFrom h

theorem terminated_decode (body : Text) : Terminated (decode body) :=
  Failure.IsCodePoint.terminated fun _ => isCodePoint_of_decode

end Literal

theorem LiteralSpan.terminated_value (l : LiteralSpan) : Terminated l.value :=
  Literal.terminated_decode l.raw

/-! ## Occurrences -/

/-- What has to follow cannot be read if it is no expression, or repeats something too often. -/
theorem Following.error_of_ofText {written : Text} {failure : Failure} (h : ofText written = .error failure) :
    failure = .lookahead written ∨ failure = .repetitionRange := by
  unfold ofText at h
  split at h
  · cases h
  · dsimp only at h
    split at h
    · cases h
      exact .inr rfl
    · cases h
      exact .inl rfl
    · split at h <;> cases h
      exact .inl rfl

section Occurrences

variable {α : Type} {P : Failure → Prop} {pattern : Pattern} {text : Text} {step : Occurrence → Except Failure α}

/-- A step fails for occurrences in a text, or what has to follow them cannot be read, or has a group that is asked
for. -/
theorem Pattern.failsOnly_mapOccurrences (hfollowing : FailsOnly P pattern.following)
    (hgroup : ∀ following, pattern.following = .ok following → ¬ following.Plain →
      ∀ failure : Failure, failure.IsGroup → P failure)
    (hstep : ∀ o : Occurrence, o.In text → FailsOnly P (step o)) (start stop : Nat) :
    FailsOnly P (pattern.mapOccurrences text start stop step) := by
  intro failure h
  rcases of_mapOccurrences_eq_error h with h | ⟨following, hok, h | h⟩
  · exact hfollowing failure h
  · exact failsOnly_mapM (fun o ho => hstep o (in_of_mem_search ho).1) failure h
  · obtain ⟨hfailure, hplain⟩ := isGroup_of_search h
    exact hgroup following hok hplain failure hfailure

theorem Category.failsOnly_mapOccurrences {c : Category} (hfollowing : FailsOnly P pattern.following)
    (hgroup : ∀ following, pattern.following = .ok following → ¬ following.Plain →
      ∀ failure : Failure, failure.IsGroup → P failure)
    (hstep : ∀ o : Occurrence, o.In text → FailsOnly P (step o)) :
    FailsOnly P (c.mapOccurrences text pattern step) := by
  unfold mapOccurrences
  split
  · exact failsOnly_pure _
  · exact Pattern.failsOnly_mapOccurrences hfollowing hgroup hstep _ _

theorem Category.failsOnly_occurrences {c : Category} (hfollowing : FailsOnly P pattern.following)
    (hgroup : ∀ following, pattern.following = .ok following → ¬ following.Plain →
      ∀ failure : Failure, failure.IsGroup → P failure) : FailsOnly P (c.occurrences text pattern) :=
  failsOnly_mapOccurrences hfollowing hgroup fun _ _ => failsOnly_pure _

theorem Category.terminated_occurrences (c : Category) (text : Text) (pattern : Pattern) :
    Terminated (c.occurrences text pattern) := by
  refine terminated_iff_failsOnly.2 (failsOnly_occurrences ?_ ?_)
  · cases pattern with
    | pair label primary secondary followedBy =>
      rintro failure h delimiter start rfl
      rcases Following.error_of_ofText h with h | h <;> cases h
    | keyedPair => exact failsOnly_pure _
    | choice => exact failsOnly_pure _
  · rintro following - - failure (rfl | rfl) <;> exact nofun

end Occurrences

/-! ## Windows -/

/-- Where a window ends that starts at `start`. -/
def Region.end? (last : Option Text) (text : Text) (start : Nat) : Option Nat :=
  match last with
  | some needle => text.find? needle start text.length
  | none => some text.length

theorem Region.le_length_of_end? {last : Option Text} {text : Text} {start stop : Nat}
    (h : Region.end? last text start = some stop) : stop ≤ text.length := by
  unfold Region.end? at h
  split at h
  · exact Text.le_length_of_find? h
  · cases h
    exact Nat.le_refl _

theorem Region.stop_le_of_window? {region : Region} {text : Text} {window : Window}
    (h : region.window? text = some window) : window.stop ≤ text.length := by
  obtain ⟨first, last⟩ := region
  -- wherever the window starts, its end is looked for in the same way
  obtain ⟨start, h⟩ : ∃ start : Nat,
      ((Region.end? last text start) >>= fun stop => some (Window.mk start stop)) = some window := by
    unfold Region.window? at h
    cases first with
    | none =>
      refine ⟨0, ?_⟩
      cases last <;> exact h
    | some opening =>
      obtain ⟨start, -, h⟩ := Option.bind_eq_some_iff.1 h
      refine ⟨start, ?_⟩
      cases last <;> exact h
  obtain ⟨stop, hstop, h⟩ := Option.bind_eq_some_iff.1 h
  cases h
  exact Region.le_length_of_end? hstop

/-- The window of a category does not reach beyond the text. -/
theorem Category.stop_le_of_window? {c : Category} {text : Text} {window : Window}
    (h : c.window? text = some window) : window.stop ≤ text.length := by
  unfold Category.window? at h
  split at h
  · cases h
    exact Nat.le_refl _
  · exact Region.stop_le_of_window? h

/-! ## Blocks -/

theorem BlockSpan.blockOpener_of_opener {written : Text} {failure : Failure}
    (h : BlockSpan.opener written = .error failure) : failure = .blockOpener written := by
  unfold BlockSpan.opener at h
  split at h
  · cases h
  · cases h
    rfl

/-- Locating a block fails only for an opener without a bracket at its end, when the window does not
reach beyond the text. -/
theorem BlockSpan.error_of_locate {text : Text} {anchors : List Text} {written : Text}
    {start stop : Nat} (hstop : stop ≤ text.length) {failure : Failure}
    (h : BlockSpan.locate text anchors written start stop = .error failure) :
    BlockSpan.opener written = .error failure := by
  unfold BlockSpan.locate at h
  split at h
  · cases h
  · rcases Except.bind_eq_error_iff.1 h with h | ⟨⟨opener, closer⟩, -, h⟩
    · exact h
    -- the search for the closing bracket leaves the text only in a window that does
    · have hinside : ∀ bodyStart, Bracket.leavesText text bodyStart stop true = false := by
        intro bodyStart
        unfold Bracket.leavesText
        simp [Nat.not_lt.2 hstop]
      simp only [hinside] at h
      split at h
      · cases h
      · cases h

end Bilingual
