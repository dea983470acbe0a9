import Bilingual.Proofs.Run

set_option autoImplicit false

/-! # Places from left to right

A window is searched code point by code point, and what a place has taken is skipped (`Recogniser.allFrom`). What that
finds is told here without the skipping: each place is the first one behind the place before, up to one where reading
comes to an error, and if there is none nothing can be read behind the last place (`Recogniser.Leftmost`). So no place is
missed in front of an error: wherever something can be read, a place begins or lies around it
(`Recogniser.Leftmost.exists_around`). -/

namespace Bilingual

/-! ## Cursors of a window -/

namespace Cursor

variable {text : Text} {start stop : Nat} {c : CodePoint} {rest : Text}

theorem ofWindow_in (h : (ofWindow text start stop).rest ≠ []) : (ofWindow text start stop).In text stop := by
  refine in_ofWindow (Nat.le_of_not_lt fun hlt => h ?_)
  exact List.drop_eq_nil_of_le (Nat.le_of_lt hlt)

theorem ofWindow_step (h : (ofWindow text start stop).rest = c :: rest) :
    (ofWindow text start stop).step c rest = ofWindow text (start + 1) stop := by
  have hin : (ofWindow text start stop).In text stop := ofWindow_in (by simp [h])
  have hprevious : text[start]? = some c := hin.getElem?_of_rest h
  have hrest : text.slice (start + 1) stop = rest := by
    rw [Text.slice, ← List.tail_drop]
    exact congrArg List.tail h
  unfold ofWindow
  rw [if_neg (Nat.succ_ne_zero start), Nat.add_sub_cancel, hprevious, hrest]
  rfl

theorem ofWindow_advance {n : Nat} (h : n ≤ (ofWindow text start stop).rest.length) :
    (ofWindow text start stop).advance n = ofWindow text (start + n) stop := by
  induction n generalizing start with
  | zero => rfl
  | succ n ih =>
    cases hrest : (ofWindow text start stop).rest with
    | nil => simp [hrest] at h
    | cons c rest =>
      have hstep := ofWindow_step hrest
      have hlength : n ≤ (ofWindow text (start + 1) stop).rest.length := by
        rw [← hstep]
        rw [hrest] at h
        exact Nat.le_of_succ_le_succ h
      rw [advance_cons hrest, hstep, ih hlength, Nat.add_right_comm, Nat.add_assoc]

end Cursor

namespace Recogniser

variable {α ε : Type} {text : Text} {start stop : Nat}

/-- What is found in a window is what is read where something can be read for the first time. -/
theorem first?_of_find? {r : Recogniser α} {first behind : Nat} {a : α}
    (h : r.find? text start stop = some (first, a, behind)) :
    start ≤ first ∧ (∀ n, start ≤ n → n < first → r.first? (Cursor.ofWindow text n stop) = none) ∧
      ∃ after : Cursor, r.first? (Cursor.ofWindow text first stop) = some (a, after) ∧ after.offset = behind := by
  unfold find? at h
  dsimp only at h
  generalize hrest : (Cursor.ofWindow text start stop).rest = rest at h
  induction rest generalizing start with
  | nil => cases h
  | cons c rest ih =>
    rw [findFrom?] at h
    split at h
    · next a behind hfirst =>
      cases h
      exact ⟨Nat.le_refl _, fun n hn hlt => absurd hlt (Nat.not_lt.2 hn), behind, hfirst, rfl⟩
    · next hnone =>
      have hstep := Cursor.ofWindow_step hrest
      rw [hstep] at h
      obtain ⟨hle, hskip, hread⟩ := ih (by rw [← hstep]; rfl) h
      refine ⟨Nat.le_of_succ_le hle, fun n hn hlt => ?_, hread⟩
      rcases Nat.eq_or_lt_of_le hn with rfl | hn
      · exact hnone
      · exact hskip n hn hlt

/-! ## Places in front of an error -/

/-- Without an error the recogniser reads at least one code point, and ends behind what it reads. -/
def Consumes (r : Recogniser (Except ε α)) : Prop :=
  ∀ cursor a behind, (.ok a, behind) ∈ r.run cursor →
    ∃ n, 0 < n ∧ n ≤ cursor.rest.length ∧ behind = cursor.advance n

variable {r : Recogniser (Except ε α)} {places : List (Nat × α × Nat)} {error : Option (Nat × ε)}

theorem length_rest_ofWindow (text : Text) (start stop : Nat) :
    (Cursor.ofWindow text start stop).rest.length = min stop text.length - start := by
  show (text.slice start stop).length = _
  rw [Text.slice, List.length_drop, List.length_take]

/-- What is read at an offset of a window takes code points of the window. -/
theorem Consumes.ofWindow (hr : r.Consumes) {offset : Nat} {a : α} {behind : Cursor}
    (h : (.ok a, behind) ∈ r.run (Cursor.ofWindow text offset stop)) :
    offset < behind.offset ∧ behind.offset ≤ min stop text.length ∧
      behind = Cursor.ofWindow text behind.offset stop := by
  obtain ⟨n, hpos, hle, rfl⟩ := hr _ _ _ h
  rw [Cursor.ofWindow_advance hle]
  rw [length_rest_ofWindow] at hle
  have hoffset : (Cursor.ofWindow text (offset + n) stop).offset = offset + n := rfl
  exact ⟨by omega, by omega, rfl⟩

/-- Places of a window from an offset on: each is what is read where something can be read for the first time behind
the place before. Behind the last one comes an error, or nothing can be read there. -/
inductive Leftmost (r : Recogniser (Except ε α)) (text : Text) (stop : Nat) :
    Nat → List (Nat × α × Nat) → Option (Nat × ε) → Prop
  | nil {start : Nat}
      (hnone : ∀ n, start ≤ n → n ≤ min stop text.length → r.first? (Cursor.ofWindow text n stop) = none) :
      Leftmost r text stop start [] none
  | error {start first : Nat} {e : ε} {behind : Cursor} (hle : start ≤ first) (hlast : first ≤ min stop text.length)
      (hskip : ∀ n, start ≤ n → n < first → r.first? (Cursor.ofWindow text n stop) = none)
      (hread : r.first? (Cursor.ofWindow text first stop) = some (.error e, behind)) :
      Leftmost r text stop start [] (some (first, e))
  | cons {start first behind : Nat} {a : α} {places : List (Nat × α × Nat)} {error : Option (Nat × ε)}
      (hle : start ≤ first)
      (hskip : ∀ n, start ≤ n → n < first → r.first? (Cursor.ofWindow text n stop) = none)
      (hread : r.first? (Cursor.ofWindow text first stop) = some (.ok a, Cursor.ofWindow text behind stop))
      (hrest : Leftmost r text stop behind places error) :
      Leftmost r text stop start ((first, a, behind) :: places) error

/-- Where nothing is read the search goes on. -/
theorem Leftmost.skip (h : r.Leftmost text stop (start + 1) places error)
    (hnone : r.first? (Cursor.ofWindow text start stop) = none) : r.Leftmost text stop start places error := by
  have hfrom : ∀ {P : Nat → Prop}, P start → (∀ n, start + 1 ≤ n → P n) → ∀ n, start ≤ n → P n := by
    intro P hstart hrest n hn
    rcases Nat.eq_or_lt_of_le hn with rfl | hn
    · exact hstart
    · exact hrest n hn
  cases h with
  | nil hbehind => exact .nil (hfrom (fun _ => hnone) hbehind)
  | error hle hlast hskip hread => exact .error (by omega) hlast (hfrom (fun _ => hnone) hskip) hread
  | cons hle hskip hread hrest => exact .cons (by omega) (hfrom (fun _ => hnone) hskip) hread hrest

/-- The places that have been found up to an error, and that error. -/
def untilFault (found : List (Nat × Except ε α × Nat)) : List (Nat × α × Nat) × Option ε :=
  untilError (found.map fun (first, a, behind) => a.map (first, ·, behind))

theorem untilFault_ok (first behind : Nat) (a : α) (found : List (Nat × Except ε α × Nat)) :
    untilFault ((first, .ok a, behind) :: found) =
      ((first, a, behind) :: (untilFault found).1, (untilFault found).2) := rfl

/-- At the end of a window there is no code point left to read, so only an error can be there. -/
theorem leftmost_atWindowEnd (hr : r.Consumes) (text : Text) (stop : Nat) : ∃ places error,
    untilFault (r.atWindowEnd text stop) = (places, error.map Prod.snd) ∧
      r.Leftmost text stop (min stop text.length) places error := by
  rw [atWindowEnd]
  dsimp only
  cases hfirst : r.first? (Cursor.ofWindow text (min stop text.length) stop) with
  | none =>
    refine ⟨[], none, rfl, .nil fun n hn hle => ?_⟩
    rwa [Nat.le_antisymm hle hn]
  | some way =>
    obtain ⟨a | a, behind⟩ := way
    · exact ⟨[], some (_, a), rfl, .error (Nat.le_refl _) (Nat.le_refl _) (fun n hn hlt => by omega) hfirst⟩
    · obtain ⟨hlt, hle, -⟩ := hr.ofWindow (mem_run_of_first? hfirst)
      omega

/-- A search from an offset on, whose first `skip` code points belong to the place before. -/
theorem leftmost_allFrom (hr : r.Consumes) (start skip : Nat) (hle : start + skip ≤ min stop text.length) :
    ∃ places error, untilFault (allFrom r skip (Cursor.ofWindow text start stop)
      (Cursor.ofWindow text start stop).rest ++ r.atWindowEnd text stop) = (places, error.map Prod.snd) ∧
        r.Leftmost text stop (start + skip) places error := by
  have hlength := length_rest_ofWindow text start stop
  generalize hrest : (Cursor.ofWindow text start stop).rest = rest at hlength ⊢
  induction rest generalizing start skip with
  | nil =>
    -- only the end of the window is left
    obtain ⟨rfl, rfl⟩ : skip = 0 ∧ start = min stop text.length := by
      rw [List.length_nil] at hlength
      omega
    exact leftmost_atWindowEnd hr text stop
  | cons c rest ih =>
    have hstep := Cursor.ofWindow_step hrest
    have hnext : (Cursor.ofWindow text (start + 1) stop).rest = rest := by rw [← hstep]; rfl
    rw [List.length_cons] at hlength
    have hshorter : rest.length = min stop text.length - (start + 1) := by omega
    rw [allFrom.eq_def]
    dsimp only
    rw [hstep]
    cases skip with
    | succ skip =>
      -- this code point belongs to the place before
      obtain ⟨places, error, hfound, hleft⟩ := ih (start + 1) skip (by omega) hnext hshorter
      rw [show start + 1 + skip = start + (skip + 1) by omega] at hleft
      exact ⟨places, error, hfound, hleft⟩
    | zero =>
      dsimp only
      cases hfirst : r.first? (Cursor.ofWindow text start stop) with
      | none =>
        obtain ⟨places, error, hfound, hleft⟩ := ih (start + 1) 0 (by omega) hnext hshorter
        exact ⟨places, error, hfound, hleft.skip hfirst⟩
      | some way =>
        obtain ⟨a | a, behind⟩ := way
        · exact ⟨[], some (start, a), rfl, .error (Nat.le_refl _) hle
            (fun _ hn hlt => absurd hlt (Nat.not_lt.2 hn)) hfirst⟩
        · obtain ⟨hlt, hle, hbehind⟩ := hr.ofWindow (mem_run_of_first? hfirst)
          obtain ⟨places, error, hfound, hleft⟩ :=
            ih (start + 1) (behind.offset - start - 1) (by omega) hnext hshorter
          rw [show start + 1 + (behind.offset - start - 1) = behind.offset by omega] at hleft
          rw [hbehind] at hfirst
          refine ⟨(start, a, behind.offset) :: places, error, ?_,
            .cons (Nat.le_refl _) (fun n hn hlt => by omega) hfirst hleft⟩
          rw [List.cons_append, untilFault_ok]
          exact congrArg (fun found => ((start, a, behind.offset) :: found.1, found.2)) hfound

/-- The places of a window are the leftmost ones. -/
theorem leftmost_places (hr : r.Consumes) (text : Text) (start stop : Nat) : ∃ places error,
    untilFault (r.places text start stop) = (places, error.map Prod.snd) ∧ r.Leftmost text stop start places error := by
  unfold Recogniser.places
  by_cases hle : start ≤ min stop text.length
  · rw [if_pos hle]
    exact leftmost_allFrom hr start 0 hle
  · have hnil : r.all text start stop = [] := by
      have hlength := length_rest_ofWindow text start stop
      unfold all
      dsimp only
      rw [List.eq_nil_of_length_eq_zero (by omega : (Cursor.ofWindow text start stop).rest.length = 0)]
      rfl
    rw [if_neg hle, hnil]
    exact ⟨[], none, rfl, .nil fun n hn hlast => by omega⟩

namespace Leftmost

/-- A place is what is read where it begins, and lies in the window. -/
theorem of_mem (hr : r.Consumes) (h : r.Leftmost text stop start places error) {place : Nat × α × Nat}
    (hplace : place ∈ places) : start ≤ place.1 ∧ place.1 < place.2.2 ∧ place.2.2 ≤ min stop text.length ∧
      (.ok place.2.1, Cursor.ofWindow text place.2.2 stop) ∈ r.run (Cursor.ofWindow text place.1 stop) := by
  induction h with
  | nil | error => cases hplace
  | cons hle _ hread _ ih =>
    have hway := mem_run_of_first? hread
    obtain ⟨hlt, hlast, -⟩ := hr.ofWindow hway
    rcases List.mem_cons.1 hplace with rfl | hplace
    · exact ⟨hle, hlt, hlast, hway⟩
    · obtain ⟨hbehind, hrest⟩ := ih hplace
      exact ⟨Nat.le_trans (Nat.le_trans hle (Nat.le_of_lt hlt)) hbehind, hrest⟩

theorem pairwise (hr : r.Consumes) (h : r.Leftmost text stop start places error) :
    places.Pairwise fun first second => first.1 < second.1 ∧ first.2.2 ≤ second.1 := by
  induction h with
  | nil | error => exact List.Pairwise.nil
  | cons _ _ hread hrest ih =>
    refine List.pairwise_cons.2 ⟨fun place hplace => ?_, ih⟩
    obtain ⟨hlt, -⟩ := hr.ofWindow (mem_run_of_first? hread)
    obtain ⟨hle, -⟩ := hrest.of_mem hr hplace
    exact ⟨Nat.lt_of_lt_of_le hlt hle, hle⟩

/-- An error comes behind all places, and is what is read where it comes. -/
theorem of_error (hr : r.Consumes) {offset : Nat} {e : ε} (h : r.Leftmost text stop start places (some (offset, e))) :
    start ≤ offset ∧ offset ≤ min stop text.length ∧ (∀ place ∈ places, place.2.2 ≤ offset) ∧
      ∃ behind, (.error e, behind) ∈ r.run (Cursor.ofWindow text offset stop) := by
  generalize herror : some (offset, e) = error at h
  induction h with
  | nil => cases herror
  | error hle hlast _ hread =>
    cases herror
    exact ⟨hle, hlast, List.forall_mem_nil _, _, mem_run_of_first? hread⟩
  | cons hle _ hread _ ih =>
    obtain ⟨hbehind, hlast, hplaces, hway⟩ := ih herror
    have hlt := (hr.ofWindow (mem_run_of_first? hread)).1
    dsimp only [Cursor.ofWindow] at hlt
    exact ⟨by omega, hlast, List.forall_mem_cons.2 ⟨hbehind, hplaces⟩, hway⟩

/-- No place is missed: where something can be read a place begins or lies around it, or an error has come before. -/
theorem exists_around (h : r.Leftmost text stop start places error) {n : Nat} (hle : start ≤ n)
    (hlast : n ≤ min stop text.length) (hread : r.run (Cursor.ofWindow text n stop) ≠ []) :
    (∃ place ∈ places, place.1 ≤ n ∧ n < place.2.2) ∨ ∃ offset ≤ n, ∃ e, error = some (offset, e) := by
  have hsome : r.first? (Cursor.ofWindow text n stop) ≠ none := fun hnone => hread (List.head?_eq_none_iff.1 hnone)
  induction h with
  | nil hnone => exact absurd (hnone n hle hlast) hsome
  | @error _ first e _ _ _ hskip _ =>
    exact .inr ⟨first, Nat.le_of_not_lt fun hlt => hsome (hskip n hle hlt), e, rfl⟩
  | @cons start first behind a places _ _ hskip _ _ ih =>
    have hfirst : first ≤ n := Nat.le_of_not_lt fun hlt => hsome (hskip n hle hlt)
    by_cases hin : n < behind
    · exact .inl ⟨_, List.mem_cons_self, hfirst, hin⟩
    · refine (ih (Nat.le_of_not_lt hin)).imp_left ?_
      rintro ⟨place, hplace, haround⟩
      exact ⟨place, List.mem_cons_of_mem _ hplace, haround⟩

end Leftmost

end Recogniser

end Bilingual
