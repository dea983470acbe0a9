import Bilingual.Literal.Closing
import Bilingual.Proofs.Literal

set_option autoImplicit false

/-! # Where bodies are closed

Escapes are counted backwards from a delimiter, so what closes a body depends on the parity of the escapes in
front of it alone. A body that is closed is so in any text it is copied to (`Literal.closes_of_closing?`), and an
escaped text is closed by the delimiter behind it, whatever it holds (`Delimiter.closes_escape`). -/

namespace Bilingual

namespace Literal

/-! ## Reading up to the delimiter -/

/-- How many escapes stand right before the next code point; `before` is what has been read, last code point first. -/
def runBefore (escape : CodePoint) (before : Text) : Nat :=
  (before.takeWhile fun e => decide ([e] = [escape])).length

section Run

variable {escape delimiter : CodePoint} {before : Text}

theorem runBefore_cons_of_ne {c : CodePoint} (before : Text) (h : c ≠ escape) :
    runBefore escape (c :: before) = 0 := by
  rw [runBefore, List.takeWhile_cons_of_neg (by simp [h])]
  rfl

theorem runBefore_cons_self (escape : CodePoint) (before : Text) :
    runBefore escape (escape :: before) = runBefore escape before + 1 := by
  rw [runBefore, List.takeWhile_cons_of_pos (by simp), List.length_cons]
  rfl

/-- The delimiter closes the body behind an even run of escapes. -/
theorem closingIn?_of_even (rest : Text) (h : runBefore escape before % 2 = 0) :
    closingIn? [escape] delimiter before (delimiter :: rest) = some 0 := by
  rw [closingIn?]
  exact if_pos ⟨rfl, h⟩

/-- Anything else belongs to the body. -/
theorem closingIn?_of_not {c : CodePoint} (rest : Text) (h : ¬ (c = delimiter ∧ runBefore escape before % 2 = 0)) :
    closingIn? [escape] delimiter before (c :: rest) =
      (closingIn? [escape] delimiter (c :: before) rest).map (· + 1) := by
  rw [closingIn?]
  exact if_neg h

end Run

/-- How many backslashes stand right before the next code point; `before` is what has been read, last code point
first. -/
def escapesBefore (before : Text) : Nat :=
  (before.takeWhile fun e => decide ([e] = ([('\\' : CodePoint)] : Text))).length

theorem escapesBefore_cons_of_ne {c : CodePoint} (before : Text) (h : c ≠ '\\') :
    escapesBefore (c :: before) = 0 := runBefore_cons_of_ne before h

theorem escapesBefore_backslash (before : Text) :
    escapesBefore (('\\' : CodePoint) :: before) = escapesBefore before + 1 := runBefore_cons_self '\\' before

/-- Behind an escaped code point no escape is left over. -/
theorem even_escapesBefore_escaped {before : Text} (c : CodePoint) (h : escapesBefore before % 2 = 0) :
    escapesBefore (c :: ('\\' : CodePoint) :: before) % 2 = 0 := by
  by_cases hc : c = '\\'
  · rw [hc, escapesBefore_backslash, escapesBefore_backslash]
    omega
  · rw [escapesBefore_cons_of_ne _ hc]

variable {delimiter : CodePoint} {before : Text}

theorem closingIn?_delimiter (rest : Text) (h : escapesBefore before % 2 = 0) :
    closingIn? ['\\'] delimiter before (delimiter :: rest) = some 0 := closingIn?_of_even rest h

theorem closingIn?_cons {c : CodePoint} (rest : Text) (h : ¬ (c = delimiter ∧ escapesBefore before % 2 = 0)) :
    closingIn? ['\\'] delimiter before (c :: rest) =
      (closingIn? ['\\'] delimiter (c :: before) rest).map (· + 1) := closingIn?_of_not rest h

/-- In front of its delimiter a body is closed there, whatever comes behind and whatever has been read before,
if no escape is left over. -/
def Closes (delimiter : CodePoint) (body : Text) : Prop :=
  ∀ before behind : Text, escapesBefore before % 2 = 0 →
    closingIn? ['\\'] delimiter before (body ++ delimiter :: behind) = some body.length

theorem closes_nil (delimiter : CodePoint) : Closes delimiter [] :=
  fun _ behind h => closingIn?_delimiter behind h

theorem Closes.plain {body : Text} {c : CodePoint} (h : Closes delimiter body) (hdelimiter : c ≠ delimiter)
    (hbackslash : c ≠ '\\') : Closes delimiter (c :: body) := by
  intro before behind _
  rw [List.cons_append, closingIn?_cons _ fun hc => hdelimiter hc.1, h _ _ ?_]
  · rfl
  · rw [escapesBefore_cons_of_ne _ hbackslash]

/-- An escaped code point closes nothing, also when it is the delimiter. -/
theorem Closes.escaped {body : Text} {c : CodePoint} (h : Closes delimiter body)
    (hbackslash : ('\\' : CodePoint) ≠ delimiter) : Closes delimiter ('\\' :: c :: body) := by
  intro before behind hbefore
  have hodd : ¬ escapesBefore (('\\' : CodePoint) :: before) % 2 = 0 := by
    rw [escapesBefore_backslash]
    omega
  rw [List.cons_append, List.cons_append, closingIn?_cons _ fun hc => hbackslash hc.1,
    closingIn?_cons _ fun hc => hodd hc.2, h _ _ (even_escapesBefore_escaped c hbefore)]
  rfl

/-! ## Bodies that are found -/

theorem closingIn?_take {t before' : Text} {n : Nat} (h : closingIn? ['\\'] delimiter before t = some n)
    (hparity : escapesBefore before' % 2 = escapesBefore before % 2) (behind : Text) :
    closingIn? ['\\'] delimiter before' (t.take n ++ delimiter :: behind) = some n := by
  induction t generalizing n before before' with
  | nil => cases h
  | cons c rest ih =>
    by_cases hc : c = delimiter ∧ escapesBefore before % 2 = 0
    · obtain ⟨rfl, heven⟩ := hc
      rw [closingIn?_delimiter _ heven] at h
      cases h
      exact closingIn?_delimiter _ (hparity.trans heven)
    · rw [closingIn?_cons _ hc] at h
      obtain ⟨n, hn, rfl⟩ := Option.map_eq_some_iff.1 h
      have hnext : escapesBefore (c :: before') % 2 = escapesBefore (c :: before) % 2 := by
        by_cases hbackslash : c = '\\'
        · rw [hbackslash, escapesBefore_backslash, escapesBefore_backslash]
          omega
        · rw [escapesBefore_cons_of_ne _ hbackslash, escapesBefore_cons_of_ne _ hbackslash]
      rw [List.take_succ_cons, List.cons_append, closingIn?_cons _ fun hc' => hc ⟨hc'.1, hparity ▸ hc'.2⟩,
        ih hn hnext]
      rfl

theorem lt_length_of_closingIn? {t : Text} {n : Nat} (h : closingIn? ['\\'] delimiter before t = some n) :
    n < t.length := by
  induction t generalizing n before with
  | nil => cases h
  | cons c rest ih =>
    by_cases hc : c = delimiter ∧ escapesBefore before % 2 = 0
    · obtain ⟨rfl, heven⟩ := hc
      rw [closingIn?_delimiter _ heven] at h
      cases h
      exact Nat.succ_pos _
    · rw [closingIn?_cons _ hc] at h
      obtain ⟨n, hn, rfl⟩ := Option.map_eq_some_iff.1 h
      exact Nat.succ_lt_succ (ih hn)

/-- In the beginning of a text the scan finds the same delimiter, if that lies there. -/
theorem closingIn?_window (delimiter : CodePoint) (before t : Text) (k : Nat) :
    closingIn? ['\\'] delimiter before (t.take k) = (closingIn? ['\\'] delimiter before t).filter (· < k) := by
  induction t generalizing before k with
  | nil => rw [List.take_nil]; rfl
  | cons c rest ih =>
    cases k with
    | zero =>
      rw [List.take_zero, eq_comm]
      exact Option.filter_eq_none_iff.2 fun n _ => by simp
    | succ k =>
      rw [List.take_succ_cons, closingIn?, closingIn?]
      split
      · rfl
      · rw [ih, Option.filter_map]
        congr 2
        funext n
        simp only [Function.comp_apply, decide_eq_decide]
        omega

/-- A body that is closed in a text is so wherever it stands. -/
theorem closes_of_closing? {text : Text} {start stop : Nat} (h : closing? text delimiter start = some stop) :
    Closes delimiter (text.slice start stop) := by
  obtain ⟨n, hn, rfl⟩ := Option.map_eq_some_iff.1 h
  have hlength := lt_length_of_closingIn? hn
  have hslice : text.slice start (start + n) = (text.drop start).take n := by
    rw [Text.slice, List.drop_take, Nat.add_sub_cancel_left]
  intro before behind hbefore
  rw [hslice, List.length_take_of_le (Nat.le_of_lt hlength)]
  exact closingIn?_take hn hbefore behind

/-- The body of a literal is closed by its quote. -/
theorem closes_of_literalBody? {quote : CodePoint} {t body behind : Text}
    (h : Recogniser.literalBody? quote t = some (body, behind)) : Closes quote body := by
  fun_induction Recogniser.literalBody? quote t generalizing body behind with
  | case1 => cases h
  | case2 =>
    cases h
    exact closes_nil _
  | case3 => cases h
  | case4 =>
    cases h
    exact closes_nil _
  | case5 => cases h
  | case6 => cases h
  | case7 d rest hescaped hquote hline ih =>
    obtain ⟨⟨body', behind'⟩, hfound, heq⟩ := Option.map_eq_some_iff.1 h
    cases heq
    exact (ih hfound).escaped hquote
  | case8 c d rest hquote hline hbackslash ih =>
    obtain ⟨⟨body', behind'⟩, hfound, heq⟩ := Option.map_eq_some_iff.1 h
    cases heq
    exact (ih hfound).plain hquote hbackslash

/-- The body of a literal is on one line. -/
theorem not_mem_of_literalBody? {quote : CodePoint} {t body behind : Text}
    (h : Recogniser.literalBody? quote t = some (body, behind)) : ('\n' : CodePoint) ∉ body := by
  fun_induction Recogniser.literalBody? quote t generalizing body behind with
  | case1 => cases h
  | case2 =>
    cases h
    exact List.not_mem_nil
  | case3 => cases h
  | case4 =>
    cases h
    exact List.not_mem_nil
  | case5 => cases h
  | case6 => cases h
  | case7 d rest hescaped hquote hline ih =>
    obtain ⟨⟨body', behind'⟩, hfound, heq⟩ := Option.map_eq_some_iff.1 h
    cases heq
    simp [ih hfound, Ne.symm hescaped, Ne.symm hline]
  | case8 c d rest hquote hline hbackslash ih =>
    obtain ⟨⟨body', behind'⟩, hfound, heq⟩ := Option.map_eq_some_iff.1 h
    cases heq
    simp [ih hfound, Ne.symm hline]

/-! ## Escaped bodies -/

theorem closes_escapeTemplate (value : Text) : Closes '\x60' (escapeTemplate value) := by
  fun_induction escapeTemplate value with
  | case1 => exact closes_nil _
  | case2 c rest _ ih => exact ih.escaped (by decide)
  | case3 c rest _ _ ih => exact ih.escaped (by decide)
  | case4 c rest hspecial _ ih => exact ih.plain (fun hc => hspecial (.inr hc)) fun hc => hspecial (.inl hc)

/-- An escaped template is read back, whatever comes behind it. -/
theorem decodeFrom_escapeTemplate (value rest : Text) :
    decodeFrom 0 (escapeTemplate value ++ rest) = (decodeFrom 0 rest).map (value ++ ·) := by
  fun_induction escapeTemplate value with
  | case1 => cases h : decodeFrom 0 rest <;> simp [h, Except.map]
  | case2 c value hspecial ih =>
    rw [List.cons_append, List.cons_append, decodeFrom_escaped, ih]
    · cases decodeFrom 0 rest <;> rfl
    · rcases hspecial with rfl | rfl <;> rfl
  | case3 c value _ hdollar ih =>
    rw [List.cons_append, List.cons_append, decodeFrom_escaped, ih]
    · cases decodeFrom 0 rest <;> rfl
    · rw [hdollar.1]
      rfl
  | case4 c value hspecial _ ih =>
    rw [List.cons_append, decodeFrom_plain fun hc => hspecial (.inl hc), ih]
    cases decodeFrom 0 rest <;> rfl

theorem decode_escapeTemplate (value : Text) : decode (escapeTemplate value) = .ok value := by
  have hread := decodeFrom_escapeTemplate value []
  rw [List.append_nil] at hread
  rw [decode, hread]
  exact congrArg Except.ok (List.append_nil value)

end Literal

theorem Quote.Encloses.closes {q : Quote} {body : Text} (h : q.Encloses body) : Literal.Closes q.point body :=
  Literal.closes_of_literalBody? (h [])

theorem Quote.Encloses.not_mem_line {q : Quote} {body : Text} (h : q.Encloses body) :
    ('\n' : CodePoint) ∉ body :=
  Literal.not_mem_of_literalBody? (h [])

/-- An escaped text is closed by the delimiter behind it and by nothing in it. -/
theorem Delimiter.closes_escape (d : Delimiter) (value : Text) : Literal.Closes d.point (d.escape value) := by
  cases d with
  | quote q => exact (q.encloses_escape value).closes
  | template => exact Literal.closes_escapeTemplate value

theorem Delimiter.decode_escape (d : Delimiter) (value : Text) : Literal.decode (d.escape value) = .ok value := by
  cases d with
  | quote q => exact Literal.decode_escape q value
  | template => exact Literal.decode_escapeTemplate value

end Bilingual
