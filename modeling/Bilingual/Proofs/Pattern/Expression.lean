import Bilingual.Pattern.Reader
import Bilingual.Proofs.Run

set_option autoImplicit false

/-! # What expressions read

The ways to read an expression lead from the marks of groups and a cursor to others (`Expression.Way`). They say nothing
about the order in which alternatives and repetitions are tried, but for the expressions that keep to the first way.
Reading by trying is sound and complete for them (`Expression.tells_read`): what is read behind an expression is read at
the end of one of its ways, and something is read if there is a way at whose end something is. So the bound on the
number of repetitions cuts nothing off. No way leads back (`Cursor.Ahead`). -/

namespace Bilingual

/-! ## Cursors ahead -/

/-- A cursor is some code points ahead of another one. -/
def Cursor.Ahead (cursor behind : Cursor) : Prop := ∃ n ≤ cursor.rest.length, behind = cursor.advance n

namespace Cursor.Ahead

variable {cursor between behind : Cursor}

theorem refl (cursor : Cursor) : cursor.Ahead cursor := ⟨0, Nat.zero_le _, rfl⟩

theorem trans (h : cursor.Ahead between) (h' : between.Ahead behind) : cursor.Ahead behind := by
  obtain ⟨n, hn, rfl⟩ := h
  obtain ⟨m, hm, rfl⟩ := h'
  rw [rest_advance, List.length_drop] at hm
  exact ⟨n + m, by omega, (advance_add cursor n m).symm⟩

theorem offset_le (h : cursor.Ahead behind) : cursor.offset ≤ behind.offset := by
  obtain ⟨n, hn, rfl⟩ := h
  rw [offset_advance hn]
  exact Nat.le_add_right _ _

/-- A cursor at another offset has less ahead of it. -/
theorem length_lt (h : cursor.Ahead behind) (hne : behind.offset ≠ cursor.offset) :
    behind.rest.length < cursor.rest.length := by
  obtain ⟨n, hn, rfl⟩ := h
  rw [offset_advance hn] at hne
  rw [rest_advance, List.length_drop]
  omega

theorem of_rest {c : CodePoint} {rest : Text} (h : cursor.rest = c :: rest) : cursor.Ahead (cursor.step c rest) :=
  ⟨1, by rw [h]; exact Nat.succ_le_succ (Nat.zero_le _), by rw [advance_cons h, advance]⟩

end Cursor.Ahead

namespace Expression

/-! ## Ways to read -/

/-- Which marks and which cursor are reached from given ones. -/
abbrev Ways := Marks → Cursor → Marks → Cursor → Prop

/-- A way that is gone a number of times. -/
def Times (ways : Ways) : Nat → Ways
  | 0, marks, cursor, taken, behind => taken = marks ∧ behind = cursor
  | n + 1, marks, cursor, taken, behind =>
    ∃ between middle, ways marks cursor between middle ∧ Times ways n between middle taken behind

/-- A way that is gone a number of times, each time but the last one to another offset. -/
def Further (ways : Ways) : Nat → Ways
  | 0, marks, cursor, taken, behind => taken = marks ∧ behind = cursor
  | n + 1, marks, cursor, taken, behind =>
    ∃ between middle, ways marks cursor between middle ∧ (n = 0 ∨ middle.offset ≠ cursor.offset) ∧
      Further ways n between middle taken behind

/-- What was looked for is there or not, as it is wanted; if it is there its marks stay. -/
def Looks (wanted : Bool) (found : Option (Marks × Cursor)) (marks taken : Marks) : Prop :=
  match wanted with
  | true => ∃ behind, found = some (taken, behind)
  | false => found = none ∧ taken = marks

/-- The ways to read an expression. -/
def Way (text : Text) : Expression → Ways
  | nothing, marks, cursor, taken, behind => taken = marks ∧ behind = cursor
  | points set, marks, cursor, taken, behind =>
    taken = marks ∧ ∃ c, set.has c = true ∧ [c] <+: cursor.rest ∧ behind = cursor.advance 1
  | place asked, marks, cursor, taken, behind => taken = marks ∧ behind = cursor ∧ asked.holds cursor = true
  | seq first rest, marks, cursor, taken, behind =>
    ∃ between middle, first.Way text marks cursor between middle ∧ rest.Way text between middle taken behind
  | either first second, marks, cursor, taken, behind =>
    first.Way text marks cursor taken behind ∨ second.Way text marks cursor taken behind
  | times least more _ body, marks, cursor, taken, behind =>
    ∃ n, (∀ most ∈ more, n ≤ most) ∧ ∃ between middle, Times (body.Way text) least marks cursor between middle ∧
      Further (body.Way text) n between middle taken behind
  | group number body, marks, cursor, taken, behind =>
    ∃ between, body.Way text ((Marks.opening number, cursor.offset) :: marks) cursor between behind ∧
      taken = (Marks.closing number, behind.offset) :: between
  | again number ignoreCase ascii, marks, cursor, taken, behind =>
    taken = marks ∧ ∃ start stop, marks.span? number = some (start, stop) ∧
      repeats (samePoint ignoreCase ascii) (text.slice start stop) cursor = true ∧
        behind = cursor.advance (text.slice start stop).length
  | ifTook number yes no, marks, cursor, taken, behind =>
    if (marks.span? number).isSome then yes.Way text marks cursor taken behind
    else no.Way text marks cursor taken behind
  | looksAhead wanted body, marks, cursor, taken, behind =>
    Looks wanted (body.find? text marks cursor) marks taken ∧ behind = cursor
  | looksBehind width wanted body, marks, cursor, taken, behind =>
    Looks wanted ((cursor.back? text width).bind fun back => body.find? text marks back) marks taken ∧ behind = cursor
  | atomic body, marks, cursor, taken, behind => body.find? text marks cursor = some (taken, behind)

/-- Reading goes the given ways: what is read behind is read at the end of one of them, and something is read if
something is read at the end of any of them. -/
structure Tells (body : Continuation → Continuation) (ways : Ways) : Prop where
  sound : ∀ next marks cursor found, body next marks cursor = some found →
    ∃ taken behind, ways marks cursor taken behind ∧ next taken behind = some found
  complete : ∀ next marks cursor taken behind, ways marks cursor taken behind → next taken behind ≠ none →
    body next marks cursor ≠ none
  ahead : ∀ marks cursor taken behind, ways marks cursor taken behind → cursor.Ahead behind

theorem eq_some_of_tryBoth {swapped : Bool} {first second : Unit → Option (Marks × Cursor)} {found : Marks × Cursor}
    (h : tryBoth swapped first second = some found) : first () = some found ∨ second () = some found := by
  unfold tryBoth at h
  split at h
  · cases hsecond : second () with
    | none => exact .inl (by simpa [hsecond] using h)
    | some _ => exact .inr (by simpa [hsecond] using h)
  · cases hfirst : first () with
    | none => exact .inr (by simpa [hfirst] using h)
    | some _ => exact .inl (by simpa [hfirst] using h)

theorem tryBoth_ne_none {swapped : Bool} {first second : Unit → Option (Marks × Cursor)}
    (h : first () ≠ none ∨ second () ≠ none) : tryBoth swapped first second ≠ none := by
  unfold tryBoth
  cases hfirst : first () <;> cases hsecond : second () <;> cases swapped <;> simp_all

/-! ## Repetitions -/

namespace Tells

variable {body : Continuation → Continuation} {ways : Ways}

theorem repeated (h : Tells body ways) (n : Nat) : Tells (Expression.repeated body n) (Times ways n) := by
  induction n with
  | zero =>
    refine ⟨fun next marks cursor found hfound => ⟨marks, cursor, ⟨rfl, rfl⟩, hfound⟩, ?_, ?_⟩
    · rintro next marks cursor _ _ ⟨rfl, rfl⟩ hnext
      exact hnext
    · rintro marks cursor _ _ ⟨rfl, rfl⟩
      exact .refl _
  | succ n ih =>
    refine ⟨fun next marks cursor found hfound => ?_, ?_, ?_⟩
    · obtain ⟨between, middle, hway, hrest⟩ := h.sound _ _ _ _ hfound
      obtain ⟨taken, behind, hways, hnext⟩ := ih.sound _ _ _ _ hrest
      exact ⟨taken, behind, ⟨between, middle, hway, hways⟩, hnext⟩
    · rintro next marks cursor taken behind ⟨between, middle, hway, hways⟩ hnext
      exact h.complete _ _ _ _ _ hway (ih.complete _ _ _ _ _ hways hnext)
    · rintro marks cursor taken behind ⟨between, middle, hway, hways⟩
      exact (h.ahead _ _ _ _ hway).trans (ih.ahead _ _ _ _ hways)

theorem ahead_further (h : Tells body ways) {n : Nat} {marks taken : Marks} {cursor behind : Cursor}
    (hways : Further ways n marks cursor taken behind) : cursor.Ahead behind := by
  induction n generalizing marks cursor with
  | zero =>
    obtain ⟨-, rfl⟩ := hways
    exact .refl _
  | succ n ih =>
    obtain ⟨between, middle, hway, -, hrest⟩ := hways
    exact (h.ahead _ _ _ _ hway).trans (ih hrest)

/-- There is a code point for each time but the last one. -/
theorem le_of_further (h : Tells body ways) {n : Nat} {marks taken : Marks} {cursor behind : Cursor}
    (hways : Further ways n marks cursor taken behind) : n ≤ cursor.rest.length + 1 := by
  induction n generalizing marks cursor with
  | zero => exact Nat.zero_le _
  | succ n ih =>
    obtain ⟨between, middle, hway, hmoves, hrest⟩ := hways
    rcases hmoves with rfl | hmoves
    · exact Nat.succ_le_succ (Nat.zero_le _)
    · have hle := ih hrest
      have hlt := (h.ahead _ _ _ _ hway).length_lt hmoves
      omega

theorem sound_further (h : Tells body ways) {few : Bool} {fuel : Nat} {last : Option Nat} {next : Continuation}
    {marks : Marks} {cursor : Cursor} {found : Marks × Cursor}
    (hfound : further body few fuel last next marks cursor = some found) :
    ∃ n ≤ fuel, (n = 0 ∨ last ≠ some cursor.offset) ∧ ∃ taken behind, Further ways n marks cursor taken behind ∧
      next taken behind = some found := by
  induction fuel generalizing last marks cursor with
  | zero => exact ⟨0, Nat.le_refl _, .inl rfl, marks, cursor, ⟨rfl, rfl⟩, hfound⟩
  | succ fuel ih =>
    rw [further] at hfound
    rcases eq_some_of_tryBoth hfound with hmore | hnext
    · split at hmore
      · cases hmore
      · next hlast =>
        obtain ⟨between, middle, hway, hrest⟩ := h.sound _ _ _ _ hmore
        obtain ⟨n, hle, hmoves, taken, behind, hways, hnext⟩ := ih hrest
        refine ⟨n + 1, Nat.succ_le_succ hle, .inr hlast, taken, behind, ⟨between, middle, hway, ?_, hways⟩, hnext⟩
        exact hmoves.imp_right fun hne heq => hne (congrArg some heq.symm)
    · exact ⟨0, Nat.zero_le _, .inl rfl, marks, cursor, ⟨rfl, rfl⟩, hnext⟩

theorem complete_further (h : Tells body ways) {few : Bool} {fuel n : Nat} {last : Option Nat} {next : Continuation}
    {marks taken : Marks} {cursor behind : Cursor} (hways : Further ways n marks cursor taken behind) (hle : n ≤ fuel)
    (hmoves : n = 0 ∨ last ≠ some cursor.offset) (hnext : next taken behind ≠ none) :
    further body few fuel last next marks cursor ≠ none := by
  induction fuel generalizing n last marks cursor with
  | zero =>
    obtain rfl := Nat.le_zero.1 hle
    obtain ⟨rfl, rfl⟩ := hways
    exact hnext
  | succ fuel ih =>
    rw [further]
    cases n with
    | zero =>
      obtain ⟨rfl, rfl⟩ := hways
      exact tryBoth_ne_none (.inr hnext)
    | succ n =>
      obtain ⟨between, middle, hway, hstep, hrest⟩ := hways
      refine tryBoth_ne_none (.inl ?_)
      rw [if_neg (hmoves.resolve_left (Nat.succ_ne_zero n))]
      refine h.complete _ _ _ _ _ hway (ih hrest (Nat.le_of_succ_le_succ hle) ?_)
      exact hstep.imp_right fun hne heq => hne (Option.some.inj heq).symm

end Tells

/-! ## Expressions -/

variable {text : Text}

theorem tells_done : Tells id fun marks cursor taken behind => taken = marks ∧ behind = cursor := by
  refine ⟨fun next marks cursor found hfound => ⟨marks, cursor, ⟨rfl, rfl⟩, hfound⟩, ?_, ?_⟩
  · rintro next marks cursor _ _ ⟨rfl, rfl⟩ hnext
    exact hnext
  · rintro marks cursor _ _ ⟨rfl, rfl⟩
    exact .refl _

/-- Reading that goes at most one way, which is known. -/
theorem tells_of_eq {body : Continuation → Continuation} {ways : Ways}
    (hbody : ∀ marks cursor, (∃ taken behind, (∀ next, body next marks cursor = next taken behind) ∧
      cursor.Ahead behind ∧ ∀ taken' behind', ways marks cursor taken' behind' ↔ taken' = taken ∧ behind' = behind) ∨
        (∀ next, body next marks cursor = none) ∧ ∀ taken behind, ¬ ways marks cursor taken behind) :
    Tells body ways := by
  refine ⟨fun next marks cursor found hfound => ?_, fun next marks cursor taken behind hway hnext => ?_,
    fun marks cursor taken behind hway => ?_⟩
  · rcases hbody marks cursor with ⟨taken, behind, heq, -, hways⟩ | ⟨hnone, -⟩
    · exact ⟨taken, behind, (hways _ _).2 ⟨rfl, rfl⟩, heq next ▸ hfound⟩
    · rw [hnone] at hfound
      cases hfound
  · rcases hbody marks cursor with ⟨_, _, heq, -, hways⟩ | ⟨-, hno⟩
    · obtain ⟨rfl, rfl⟩ := (hways _ _).1 hway
      rwa [heq]
    · exact absurd hway (hno _ _)
  · rcases hbody marks cursor with ⟨_, _, -, hahead, hways⟩ | ⟨-, hno⟩
    · obtain ⟨rfl, rfl⟩ := (hways _ _).1 hway
      exact hahead
    · exact absurd hway (hno _ _)

theorem tells_look (wanted : Bool) (found : Marks → Cursor → Option (Marks × Cursor)) :
    Tells (fun next marks cursor => look wanted (found marks cursor) next marks cursor)
      fun marks cursor taken behind => Looks wanted (found marks cursor) marks taken ∧ behind = cursor := by
  refine tells_of_eq fun marks cursor => ?_
  cases hfound : found marks cursor with
  | none =>
    cases wanted with
    | true => exact .inr ⟨fun _ => rfl, fun _ _ ⟨⟨_, h⟩, _⟩ => by cases h⟩
    | false => exact .inl ⟨marks, cursor, fun _ => rfl, .refl _, fun _ _ => and_congr_left fun _ => and_iff_right rfl⟩
  | some way =>
    obtain ⟨taken, behind⟩ := way
    cases wanted with
    | true =>
      refine .inl ⟨taken, cursor, fun _ => rfl, .refl _, fun _ _ => and_congr_left fun _ => ?_⟩
      exact ⟨fun ⟨_, h⟩ => by cases h; rfl, fun h => ⟨behind, by rw [h]⟩⟩
    | false => exact .inr ⟨fun _ => rfl, fun _ _ ⟨⟨h, _⟩, _⟩ => by cases h⟩

/-! One lemma for each kind of expression; those with parts are given how the parts are read. -/

theorem tells_points (text : Text) (set : PointSet) : Tells ((points set).read text) ((points set).Way text) := by
  refine tells_of_eq fun marks cursor => ?_
  cases hrest : cursor.rest with
  | nil => exact .inr ⟨fun _ => by simp [read, hrest], fun _ _ h => by simp [Way, hrest] at h⟩
  | cons c rest =>
    by_cases hc : set.has c = true
    · refine .inl ⟨marks, cursor.step c rest, fun _ => by simp [read, hrest, hc], .of_rest hrest, fun _ _ => ?_⟩
      refine and_congr_right fun _ => ?_
      rw [hrest, Cursor.advance_cons hrest, Cursor.advance]
      constructor
      · rintro ⟨_, _, _, rfl⟩
        rfl
      · rintro rfl
        exact ⟨c, hc, ⟨rest, rfl⟩, rfl⟩
    · refine .inr ⟨fun _ => by simp [read, hrest, hc], ?_⟩
      rintro _ _ ⟨-, d, hd, ⟨_, hstarts⟩, -⟩
      rw [hrest] at hstarts
      cases hstarts
      exact hc hd

theorem tells_place (text : Text) (asked : Place) : Tells ((place asked).read text) ((place asked).Way text) := by
  refine tells_of_eq fun marks cursor => ?_
  by_cases hholds : asked.holds cursor = true
  · exact .inl ⟨marks, cursor, fun _ => by simp [read, hholds], .refl _, fun _ _ => by simp [Way, hholds]⟩
  · exact .inr ⟨fun _ => by simp [read, hholds], fun _ _ h => hholds h.2.2⟩

theorem tells_again (text : Text) (number : Nat) (ignoreCase ascii : Bool) :
    Tells ((again number ignoreCase ascii).read text) ((again number ignoreCase ascii).Way text) := by
  refine tells_of_eq fun marks cursor => ?_
  cases hspan : marks.span? number with
  | none => exact .inr ⟨fun _ => by simp [read, hspan], fun _ _ ⟨_, _, _, h, _⟩ => by simp [hspan] at h⟩
  | some span =>
    obtain ⟨start, stop⟩ := span
    by_cases hrepeats : repeats (samePoint ignoreCase ascii) (text.slice start stop) cursor = true
    · refine .inl ⟨marks, cursor.advance (text.slice start stop).length, fun _ => by simp [read, hspan, hrepeats],
        ⟨_, ?_, rfl⟩, fun _ _ => by simp [Way, hspan, hrepeats]⟩
      have hlength := (Bool.and_eq_true_iff.1 hrepeats).1
      rw [decide_eq_true_iff, List.length_take] at hlength
      omega
    · refine .inr ⟨fun _ => by simp [read, hspan, hrepeats], ?_⟩
      rintro _ _ ⟨-, _, _, h, hagain, -⟩
      rw [hspan] at h
      cases h
      exact hrepeats hagain

section Parts

variable {first second body : Expression}

theorem tells_seq (hfirst : Tells (first.read text) (first.Way text))
    (hsecond : Tells (second.read text) (second.Way text)) :
    Tells ((seq first second).read text) ((seq first second).Way text) := by
  refine ⟨fun next marks cursor found hfound => ?_, ?_, ?_⟩
  · obtain ⟨between, middle, hway, hmiddle⟩ := hfirst.sound _ _ _ _ hfound
    obtain ⟨taken, behind, hrest, hnext⟩ := hsecond.sound _ _ _ _ hmiddle
    exact ⟨taken, behind, ⟨between, middle, hway, hrest⟩, hnext⟩
  · rintro next marks cursor taken behind ⟨between, middle, hway, hrest⟩ hnext
    exact hfirst.complete _ _ _ _ _ hway (hsecond.complete _ _ _ _ _ hrest hnext)
  · rintro marks cursor taken behind ⟨between, middle, hway, hrest⟩
    exact (hfirst.ahead _ _ _ _ hway).trans (hsecond.ahead _ _ _ _ hrest)

theorem tells_either (hfirst : Tells (first.read text) (first.Way text))
    (hsecond : Tells (second.read text) (second.Way text)) :
    Tells ((either first second).read text) ((either first second).Way text) := by
  refine ⟨fun next marks cursor found hfound => ?_, ?_, ?_⟩
  · rw [read] at hfound
    rcases eq_some_of_tryBoth hfound with hfound | hfound
    · obtain ⟨taken, behind, hway, hnext⟩ := hfirst.sound _ _ _ _ hfound
      exact ⟨taken, behind, .inl hway, hnext⟩
    · obtain ⟨taken, behind, hway, hnext⟩ := hsecond.sound _ _ _ _ hfound
      exact ⟨taken, behind, .inr hway, hnext⟩
  · rintro next marks cursor taken behind (hway | hway) hnext <;> rw [read]
    · exact tryBoth_ne_none (.inl (hfirst.complete _ _ _ _ _ hway hnext))
    · exact tryBoth_ne_none (.inr (hsecond.complete _ _ _ _ _ hway hnext))
  · rintro marks cursor taken behind (hway | hway)
    · exact hfirst.ahead _ _ _ _ hway
    · exact hsecond.ahead _ _ _ _ hway

theorem tells_times (hbody : Tells (body.read text) (body.Way text)) (least : Nat) (more : Option Nat) (few : Bool) :
    Tells ((times least more few body).read text) ((times least more few body).Way text) := by
  have hbound : ∀ (n : Nat) (cursor : Cursor),
      n ≤ more.elim (cursor.rest.length + 1) (min (cursor.rest.length + 1)) ↔
        n ≤ cursor.rest.length + 1 ∧ ∀ most ∈ more, n ≤ most := by
    intro n cursor
    cases more with
    | none => simp
    | some most => simp only [Option.elim_some, Nat.le_min, Option.mem_def, Option.some.injEq, forall_eq']
  refine ⟨fun next marks cursor found hfound => ?_, ?_, ?_⟩
  · obtain ⟨between, middle, hleast, hfurther⟩ := (hbody.repeated least).sound _ _ _ _ hfound
    obtain ⟨n, hle, -, taken, behind, hways, hnext⟩ := hbody.sound_further hfurther
    exact ⟨taken, behind, ⟨n, ((hbound _ _).1 hle).2, between, middle, hleast, hways⟩, hnext⟩
  · rintro next marks cursor taken behind ⟨n, hmost, between, middle, hleast, hways⟩ hnext
    refine (hbody.repeated least).complete _ _ _ _ _ hleast (hbody.complete_further hways ?_ (.inr nofun) hnext)
    exact (hbound _ _).2 ⟨hbody.le_of_further hways, hmost⟩
  · rintro marks cursor taken behind ⟨n, -, between, middle, hleast, hways⟩
    exact ((hbody.repeated least).ahead _ _ _ _ hleast).trans (hbody.ahead_further hways)

theorem tells_group (hbody : Tells (body.read text) (body.Way text)) (number : Nat) :
    Tells ((group number body).read text) ((group number body).Way text) := by
  refine ⟨fun next marks cursor found hfound => ?_, ?_, ?_⟩
  · obtain ⟨between, behind, hway, hnext⟩ := hbody.sound _ _ _ _ hfound
    exact ⟨_, behind, ⟨between, hway, rfl⟩, hnext⟩
  · rintro next marks cursor _ behind ⟨between, hway, rfl⟩ hnext
    exact hbody.complete _ _ _ _ _ hway hnext
  · rintro marks cursor _ behind ⟨between, hway, -⟩
    exact hbody.ahead _ _ _ _ hway

theorem tells_ifTook (hfirst : Tells (first.read text) (first.Way text))
    (hsecond : Tells (second.read text) (second.Way text)) (number : Nat) :
    Tells ((ifTook number first second).read text) ((ifTook number first second).Way text) := by
  refine ⟨fun next marks cursor found hfound => ?_, fun next marks cursor taken behind hway hnext => ?_,
    fun marks cursor taken behind hway => ?_⟩
  · unfold read at hfound
    unfold Way
    split_ifs at hfound ⊢
    · exact hfirst.sound _ _ _ _ hfound
    · exact hsecond.sound _ _ _ _ hfound
  · unfold Way at hway
    unfold read
    split_ifs at hway ⊢
    · exact hfirst.complete _ _ _ _ _ hway hnext
    · exact hsecond.complete _ _ _ _ _ hway hnext
  · unfold Way at hway
    split_ifs at hway
    · exact hfirst.ahead _ _ _ _ hway
    · exact hsecond.ahead _ _ _ _ hway

theorem tells_atomic (hbody : Tells (body.read text) (body.Way text)) :
    Tells ((atomic body).read text) ((atomic body).Way text) := by
  refine tells_of_eq fun marks cursor => ?_
  have hread : ∀ next, (atomic body).read text next marks cursor =
      (body.find? text marks cursor).bind fun way => next way.1 way.2 := fun _ => rfl
  cases hfound : body.find? text marks cursor with
  | none =>
    refine .inr ⟨fun next => ?_, fun _ _ h => by simp [Way, hfound] at h⟩
    rw [hread, hfound]
    rfl
  | some way =>
    obtain ⟨taken, behind⟩ := way
    refine .inl ⟨taken, behind, fun next => ?_, ?_, fun _ _ => ?_⟩
    · rw [hread, hfound]
      rfl
    -- the first way is one of the ways to read the body
    · obtain ⟨_, _, hway, hdone⟩ := hbody.sound _ _ _ _ hfound
      cases hdone
      exact hbody.ahead _ _ _ _ hway
    · rw [Way, hfound]
      exact ⟨fun h => by cases h; exact ⟨rfl, rfl⟩, fun ⟨h, h'⟩ => by rw [h, h']⟩

end Parts

/-- An expression is read in its ways. -/
theorem tells_read (text : Text) (expression : Expression) : Tells (expression.read text) (expression.Way text) := by
  induction expression with
  | nothing => exact tells_done
  | points set => exact tells_points text set
  | place asked => exact tells_place text asked
  | seq first rest ihFirst ihRest => exact tells_seq ihFirst ihRest
  | either first second ihFirst ihSecond => exact tells_either ihFirst ihSecond
  | times least more few body ih => exact tells_times ih least more few
  | group number body ih => exact tells_group ih number
  | again number ignoreCase ascii => exact tells_again text number ignoreCase ascii
  | ifTook number yes no ihYes ihNo => exact tells_ifTook ihYes ihNo number
  | looksAhead wanted body => exact tells_look wanted (body.find? text)
  | looksBehind width wanted body =>
    exact tells_look wanted fun marks cursor => (cursor.back? text width).bind fun back => body.find? text marks back
  | atomic body ih => exact tells_atomic ih

/-- Whatever is found is found in one of the ways, ahead of where it has been looked for. -/
theorem way_of_find? {expression : Expression} {marks taken : Marks} {cursor behind : Cursor}
    (h : expression.find? text marks cursor = some (taken, behind)) :
    expression.Way text marks cursor taken behind ∧ cursor.Ahead behind := by
  obtain ⟨_, _, hway, hdone⟩ := (tells_read text expression).sound _ _ _ _ h
  cases hdone
  exact ⟨hway, (tells_read text expression).ahead _ _ _ _ hway⟩

/-- Something is found exactly if there is a way to read. -/
theorem find?_ne_none_iff {expression : Expression} {marks : Marks} {cursor : Cursor} :
    expression.find? text marks cursor ≠ none ↔ ∃ taken behind, expression.Way text marks cursor taken behind := by
  constructor
  · intro h
    obtain ⟨⟨taken, behind⟩, hfound⟩ := Option.ne_none_iff_exists'.1 h
    exact ⟨taken, behind, (way_of_find? hfound).1⟩
  · rintro ⟨taken, behind, hway⟩
    exact (tells_read text expression).complete _ _ _ _ _ hway nofun

end Expression

end Bilingual
