import Bilingual.Proofs.Block.Bracket

set_option autoImplicit false

/-! # The options of the scan for a closing bracket

The scan can be told where to stop and to stay on its line. It then has ways out of its own in every literal and
comment: one that is cut by the end of the window, and one with a line break in it, end the scan at once. All of them
come to the same: what the scan finds with options is what it finds without, if that lies in front of the end and on the
line where the scan began, and nothing otherwise (`Bracket.closing?_eq_filter`). The reason is that the plain scan
passes over a literal or comment as a whole, so what it finds has all of the literals and comments that were begun in
front of it (`Bracket.le_of_closingFrom?`). So it is the same to read the text up to the end of the window only, and to
read literals and comments in the whole text with the end of the window as a limit (`Bracket.closing?_eq_limited`). -/

namespace Bilingual

/-! ## Comments in a window -/

namespace Comment

variable (c : CodePoint) (rest : Text) (k : Nat)

theorem startsLine_take : startsLine c (rest.take k) = (startsLine c rest && decide (0 < k)) := by
  cases k <;> cases rest <;> simp [startsLine]

theorem startsBlock_take : startsBlock c (rest.take k) = (startsBlock c rest && decide (0 < k)) := by
  cases k <;> cases rest <;> simp [startsBlock]

theorem lineTail_take : lineTail (rest.take k) = min k (lineTail rest) := by
  rw [lineTail, lineTail, ← List.take_takeWhile, List.length_take]

theorem blockTail?_take : blockTail? (rest.take k) = (blockTail? rest).filter (· ≤ k) := by
  rw [blockTail?, blockTail?, List.drop_take, Text.indexOf?_take, Option.filter_map]
  congr 2
  funext n
  show decide (n + 2 ≤ k - 1) = decide (n + 3 ≤ k)
  rw [decide_eq_decide]
  omega

/-- A line comment ends in front of a line break or at the end of the text. -/
theorem line_behind (rest : Text) :
    ('\n' : CodePoint) ∈ rest.take (lineTail rest + 1) ∨ rest.length ≤ lineTail rest := by
  induction rest with
  | nil => exact .inr (Nat.le_refl _)
  | cons d rest ih =>
    by_cases hd : d = '\n'
    · exact .inl (by simp [hd])
    · have hnext : lineTail (d :: rest) = lineTail rest + 1 := by
        rw [lineTail, List.takeWhile_cons_of_pos (by simpa using hd), List.length_cons, lineTail]
      rw [hnext, List.take_succ_cons, List.length_cons]
      exact ih.imp (List.mem_cons_of_mem d) Nat.succ_le_succ

variable {c : CodePoint} {rest : Text}

theorem lineTail_pos (h : startsLine c rest = true) : 0 < lineTail rest := by
  obtain ⟨-, note, rfl⟩ := eq_of_startsLine h
  rw [lineTail, List.takeWhile_cons_of_pos (by decide)]
  exact Nat.succ_pos _

theorem blockTail?_pos {n : Nat} (h : blockTail? rest = some n) : 0 < n := by
  obtain ⟨i, -, rfl⟩ := Option.map_eq_some_iff.1 h
  exact Nat.succ_pos _

end Comment

namespace Bracket

variable {c : CodePoint} {rest t : Text} {singleLine : Bool} {skip depth offset found k : Nat}

/-! ## What is found -/

/-- Nothing is found in what is passed over. -/
theorem le_of_closingFrom? (h : closingFrom? singleLine skip depth offset t = some found) : offset + skip ≤ found := by
  fun_induction closingFrom? singleLine skip depth offset t with
  | case1 | case3 | case4 => cases h
  | case7 =>
    cases h
    exact Nat.le_refl _
  | case2 _ _ _ _ _ ih | case5 _ _ _ _ _ _ _ ih | case6 _ _ _ _ _ _ _ ih | case8 _ _ _ _ _ _ _ _ ih
    | case9 _ _ _ _ _ _ _ _ ih =>
    have hle := ih h
    omega

/-- Where everything is passed over, nothing is found. -/
theorem closingFrom?_eq_none (h : t.length ≤ skip) : closingFrom? singleLine skip depth offset t = none := by
  cases hfound : closingFrom? singleLine skip depth offset t with
  | none => rfl
  | some found =>
    have hle := le_of_closingFrom? hfound
    obtain ⟨before, behind, c, rfl, rfl, -⟩ := exists_of_closingFrom? hfound
    rw [List.length_append, List.length_cons] at h
    omega

/-! ## Windows -/

/-- A literal or comment that fits into the window is passed over there too, and where nothing begins in the text
nothing does in the window. -/
theorem skipped?_take {token : Option Nat} (h : skipped? false c rest = some token) (hfits : ∀ n ∈ token, n ≤ k) :
    skipped? false c (rest.take k) = some token := by
  rw [skipped?_false] at h ⊢
  rw [Literal.closingIn?_window, Comment.startsLine_take, Comment.startsBlock_take, Comment.lineTail_take,
    Comment.blockTail?_take]
  split_ifs at h with hquote hline hblock
  · obtain ⟨n, hn, rfl⟩ := Option.map_eq_some_iff.1 h
    have hle := hfits _ rfl
    simp [hquote, hn, show n < k by omega]
  · cases h
    have hle := hfits _ rfl
    have hpos := Comment.lineTail_pos hline
    simp [hquote, hline, hle, show 0 < k by omega]
  · obtain ⟨n, hn, rfl⟩ := Option.map_eq_some_iff.1 h
    have hle := hfits _ rfl
    have hpos := Comment.blockTail?_pos hn
    simp [hquote, hline, hblock, hn, hle, show 0 < k by omega]
  · cases h
    simp [hquote, hline, hblock]

/-- A slash alone is no bracket, and nothing begins with it. -/
theorem closingFrom?_slash (depth offset : Nat) : closingFrom? false 0 depth offset ['/'] = none := by
  rw [closingFrom?_plain depth offset (by decide)]
  rfl

/-- A literal or comment without an end, or with an end beyond the window, ends the scan of the window. -/
theorem closingFrom?_cut (h : ∀ token, skipped? false c rest = some token → ∃ n ∈ token, k < n) (depth offset : Nat) :
    closingFrom? false 0 depth offset (c :: rest.take k) = none := by
  rw [skipped?_false] at h
  have hstep := closingFrom?_plainStep c (rest.take k) depth offset
  rw [skipped?_false, Literal.closingIn?_window, Comment.startsLine_take, Comment.startsBlock_take,
    Comment.lineTail_take, Comment.blockTail?_take] at hstep
  split_ifs at h with hquote hline hblock
  · have hnone : (Literal.closingIn? ['\\'] c [] rest).filter (· < k) = none := by
      rw [Option.filter_eq_none_iff]
      intro n hn
      obtain ⟨_, ⟨⟩, hlt⟩ := h _ (Option.map_eq_some_iff.2 ⟨n, hn, rfl⟩)
      simpa using Nat.le_of_lt_succ hlt
    rw [hstep, if_pos hquote, hnone]
    rfl
  · obtain ⟨_, ⟨⟩, hlt⟩ := h _ rfl
    obtain ⟨rfl, -⟩ := Comment.eq_of_startsLine hline
    have hnone : closingFrom? false k depth (offset + 1) (rest.take k) = none :=
      closingFrom?_eq_none (List.length_take_le _ _)
    cases k with
    | zero => exact closingFrom?_slash depth offset
    | succ k => simp [hstep, hquote, hline, Nat.min_eq_left (Nat.le_of_lt hlt), hnone]
  · have hnone : (Comment.blockTail? rest).filter (· ≤ k) = none := by
      rw [Option.filter_eq_none_iff]
      intro n hn
      obtain ⟨_, ⟨⟩, hlt⟩ := h _ (Option.map_eq_some_iff.2 ⟨n, hn, rfl⟩)
      simpa using hlt
    obtain ⟨rfl, -⟩ := Comment.eq_of_startsBlock hblock
    cases k with
    | zero => exact closingFrom?_slash depth offset
    | succ k => simp [hstep, hquote, hline, hblock, hnone]
  · obtain ⟨_, ⟨⟩, -⟩ := h _ rfl

/-- In a window the plain scan finds what it finds in the text, if that lies in the window. -/
theorem closingFrom?_take (skip depth offset k : Nat) (t : Text) : closingFrom? false skip depth offset (t.take k) =
    (closingFrom? false skip depth offset t).filter (· < offset + k) := by
  -- what is found behind the window is not found in it
  have hbeyond : ∀ {skip depth first last : Nat} {t : Text}, last ≤ first + skip →
      (closingFrom? false skip depth first t).filter (· < last) = none := by
    intro skip depth first last t hle
    rw [Option.filter_eq_none_iff]
    intro found hfound
    have := le_of_closingFrom? hfound
    simp only [decide_eq_true_eq]
    omega
  induction t generalizing skip depth offset k with
  | nil => simp [closingFrom?]
  | cons c rest ih =>
    cases k with
    | zero =>
      rw [List.take_zero, hbeyond (by omega)]
      rfl
    | succ k =>
      have hnext : offset + (k + 1) = offset + 1 + k := by omega
      rw [List.take_succ_cons, hnext]
      cases skip with
      | succ skip => exact ih skip depth (offset + 1) k
      | zero =>
        rw [closingFrom?_plainStep c rest]
        rcases hskipped : skipped? false c rest with _ | _ | n
        · exact closingFrom?_cut (fun _ h => by simp [hskipped] at h) depth offset
        · rw [closingFrom?_plainStep, skipped?_take hskipped fun _ h => by cases h]
          dsimp only
          cases depthBehind? c depth with
          | some next => exact ih 0 next (offset + 1) k
          | none => exact (if_pos (decide_eq_true (show offset < offset + 1 + k by omega))).symm
        · by_cases hfits : n ≤ k
          · rw [closingFrom?_plainStep, skipped?_take hskipped (by rintro _ ⟨⟩; exact hfits)]
            exact ih n depth (offset + 1) k
          · dsimp only
            rw [hbeyond (by omega)]
            refine closingFrom?_cut (fun token h => ?_) depth offset
            cases hskipped.symm.trans h
            exact ⟨n, rfl, by omega⟩

/-! ## One line -/

/-- What the scan of one line passes over. -/
theorem skipped?_true (c : CodePoint) (rest : Text) : skipped? true c rest =
    if isQuote c then (Literal.closingIn? ['\\'] c [] rest).bind fun n =>
      if ('\n' : CodePoint) ∈ rest.take (n + 1) then none else some (some (n + 1))
    else if Comment.startsLine c rest then none
    else if Comment.startsBlock c rest then (Comment.blockTail? rest).bind fun n =>
      if ('\n' : CodePoint) ∈ rest.take n then none else some (some n)
    else some none := by
  simp only [skipped?, Bool.true_and, if_true, List.contains_iff_mem]

theorem skipped?_true_of_none (h : skipped? false c rest = none) : skipped? true c rest = none := by
  rw [skipped?_false] at h
  rw [skipped?_true]
  split_ifs at h ⊢ with hquote hline hblock
  · rw [Option.map_eq_none_iff.1 h]
    rfl
  · rw [Option.map_eq_none_iff.1 h]
    rfl

/-- The scan of one line passes over what the plain scan passes over, and begins nothing where that begins nothing. Or
it ends: what is passed over has a line break in it, or right behind it, or nothing behind it. -/
theorem skipped?_true_of_some {token : Option Nat} (h : skipped? false c rest = some token) :
    (skipped? true c rest = some token ∧ ∀ n ∈ token, ('\n' : CodePoint) ∉ rest.take n) ∨
      (skipped? true c rest = none ∧ ∃ n ∈ token, ('\n' : CodePoint) ∈ rest.take (n + 1) ∨ rest.length ≤ n) := by
  rw [skipped?_false] at h
  rw [skipped?_true]
  split_ifs at h ⊢ with hquote hline hblock
  · obtain ⟨n, hn, rfl⟩ := Option.map_eq_some_iff.1 h
    by_cases hbreak : ('\n' : CodePoint) ∈ rest.take (n + 1)
    · refine .inr ⟨by simp [hn, hbreak], n + 1, rfl, .inl ?_⟩
      exact (List.take_prefix_take_left (Nat.le_succ (n + 1))).subset hbreak
    · exact .inl ⟨by simp [hn, hbreak], by rintro _ ⟨⟩; exact hbreak⟩
  · cases h
    exact .inr ⟨rfl, _, rfl, Comment.line_behind rest⟩
  · obtain ⟨n, hn, rfl⟩ := Option.map_eq_some_iff.1 h
    by_cases hbreak : ('\n' : CodePoint) ∈ rest.take n
    · refine .inr ⟨by simp [hn, hbreak], n, rfl, .inl ?_⟩
      exact (List.take_prefix_take_left (Nat.le_succ n)).subset hbreak
    · exact .inl ⟨by simp [hn, hbreak], by rintro _ ⟨⟩; exact hbreak⟩
  · cases h
    exact .inl ⟨rfl, by rintro _ ⟨⟩⟩

/-- What the scan finds behind a code point is on the line of that, if it is on the line of what follows and that
code point is no line break. -/
theorem found_behind_iff : closingFrom? false skip depth (offset + 1) rest = some found ∧
      ('\n' : CodePoint) ∉ (c :: rest).take (found - offset) ↔
    c ≠ '\n' ∧ closingFrom? false skip depth (offset + 1) rest = some found ∧
      ('\n' : CodePoint) ∉ rest.take (found - (offset + 1)) := by
  rw [and_left_comm]
  refine and_congr_right fun h => ?_
  have hle := le_of_closingFrom? h
  rw [show found - offset = found - (offset + 1) + 1 by omega, List.take_succ_cons, List.mem_cons, not_or, ne_comm]

/-- What the scan finds is behind what is passed over, so it is on another line if that has a line break in it or right
behind it. -/
theorem not_found_of_line {n : Nat} (h : ('\n' : CodePoint) ∈ t.take (n + 1) ∨ t.length ≤ n) :
    ¬ (closingFrom? false n depth offset t = some found ∧ ('\n' : CodePoint) ∉ t.take (found - offset)) := by
  rintro ⟨hfound, hline⟩
  have hle := le_of_closingFrom? hfound
  obtain ⟨before, behind, d, rfl, rfl, hd⟩ := exists_of_closingFrom? hfound
  rw [Nat.add_sub_cancel_left, List.take_left] at hline
  rcases h with h | h
  · have hmem : ('\n' : CodePoint) ∈ before ++ [d] := by
      have htake : (before ++ d :: behind).take (before.length + 1) = before ++ [d] := by
        rw [List.take_length_add_append]
        rfl
      rw [← htake]
      exact (List.take_prefix_take_left (by omega)).subset h
    rcases List.mem_append.1 hmem with hmem | hmem
    · exact hline hmem
    · rw [← List.mem_singleton.1 hmem] at hd
      exact absurd hd (by decide)
  · rw [List.length_append, List.length_cons] at h
    omega

/-- On one line the scan finds what the plain scan finds, if there is no line break in front of it. -/
theorem closingFrom?_line {skip : Nat} {t : Text} (h : ('\n' : CodePoint) ∉ t.take skip) {depth offset found : Nat} :
    closingFrom? true skip depth offset t = some found ↔
      closingFrom? false skip depth offset t = some found ∧ ('\n' : CodePoint) ∉ t.take (found - offset) := by
  induction t generalizing skip depth offset with
  | nil => simp [closingFrom?]
  | cons c rest ih =>
    cases skip with
    | succ skip =>
      rw [List.take_succ_cons, List.mem_cons, not_or] at h
      rw [closingFrom?, closingFrom?, found_behind_iff, and_iff_right (Ne.symm h.1)]
      exact ih h.2
    | zero =>
      by_cases hc : c = '\n'
      · have hskipped : skipped? false c rest = some none := by rw [hc]; rfl
        have hdepth : depthBehind? c depth = some depth := by rw [hc]; rfl
        rw [closingFrom?_plainStep, hskipped]
        dsimp only
        rw [hdepth]
        dsimp only
        rw [found_behind_iff, closingFrom?.eq_def]
        simp [hc]
      · rw [closingFrom?_step fun _ => hc, closingFrom?_plainStep]
        rcases hskipped : skipped? false c rest with _ | _ | n
        · rw [skipped?_true_of_none hskipped]
          simp
        · obtain ⟨htrue, -⟩ | ⟨-, _, ⟨⟩, -⟩ := skipped?_true_of_some hskipped
          rw [htrue]
          dsimp only
          cases depthBehind? c depth with
          | none => simp +contextual [eq_comm]
          | some next =>
            dsimp only
            rw [found_behind_iff, and_iff_right hc]
            exact ih List.not_mem_nil
        · dsimp only
          rw [found_behind_iff, and_iff_right hc]
          obtain ⟨htrue, hline⟩ | ⟨htrue, _, ⟨⟩, hline⟩ := skipped?_true_of_some hskipped
          · rw [htrue]
            exact ih (hline n rfl)
          · rw [htrue]
            simpa using fun hfound hrest => not_found_of_line hline ⟨hfound, hrest⟩

/-! ## Both -/

/-- Without options the whole text behind the start is scanned. -/
theorem closing?_plain (text : Text) (start : Nat) :
    closing? text start none false = closingFrom? false 0 0 start (text.drop start) := by
  rw [closing?, Text.slice, Option.getD_none, List.take_length]

/-- A window hides what lies behind it. -/
theorem closing?_stop (text : Text) (start : Nat) (stop : Option Nat) (found : Nat) :
    closing? text start stop false = some found ↔
      closing? text start none false = some found ∧ ∀ last ∈ stop, found < last := by
  rw [closing?_plain]
  cases stop with
  | none => rw [closing?_plain]; simp
  | some last =>
    rw [closing?, Text.slice, List.drop_take, closingFrom?_take, Option.filter_eq_some_iff, decide_eq_true_iff]
    refine and_congr_right fun h => ?_
    have hle := le_of_closingFrom? h
    simp only [Option.getD_some, Option.mem_some_iff, forall_eq']
    omega

/-- In single-line mode the scan finds what it finds on the line where it began. -/
theorem closing?_line (text : Text) (start : Nat) (stop : Option Nat) (found : Nat) :
    closing? text start stop true = some found ↔
      closing? text start stop false = some found ∧ ('\n' : CodePoint) ∉ text.slice start found := by
  rw [closing?, closing?, closingFrom?_line List.not_mem_nil]
  refine and_congr_right fun h => ?_
  obtain ⟨before, behind, c, htext, rfl, -⟩ := exists_of_closingFrom? h
  obtain ⟨after, hdrop⟩ := text.slice_prefix start (stop.getD text.length)
  rw [htext, List.append_assoc] at hdrop
  rw [Text.slice_of_drop hdrop.symm, htext, Nat.add_sub_cancel_left, List.take_left]

/-! ## A limit that is carried along -/

/-- What the scan of a whole text passes over in front of a limit. A literal or a block comment that ends behind the
limit stops it, and a line comment goes no further than that. -/
def limitedSkip? (singleLine : Bool) (limit offset : Nat) (c : CodePoint) (rest : Text) : Option (Option Nat) :=
  let within := fun n =>
    if limit < offset + 1 + n ∨ (singleLine = true ∧ ('\n' : CodePoint) ∈ rest.take n) then none else some (some n)
  if isQuote c then (Literal.closingIn? ['\\'] c [] rest).bind fun n => within (n + 1)
  else if Comment.startsLine c rest then
    if singleLine then none else some (some (min (Comment.lineTail rest) (limit - (offset + 1))))
  else if Comment.startsBlock c rest then (Comment.blockTail? rest).bind within
  else some none

/-- The scan of a whole text that carries the end of its window along as a limit. -/
def limitedFrom? (singleLine : Bool) (limit skip depth offset : Nat) : Text → Option Nat
  | [] => none
  | c :: rest =>
    if limit ≤ offset then none
    else match skip with
      | skip + 1 => limitedFrom? singleLine limit skip depth (offset + 1) rest
      | 0 =>
        if singleLine = true ∧ c = '\n' then none
        else match limitedSkip? singleLine limit offset c rest with
          | none => none
          | some (some n) => limitedFrom? singleLine limit n depth (offset + 1) rest
          | some none => match depthBehind? c depth with
            | some next => limitedFrom? singleLine limit 0 next (offset + 1) rest
            | none => some offset

/-- What is found behind a limit does not count. -/
theorem filter_closingFrom?_eq_none (h : k ≤ offset + skip) :
    (closingFrom? singleLine skip depth offset t).filter (· < k) = none := by
  rw [Option.filter_eq_none_iff]
  intro found hfound
  have := le_of_closingFrom? hfound
  simp only [decide_eq_true_eq]
  omega

/-- In front of a limit the scan passes over what it passes over without one, unless that ends behind the limit: then it
ends, or passes over all that is in front of the limit. -/
theorem limitedSkip?_cases (singleLine : Bool) {limit offset : Nat} (h : offset < limit) (c : CodePoint) (rest : Text) :
    limitedSkip? singleLine limit offset c rest = skipped? singleLine c rest ∨
      (∀ token ∈ limitedSkip? singleLine limit offset c rest, ∃ n ∈ token, limit ≤ offset + 1 + n) ∧
        ∀ token ∈ skipped? singleLine c rest, ∃ n ∈ token, limit ≤ offset + 1 + n := by
  unfold limitedSkip? skipped?
  simp only [Bool.and_eq_true, List.contains_iff_mem]
  split_ifs with hquote hline hsingle hblock
  · rcases Literal.closingIn? ['\\'] c [] rest with _ | n
    · exact .inl rfl
    · by_cases hend : limit < offset + 1 + (n + 1)
      · refine .inr ⟨by simp [hend], fun token htoken => ⟨n + 1, ?_, Nat.le_of_lt hend⟩⟩
        simp only [Option.bind_some] at htoken
        split_ifs at htoken <;> cases htoken
        rfl
      · exact .inl (by simp [hend])
  · exact .inl rfl
  · by_cases hend : limit < offset + 1 + Comment.lineTail rest
    · refine .inr ⟨?_, ?_⟩
      · rintro _ ⟨⟩
        exact ⟨_, rfl, by omega⟩
      · rintro _ ⟨⟩
        exact ⟨_, rfl, Nat.le_of_lt hend⟩
    · rw [Nat.min_eq_left (by omega)]
      exact .inl rfl
  · rcases Comment.blockTail? rest with _ | n
    · exact .inl rfl
    · by_cases hend : limit < offset + 1 + n
      · refine .inr ⟨by simp [hend], fun token htoken => ⟨n, ?_, Nat.le_of_lt hend⟩⟩
        simp only [Option.bind_some] at htoken
        split_ifs at htoken <;> cases htoken
        rfl
      · exact .inl (by simp [hend])
  · exact .inl rfl

/-- A limit hides what lies behind it. -/
theorem limitedFrom?_eq_filter (singleLine : Bool) (limit skip depth offset : Nat) (t : Text) :
    limitedFrom? singleLine limit skip depth offset t =
      (closingFrom? singleLine skip depth offset t).filter (· < limit) := by
  induction t generalizing skip depth offset with
  | nil => rfl
  | cons c rest ih =>
    by_cases hlimit : limit ≤ offset
    · rw [limitedFrom?.eq_def, filter_closingFrom?_eq_none (Nat.le_add_right_of_le hlimit)]
      exact if_pos hlimit
    · rw [limitedFrom?.eq_def]
      dsimp only
      rw [if_neg hlimit]
      cases skip with
      | succ skip => exact ih skip depth (offset + 1)
      | zero =>
        dsimp only
        by_cases hline : singleLine = true ∧ c = '\n'
        · rw [if_pos hline, closingFrom?.eq_def]
          simp [hline]
        · rw [if_neg hline, closingFrom?_step (not_and.1 hline)]
          rcases limitedSkip?_cases singleLine (Nat.lt_of_not_le hlimit) c rest with hskip | ⟨hlimited, hplain⟩
          · rw [hskip]
            rcases skipped? singleLine c rest with _ | _ | n
            · rfl
            · dsimp only
              cases depthBehind? c depth with
              | some next => exact ih 0 next (offset + 1)
              | none => exact (if_pos (decide_eq_true (Nat.lt_of_not_le hlimit))).symm
            · exact ih n depth (offset + 1)
          -- neither scan finds anything in front of the limit
          · have hnone : ∀ n, limit ≤ offset + 1 + n →
                (closingFrom? singleLine n depth (offset + 1) rest).filter (· < limit) = none :=
              fun _ => filter_closingFrom?_eq_none
            rcases hfirst : limitedSkip? singleLine limit offset c rest with _ | token <;>
              rcases hsecond : skipped? singleLine c rest with _ | token'
            · rfl
            · obtain ⟨n, rfl, hle⟩ := hplain _ hsecond
              exact (hnone n hle).symm
            · obtain ⟨n, rfl, hle⟩ := hlimited _ hfirst
              exact (ih n depth (offset + 1)).trans (hnone n hle)
            · obtain ⟨n, rfl, hle⟩ := hlimited _ hfirst
              obtain ⟨m, rfl, hle'⟩ := hplain _ hsecond
              exact (ih n depth (offset + 1)).trans ((hnone n hle).trans (hnone m hle').symm)

/-- The scan of a window comes to the same as the scan of the whole text with a limit. -/
theorem closing?_eq_limited (text : Text) (start : Nat) (stop : Option Nat) (singleLine : Bool) :
    closing? text start stop singleLine =
      limitedFrom? singleLine (stop.getD text.length) 0 0 start (text.drop start) := by
  have hwhole : closing? text start none singleLine = closingFrom? singleLine 0 0 start (text.drop start) := by
    rw [closing?, Text.slice, Option.getD_none, List.take_length]
  refine Option.ext fun found => ?_
  rw [limitedFrom?_eq_filter, ← hwhole, Option.filter_eq_some_iff, decide_eq_true_iff]
  have hstop : (closing? text start stop singleLine = some found) ↔
      closing? text start none singleLine = some found ∧ ∀ last ∈ stop, found < last := by
    cases singleLine with
    | false => exact closing?_stop text start stop found
    | true => rw [closing?_line, closing?_line text start none, closing?_stop, and_right_comm]
  rw [hstop]
  refine and_congr_right fun h => ?_
  cases stop with
  | some last => simp
  | none =>
    rw [hwhole] at h
    obtain ⟨before, behind, c, htext, rfl, -⟩ := exists_of_closingFrom? h
    have hlength := congrArg List.length htext
    rw [List.length_drop, List.length_append, List.length_cons] at hlength
    exact iff_of_true (fun last h => absurd h (Option.not_mem_none last))
      (show start + before.length < text.length by omega)

/-- A window and the restriction to one line only filter what the plain scan finds: it is found again if it lies in
front of the end of the window and, in single-line mode, has no line break between it and the start. -/
theorem closing?_eq_filter (text : Text) (start : Nat) (stop : Option Nat) (singleLine : Bool) :
    closing? text start stop singleLine = (closing? text start none false).filter fun found =>
      (∀ last ∈ stop, found < last) ∧ (singleLine = true → ('\n' : CodePoint) ∉ text.slice start found) := by
  refine Option.ext fun found => ?_
  rw [Option.filter_eq_some_iff, decide_eq_true_iff, ← and_assoc, ← closing?_stop]
  cases singleLine with
  | false => simp
  | true => rw [closing?_line]; simp

end Bracket

end Bilingual
