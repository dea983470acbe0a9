import Bilingual.Proofs.Block.Locate

set_option autoImplicit false

/-! # Openers are found again

An opener is a row of words with any whitespace between them (`BlockSpan.InRow`). Since all its other code points are
those of the words, what is read at one place is told by the text up to the end of the words, so the place where an
opener is found depends on the text up to there only (`BlockSpan.find?_openerOf_again`). -/

namespace Bilingual

open Text Recogniser

/-! ## The words of a text -/

theorem Text.words_go (current t : Text) (hcurrent : ∀ c ∈ current, c.isSpace = false) :
    (words.go current t).flatten = current.reverse ++ t.filter (fun c => !c.isSpace) ∧
      ∀ word ∈ words.go current t, word ≠ [] ∧ ∀ c ∈ word, c.isSpace = false := by
  have hreverse : ∀ c ∈ current.reverse, c.isSpace = false := fun c hc => hcurrent c (List.mem_reverse.1 hc)
  fun_induction words.go current t with
  | case1 current hempty =>
    rw [List.isEmpty_iff.1 hempty]
    exact ⟨rfl, List.forall_mem_nil _⟩
  | case2 current hempty =>
    refine ⟨by simp, List.forall_mem_singleton.2 ⟨?_, hreverse⟩⟩
    simpa using hempty
  | case3 current c rest hspace hempty ih =>
    rw [List.isEmpty_iff.1 hempty, List.filter_cons_of_neg (by simp [hspace])]
    exact ih (List.forall_mem_nil _) (List.forall_mem_nil _)
  | case4 current c rest hspace hempty ih =>
    obtain ⟨hflat, hall⟩ := ih (List.forall_mem_nil _) (List.forall_mem_nil _)
    rw [List.filter_cons_of_neg (by simp [hspace]), List.flatten_cons, hflat]
    exact ⟨rfl, List.forall_mem_cons.2 ⟨⟨by simpa using hempty, hreverse⟩, hall⟩⟩
  | case5 current c rest hspace ih =>
    have hc : c.isSpace = false := Bool.eq_false_iff.2 hspace
    have hcons : ∀ d ∈ c :: current, d.isSpace = false := List.forall_mem_cons.2 ⟨hc, hcurrent⟩
    obtain ⟨hflat, hall⟩ := ih hcons fun d hd => hcons d (List.mem_reverse.1 hd)
    rw [hflat, List.filter_cons_of_pos (by simp [hc])]
    exact ⟨by simp, hall⟩

theorem Text.words_flatten (t : Text) : t.words.flatten = t.filter (fun c => !c.isSpace) :=
  (words_go [] t (List.forall_mem_nil _)).1

theorem Text.of_mem_words {t word : Text} (h : word ∈ t.words) : word ≠ [] ∧ ∀ c ∈ word, c.isSpace = false :=
  (words_go [] t (List.forall_mem_nil _)).2 word h

/-! ## Words in a row -/

namespace BlockSpan

/-- A text is the given words with any whitespace between them. -/
def InRow : List Text → Text → Prop
  | [], t => t = []
  | [word], t => t = word
  | word :: rest, t => ∃ blanks more : Text, (∀ c ∈ blanks, c.isSpace = true) ∧ InRow rest more ∧
      t = word ++ (blanks ++ more)

/-- There are words, and none is empty or holds whitespace. -/
structure AreWords (words : List Text) : Prop where
  ne_nil : words ≠ []
  of_mem : ∀ word ∈ words, word ≠ [] ∧ ∀ c ∈ word, c.isSpace = false

theorem mem_run_wordsInRow_iff {words : List Text} {cursor behind : Cursor} :
    ((), behind) ∈ (wordsInRow words).run cursor ↔
      ∃ t, InRow words t ∧ t <+: cursor.rest ∧ behind = cursor.advance t.length := by
  fun_induction wordsInRow words generalizing cursor behind with
  | case1 =>
    rw [mem_run_pure, and_iff_right rfl]
    constructor
    · rintro rfl
      exact ⟨[], rfl, List.nil_prefix, rfl⟩
    · rintro ⟨_, rfl, -, rfl⟩
      rfl
  | case2 word =>
    rw [mem_run_exactly_iff]
    constructor
    · rintro ⟨hstarts, rfl⟩
      exact ⟨word, rfl, hstarts, rfl⟩
    · rintro ⟨_, rfl, hstarts, rfl⟩
      exact ⟨hstarts, rfl⟩
  | case3 word rest hrest ih =>
    have hrow : ∀ t, InRow (word :: rest) t ↔ ∃ blanks more : Text, (∀ c ∈ blanks, c.isSpace = true) ∧
        InRow rest more ∧ t = word ++ (blanks ++ more) := by
      intro t
      cases rest with
      | nil => exact absurd rfl hrest
      | cons other rest => rfl
    rw [mem_run_bind]
    constructor
    · rintro ⟨⟨⟩, between, hexactly, h⟩
      obtain ⟨⟨after, hafter⟩, rfl⟩ := mem_run_exactly_iff.1 hexactly
      obtain ⟨⟨⟩, second, hspaces, h⟩ := mem_run_bind.1 h
      obtain ⟨blanks, hblanks, ⟨behind, hbehind⟩, rfl⟩ := mem_run_many_iff.1 hspaces
      obtain ⟨more, hmore, hstarts, rfl⟩ := ih.1 h
      rw [Cursor.rest_advance_append hbehind.symm] at hstarts
      rw [Cursor.rest_advance_append hafter.symm] at hbehind
      refine ⟨word ++ (blanks ++ more), (hrow _).2 ⟨blanks, more, hblanks, hmore, rfl⟩, ?_, ?_⟩
      · rw [← hafter, ← hbehind]
        exact (List.prefix_append_right_inj word).2 ((List.prefix_append_right_inj blanks).2 hstarts)
      · rw [List.length_append, List.length_append, Cursor.advance_add, Cursor.advance_add]
    · rintro ⟨t, ht, ⟨after, hafter⟩, rfl⟩
      obtain ⟨blanks, more, hblanks, hmore, rfl⟩ := (hrow t).1 ht
      rw [List.append_assoc] at hafter
      have hword := Cursor.rest_advance_append hafter.symm
      rw [List.append_assoc] at hword
      have hspaces := Cursor.rest_advance_append hword
      rw [List.length_append, List.length_append, Cursor.advance_add, Cursor.advance_add]
      refine ⟨(), _, mem_run_exactly_iff.2 ⟨⟨_, hafter⟩, rfl⟩, mem_run_bind.2 ⟨(), _,
        mem_run_many_iff.2 ⟨blanks, hblanks, ⟨_, hword.symm⟩, rfl⟩, ih.2 ⟨more, hmore, ⟨_, hspaces.symm⟩, rfl⟩⟩⟩

/-! ## One way to read -/

variable {words : List Text}

theorem InRow.filter {t : Text} (hwords : AreWords words) (h : InRow words t) :
    t.filter (fun c => !c.isSpace) = words.flatten := by
  have hword : ∀ word ∈ words, word.filter (fun c => !c.isSpace) = word := fun word hmem =>
    List.filter_eq_self.2 fun c hc => by simp [(hwords.of_mem word hmem).2 c hc]
  clear hwords
  fun_induction InRow words t with
  | case1 => rw [h]; rfl
  | case2 word => rw [h, hword word (List.mem_singleton_self word), List.flatten_singleton]
  | case3 word rest t hrest ih =>
    obtain ⟨blanks, more, hblanks, hmore, rfl⟩ := h
    obtain ⟨hfirst, hothers⟩ := List.forall_mem_cons.1 hword
    have hnone : blanks.filter (fun c => !c.isSpace) = [] :=
      List.filter_eq_nil_iff.2 fun c hc => by simp [hblanks c hc]
    rw [List.filter_append, List.filter_append, hfirst, hnone, ih more hmore hothers, List.nil_append,
      List.flatten_cons]

/-- A row of words neither begins nor ends with whitespace. -/
theorem InRow.exists_concat {t : Text} (hwords : AreWords words) (h : InRow words t) :
    ∃ init c, t = init ++ [c] ∧ c.isSpace = false := by
  obtain ⟨hne, hall⟩ := hwords
  have hlast : ∀ word : Text, (word ≠ [] ∧ ∀ c ∈ word, c.isSpace = false) →
      ∃ init c, word = init ++ [c] ∧ c.isSpace = false := by
    rintro word ⟨hword, hspace⟩
    rcases List.eq_nil_or_concat word with rfl | ⟨init, c, rfl⟩
    · exact absurd rfl hword
    · exact ⟨init, c, List.concat_eq_append, hspace c (by simp)⟩
  fun_induction InRow words t with
  | case1 => exact absurd rfl hne
  | case2 word =>
    rw [h]
    exact hlast word (hall word (List.mem_singleton_self word))
  | case3 word rest t hrest ih =>
    obtain ⟨blanks, more, hblanks, hmore, rfl⟩ := h
    obtain ⟨init, c, rfl, hc⟩ := ih more hmore hrest (List.forall_mem_cons.1 hall).2
    exact ⟨word ++ (blanks ++ init), c, by simp, hc⟩

/-- What is read from an earlier place ends with the row or before. -/
theorem InRow.prefix_of_starts {t other more : Text} (before : Text) (hwords : AreWords words) (h : InRow words t)
    (hother : InRow words other) (hstarts : other <+: before ++ (t ++ more)) : other <+: before ++ t := by
  rw [← List.append_assoc] at hstarts
  rcases List.prefix_or_prefix_of_prefix hstarts (List.prefix_append (before ++ t) more) with hwithin | ⟨v, rfl⟩
  · exact hwithin
  -- what it has more than the row could only be whitespace
  · have hcount := congrArg List.length (hother.filter hwords)
    rw [List.filter_append, List.filter_append, h.filter hwords] at hcount
    simp only [List.length_append] at hcount
    have hnone : v.filter (fun c => !c.isSpace) = [] := List.length_eq_zero_iff.1 (by omega)
    obtain ⟨init, c, heq, hc⟩ := hother.exists_concat hwords
    rcases List.eq_nil_or_concat v with rfl | ⟨u, d, rfl⟩
    · simp
    · rw [List.concat_eq_append, ← List.append_assoc] at heq
      obtain ⟨-, hd⟩ := List.append_inj' heq rfl
      cases hd
      have := List.filter_eq_nil_iff.1 hnone c (by simp)
      simp [hc] at this

/-- There is one row of words that a text begins with. -/
theorem InRow.eq_of_starts {t other rest : Text} (hwords : AreWords words) (h : InRow words t)
    (hother : InRow words other) (hstarts : t <+: rest) (hstarts' : other <+: rest) : other = t := by
  obtain ⟨more, rfl⟩ := hstarts
  obtain ⟨more', hmore'⟩ := hstarts'
  have hfirst : other <+: t := h.prefix_of_starts [] hwords hother ⟨more', hmore'⟩
  have hsecond : t <+: other := hother.prefix_of_starts [] hwords h ⟨more, hmore'.symm⟩
  exact List.IsPrefix.eq_of_length_le hfirst hsecond.length_le

/-! ## Openers -/

/-- The opener made of the given words. -/
def openerOf (words : List Text) : Recogniser Unit := atWordStart (wordsInRow words)

theorem first?_openerOf {cursor : Cursor} {t : Text} (hwords : AreWords words) (h : InRow words t)
    (hstarts : t <+: cursor.rest) (hprevious : cursor.previous.any CodePoint.isIdentifier = false) :
    (openerOf words).first? cursor = some ((), cursor.advance t.length) := by
  have hmem : ((), cursor.advance t.length) ∈ (wordsInRow words).run cursor :=
    mem_run_wordsInRow_iff.2 ⟨t, h, hstarts, rfl⟩
  unfold first? openerOf atWordStart
  dsimp only
  cases hrun : (wordsInRow words).run cursor with
  | nil =>
    rw [hrun] at hmem
    cases hmem
  | cons way ways =>
    dsimp only
    rw [if_neg (by rw [hprevious]; exact Bool.false_ne_true), List.head?_cons]
    obtain ⟨⟨⟩, behind⟩ := way
    have hway : ((), behind) ∈ (wordsInRow words).run cursor := by rw [hrun]; exact List.mem_cons_self
    obtain ⟨other, hother, hstarts', rfl⟩ := mem_run_wordsInRow_iff.1 hway
    rw [h.eq_of_starts hwords hother hstarts hstarts']

theorem exists_of_first?_openerOf {cursor behind : Cursor} (h : (openerOf words).first? cursor = some ((), behind)) :
    ∃ t, InRow words t ∧ t <+: cursor.rest ∧ behind = cursor.advance t.length ∧
      cursor.previous.any CodePoint.isIdentifier = false := by
  unfold first? openerOf atWordStart at h
  dsimp only at h
  split at h
  · cases h
  · next ways hways =>
    split at h
    · cases h
    · next hprevious =>
      obtain ⟨t, ht, hstarts, hbehind⟩ := mem_run_wordsInRow_iff.1 (List.mem_of_mem_head? h)
      exact ⟨t, ht, hstarts, hbehind, Bool.eq_false_iff.2 hprevious⟩

/-- Where an opener is found depends on the text up to its end only. -/
theorem findFrom?_openerOf (hwords : AreWords words) {cursor : Cursor} {start stop : Nat}
    (h : (openerOf words).findFrom? cursor cursor.rest = some (start, (), stop)) :
    ∃ before t more, cursor.rest = before ++ (t ++ more) ∧ InRow words t ∧
      start = cursor.offset + before.length ∧ stop = start + t.length ∧
        ∀ (cursor' : Cursor) (more' : Text), cursor'.offset = cursor.offset →
          cursor'.previous = cursor.previous → cursor'.rest = before ++ (t ++ more') →
            (openerOf words).findFrom? cursor' cursor'.rest = some (start, (), stop) := by
  generalize hrest : cursor.rest = rest at h
  induction rest generalizing cursor with
  | nil => cases h
  | cons c rest ih =>
    rw [findFrom?] at h
    cases hfirst : (openerOf words).first? cursor with
    | some found =>
      obtain ⟨⟨⟩, behind⟩ := found
      rw [hfirst] at h
      cases h
      obtain ⟨t, ht, ⟨more, hmore⟩, rfl, hprevious⟩ := exists_of_first?_openerOf hfirst
      refine ⟨[], t, more, by rw [← hrest, ← hmore]; rfl, ht, rfl, Cursor.offset_advance_append hmore.symm,
        fun cursor' more' hoffset hprevious' hrest' => ?_⟩
      rw [List.nil_append] at hrest'
      have hfirst' := first?_openerOf hwords ht ⟨more', hrest'.symm⟩ (by rw [hprevious', hprevious])
      obtain ⟨init, d, rfl, -⟩ := ht.exists_concat hwords
      cases hcons : cursor'.rest with
      | nil =>
        rw [hcons] at hrest'
        simp at hrest'
      | cons d' rest' =>
        rw [findFrom?, hfirst']
        dsimp only
        rw [Cursor.offset_advance_append hrest', Cursor.offset_advance_append hmore.symm, hoffset]
    | none =>
      rw [hfirst] at h
      obtain ⟨before, t, more, hsplit, ht, hstart, hstop, hagain⟩ := @ih (cursor.step c rest) rfl h
      have hstart : start = cursor.offset + 1 + before.length := hstart
      refine ⟨c :: before, t, more, congrArg (c :: ·) hsplit, ht, by rw [hstart, List.length_cons]; omega, hstop,
        fun cursor' more' hoffset hprevious hrest' => ?_⟩
      have hnone : (openerOf words).first? cursor' = none := by
        cases hfound : (openerOf words).first? cursor' with
        | none => rfl
        | some found =>
          -- what is read there would be read in the other text too
          obtain ⟨other, hother, hstarts, -, hword⟩ := exists_of_first?_openerOf hfound
          rw [hrest'] at hstarts
          have hwithin : other <+: cursor.rest := by
            rw [hrest, show rest = before ++ (t ++ more) from hsplit]
            exact (ht.prefix_of_starts (c :: before) hwords hother hstarts).trans ⟨more, by simp⟩
          rw [first?_openerOf hwords hother hwithin (by rw [← hprevious, hword])] at hfirst
          cases hfirst
      rw [hrest', List.cons_append, findFrom?, hnone]
      exact hagain (cursor'.step c (before ++ (t ++ more'))) more' (congrArg (· + 1) hoffset) rfl rfl

/-- An opener has words, none of which is empty or holds whitespace. -/
theorem areWords_of_opener {written : Text} {row : Recogniser Unit} {closer : CodePoint}
    (h : opener written = .ok (row, closer)) : AreWords written.words ∧ row = openerOf written.words := by
  obtain ⟨hlast, rfl⟩ := opener_eq_ok_iff.1 h
  refine ⟨⟨fun hnil => ?_, fun word => Text.of_mem_words⟩, rfl⟩
  obtain ⟨c, hc, hcloser⟩ := Option.bind_eq_some_iff.1 hlast
  have hmem : c ∈ written := by
    have hright := List.mem_of_mem_getLast? hc
    rw [Text.trim, Text.trimRight, List.mem_reverse] at hright
    exact List.dropWhile_subset _ (List.mem_reverse.1 (List.dropWhile_subset _ hright))
  have hspace : c.isSpace = false := by
    unfold Bracket.closerOf? at hcloser
    split_ifs at hcloser with hbrace hbracket
    · rw [hbrace]; decide
    · rw [hbracket]; decide
  have hflat := Text.words_flatten written
  rw [hnil, List.flatten_nil] at hflat
  have := List.filter_eq_nil_iff.1 hflat.symm c hmem
  simp [hspace] at this

/-- An opener is found again in a text that is the same up to its end. -/
theorem find?_openerOf_again {words : List Text} (hwords : AreWords words) {t t' : Text} {start first stop : Nat}
    (h : (openerOf words).find? t start t.length = some (first, (), stop)) (hstop : t.take stop = t'.take stop) :
    (openerOf words).find? t' start t'.length = some (first, (), stop) ∧ start ≤ first ∧ first ≤ stop := by
  obtain ⟨before, row, more, hrest, hrow, hfirst, hlast, hagain⟩ := findFrom?_openerOf hwords h
  have hrest : t.drop start = before ++ (row ++ more) := by
    rw [← hrest]
    show _ = (t.take t.length).drop start
    rw [List.take_length]
  have hfirst : first = start + before.length := hfirst
  obtain ⟨init, c, rfl, -⟩ := hrow.exists_concat hwords
  rw [List.length_append, List.length_singleton] at hlast
  refine ⟨hagain (Cursor.ofWindow t' start t'.length) (t'.drop stop) rfl ?_ ?_, by omega, by omega⟩
  · show (if start = 0 then none else t'[start - 1]?) = if start = 0 then none else t[start - 1]?
    split
    · rfl
    · rw [← List.getElem?_take_of_lt (show start - 1 < stop by omega), ← hstop,
        List.getElem?_take_of_lt (by omega)]
  · show (t'.take t'.length).drop start = _
    have hslice : (t.take stop).drop start = before ++ (init ++ [c]) := by
      rw [List.drop_take, hrest, ← List.append_assoc, List.take_left']
      rw [List.length_append, List.length_append, List.length_singleton]
      omega
    rw [List.take_length, ← List.append_assoc, ← hslice, hstop]
    exact (Text.slice_append_drop (by omega)).symm

end BlockSpan

/-! ## Windows and anchors -/

namespace Text

/-- What a search finds, it finds again in a text that is the same up to there. -/
theorem findEnd?_again {t t' needle : Text} {start stop k : Nat}
    (h : t.findEnd? needle start t.length = some stop) (htake : t.take k = t'.take k) (hk : stop ≤ k)
    (hlength : k ≤ t'.length) : t'.findEnd? needle start t'.length = some stop ∧ start ≤ stop := by
  obtain ⟨found, hfound, rfl⟩ := Option.map_eq_some_iff.1 h
  obtain ⟨hstart, n, hn, rfl⟩ := find?_eq_some_iff.1 hfound
  rw [slice, List.take_length] at hn
  have hdrop : (t.drop start).take (k - start) = (t'.drop start).take (k - start) := by
    rw [← List.drop_take, ← List.drop_take, htake]
  have hn' := indexOf?_of_take_eq hdrop (by omega) (by rw [List.length_drop]; omega) hn
  refine ⟨Option.map_eq_some_iff.2 ⟨start + n, find?_eq_some_iff.2 ⟨by omega, n, ?_, rfl⟩, rfl⟩, by omega⟩
  rw [slice, List.take_length, hn']

theorem findAllEnd?_again {t t' : Text} {needles : List Text} {start stop k : Nat}
    (h : t.findAllEnd? start t.length needles = some stop) (htake : t.take k = t'.take k) (hk : stop ≤ k)
    (hlength : k ≤ t'.length) : t'.findAllEnd? start t'.length needles = some stop ∧ start ≤ stop := by
  induction needles generalizing start with
  | nil =>
    cases h
    exact ⟨rfl, Nat.le_refl _⟩
  | cons needle needles ih =>
    obtain ⟨between, hbetween, hrest⟩ := Option.bind_eq_some_iff.1 h
    obtain ⟨hagain, hle⟩ := ih hrest
    obtain ⟨hfirst, hstart⟩ := findEnd?_again hbetween htake (by omega) hlength
    refine ⟨?_, by omega⟩
    rw [findAllEnd?, hfirst]
    exact hagain

end Text

end Bilingual
