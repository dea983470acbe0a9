import Bilingual.Proofs.Recogniser
import Mathlib.Data.List.TakeWhile

set_option autoImplicit false

/-! # How recognisers run

Where the text ahead of a cursor is known, a recogniser has known ways to read it, mostly one. The lemmas
here give them for the small recognisers, and `Recogniser.run_bind_of_eq` puts them together. A run of
whitespace can be read in as many ways as it is long; where the next recogniser does not begin in front of
whitespace only the longest one leads anywhere (`Recogniser.run_spaces_bind`). -/

namespace Bilingual

/-! ## Cursors ahead -/

namespace Cursor

theorem advance_cons {cursor : Cursor} {c : CodePoint} {rest : Text} (h : cursor.rest = c :: rest)
    (n : Nat) : cursor.advance (n + 1) = (cursor.step c rest).advance n := by
  rw [advance, h]

theorem advance_add (cursor : Cursor) (n m : Nat) :
    cursor.advance (n + m) = (cursor.advance n).advance m := by
  induction n generalizing cursor with
  | zero => rw [Nat.zero_add, advance]
  | succ n ih =>
    rw [Nat.succ_add]
    cases hrest : cursor.rest with
    | nil =>
      have hstop : ∀ k, cursor.advance k = cursor := by
        intro k
        cases k with
        | zero => rfl
        | succ k => rw [advance, hrest]
      rw [hstop, hstop, hstop]
    | cons c rest => rw [advance_cons hrest, advance_cons hrest, ih]

theorem rest_advance (cursor : Cursor) (n : Nat) : (cursor.advance n).rest = cursor.rest.drop n := by
  induction n generalizing cursor with
  | zero => rfl
  | succ n ih =>
    cases hrest : cursor.rest with
    | nil => rw [advance, hrest, List.drop_nil, hrest]
    | cons c rest =>
      rw [advance_cons hrest, ih]
      rfl

theorem rest_advance_append {cursor : Cursor} {t rest : Text} (h : cursor.rest = t ++ rest) :
    (cursor.advance t.length).rest = rest := by rw [rest_advance, h, List.drop_left]

theorem offset_advance {cursor : Cursor} {n : Nat} (h : n ≤ cursor.rest.length) :
    (cursor.advance n).offset = cursor.offset + n := by
  induction n generalizing cursor with
  | zero => rfl
  | succ n ih =>
    cases hrest : cursor.rest with
    | nil =>
      rw [hrest] at h
      cases h
    | cons c rest =>
      rw [hrest] at h
      rw [advance_cons hrest, ih (Nat.le_of_succ_le_succ h)]
      show cursor.offset + 1 + n = _
      omega

theorem offset_advance_append {cursor : Cursor} {t rest : Text} (h : cursor.rest = t ++ rest) :
    (cursor.advance t.length).offset = cursor.offset + t.length :=
  offset_advance (by rw [h, List.length_append]; exact Nat.le_add_right _ _)

/-- Behind a text that ends with a known code point, that code point is what stands in front. -/
theorem advance_append_cons {cursor : Cursor} {t rest : Text} {c : CodePoint}
    (h : cursor.rest = t ++ c :: rest) :
    cursor.advance (t.length + 1) = ⟨cursor.offset + (t.length + 1), some c, rest⟩ := by
  have hrest := rest_advance_append h
  have hoffset := offset_advance_append h
  rw [advance_add, advance_cons hrest]
  show step _ c rest = _
  rw [step, hoffset]
  rfl

theorem previous_advance {cursor : Cursor} {t rest : Text} (h : cursor.rest = t ++ rest) {c : CodePoint}
    (hc : c ∈ t.getLast?) : (cursor.advance t.length).previous = some c := by
  obtain ⟨front, rfl⟩ := List.getLast?_eq_some_iff.1 hc
  rw [List.append_assoc] at h
  rw [List.length_append, List.length_singleton, advance_append_cons h]

end Cursor

namespace Recogniser

variable {α β : Type}

/-! ## One recogniser behind the other -/

theorem run_bind (r : Recogniser α) (f : α → Recogniser β) (cursor : Cursor) :
    (r >>= f).run cursor = (r.run cursor).flatMap fun way => (f way.1).run way.2 := rfl

theorem run_bind_of_eq {r : Recogniser α} {a : α} {cursor between : Cursor}
    (h : r.run cursor = [(a, between)]) (f : α → Recogniser β) :
    (r >>= f).run cursor = (f a).run between := by
  rw [run_bind, h, List.flatMap_singleton]

theorem run_bind_of_nil {r : Recogniser α} {cursor : Cursor} (h : r.run cursor = [])
    (f : α → Recogniser β) : (r >>= f).run cursor = [] := by
  rw [run_bind, h, List.flatMap_nil]

theorem first?_of_run {r : Recogniser α} {a : α} {cursor behind : Cursor}
    (h : r.run cursor = [(a, behind)]) : r.first? cursor = some (a, behind) := by
  rw [first?, h]
  rfl

/-- The preferred way goes on with the preferred way. -/
theorem first?_bind {r : Recogniser α} {f : α → Recogniser β} {a : α} {cursor between : Cursor}
    {found : β × Cursor} (h : r.first? cursor = some (a, between)) (hf : (f a).first? between = some found) :
    (r >>= f).first? cursor = some found := by
  obtain ⟨ways, hways⟩ := List.head?_eq_some_iff.1 h
  obtain ⟨others, hothers⟩ := List.head?_eq_some_iff.1 hf
  rw [first?, run_bind, hways, List.flatMap_cons, hothers]
  rfl

theorem first?_orElse {r s : Recogniser α} {cursor : Cursor} {found : α × Cursor}
    (h : r.first? cursor = some found) : (orElse r s).first? cursor = some found := by
  obtain ⟨ways, hways⟩ := List.head?_eq_some_iff.1 h
  show (r.run cursor ++ s.run cursor).head? = _
  rw [hways]
  rfl

theorem run_pure (a : α) (cursor : Cursor) : (pure a : Recogniser α).run cursor = [(a, cursor)] := rfl

theorem bind_assoc_self {γ : Type} (r : Recogniser α) (f : α → Recogniser β) (g : β → Recogniser γ) :
    (r >>= f) >>= g = r >>= fun a => f a >>= g :=
  congrArg Recogniser.mk (funext fun _ => List.flatMap_assoc)

instance : LawfulMonad Recogniser :=
  LawfulMonad.mk' Recogniser (fun r => congrArg Recogniser.mk (funext fun _ => List.flatMap_singleton' _))
    (fun a f => congrArg Recogniser.mk (funext fun _ => List.flatMap_singleton ..)) bind_assoc_self

/-- What is read at a word start is the same, and elsewhere nothing is. -/
theorem run_atWordStart_eq (r : Recogniser α) (cursor : Cursor) : (atWordStart r).run cursor =
    if cursor.previous.any CodePoint.isIdentifier then [] else r.run cursor := by
  unfold atWordStart
  dsimp only
  split
  · next hnil => simp [hnil]
  · rfl

theorem run_atWordStart (r : Recogniser α) {cursor : Cursor} (h : ∀ c ∈ cursor.previous, c.isIdentifier = false) :
    (atWordStart r).run cursor = r.run cursor := by
  rw [run_atWordStart_eq, if_neg]
  rw [Option.any_eq_true]
  rintro ⟨c, hc, hidentifier⟩
  exact Bool.false_ne_true ((h c hc).symm.trans hidentifier)

theorem run_atWordStart_of_nil {r : Recogniser α} {cursor : Cursor} (h : r.run cursor = []) :
    (atWordStart r).run cursor = [] := by
  rw [run_atWordStart_eq, h, ite_self]

/-- At a word start the ways to read are the same ones, elsewhere there are none. -/
theorem mem_run_atWordStart_iff {r : Recogniser α} {cursor behind : Cursor} {a : α} :
    (a, behind) ∈ (atWordStart r).run cursor ↔
      (a, behind) ∈ r.run cursor ∧ cursor.previous.any CodePoint.isIdentifier = false := by
  rw [run_atWordStart_eq]
  split
  · next hidentifier => simp [hidentifier]
  · next hidentifier => simp [hidentifier]

theorem run_exactly {t rest : Text} {cursor : Cursor} (h : cursor.rest = t ++ rest) :
    (exactly t).run cursor = [((), cursor.advance t.length)] := by
  rw [exactly]
  dsimp only
  rw [if_pos (List.isPrefixOf_iff_prefix.2 ⟨rest, h.symm⟩)]

theorem run_exactly_of_head {c : CodePoint} {t : Text} {cursor : Cursor} (h : cursor.rest.head? ≠ some c) :
    (exactly (c :: t)).run cursor = [] := by
  rw [exactly]
  dsimp only
  rw [if_neg]
  intro hstarts
  obtain ⟨rest, hrest⟩ := List.isPrefixOf_iff_prefix.1 hstarts
  exact h (by rw [← hrest]; rfl)

theorem run_optional (r : Recogniser α) (cursor : Cursor) :
    (optional r).run cursor = ((r.run cursor).map fun way => (some way.1, way.2)) ++ [(none, cursor)] := by
  rw [List.map_eq_flatMap]
  rfl

/-! ## Single code points and runs -/

section Runs

variable {p : CodePoint → Bool} {cursor : Cursor} {c : CodePoint} {rest : Text}

theorem run_satisfying (h : cursor.rest = c :: rest) (hc : p c = true) :
    (satisfying p).run cursor = [(c, cursor.advance 1)] := by
  rw [Cursor.advance_cons h, Cursor.advance, satisfying]
  dsimp only
  rw [h]
  dsimp only
  rw [if_pos hc]

theorem run_satisfying_of_not (h : ∀ c ∈ cursor.rest.head?, p c = false) :
    (satisfying p).run cursor = [] := by
  rw [satisfying]
  dsimp only
  cases hrest : cursor.rest with
  | nil => rfl
  | cons c rest =>
    have hc : p c = false := h c (by rw [hrest]; rfl)
    simp [hc]

theorem run_point (h : cursor.rest = c :: rest) : (point c).run cursor = [((), cursor.advance 1)] := by
  exact run_bind_of_eq (run_satisfying (p := (· == c)) h (beq_self_eq_true c)) _

theorem run_point_of_ne (h : cursor.rest.head? ≠ some c) : (point c).run cursor = [] := by
  refine run_bind_of_nil (run_satisfying_of_not fun d hd => ?_) _
  exact beq_eq_false_iff_ne.2 fun heq => h (heq ▸ hd)

theorem run_longest {t : Text} (h : cursor.rest = t ++ rest) (ht : ∀ c ∈ t, p c = true)
    (hrest : ∀ c ∈ rest.head?, p c = false) :
    (longest p).run cursor = [(t, cursor.advance t.length)] := by
  have hrun : cursor.rest.takeWhile p = t := by
    rw [h, List.takeWhile_append_of_pos ht]
    cases rest with
    | nil => exact List.append_nil t
    | cons c rest =>
      rw [List.takeWhile_cons_of_neg (by simp [hrest c rfl]), List.append_nil]
  rw [longest]
  dsimp only
  rw [hrun]

end Runs

/-! ## Whitespace -/

theorem run_many_of_not {p : CodePoint → Bool} {cursor : Cursor} (h : ∀ c ∈ cursor.rest.head?, p c = false) :
    (many p).run cursor = [((), cursor)] := by
  rw [many]
  cases hrest : cursor.rest with
  | nil => simp [hrest, cursorsBehind]
  | cons c rest =>
    have hc : p c = false := h c (by rw [hrest]; rfl)
    simp [hrest, cursorsBehind, hc]

theorem run_many_cons {p : CodePoint → Bool} {cursor : Cursor} {c : CodePoint} {rest : Text}
    (h : cursor.rest = c :: rest) (hc : p c = true) :
    (many p).run cursor = (many p).run (cursor.advance 1) ++ [((), cursor)] := by
  have hstep : cursor.advance 1 = cursor.step c rest := Cursor.advance_cons h 0
  rw [hstep]
  show List.map _ (List.reverse (cursorsBehind p cursor cursor.rest)) = _
  rw [h, cursorsBehind, if_pos hc, List.reverse_cons, List.map_append]
  rfl

/-- Where the next recogniser does not begin in front of whitespace, whitespace is read as a whole. -/
theorem run_spaces_bind {f : Unit → Recogniser α} {cursor : Cursor} {blanks rest : Text}
    (h : cursor.rest = blanks ++ rest) (hblanks : ∀ c ∈ blanks, c.isSpace = true)
    (hrest : ∀ c ∈ rest.head?, c.isSpace = false)
    (hf : ∀ between : Cursor, ∀ c ∈ between.rest.head?, c.isSpace = true → (f ()).run between = []) :
    (spaces >>= f).run cursor = (f ()).run (cursor.advance blanks.length) := by
  induction blanks generalizing cursor with
  | nil => exact run_bind_of_eq (run_many_of_not (by rw [h]; exact hrest)) f
  | cons c blanks ih =>
    obtain ⟨hc, hblanks⟩ := List.forall_mem_cons.1 hblanks
    have hbehind : (cursor.advance 1).rest = blanks ++ rest := by rw [Cursor.rest_advance, h]; rfl
    -- the shorter ways lead in front of whitespace
    have hnil : (f ()).run cursor = [] := hf cursor c (by rw [h]; rfl) hc
    rw [run_bind, spaces, run_many_cons h hc, List.flatMap_append, List.flatMap_singleton, hnil,
      List.append_nil, ← spaces, ← run_bind, ih hbehind hblanks, List.length_cons, Nat.add_comm,
      Cursor.advance_add]

/-! ## Literals -/

theorem run_literal {quote : Quote} {body rest : Text} {cursor : Cursor} (hbody : quote.Encloses body)
    (h : cursor.rest = quote.point :: (body ++ quote.point :: rest)) :
    literal.run cursor = [(⟨cursor.offset + 1, cursor.offset + 1 + body.length, quote, body⟩,
      cursor.advance (body.length + 2))] := by
  have hadvance := Cursor.advance_append_cons (t := quote.point :: body) h
  rw [List.length_cons] at hadvance
  rw [hadvance, show cursor.offset + (body.length + 1 + 1) = cursor.offset + 1 + body.length + 1 by omega]
  unfold literal
  simp only [h, Quote.ofPoint?_point, hbody rest]

theorem run_literal_of_not {cursor : Cursor} (h : ∀ c ∈ cursor.rest.head?, Quote.ofPoint? c = none) :
    literal.run cursor = [] := by
  rw [literal]
  dsimp only
  cases hrest : cursor.rest with
  | nil => rfl
  | cons c rest =>
    have hc : Quote.ofPoint? c = none := h c (by rw [hrest]; rfl)
    simp [hc]

/-! ## All places -/

theorem allFrom_skip (r : Recogniser α) {cursor : Cursor} {t rest : Text} (h : cursor.rest = t ++ rest) :
    r.allFrom t.length cursor cursor.rest =
      r.allFrom 0 (cursor.advance t.length) (cursor.advance t.length).rest := by
  induction t generalizing cursor with
  | nil => rfl
  | cons c t ih =>
    rw [List.cons_append] at h
    rw [List.length_cons, Cursor.advance_cons h, ← ih rfl, h, allFrom]
    rfl

/-- A place where something is read comes first, and the others are behind it. -/
theorem allFrom_found {r : Recogniser α} {cursor : Cursor} {t rest : Text} {a : α} (ht : t ≠ [])
    (h : cursor.rest = t ++ rest) (hfound : r.first? cursor = some (a, cursor.advance t.length)) :
    r.allFrom 0 cursor cursor.rest = (cursor.offset, a, cursor.offset + t.length) ::
      r.allFrom 0 (cursor.advance t.length) (cursor.advance t.length).rest := by
  cases t with
  | nil => exact absurd rfl ht
  | cons c t =>
    have hoffset := Cursor.offset_advance_append h
    rw [List.cons_append] at h
    have hskip : r.allFrom t.length (cursor.step c (t ++ rest)) (t ++ rest) = _ :=
      allFrom_skip r rfl
    rw [h, allFrom, hfound]
    dsimp only
    rw [hoffset, show cursor.offset + (c :: t).length - cursor.offset - 1 = t.length by simp, hskip,
      List.length_cons, Cursor.advance_cons h]

/-- Where nothing is read, the places are all further on. -/
theorem allFrom_append_of_none {r : Recogniser α} {cursor : Cursor} {t rest : Text} (h : cursor.rest = t ++ rest)
    (ht : ∀ n < t.length, r.first? (cursor.advance n) = none) : r.allFrom 0 cursor cursor.rest =
      r.allFrom 0 (cursor.advance t.length) (cursor.advance t.length).rest := by
  induction t generalizing cursor with
  | nil => rfl
  | cons c t ih =>
    rw [List.cons_append] at h
    have hnone : r.first? cursor = none := ht 0 (Nat.succ_pos _)
    rw [List.length_cons, Cursor.advance_cons h, ← ih rfl, h, allFrom, hnone]
    · rfl
    · intro n hn
      rw [← Cursor.advance_cons h]
      exact ht (n + 1) (Nat.succ_lt_succ hn)

theorem first?_advance_of_head {r : Recogniser α} {cursor : Cursor} {t rest : Text} (h : cursor.rest = t ++ rest)
    (ht : ∀ between : Cursor, (∃ c ∈ t, between.rest.head? = some c) → r.first? between = none) {n : Nat}
    (hn : n < t.length) : r.first? (cursor.advance n) = none := by
  refine ht _ ⟨t[n], List.getElem_mem hn, ?_⟩
  rw [Cursor.rest_advance, h, List.head?_drop, List.getElem?_append_left hn, List.getElem?_eq_getElem hn]

/-- A recogniser that does not begin in front of the code points of a text reads nothing there. -/
theorem allFrom_append {r : Recogniser α} {cursor : Cursor} {t rest : Text} (h : cursor.rest = t ++ rest)
    (ht : ∀ between : Cursor, (∃ c ∈ t, between.rest.head? = some c) → r.first? between = none) :
    r.allFrom 0 cursor cursor.rest =
      r.allFrom 0 (cursor.advance t.length) (cursor.advance t.length).rest :=
  allFrom_append_of_none h fun _ hn => first?_advance_of_head h ht hn

/-- The leftmost place is the first of all. -/
theorem findFrom?_eq_head? (r : Recogniser α) (cursor : Cursor) (rest : Text) :
    r.findFrom? cursor rest = (r.allFrom 0 cursor rest).head? := by
  induction rest generalizing cursor with
  | nil => rfl
  | cons c rest ih =>
    rw [findFrom?, allFrom]
    cases hfirst : r.first? cursor with
    | none => exact ih _
    | some found => rfl

/-- The first place of a window, behind a text where nothing is read. -/
theorem find?_of_slice {r : Recogniser α} {text skip found rest : Text} {start stop : Nat} {a : α}
    (h : text.slice start stop = skip ++ (found ++ rest)) (hfound : found ≠ [])
    (hskip : ∀ between : Cursor, (∃ c ∈ skip, between.rest.head? = some c) → r.first? between = none)
    (hread : ∀ cursor : Cursor, cursor.rest = found ++ rest → (∀ c ∈ skip.getLast?, cursor.previous = some c) →
      r.first? cursor = some (a, cursor.advance found.length)) :
    r.find? text start stop = some (start + skip.length, a, start + skip.length + found.length) := by
  have hwindow : (Cursor.ofWindow text start stop).rest = skip ++ (found ++ rest) := h
  have hrest := Cursor.rest_advance_append hwindow
  rw [find?, findFrom?_eq_head?, allFrom_append hwindow hskip, allFrom_found hfound hrest (hread _ hrest fun c hc =>
    Cursor.previous_advance hwindow hc), Cursor.offset_advance_append hwindow]
  rfl

theorem mem_all_of_find? {r : Recogniser α} {text : Text} {start stop : Nat} {place : Nat × α × Nat}
    (h : r.find? text start stop = some place) : place ∈ r.all text start stop := by
  rw [find?, findFrom?_eq_head?] at h
  exact List.mem_of_head? h

/-! ## What has been read -/

theorem mem_run_exactly_iff {t : Text} {cursor behind : Cursor} :
    ((), behind) ∈ (exactly t).run cursor ↔ t <+: cursor.rest ∧ behind = cursor.advance t.length := by
  unfold exactly
  dsimp only
  split
  · next h => simp [List.isPrefixOf_iff_prefix.1 h]
  · next h =>
    have hnot : ¬ t <+: cursor.rest := fun hstarts => h (List.isPrefixOf_iff_prefix.2 hstarts)
    simp [hnot]

theorem mem_run_orElse_iff {r s : Recogniser α} {cursor behind : Cursor} {a : α} :
    (a, behind) ∈ (orElse r s).run cursor ↔ (a, behind) ∈ r.run cursor ∨ (a, behind) ∈ s.run cursor :=
  List.mem_append

theorem eq_of_mem_satisfying {p : CodePoint → Bool} {c : CodePoint} {cursor behind : Cursor}
    (h : (c, behind) ∈ (satisfying p).run cursor) : p c = true ∧ cursor.rest = c :: behind.rest := by
  unfold satisfying at h
  dsimp only at h
  split at h
  · cases h
  · next d rest hrest =>
    split at h
    · next hp =>
      cases List.mem_singleton.1 h
      exact ⟨hp, hrest⟩
    · cases h

theorem eq_of_mem_point {c : CodePoint} {cursor behind : Cursor} (h : ((), behind) ∈ (point c).run cursor) :
    cursor.rest = c :: behind.rest := by
  obtain ⟨d, between, hd, hbehind⟩ := mem_run_bind.1 h
  obtain ⟨hp, hrest⟩ := eq_of_mem_satisfying hd
  cases (mem_run_pure.1 hbehind).2
  rw [← eq_of_beq hp]
  exact hrest

theorem eq_of_mem_longest {p : CodePoint → Bool} {t : Text} {cursor behind : Cursor}
    (h : (t, behind) ∈ (longest p).run cursor) :
    (∀ c ∈ t, p c = true) ∧ cursor.rest = t ++ behind.rest := by
  cases List.mem_singleton.1 h
  refine ⟨fun c hc => List.mem_takeWhile_imp hc, ?_⟩
  rw [Cursor.rest_advance_append List.takeWhile_append_dropWhile.symm, List.takeWhile_append_dropWhile]

/-- Where no code point may be read, nothing is. -/
theorem mem_run_many_of_not {p : CodePoint → Bool} {cursor behind : Cursor}
    (h : ∀ c ∈ cursor.rest.head?, p c = false) : ((), behind) ∈ (many p).run cursor ↔
      ∃ t : Text, (∀ c ∈ t, p c = true) ∧ t <+: cursor.rest ∧ behind = cursor.advance t.length := by
  rw [run_many_of_not h, List.mem_singleton, Prod.mk.injEq, and_iff_right rfl]
  constructor
  · rintro rfl
    exact ⟨[], List.forall_mem_nil _, List.nil_prefix, rfl⟩
  · rintro ⟨t, ht, ⟨more, hmore⟩, rfl⟩
    cases t with
    | nil => rfl
    | cons c t =>
      have hc := ht c (List.mem_cons_self ..)
      rw [h c (by rw [← hmore]; rfl)] at hc
      cases hc

theorem mem_run_many_iff {p : CodePoint → Bool} {cursor behind : Cursor} :
    ((), behind) ∈ (many p).run cursor ↔
      ∃ t : Text, (∀ c ∈ t, p c = true) ∧ t <+: cursor.rest ∧ behind = cursor.advance t.length := by
  generalize hrest : cursor.rest = rest
  induction rest generalizing cursor with
  | nil => exact hrest ▸ mem_run_many_of_not (by simp [hrest])
  | cons c rest ih =>
    cases hc : p c with
    | false => exact hrest ▸ mem_run_many_of_not (by simpa [hrest] using hc)
    | true =>
      have hbehind : (cursor.advance 1).rest = rest := by rw [Cursor.rest_advance, hrest]; rfl
      rw [run_many_cons hrest hc, List.mem_append, List.mem_singleton, Prod.mk.injEq, and_iff_right rfl,
        ih hbehind]
      constructor
      · rintro (⟨t, ht, hstarts, rfl⟩ | rfl)
        · refine ⟨c :: t, List.forall_mem_cons.2 ⟨hc, ht⟩, List.cons_prefix_cons.2 ⟨rfl, hstarts⟩, ?_⟩
          rw [List.length_cons, Nat.add_comm, Cursor.advance_add]
        · exact ⟨[], List.forall_mem_nil _, List.nil_prefix, rfl⟩
      · rintro ⟨t, ht, hstarts, rfl⟩
        cases t with
        | nil => exact .inr rfl
        | cons d t =>
          refine .inl ⟨t, (List.forall_mem_cons.1 ht).2, (List.cons_prefix_cons.1 hstarts).2, ?_⟩
          rw [List.length_cons, Nat.add_comm, Cursor.advance_add]

theorem exists_of_mem_many {p : CodePoint → Bool} {cursor behind : Cursor}
    (h : ((), behind) ∈ (many p).run cursor) :
    ∃ t : Text, (∀ c ∈ t, p c = true) ∧ cursor.rest = t ++ behind.rest := by
  obtain ⟨t, ht, ⟨more, hmore⟩, rfl⟩ := mem_run_many_iff.1 h
  exact ⟨t, ht, by rw [Cursor.rest_advance_append hmore.symm, hmore]⟩

theorem exists_of_mem_literal {l : LiteralSpan} {cursor behind : Cursor}
    (h : (l, behind) ∈ literal.run cursor) : l.quote.Encloses l.raw ∧
      cursor.rest = l.quote.point :: (l.raw ++ l.quote.point :: behind.rest) := by
  unfold literal at h
  dsimp only at h
  split at h
  · cases h
  next c rest hrest =>
  split at h
  · cases h
  next quote hquote =>
  split at h
  · cases h
  next raw remaining hbody =>
  cases List.mem_singleton.1 h
  rw [← Quote.point_of_ofPoint? hquote] at hbody hrest
  exact ⟨literalBody?_again hbody, hrest.trans (congrArg _ (eq_of_literalBody? hbody))⟩

end Recogniser

end Bilingual
