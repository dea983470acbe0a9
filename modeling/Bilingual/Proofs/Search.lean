import Bilingual.Text.Search
import Mathlib.Data.List.Pairwise

set_option autoImplicit false

/-! # What a search finds

The first occurrence of a text is the one with no other in front of it (`Text.indexOf?_of_first`), so a
search looks no further than the occurrence it finds (`Text.indexOf?_of_take_eq`). A code point that the
text does not hold cuts a search into two, one on each side of it (`Text.indexOf?_barrier`). -/

namespace Bilingual.Text

/-! ## Slices -/

theorem slice_of_drop {text t behind : Text} {offset : Nat} (h : text.drop offset = t ++ behind) :
    text.slice offset (offset + t.length) = t := by
  rw [slice, List.drop_take, Nat.add_sub_cancel_left, h, List.take_left]

theorem slice_prefix (t : Text) (start stop : Nat) : t.slice start stop <+: t.drop start := by
  rw [slice, List.drop_take]
  exact List.take_prefix _ _

/-! ## The first occurrence -/

theorem indexOf?_of_starts {needle t : Text} (h : needle <+: t) : indexOf? needle t = some 0 := by
  cases t with
  | nil =>
    rw [List.prefix_nil.1 h]
    rfl
  | cons c rest => rw [indexOf?, if_pos (List.isPrefixOf_iff_prefix.2 h)]

theorem indexOf?_cons {needle rest : Text} {c : CodePoint} (h : ¬ needle <+: c :: rest) :
    indexOf? needle (c :: rest) = (indexOf? needle rest).map (· + 1) := by
  rw [indexOf?, if_neg fun hstarts => h (List.isPrefixOf_iff_prefix.1 hstarts)]

theorem indexOf?_nil {needle : Text} (h : needle ≠ []) : indexOf? needle [] = none := by
  rw [indexOf?, if_neg fun hempty => h (List.isEmpty_iff.1 hempty)]

/-- No occurrence begins in front of the first one. -/
theorem not_prefix_of_indexOf? {needle t : Text} {n m : Nat} (h : indexOf? needle t = some n)
    (hm : m < n) : ¬ needle <+: t.drop m := by
  induction t generalizing n m with
  | nil =>
    rw [indexOf?] at h
    split at h
    · cases h
      exact absurd hm (Nat.not_lt_zero m)
    · cases h
  | cons c rest ih =>
    by_cases hstarts : needle <+: c :: rest
    · rw [indexOf?_of_starts hstarts] at h
      cases h
      exact absurd hm (Nat.not_lt_zero m)
    · rw [indexOf?_cons hstarts] at h
      obtain ⟨i, hi, rfl⟩ := Option.map_eq_some_iff.1 h
      cases m with
      | zero => exact hstarts
      | succ m => exact ih hi (by omega)

/-- The text is where it is found. -/
theorem prefix_of_indexOf? {needle t : Text} {n : Nat} (h : indexOf? needle t = some n) :
    needle <+: t.drop n := by
  induction t generalizing n with
  | nil =>
    rw [indexOf?] at h
    split at h
    · next hempty =>
      rw [List.isEmpty_iff.1 hempty]
      exact List.nil_prefix
    · cases h
  | cons c rest ih =>
    by_cases hstarts : needle <+: c :: rest
    · rw [indexOf?_of_starts hstarts] at h
      cases h
      exact hstarts
    · rw [indexOf?_cons hstarts] at h
      obtain ⟨i, hi, rfl⟩ := Option.map_eq_some_iff.1 h
      exact ih hi

/-- An occurrence with none in front of it is the first one. -/
theorem indexOf?_of_first {needle t : Text} {n : Nat} (hn : n ≤ t.length) (hfound : needle <+: t.drop n)
    (hfirst : ∀ m < n, ¬ needle <+: t.drop m) : indexOf? needle t = some n := by
  induction n generalizing t with
  | zero => exact indexOf?_of_starts hfound
  | succ n ih =>
    cases t with
    | nil => cases hn
    | cons c rest =>
      have hrest : indexOf? needle rest = some n :=
        ih (Nat.le_of_succ_le_succ hn) hfound fun m hm => hfirst (m + 1) (Nat.succ_lt_succ hm)
      rw [indexOf?_cons (hfirst 0 (Nat.succ_pos n)), hrest]
      rfl

/-! ## What is found is in the text -/

/-- A text is not found without one of its code points. -/
theorem indexOf?_eq_none_of_not_mem {needle t : Text} {c : CodePoint} (hc : c ∈ needle) (h : c ∉ t) :
    indexOf? needle t = none := by
  cases hfound : indexOf? needle t with
  | none => rfl
  | some n => exact absurd (List.mem_of_mem_drop ((prefix_of_indexOf? hfound).subset hc)) h

theorem add_length_le_of_indexOf? {needle t : Text} {i : Nat} (h : indexOf? needle t = some i) :
    i + needle.length ≤ t.length := by
  induction t generalizing i with
  | nil =>
    rw [indexOf?] at h
    split at h
    · next hempty =>
      cases h
      rw [List.isEmpty_iff.1 hempty]
      exact Nat.le_refl _
    · cases h
  | cons c rest ih =>
    rw [indexOf?] at h
    split at h
    · next hstarts =>
      cases h
      have := (List.isPrefixOf_iff_prefix.1 hstarts).length_le
      omega
    · obtain ⟨j, hj, rfl⟩ := Option.map_eq_some_iff.1 h
      have := ih hj
      rw [List.length_cons]
      omega

theorem le_length_of_find? {t needle : Text} {start stop found : Nat}
    (h : t.find? needle start stop = some found) : found ≤ t.length := by
  unfold Text.find? at h
  split at h
  · obtain ⟨i, hi, rfl⟩ := Option.map_eq_some_iff.1 h
    have hle := add_length_le_of_indexOf? hi
    rw [slice, List.length_drop, List.length_take] at hle
    omega
  · cases h

/-! ## What a search depends on -/

theorem prefix_drop_iff_of_take_eq {needle t t' : Text} {k m : Nat} (h : t.take k = t'.take k)
    (hm : m + needle.length ≤ k) : needle <+: t.drop m ↔ needle <+: t'.drop m := by
  have htake : ∀ s : Text, (s.drop m).take needle.length = ((s.take k).drop m).take needle.length := by
    intro s
    rw [List.drop_take, List.take_take, Nat.min_eq_left (by omega)]
  rw [List.prefix_iff_eq_take, List.prefix_iff_eq_take, htake t, htake t', h]

/-- A search depends on the text up to the end of what it finds only. -/
theorem indexOf?_of_take_eq {needle t t' : Text} {k n : Nat} (h : t.take k = t'.take k)
    (hn : n + needle.length ≤ k) (hk : k ≤ t'.length) (hfound : indexOf? needle t = some n) :
    indexOf? needle t' = some n := by
  refine indexOf?_of_first (by omega) ?_ fun m hm => ?_
  · exact (prefix_drop_iff_of_take_eq h hn).1 (prefix_of_indexOf? hfound)
  · rw [← prefix_drop_iff_of_take_eq h (by omega)]
    exact not_prefix_of_indexOf? hfound hm

/-- In the beginning of a text a search finds the same, if that lies there as a whole. -/
theorem indexOf?_take (needle t : Text) (k : Nat) :
    indexOf? needle (t.take k) = (indexOf? needle t).filter fun n => n + needle.length ≤ k := by
  have htake : ∀ n, n + needle.length ≤ k → (t.take k).take (n + needle.length) = t.take (n + needle.length) :=
    fun n hn => by rw [List.take_take, Nat.min_eq_left hn]
  ext n
  rw [Option.filter_eq_some_iff, decide_eq_true_iff]
  constructor
  · intro h
    have hle := add_length_le_of_indexOf? h
    rw [List.length_take] at hle
    exact ⟨indexOf?_of_take_eq (htake n (by omega)) (Nat.le_refl _) (by omega) h, by omega⟩
  · rintro ⟨h, hk⟩
    have hle := add_length_le_of_indexOf? h
    exact indexOf?_of_take_eq (htake n hk).symm (Nat.le_refl _) (by rw [List.length_take]; omega) h

/-! ## Barriers -/

theorem prefix_barrier {needle : Text} {c : CodePoint} (h : c ∉ needle) (before behind : Text) :
    needle <+: before ++ c :: behind ↔ needle <+: before := by
  refine ⟨fun hstarts => ?_, fun hstarts => hstarts.trans (List.prefix_append _ _)⟩
  rcases List.prefix_or_prefix_of_prefix hstarts (List.prefix_append before _) with hwithin | ⟨more, rfl⟩
  · exact hwithin
  · -- what reaches beyond `before` would begin with the barrier
    cases more with
    | nil => simp
    | cons d more =>
      obtain ⟨rfl, -⟩ := List.cons_prefix_cons.1 ((List.prefix_append_right_inj before).1 hstarts)
      exact absurd (List.mem_append_right before (List.mem_cons_self ..)) h

/-- A code point that a text does not hold cannot be in an occurrence of it, so the first occurrence is the
first one in front of it or, without one there, the first one behind it. -/
theorem indexOf?_barrier {needle : Text} {c : CodePoint} (h : c ∉ needle) (before behind : Text) :
    indexOf? needle (before ++ c :: behind) =
      (indexOf? needle before).or ((indexOf? needle behind).map (· + (before.length + 1))) := by
  induction before with
  | nil =>
    rw [List.nil_append]
    by_cases hneedle : needle = []
    · rw [hneedle, indexOf?_of_starts List.nil_prefix, indexOf?_of_starts List.nil_prefix]
      rfl
    · have hstarts : ¬ needle <+: c :: behind := fun hstarts =>
        hneedle (List.prefix_nil.1 ((prefix_barrier h [] behind).1 hstarts))
      rw [indexOf?_cons hstarts, indexOf?_nil hneedle]
      rfl
  | cons d before ih =>
    by_cases hstarts : needle <+: d :: before
    · rw [indexOf?_of_starts hstarts, indexOf?_of_starts ((prefix_barrier h _ _).2 hstarts)]
      rfl
    · have hstarts' : ¬ needle <+: d :: (before ++ c :: behind) := fun hstarts' =>
        hstarts ((prefix_barrier h (d :: before) behind).1 hstarts')
      rw [List.cons_append, indexOf?_cons hstarts, indexOf?_cons hstarts', ih]
      cases indexOf? needle before <;> cases indexOf? needle behind <;> rfl

/-! ## Replacing -/

/-- What holds the last code point of a text nowhere is no part of an occurrence in front of it. -/
theorem prefix_append_iff {needle before behind : Text} {c : CodePoint} (hlast : needle.getLast? = some c)
    (hc : c ∉ behind) : needle <+: before ++ behind ↔ needle <+: before := by
  refine ⟨fun hstarts => ?_, fun hstarts => hstarts.trans (List.prefix_append _ _)⟩
  rcases List.prefix_or_prefix_of_prefix hstarts (List.prefix_append before _) with hwithin | ⟨more, rfl⟩
  · exact hwithin
  · have hmore : more <+: behind := (List.prefix_append_right_inj before).1 hstarts
    cases more with
    | nil => simp
    | cons d more =>
      have hmem : c ∈ d :: more := by
        refine List.mem_of_getLast? ?_
        rw [← hlast, List.getLast?_append, List.getLast?_cons]
        rfl
      exact absurd (hmore.subset hmem) hc

theorem replace_go_append {needle replacement behind : Text} {c : CodePoint} (hlast : needle.getLast? = some c)
    (hc : c ∉ behind) {skip : Nat} {before : Text} (hskip : skip ≤ before.length) :
    replace.go needle replacement skip (before ++ behind) = replace.go needle replacement skip before ++ behind := by
  induction before generalizing skip with
  | nil =>
    obtain rfl := Nat.le_zero.1 hskip
    rw [List.nil_append]
    -- no occurrence starts in the rest either
    induction behind with
    | nil => rfl
    | cons d behind ih =>
      have hnone : ¬ needle <+: d :: behind := fun hstarts =>
        hc (hstarts.subset (List.mem_of_getLast? hlast))
      have hgo : replace.go needle replacement 0 (d :: behind) = d :: replace.go needle replacement 0 behind := by
        rw [replace.go, if_neg (by rwa [List.isPrefixOf_iff_prefix])]
      rw [hgo, ih fun h => hc (List.mem_cons_of_mem _ h)]
      rfl
  | cons d before ih =>
    rw [List.length_cons] at hskip
    cases skip with
    | succ skip => exact ih (Nat.le_of_succ_le_succ hskip)
    | zero =>
      rw [List.cons_append, replace.go, replace.go]
      have hiff : needle.isPrefixOf (d :: (before ++ behind)) = needle.isPrefixOf (d :: before) := by
        rw [Bool.eq_iff_iff, List.isPrefixOf_iff_prefix, List.isPrefixOf_iff_prefix, ← List.cons_append]
        exact prefix_append_iff hlast hc
      rw [hiff]
      split
      · next hstarts =>
        have hlength := (List.isPrefixOf_iff_prefix.1 hstarts).length_le
        rw [List.length_cons] at hlength
        rw [ih (by omega), List.append_assoc]
      · rw [ih (Nat.zero_le _)]
        rfl

/-- Replacing leaves alone what holds the last code point of the needle nowhere. -/
theorem replace_append {needle before behind : Text} {c : CodePoint} (replacement : Text)
    (hlast : needle.getLast? = some c) (hc : c ∉ behind) :
    replace needle replacement (before ++ behind) = replace needle replacement before ++ behind :=
  replace_go_append hlast hc (Nat.zero_le _)

end Bilingual.Text
