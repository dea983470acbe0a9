import Bilingual.OrderedMap
import Mathlib.Data.List.Forall2
import Mathlib.Data.List.Nodup

set_option autoImplicit false

/-! # Looking up in ordered maps

A list of pairs is a map when no key comes twice (`OrderedMap.Distinct`), and then the pairs in it are
exactly those that are looked up. `put`, `putNew` and what is built from them keep keys distinct. Of pairs
with one key the last one counts where they are put (`lookup?_putAll`), and the first one where they are
put as new ones (`lookup?_putNewAll`). -/

namespace Bilingual.OrderedMap

variable {α β : Type}

/-- No key comes twice. -/
def Distinct (m : OrderedMap α) : Prop := (keys m).Nodup

instance (m : OrderedMap α) : Decidable m.Distinct := inferInstanceAs (Decidable (keys m).Nodup)

theorem distinct_nil : Distinct ([] : OrderedMap α) := List.nodup_nil

@[simp] theorem keys_nil : keys ([] : OrderedMap α) = [] := rfl

@[simp] theorem keys_cons (pair : Text × α) (m : OrderedMap α) :
    keys (pair :: m) = pair.1 :: keys m := rfl

@[simp] theorem keys_append (m n : OrderedMap α) : keys (m ++ n) = keys m ++ keys n := List.map_append

@[simp] theorem keys_mapValues (f : α → β) (m : OrderedMap α) : keys (mapValues f m) = keys m := by
  simp only [keys, mapValues, List.map_map]
  rfl

/-! ## Looking up -/

theorem lookup?_eq_none_iff {m : OrderedMap α} {key : Text} : lookup? m key = none ↔ key ∉ keys m := by
  induction m with
  | nil => simp [lookup?]
  | cons pair rest ih =>
    obtain ⟨k, v⟩ := pair
    by_cases h : k = key
    · simp [lookup?, h]
    · have hne : ¬ key = k := fun he => h he.symm
      simp [lookup?, h, hne, ih]

theorem mem_of_lookup? {m : OrderedMap α} {key : Text} {value : α} (h : lookup? m key = some value) :
    (key, value) ∈ m := by
  induction m with
  | nil => cases h
  | cons pair rest ih =>
    obtain ⟨k, v⟩ := pair
    rw [lookup?] at h
    split at h
    · next hk =>
      cases h
      rw [hk]
      exact List.mem_cons_self ..
    · exact List.mem_cons_of_mem _ (ih h)

theorem mem_keys_of_mem {m : OrderedMap α} {key : Text} {value : α} (h : (key, value) ∈ m) :
    key ∈ keys m :=
  List.mem_map.2 ⟨(key, value), h, rfl⟩

/-- In a map with distinct keys every pair is looked up. -/
theorem lookup?_of_mem {m : OrderedMap α} (hm : Distinct m) {key : Text} {value : α}
    (h : (key, value) ∈ m) : lookup? m key = some value := by
  induction m with
  | nil => cases h
  | cons pair rest ih =>
    obtain ⟨k, v⟩ := pair
    obtain ⟨hnot, hrest⟩ := List.nodup_cons.1 hm
    rcases List.mem_cons.1 h with heq | hmem
    · cases heq
      simp [lookup?]
    · have hne : k ≠ key := by
        rintro rfl
        exact hnot (mem_keys_of_mem hmem)
      rw [lookup?, if_neg hne]
      exact ih hrest hmem

@[simp] theorem lookup?_mapValues (f : α → β) (m : OrderedMap α) (key : Text) :
    lookup? (mapValues f m) key = (lookup? m key).map f := by
  induction m with
  | nil => rfl
  | cons pair rest ih =>
    obtain ⟨k, v⟩ := pair
    show lookup? ((k, f v) :: mapValues f rest) key = _
    by_cases h : k = key
    · simp [lookup?, h]
    · simp only [lookup?, if_neg h]
      exact ih

theorem lookup?_append (m n : OrderedMap α) (key : Text) :
    lookup? (m ++ n) key = (lookup? m key).or (lookup? n key) := by
  induction m with
  | nil => simp [lookup?]
  | cons pair rest ih =>
    obtain ⟨k, v⟩ := pair
    by_cases h : k = key
    · simp [lookup?, h]
    · simp [lookup?, h, ih]

theorem keys_eq_of_forall₂ {R : Text × α → Text × β → Prop} {m : OrderedMap α} {n : OrderedMap β}
    (h : List.Forall₂ (fun a b => a.1 = b.1 ∧ R a b) m n) : keys m = keys n := by
  induction h with
  | nil => rfl
  | cons hab _ ih => rw [keys_cons, keys_cons, hab.1, ih]

/-- Keys that do not repeat in one map do not repeat in another one with the same keys. -/
theorem Distinct.of_forall₂ {R : Text × α → Text × β → Prop} {m : OrderedMap α} {n : OrderedMap β}
    (hm : Distinct m) (h : List.Forall₂ (fun a b => a.1 = b.1 ∧ R a b) m n) : Distinct n := by
  unfold Distinct
  rw [← keys_eq_of_forall₂ h]
  exact hm

/-- Two maps with the same keys in the same order, whose values are related one by one, have related
values under every key. -/
theorem lookup?_of_forall₂ {R : Text → α → β → Prop} {m : OrderedMap α} {n : OrderedMap β}
    (h : List.Forall₂ (fun a b => a.1 = b.1 ∧ R a.1 a.2 b.2) m n) (key : Text) :
    (lookup? m key = none ∧ lookup? n key = none) ∨
      ∃ a b, lookup? m key = some a ∧ lookup? n key = some b ∧ R key a b := by
  induction h with
  | nil => exact .inl ⟨rfl, rfl⟩
  | @cons a b m n hab _ ih =>
    obtain ⟨k, x⟩ := a
    obtain ⟨k', y⟩ := b
    obtain ⟨hkey, hrel⟩ := hab
    have hkey : k = k' := hkey
    subst hkey
    by_cases hk : k = key
    · subst hk
      exact .inr ⟨x, y, by simp [lookup?], by simp [lookup?], hrel⟩
    · simp only [lookup?, if_neg hk]
      exact ih

/-! ## Putting -/

theorem keys_put (m : OrderedMap α) (key : Text) (value : α) :
    keys (put m key value) = if key ∈ keys m then keys m else keys m ++ [key] := by
  induction m with
  | nil => simp [put]
  | cons pair rest ih =>
    obtain ⟨k, v⟩ := pair
    by_cases h : k = key
    · simp [put, h]
    · have hne : ¬ key = k := fun he => h he.symm
      simp only [put, if_neg h, keys_cons, ih, List.mem_cons, hne, false_or]
      split
      · rfl
      · rfl

theorem Distinct.put {m : OrderedMap α} (hm : Distinct m) (key : Text) (value : α) :
    Distinct (put m key value) := by
  unfold Distinct
  rw [keys_put]
  split
  · exact hm
  · next h =>
    refine List.Nodup.append hm (List.nodup_singleton key) ?_
    simpa using h

theorem mem_of_mem_put {m : OrderedMap α} {key : Text} {value : α} {pair : Text × α}
    (h : pair ∈ put m key value) : pair ∈ m ∨ pair = (key, value) := by
  induction m with
  | nil => exact .inr (List.mem_singleton.1 h)
  | cons first rest ih =>
    rw [put] at h
    split at h
    · next hkey =>
      rw [hkey] at h
      exact (List.mem_cons.1 h).symm.imp_left (List.mem_cons_of_mem _)
    · rcases List.mem_cons.1 h with rfl | h
      · exact .inl List.mem_cons_self
      · exact (ih h).imp_left (List.mem_cons_of_mem _)

theorem put_of_not_mem {m : OrderedMap α} {key : Text} (h : key ∉ keys m) (value : α) :
    put m key value = m ++ [(key, value)] := by
  induction m with
  | nil => rfl
  | cons pair rest ih =>
    obtain ⟨k, v⟩ := pair
    rw [keys_cons, List.mem_cons, not_or] at h
    rw [OrderedMap.put, if_neg (fun he => h.1 he.symm), ih h.2]
    rfl

/-- Of two values that are put under a key the second one counts. -/
theorem put_put (m : OrderedMap α) (key : Text) (value value' : α) :
    put (put m key value) key value' = put m key value' := by
  induction m with
  | nil => simp [OrderedMap.put]
  | cons pair rest ih =>
    obtain ⟨k, v⟩ := pair
    by_cases h : k = key
    · simp [OrderedMap.put, h]
    · simp [OrderedMap.put, h, ih]

/-- What is put under a key does not show in what the other keys have. -/
theorem filter_put (m : OrderedMap α) (key : Text) (value : α) :
    (put m key value).filter (fun pair => pair.1 ≠ key) = m.filter fun pair => pair.1 ≠ key := by
  induction m with
  | nil => simp [OrderedMap.put]
  | cons pair rest ih =>
    obtain ⟨k, v⟩ := pair
    by_cases h : k = key
    · simp [OrderedMap.put, h]
    · rw [OrderedMap.put, if_neg h, List.filter_cons_of_pos (by simpa using h), ih,
        List.filter_cons_of_pos (by simpa using h)]

theorem lookup?_put (m : OrderedMap α) (key other : Text) (value : α) :
    lookup? (put m key value) other = if key = other then some value else lookup? m other := by
  split
  · next h =>
    subst h
    exact lookup?_put_self m key value
  · next h => exact lookup?_put_of_ne m value h

/-! ## Putting many -/

@[simp] theorem putAll_nil (m : OrderedMap α) : putAll m [] = m := rfl

@[simp] theorem putAll_cons (m : OrderedMap α) (pair : Text × α) (pairs : List (Text × α)) :
    putAll m (pair :: pairs) = putAll (put m pair.1 pair.2) pairs := rfl

/-- Steps that keep keys distinct do so in a row. -/
theorem Distinct.foldl {γ : Type} {step : OrderedMap α → γ → OrderedMap α} {m : OrderedMap α}
    (hm : Distinct m) (hstep : ∀ m a, Distinct m → Distinct (step m a)) (l : List γ) :
    Distinct (l.foldl step m) := by
  induction l generalizing m with
  | nil => exact hm
  | cons a rest ih => exact ih (hstep m a hm)

theorem Distinct.putAll {m : OrderedMap α} (hm : Distinct m) (pairs : List (Text × α)) :
    Distinct (putAll m pairs) :=
  hm.foldl (fun _ pair h => h.put pair.1 pair.2) pairs

theorem distinct_ofPairs (pairs : List (Text × α)) : Distinct (ofPairs pairs) :=
  distinct_nil.putAll pairs

theorem putAll_of_distinct {m : OrderedMap α} {pairs : List (Text × α)}
    (h : (keys m ++ pairs.map Prod.fst).Nodup) : putAll m pairs = m ++ pairs := by
  induction pairs generalizing m with
  | nil => exact (List.append_nil m).symm
  | cons pair rest ih =>
    have hnot : pair.1 ∉ keys m := by
      intro hmem
      exact (List.disjoint_of_nodup_append h) hmem (List.mem_cons_self ..)
    -- a new key goes to the end, so the keys of the map and of the rest are the same ones as before
    rw [putAll_cons, put_of_not_mem hnot, ih]
    · rw [List.append_assoc]
      rfl
    · rw [keys_append, List.append_assoc]
      exact h

/-- Pairs with distinct keys are the map they make. -/
theorem ofPairs_of_distinct {pairs : List (Text × α)} (h : (pairs.map Prod.fst).Nodup) :
    ofPairs pairs = pairs :=
  putAll_of_distinct (m := []) h

/-- Of pairs with one key the last one counts. -/
theorem lookup?_putAll (m : OrderedMap α) (pairs : List (Text × α)) (key : Text) :
    lookup? (putAll m pairs) key = (lookup? pairs.reverse key).or (lookup? m key) := by
  induction pairs generalizing m with
  | nil => rfl
  | cons pair rest ih =>
    obtain ⟨k, v⟩ := pair
    rw [putAll_cons, ih, List.reverse_cons, lookup?_append, lookup?_put]
    cases lookup? rest.reverse key with
    | some a => rfl
    | none =>
      by_cases h : k = key
      · simp [lookup?, h]
      · simp [lookup?, h]

/-- Of pairs with distinct keys each one counts. -/
theorem lookup?_putAll_of_mem (m : OrderedMap α) {pairs : List (Text × α)} (h : Distinct pairs) {key : Text} {value : α}
    (hmem : (key, value) ∈ pairs) : lookup? (putAll m pairs) key = some value := by
  have hreverse : Distinct pairs.reverse := by
    unfold Distinct
    rw [keys, List.map_reverse]
    exact List.nodup_reverse.2 h
  rw [lookup?_putAll, lookup?_of_mem hreverse (List.mem_reverse.2 hmem)]
  rfl

theorem lookup?_ofPairs (pairs : List (Text × α)) (key : Text) :
    lookup? (ofPairs pairs) key = lookup? pairs.reverse key := by
  rw [ofPairs, lookup?_putAll]
  show (lookup? pairs.reverse key).or none = _
  exact Option.or_none

theorem mem_of_mem_ofPairs {pairs : List (Text × α)} {pair : Text × α} (h : pair ∈ ofPairs pairs) : pair ∈ pairs := by
  have hlookup := lookup?_of_mem (distinct_ofPairs pairs) h
  rw [lookup?_ofPairs] at hlookup
  exact List.mem_reverse.1 (mem_of_lookup? hlookup)

/-! ## Putting new ones -/

theorem lookup?_putNew (m : OrderedMap α) (key other : Text) (value : α) :
    lookup? (putNew m key value) other = (lookup? m other).or (lookup? [(key, value)] other) := by
  unfold putNew
  cases h : lookup? m key with
  | some old =>
    by_cases hk : key = other
    · subst hk
      rw [h]
      rfl
    · simp [lookup?, hk]
  | none => exact lookup?_append m [(key, value)] other

theorem Distinct.putNew {m : OrderedMap α} (hm : Distinct m) (key : Text) (value : α) :
    Distinct (putNew m key value) := by
  unfold OrderedMap.putNew
  cases h : lookup? m key with
  | some old => exact hm
  | none =>
    rw [← put_of_not_mem (lookup?_eq_none_iff.1 h)]
    exact hm.put key value

/-- Pairs put one after the other, each only if its key is new. -/
def putNewAll (m : OrderedMap α) (pairs : List (Text × α)) : OrderedMap α :=
  pairs.foldl (fun m pair => m.putNew pair.1 pair.2) m

theorem Distinct.putNewAll {m : OrderedMap α} (hm : Distinct m) (pairs : List (Text × α)) :
    Distinct (putNewAll m pairs) :=
  hm.foldl (fun _ pair h => h.putNew pair.1 pair.2) pairs

theorem mem_of_mem_putNewAll {m : OrderedMap α} {pairs : List (Text × α)} {pair : Text × α}
    (h : pair ∈ putNewAll m pairs) : pair ∈ m ∨ pair ∈ pairs := by
  induction pairs generalizing m with
  | nil => exact .inl h
  | cons first rest ih =>
    rcases ih (m := m.putNew first.1 first.2) h with h | h
    · unfold putNew at h
      split at h
      · exact .inl h
      · rcases List.mem_append.1 h with h | h
        · exact .inl h
        · rw [List.mem_singleton.1 h]
          exact .inr (List.mem_cons_self ..)
    · exact .inr (List.mem_cons_of_mem _ h)

theorem mem_of_mem_putNewAll_nil {pairs : List (Text × α)} {pair : Text × α}
    (h : pair ∈ putNewAll [] pairs) : pair ∈ pairs := by
  rcases mem_of_mem_putNewAll h with h | h
  · cases h
  · exact h

/-- Of pairs with one key the first one counts. -/
theorem lookup?_putNewAll (m : OrderedMap α) (pairs : List (Text × α)) (key : Text) :
    lookup? (putNewAll m pairs) key = (lookup? m key).or (lookup? pairs key) := by
  induction pairs generalizing m with
  | nil => exact Option.or_none.symm
  | cons pair rest ih =>
    have hstep : lookup? (putNewAll m (pair :: rest)) key
        = (lookup? (putNew m pair.1 pair.2) key).or (lookup? rest key) := ih _
    rw [hstep, lookup?_putNew, Option.or_assoc, ← lookup?_append]
    rfl

theorem mem_putNewAll_nil_iff {pairs : List (Text × α)} {key : Text} {value : α} :
    (key, value) ∈ putNewAll [] pairs ↔ lookup? pairs key = some value := by
  have hlookup : lookup? (putNewAll [] pairs) key = lookup? pairs key := lookup?_putNewAll [] pairs key
  rw [← hlookup]
  constructor
  · exact lookup?_of_mem (distinct_nil.putNewAll pairs)
  · exact mem_of_lookup?

/-- Pairs with one key have one value. -/
def Agree (pairs : List (Text × α)) : Prop :=
  ∀ first ∈ pairs, ∀ second ∈ pairs, first.1 = second.1 → first.2 = second.2

instance [DecidableEq α] (pairs : List (Text × α)) : Decidable (Agree pairs) :=
  inferInstanceAs (Decidable (∀ first ∈ pairs, ∀ second ∈ pairs, first.1 = second.1 → first.2 = second.2))

/-- Pairs agree exactly if every one has the value that the first one with its key has. -/
theorem agree_iff_putNewAll {pairs : List (Text × α)} :
    Agree pairs ↔ ∀ key value, (key, value) ∈ putNewAll [] pairs →
      ∀ pair ∈ pairs, pair.1 = key → pair.2 = value := by
  constructor
  · intro h key value hmem pair hpair hkey
    exact h pair hpair (key, value) (mem_of_mem_putNewAll_nil hmem) hkey
  · intro h first hfirst second hsecond hkey
    -- both are compared with the first pair of their key
    obtain ⟨value, hvalue⟩ : ∃ value, lookup? pairs first.1 = some value := by
      cases hlookup : lookup? pairs first.1 with
      | some value => exact ⟨value, rfl⟩
      | none => exact absurd (mem_keys_of_mem hfirst) (lookup?_eq_none_iff.1 hlookup)
    have hmem := mem_putNewAll_nil_iff.2 hvalue
    rw [h _ value hmem first hfirst rfl, h _ value hmem second hsecond hkey.symm]

end Bilingual.OrderedMap
