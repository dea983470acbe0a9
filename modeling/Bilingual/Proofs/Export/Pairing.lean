import Bilingual.Export.Collect
import Bilingual.Export.Pairing
import Bilingual.Proofs.OrderedMap

set_option autoImplicit false

/-! # The bilingual document read back

What the bilingual document has for a category in one locale may take the place of the contents it was made of, on
either side or on both: pairing gives the same document again, in the same order (`Pairing.contents_again`). This goes
up from texts (`Pairing.restores_leaf`) through maps (`Pairing.Restores.byKey`) and records to contents. -/

namespace Bilingual

namespace OrderedMap

variable {α β : Type}

theorem mem_unionKeys_iff {a b : OrderedMap α} {key : Text} :
    key ∈ unionKeys a b ↔ key ∈ keys a ∨ key ∈ keys b := by
  rw [unionKeys, List.mem_append, List.mem_filter]
  by_cases h : key ∈ keys a
  · simp [h]
  · simp [h]

theorem lookup?_map_of_mem (f : Text → β) {names : List Text} {key : Text} (h : key ∈ names) :
    lookup? (names.map fun name => (name, f name)) key = some (f key) := by
  induction names with
  | nil => cases h
  | cons name names ih =>
    rw [List.map_cons, lookup?]
    split_ifs with hkey
    · rw [hkey]
    · exact ih ((List.mem_cons.1 h).resolve_left fun heq => hkey heq.symm)

theorem unionKeys_eq_nil {a b : OrderedMap α} (h : unionKeys a b = []) : a = [] ∧ b = [] := by
  have hnone : ∀ key, ¬ (key ∈ keys a ∨ key ∈ keys b) := by
    intro key hkey
    have hmem := mem_unionKeys_iff.2 hkey
    rw [h] at hmem
    cases hmem
  constructor
  · exact List.map_eq_nil_iff.1 (List.eq_nil_iff_forall_not_mem.2 fun key hkey => hnone key (.inl hkey))
  · exact List.map_eq_nil_iff.1 (List.eq_nil_iff_forall_not_mem.2 fun key hkey => hnone key (.inr hkey))

/-- A map brings no new keys to one with the same keys. -/
theorem unionKeys_of_keys_eq {a b : OrderedMap α} (h : keys b = keys a) : unionKeys a b = keys a := by
  rw [unionKeys, h, List.filter_eq_nil_iff.2 fun key hkey => by simp [hkey], List.append_nil]

theorem nodup_unionKeys {a b : OrderedMap α} (ha : Distinct a) (hb : Distinct b) : (unionKeys a b).Nodup := by
  refine ha.append (hb.filter _) fun key hfirst hsecond => ?_
  have hnew := (List.mem_filter.1 hsecond).2
  simp [hfirst] at hnew

/-- The keys of both maps stay the same ones in the same order, also when a map comes to have those of both. -/
theorem unionKeys_again {a b a' b' : OrderedMap α} (ha : keys a' = keys a ∨ keys a' = unionKeys a b)
    (hb : keys b' = keys b ∨ keys b' = unionKeys a b) : unionKeys a' b' = unionKeys a b := by
  have hnone : ∀ {known names : List Text}, (∀ name ∈ names, name ∈ known) →
      names.filter (fun name => !known.contains name) = [] := by
    intro known names h
    exact List.filter_eq_nil_iff.2 fun name hname => by simp [h name hname]
  rcases ha with ha | ha
  · rcases hb with hb | hb
    · rw [unionKeys, unionKeys, ha, hb]
    · -- behind the keys of the first map, the keys of both leave those that only the second one has
      have hboth : ∀ known names : List Text, (known ++ names.filter fun name => !known.contains name).filter
          (fun name => !known.contains name) = names.filter fun name => !known.contains name := by
        intro known names
        rw [List.filter_append, hnone fun _ => id, List.nil_append, List.filter_filter]
        simp only [Bool.and_self]
      rw [unionKeys, ha, hb, unionKeys, hboth]
  · have hknown : ∀ name ∈ keys b', name ∈ unionKeys a b := by
      intro name hname
      rcases hb with hb | hb
      · exact mem_unionKeys_iff.2 (.inr (hb ▸ hname))
      · exact hb ▸ hname
    rw [unionKeys, ha, hnone hknown, List.append_nil]

end OrderedMap

namespace Pairing

variable {α : Type} {locales : Locales}

/-- A pair stays the same one when sides of it are replaced by what is read from it. -/
def Restores (pair : Option α → Option α → Json) (first second : Json → α) : Prop :=
  ∀ x y x' y', (x' = x ∨ x' = some (first (pair x y))) → (y' = y ∨ y' = some (second (pair x y))) →
    pair x' y' = pair x y

/-! ## Texts -/

theorem leaf_eq (h : locales.secondary ≠ locales.primary) (first second : Option Text) : leaf locales first second =
    .object [(locales.primary, Json.ofOption first), (locales.secondary, Json.ofOption second)] := by
  rw [leaf, OrderedMap.ofPairs_of_distinct]
  simpa using Ne.symm h

/-- The texts of both locales are read back from their pair. -/
theorem leaf_leaf (h : locales.secondary ≠ locales.primary) (first second : Option Text) :
    Reference.leaf locales.primary locales.primary (leaf locales first second) = first ∧
      Reference.leaf locales.secondary locales.primary (leaf locales first second) = second := by
  rw [leaf_eq h]
  constructor
  · cases first <;> simp [Reference.leaf, OrderedMap.lookup?, Json.ofOption]
  · cases second <;> simp [Reference.leaf, OrderedMap.lookup?, Json.ofOption, Ne.symm h]

theorem restores_leaf (h : locales.secondary ≠ locales.primary) :
    Restores (fun x y => leaf locales x.join y.join) (Reference.leaf locales.primary locales.primary)
      (Reference.leaf locales.secondary locales.primary) := by
  intro x y x' y' hx hy
  obtain ⟨hfirst, hsecond⟩ := leaf_leaf h x.join y.join
  have hx' : x'.join = x.join := by
    rcases hx with rfl | rfl
    · rfl
    · exact hfirst
  have hy' : y'.join = y.join := by
    rcases hy with rfl | rfl
    · rfl
    · exact hsecond
  exact congrArg₂ (leaf locales) hx' hy'

/-! ## Maps -/

variable {pair : Option α → Option α → Json} {first second : Json → α}

/-- The fields of two maps that are paired key by key. -/
def fieldsByKey (pair : Option α → Option α → Json) (a b : OrderedMap α) : OrderedMap Json :=
  (OrderedMap.unionKeys a b).map fun key => (key, pair (a.lookup? key) (b.lookup? key))

theorem keys_fieldsByKey (pair : Option α → Option α → Json) (a b : OrderedMap α) :
    OrderedMap.keys (fieldsByKey pair a b) = OrderedMap.unionKeys a b := by
  rw [OrderedMap.keys, fieldsByKey, List.map_map]
  exact List.map_id' _

theorem lookup?_mapValues_fieldsByKey {β : Type} (pair : Option α → Option α → Json) (read : Json → β)
    {a b : OrderedMap α} {key : Text} (hkey : key ∈ OrderedMap.unionKeys a b) :
    ((fieldsByKey pair a b).mapValues read).lookup? key = some (read (pair (a.lookup? key) (b.lookup? key))) := by
  rw [OrderedMap.lookup?_mapValues, fieldsByKey, OrderedMap.lookup?_map_of_mem _ hkey]
  rfl

theorem Restores.byKey (h : Restores pair first second) {a b a' b' : OrderedMap α}
    (ha : a' = a ∨ a' = (fieldsByKey pair a b).mapValues first)
    (hb : b' = b ∨ b' = (fieldsByKey pair a b).mapValues second) : byKey pair a' b' = byKey pair a b := by
  have hkeys : ∀ f : Json → α, OrderedMap.keys ((fieldsByKey pair a b).mapValues f) = OrderedMap.unionKeys a b := by
    intro f
    rw [OrderedMap.keys_mapValues, keys_fieldsByKey]
  have hunion : OrderedMap.unionKeys a' b' = OrderedMap.unionKeys a b :=
    OrderedMap.unionKeys_again
      (ha.imp (congrArg OrderedMap.keys) fun ha => (congrArg OrderedMap.keys ha).trans (hkeys first))
      (hb.imp (congrArg OrderedMap.keys) fun hb => (congrArg OrderedMap.keys hb).trans (hkeys second))
  refine congrArg Json.object ?_
  rw [hunion]
  refine List.map_congr_left fun key hkey => ?_
  rw [h (a.lookup? key) (b.lookup? key) (a'.lookup? key) (b'.lookup? key)]
  · exact ha.imp (fun ha => by rw [ha]) fun ha => by rw [ha, lookup?_mapValues_fieldsByKey pair first hkey]
  · exact hb.imp (fun hb => by rw [hb]) fun hb => by rw [hb, lookup?_mapValues_fieldsByKey pair second hkey]

/-! ## Records -/

theorem restores_record (h : locales.secondary ≠ locales.primary) :
    Restores (record locales) (Reference.record locales.primary locales.primary)
      (Reference.record locales.secondary locales.primary) := by
  intro x y x' y' hx hy
  exact (restores_leaf h).byKey (hx.imp (fun hx => by rw [hx]) fun hx => by rw [hx]; rfl)
    (hy.imp (fun hy => by rw [hy]) fun hy => by rw [hy]; rfl)

/-- The items of two lists of records that are paired by number. -/
def itemsByNumber (locales : Locales) (a b : List (Option FlatMap)) : List Json :=
  (List.range (max a.length b.length)).map fun i => record locales a[i]? b[i]?

theorem length_itemsByNumber (locales : Locales) (a b : List (Option FlatMap)) :
    (itemsByNumber locales a b).length = max a.length b.length := by
  rw [itemsByNumber, List.length_map, List.length_range]

theorem getElem?_itemsByNumber {a b : List (Option FlatMap)} {i : Nat} (hi : i < max a.length b.length) :
    (itemsByNumber locales a b)[i]? = some (record locales a[i]? b[i]?) := by
  rw [itemsByNumber, List.getElem?_map, List.getElem?_range hi]
  rfl

theorem records_again (h : locales.secondary ≠ locales.primary) {a b a' b' : List (Option FlatMap)}
    (ha : a' = a ∨ a' = (itemsByNumber locales a b).map (Reference.record locales.primary locales.primary))
    (hb : b' = b ∨ b' = (itemsByNumber locales a b).map (Reference.record locales.secondary locales.primary)) :
    records locales a' b' = records locales a b := by
  have hmax : max a'.length b'.length = max a.length b.length := by
    have hlength := length_itemsByNumber locales a b
    have ha' := ha.imp (congrArg List.length) fun ha => (congrArg List.length ha).trans (List.length_map _)
    have hb' := hb.imp (congrArg List.length) fun hb => (congrArg List.length hb).trans (List.length_map _)
    omega
  refine congrArg Json.list ?_
  rw [hmax]
  refine List.map_congr_left fun i hi => ?_
  rw [List.mem_range] at hi
  rw [restores_record h a[i]? b[i]? a'[i]? b'[i]?]
  · exact ha.imp (fun ha => by rw [ha]) fun ha => by rw [ha, List.getElem?_map, getElem?_itemsByNumber hi]; rfl
  · exact hb.imp (fun hb => by rw [hb]) fun hb => by rw [hb, List.getElem?_map, getElem?_itemsByNumber hi]; rfl

/-! ## Contents -/

section Contents

variable {a b a' b' : Content} {document fields : OrderedMap Json} {items : List Json} {name locale primary : Text}
  {shape : Shape}

theorem contents?_map (h : OrderedMap.lookup? document name = some (.object fields)) :
    Reference.contents? (some document) name .map locale primary =
      some (.map (fields.mapValues (Reference.leaf locale primary))) := by
  simp only [Reference.contents?, Option.bind_eq_bind, Option.bind_some, h]

theorem contents?_records (h : OrderedMap.lookup? document name = some (.list items)) :
    Reference.contents? (some document) name .records locale primary =
      some (.records (items.map (Reference.record locale primary))) := by
  simp only [Reference.contents?, Option.bind_eq_bind, Option.bind_some, h]

theorem contents?_keyedRecords (h : OrderedMap.lookup? document name = some (.object fields)) :
    Reference.contents? (some document) name .keyedRecords locale primary =
      some (.keyedRecords (fields.mapValues (Reference.record locale primary))) := by
  simp only [Reference.contents?, Option.bind_eq_bind, Option.bind_some, h]

theorem fieldsByKey_eq_nil {α : Type} {pair : Option α → Option α → Json} {a b : OrderedMap α}
    (h : fieldsByKey pair a b = []) : a = [] ∧ b = [] :=
  OrderedMap.unionKeys_eq_nil (List.map_eq_nil_iff.1 h)

theorem itemsByNumber_eq_nil {a b : List (Option FlatMap)} (h : itemsByNumber locales a b = []) :
    a = [] ∧ b = [] := by
  have hlength : max a.length b.length = 0 := List.range_eq_nil.1 (List.map_eq_nil_iff.1 h)
  exact ⟨List.eq_nil_of_length_eq_zero (by omega), List.eq_nil_of_length_eq_zero (by omega)⟩

/-- The document has contents for a category whose contents it was made of, and they hold nothing only if these held
nothing in either locale. -/
theorem exists_contents? (ha : a.shape = shape) (hb : b.shape = shape)
    (hraw : OrderedMap.lookup? document name = some (contents locales shape (some a) (some b))) (locale : Text) :
    ∃ known, Reference.contents? (some document) name shape locale locales.primary = some known ∧
      (known.isEmpty = true → a.isEmpty = true ∧ b.isEmpty = true) := by
  have hnil : ∀ {β γ : Type} {f : β → γ} {l : List β}, ((l.map f).length == 0) = true → l = [] := by
    intro β γ f l h
    exact List.map_eq_nil_iff.1 (List.eq_nil_of_length_eq_zero (beq_iff_eq.1 h))
  subst ha
  cases a with
  | map a =>
    cases b with
    | map b =>
      refine ⟨_, contents?_map hraw, fun hempty => ?_⟩
      have hfields : fieldsByKey (fun x y => leaf locales x.join y.join) a b = [] := hnil hempty
      obtain ⟨rfl, rfl⟩ := fieldsByKey_eq_nil hfields
      exact ⟨rfl, rfl⟩
    | _ => cases hb
  | records a =>
    cases b with
    | records b =>
      refine ⟨_, contents?_records hraw, fun hempty => ?_⟩
      obtain ⟨rfl, rfl⟩ := itemsByNumber_eq_nil (hnil hempty)
      exact ⟨rfl, rfl⟩
    | _ => cases hb
  | keyedRecords a =>
    cases b with
    | keyedRecords b =>
      refine ⟨_, contents?_keyedRecords hraw, fun hempty => ?_⟩
      obtain ⟨rfl, rfl⟩ := fieldsByKey_eq_nil (hnil hempty)
      exact ⟨rfl, rfl⟩
    | _ => cases hb

/-- Contents that are read from the document may take the place of those that it was made of. -/
theorem contents_again (h : locales.secondary ≠ locales.primary) (ha : a.shape = shape) (hb : b.shape = shape)
    (hraw : OrderedMap.lookup? document name = some (contents locales shape (some a) (some b)))
    (ha' : a' = a ∨ Reference.contents? (some document) name shape locales.primary locales.primary = some a')
    (hb' : b' = b ∨ Reference.contents? (some document) name shape locales.secondary locales.primary = some b') :
    contents locales shape (some a') (some b') = contents locales shape (some a) (some b) := by
  -- either side is the one it was, or the one that is read
  have hside : ∀ {β : Type} {make : β → Content} {content : Content} {old read : β} {found : Option Content},
      found = some (make read) → (content = make old ∨ found = some content) →
        ∃ side, content = make side ∧ (side = old ∨ side = read) := by
    intro β make content old read found hread hcontent
    rcases hcontent with rfl | hfound
    · exact ⟨old, rfl, .inl rfl⟩
    · exact ⟨read, Option.some.inj (hfound.symm.trans hread), .inr rfl⟩
  subst ha
  cases a with
  | map a =>
    cases b with
    | map b =>
      obtain ⟨a', rfl, hfirst⟩ := hside (contents?_map hraw) ha'
      obtain ⟨b', rfl, hsecond⟩ := hside (contents?_map hraw) hb'
      exact (restores_leaf h).byKey hfirst hsecond
    | _ => cases hb
  | records a =>
    cases b with
    | records b =>
      obtain ⟨a', rfl, hfirst⟩ := hside (contents?_records hraw) ha'
      obtain ⟨b', rfl, hsecond⟩ := hside (contents?_records hraw) hb'
      exact records_again h hfirst hsecond
    | _ => cases hb
  | keyedRecords a =>
    cases b with
    | keyedRecords b =>
      obtain ⟨a', rfl, hfirst⟩ := hside (contents?_keyedRecords hraw) ha'
      obtain ⟨b', rfl, hsecond⟩ := hside (contents?_keyedRecords hraw) hb'
      exact (restores_record h).byKey hfirst hsecond
    | _ => cases hb

end Contents

end Pairing

end Bilingual
