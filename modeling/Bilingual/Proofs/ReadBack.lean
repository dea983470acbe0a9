import Bilingual.Data.Checked
import Bilingual.Proofs.OrderedMap

set_option autoImplicit false

/-! # Written values that pass their checks

A check reads a written value back when it comes to the very value that was written. There is one law for each shape of
written values: lists, maps with distinct keys, and fields. An object with exactly the fields of a model is read back as
soon as the check of its fields reads them back (`Checked.model_ofJson`). -/

namespace Bilingual

theorem Text.ofString_inj {s s' : String} : Text.ofString s = Text.ofString s' ↔ s = s' := by
  have hinjective : Function.Injective CodePoint.ofChar := fun a b h => CodePoint.ofChar_inj.1 h
  rw [Text.ofString, Text.ofString, List.map_inj_right hinjective, String.toList_inj]

theorem CodePoint.isSurrogate_ofChar (c : Char) : (ofChar c).isSurrogate = false := by
  have hvalid := c.valid
  simp only [UInt32.isValidChar, Nat.isValidChar] at hvalid
  have hval : (ofChar c).val = c.val.toNat := rfl
  rw [isSurrogate, hval, Bool.and_eq_false_iff, decide_eq_false_iff_not, decide_eq_false_iff_not]
  omega

@[simp] theorem Text.hasSurrogate_ofString (s : String) : (ofString s).hasSurrogate = false := by
  simp [hasSurrogate, ofString, CodePoint.isSurrogate_ofChar]

theorem Data.lookup?_ofFields (fields : List (Text × Json)) (name : Text) :
    Data.lookup? (Data.ofFields fields) name = (OrderedMap.lookup? fields name).map Data.ofJson := by
  induction fields with
  | nil => rfl
  | cons field fields ih =>
    by_cases h : field.1 = name
    · simp [Data.ofFields, Data.lookup?, OrderedMap.lookup?, h]
    · simp [Data.ofFields, Data.lookup?, OrderedMap.lookup?, h, ih]

namespace Checked

variable {α : Type} {check : Data → Checked α} {write : α → Json}

/-! ## Checks put together -/

theorem seq_eq_ok {β : Type} {f : Checked (β → α)} {x : Checked β} {g : β → α} {b : β} (hf : f = .ok g)
    (hx : x = .ok b) : f <*> x = .ok (g b) := by
  subst hf hx
  rfl

theorem map₂_eq_ok {β γ : Type} {x : Checked β} {y : Checked γ} {b : β} {c : γ} (f : β → γ → α) (hx : x = .ok b)
    (hy : y = .ok c) : f <$> x <*> y = .ok (f b c) := by
  subst hx hy
  rfl

theorem map₃_eq_ok {β γ δ : Type} {x : Checked β} {y : Checked γ} {z : Checked δ} {b : β} {c : γ} {d : δ}
    (f : β → γ → δ → α) (hx : x = .ok b) (hy : y = .ok c) (hz : z = .ok d) :
    f <$> x <*> y <*> z = .ok (f b c d) :=
  seq_eq_ok (map₂_eq_ok f hx hy) hz

/-! ## Texts, lists and maps -/

theorem text_ofJson (t : Text) : text (Data.ofJson (.text t)) = .ok t := rfl

theorem nullable_text_ofOption (t : Option Text) :
    nullable text (Data.ofJson (Json.ofOption t)) = .ok t := by
  cases t <;> rfl

theorem nonEmptyText_ofJson {t : Text} (hne : t ≠ []) (hsound : t.hasSurrogate = false) :
    nonEmptyText (Data.ofJson (.text t)) = .ok t := by
  have hempty : t.isEmpty = false := List.isEmpty_eq_false_iff.2 hne
  show (if t.hasSurrogate then problem .brokenText else if t.isEmpty then problem .emptyText else ok t) = ok t
  simp only [hsound, hempty, Bool.false_eq_true, if_false]

theorem itemsFrom_ofItems {items : List α} (h : ∀ a ∈ items, check (Data.ofJson (write a)) = .ok a) (index : Nat) :
    itemsFrom check index (Data.ofItems (items.map write)) = .ok items := by
  induction items generalizing index with
  | nil => rfl
  | cons a rest ih =>
    have ha := h a (List.mem_cons_self ..)
    have hrest := ih (fun b hb => h b (List.mem_cons_of_mem _ hb)) (index + 1)
    show List.cons <$> (check (Data.ofJson (write a))).under (.integer index)
      <*> itemsFrom check (index + 1) (Data.ofItems (rest.map write)) = _
    rw [ha, hrest]
    rfl

/-- A written list is accepted if its items are. -/
theorem list_ofJson {items : List α} (h : ∀ a ∈ items, check (Data.ofJson (write a)) = .ok a) :
    list check (Data.ofJson (.list (items.map write))) = .ok items :=
  itemsFrom_ofItems h 0

theorem nonEmptyList_ofJson {items : List α} (hne : items ≠ [])
    (h : ∀ a ∈ items, check (Data.ofJson (write a)) = .ok a) :
    nonEmptyList check (Data.ofJson (.list (items.map write))) = .ok items := by
  cases items with
  | nil => exact absurd rfl hne
  | cons a rest => exact list_ofJson h

/-- The entries of a written map are accepted one by one. -/
theorem entries_ofFields {m : OrderedMap α} (h : ∀ pair ∈ m, check (Data.ofJson (write pair.2)) = .ok pair.2) :
    entries check (Data.ofFields (m.mapValues write)) = .ok m := by
  induction m with
  | nil => rfl
  | cons pair rest ih =>
    obtain ⟨key, value⟩ := pair
    have hvalue : check (Data.ofJson (write value)) = .ok value := h (key, value) (List.mem_cons_self ..)
    have hrest := ih fun pair hpair => h pair (List.mem_cons_of_mem _ hpair)
    show (fun k v m => (k, v) :: m) <$> textKey (.text key)
      <*> (check (Data.ofJson (write value))).under (.text key)
      <*> entries check (Data.ofFields (OrderedMap.mapValues write rest)) = _
    rw [hvalue, hrest]
    rfl

/-- A written map with distinct keys is accepted as it is. -/
theorem map_ofJson {m : OrderedMap α} (hm : OrderedMap.Distinct m)
    (h : ∀ pair ∈ m, check (Data.ofJson (write pair.2)) = .ok pair.2) :
    map check (Data.ofJson (.object (m.mapValues write))) = .ok m := by
  show OrderedMap.ofPairs <$> entries check (Data.ofFields (m.mapValues write)) = _
  rw [entries_ofFields h]
  exact congrArg Checked.ok (OrderedMap.ofPairs_of_distinct hm)

/-! ## Fields -/

variable {fields : List (Text × Json)} {names : List Text} {name : Text} {value : Json} {a : α}

theorem hasBrokenKey_ofFields (h : ∀ field ∈ fields, field.1.hasSurrogate = false) :
    hasBrokenKey (Data.ofFields fields) = false := by
  induction fields with
  | nil => rfl
  | cons field fields ih =>
    rw [List.forall_mem_cons] at h
    show (field.1.hasSurrogate || hasBrokenKey (Data.ofFields fields)) = false
    rw [h.1, ih h.2]
    rfl

theorem defaulted_of_lookup? (default : α) (hlookup : OrderedMap.lookup? fields name = some value)
    (h : check (Data.ofJson value) = .ok a) : defaulted (Data.ofFields fields) name default check = .ok a := by
  rw [defaulted, Data.lookup?_ofFields, hlookup]
  show (check (Data.ofJson value)).under _ = _
  rw [h]
  rfl

/-- A text field is read back, be it there or not. -/
theorem optional_text {t : Option Text} (hlookup : OrderedMap.lookup? fields name = t.map Json.text) :
    optional (Data.ofFields fields) name text = .ok t := by
  rw [optional, defaulted, Data.lookup?_ofFields, hlookup]
  cases t <;> rfl

/-- A field that has to be there is read back. -/
theorem required_of_mem (hfields : OrderedMap.Distinct fields) (hmem : (name, value) ∈ fields)
    (h : check (Data.ofJson value) = .ok a) : required (Data.ofFields fields) name check = .ok a := by
  rw [required, Data.lookup?_ofFields, OrderedMap.lookup?_of_mem hfields hmem]
  show (check (Data.ofJson value)).under _ = _
  rw [h]
  rfl

/-- So is one that may be left out. -/
theorem defaulted_of_mem {default : α} (hfields : OrderedMap.Distinct fields) (hmem : (name, value) ∈ fields)
    (h : check (Data.ofJson value) = .ok a) : defaulted (Data.ofFields fields) name default check = .ok a :=
  defaulted_of_lookup? default (OrderedMap.lookup?_of_mem hfields hmem) h

/-! ## Models -/

theorem only_ofFields (h : ∀ field ∈ fields, field.1 ∈ names) : only names (Data.ofFields fields) = .ok () := by
  induction fields with
  | nil => rfl
  | cons field fields ih =>
    rw [List.forall_mem_cons] at h
    show (fun _ _ => ()) <$> (if names.contains field.1 then ok () else (problem .unknownKey).under (.text field.1))
      <*> only names (Data.ofFields fields) = _
    rw [if_pos (List.contains_iff_mem.2 h.1), ih h.2]
    rfl

/-- Names that the fields of a model can have: they differ, and they can be encoded. -/
structure AreNames (names : List Text) : Prop where
  distinct : names.Nodup
  sound : ∀ name ∈ names, name.hasSurrogate = false

theorem areNames_iff : AreNames names ↔ names.Nodup ∧ ∀ name ∈ names, name.hasSurrogate = false :=
  ⟨fun h => ⟨h.distinct, h.sound⟩, fun h => ⟨h.1, h.2⟩⟩

/-- An object with the fields of a model is read back if the check reads every field of it back. -/
theorem model_ofJson {check : List (DataKey × Data) → Checked α} (hnames : AreNames names)
    (hkeys : OrderedMap.keys fields = names)
    (h : OrderedMap.Distinct fields → check (Data.ofFields fields) = .ok a) :
    model names check (Data.ofJson (.object fields)) = .ok a := by
  have hmem : ∀ field ∈ fields, field.1 ∈ names := fun field hfield => hkeys ▸ OrderedMap.mem_keys_of_mem hfield
  have hsound := hasBrokenKey_ofFields fun field hfield => hnames.sound _ (hmem field hfield)
  have hdistinct : OrderedMap.Distinct fields := by
    unfold OrderedMap.Distinct
    rw [hkeys]
    exact hnames.distinct
  show withSoundKeys (Data.ofFields fields)
    ((fun a _ => a) <$> check (Data.ofFields fields) <*> only names (Data.ofFields fields)) = _
  rw [withSoundKeys, hsound, h hdistinct, only_ofFields hmem]
  rfl

end Checked

end Bilingual
