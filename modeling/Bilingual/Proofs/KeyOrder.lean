import Bilingual.Proofs.Planned
import Mathlib.Data.List.Perm.Basic

set_option autoImplicit false

/-! # Maps with their keys in another order

A map of a document is the same with its keys in another order (`Json.SameMap`), and so are the contents that it is
checked to (`Content.SameMap`). Distinct keys make the order of a map the only thing that its lookups do not tell
(`OrderedMap.perm_of_lookup?`), and a step that goes through a list in another order has its results in that order
(`Except.exists_mapM_perm`). -/

namespace Bilingual

/-- A step that comes to results for the members of a list comes to the same ones in another order. -/
theorem Except.exists_mapM_perm {ε α β : Type} {f : α → Except ε β} {l l' : List α} {bs : List β} (hperm : l.Perm l')
    (h : l.mapM f = .ok bs) : ∃ bs', l'.mapM f = .ok bs' ∧ bs.Perm bs' := by
  obtain ⟨bs', hbs', hperm'⟩ := List.perm_comp_forall₂ hperm.symm (Except.mapM_eq_ok_iff.1 h)
  exact ⟨bs', Except.mapM_eq_ok_iff.2 hbs', hperm'.symm⟩

/-- Members that are related one by one stay so in another order. -/
theorem List.Forall₂.exists_perm {α β : Type} {R : α → β → Prop} {l l' : List α} {m : List β}
    (h : List.Forall₂ R l m) (hperm : l.Perm l') : ∃ m', List.Forall₂ R l' m' ∧ m.Perm m' := by
  obtain ⟨m', hm', hperm'⟩ := List.perm_comp_forall₂ hperm.symm h
  exact ⟨m', hm', hperm'.symm⟩

/-- Of two values that are related, if there are any, there is none or there are both. -/
theorem Option.Rel.cases {α β : Type} {R : α → β → Prop} {x : Option α} {y : Option β} (h : Option.Rel R x y) :
    x = none ∧ y = none ∨ ∃ a b, x = some a ∧ y = some b ∧ R a b := by
  cases h with
  | none => exact .inl ⟨rfl, rfl⟩
  | some hab => exact .inr ⟨_, _, rfl, rfl, hab⟩

namespace OrderedMap

variable {α : Type} {m m' : OrderedMap α}

theorem Distinct.perm (hm : Distinct m) (h : List.Perm m m') : Distinct m' := (h.map Prod.fst).nodup_iff.1 hm

/-- The order of the keys does not matter to a lookup. -/
theorem lookup?_perm (hm : Distinct m) (h : List.Perm m m') (key : Text) : m.lookup? key = m'.lookup? key := by
  cases hfound : m'.lookup? key with
  | none =>
    rw [lookup?_eq_none_iff] at hfound ⊢
    exact fun hkey => hfound ((h.map Prod.fst).mem_iff.1 hkey)
  | some value => exact lookup?_of_mem hm (h.mem_iff.2 (mem_of_lookup? hfound))

/-- Maps with the same values under all keys are the same up to order. -/
theorem perm_of_lookup? (hm : Distinct m) (hm' : Distinct m') (h : ∀ key, m.lookup? key = m'.lookup? key) :
    List.Perm m m' := by
  refine (List.perm_ext_iff_of_nodup (List.Nodup.of_map _ hm) (List.Nodup.of_map _ hm')).2 fun pair => ?_
  constructor
  · exact fun hpair => mem_of_lookup? ((h pair.1).symm.trans (lookup?_of_mem hm hpair))
  · exact fun hpair => mem_of_lookup? ((h pair.1).trans (lookup?_of_mem hm' hpair))

end OrderedMap

/-! ## Values of documents -/

namespace Json

/-- The same value, or the same object with its keys in another order and with members that are the same in the given
way. -/
def Reordered (same : Json → Json → Prop) (v v' : Json) : Prop :=
  v = v' ∨ ∃ fields between fields', v = .object fields ∧ v' = .object fields' ∧ OrderedMap.Distinct fields ∧
    List.Perm fields between ∧ List.Forall₂ (fun a b => a.1 = b.1 ∧ same a.2 b.2) between fields'

theorem Reordered.mono {same same' : Json → Json → Prop} (hsame : ∀ a b, same a b → same' a b) {v v' : Json}
    (h : Reordered same v v') : Reordered same' v v' := by
  rcases h with rfl | ⟨fields, between, fields', rfl, rfl, hdistinct, hperm, hmembers⟩
  · exact .inl rfl
  · exact .inr ⟨fields, between, fields', rfl, rfl, hdistinct, hperm, hmembers.imp fun _ _ h => ⟨h.1, hsame _ _ h.2⟩⟩

/-- The same map with its keys in another order; a record in it counts as the same with its keys in another order. -/
def SameMap : Json → Json → Prop := Reordered (Reordered Eq)

theorem Reordered.symm {same : Json → Json → Prop} (hsame : ∀ a b, same a b → same b a) {v v' : Json}
    (h : Reordered same v v') : Reordered same v' v := by
  rcases h with rfl | ⟨fields, between, fields', rfl, rfl, hdistinct, hperm, hmembers⟩
  · exact .inl rfl
  · have hdistinct' : OrderedMap.Distinct fields' := (hdistinct.perm hperm).of_forall₂ hmembers
    obtain ⟨between', hbetween, hperm'⟩ := List.Forall₂.exists_perm hmembers hperm.symm
    exact .inr ⟨fields', between', fields, rfl, rfl, hdistinct', hperm',
      hbetween.flip.imp fun _ _ h => ⟨h.1.symm, hsame _ _ h.2⟩⟩

theorem SameMap.symm {v v' : Json} (h : SameMap v v') : SameMap v' v :=
  Reordered.symm (fun _ _ h => Reordered.symm (fun _ _ h => h.symm) h) h

theorem sameMap_of_perm {fields fields' : List (Text × Json)} (hdistinct : OrderedMap.Distinct fields)
    (hperm : fields.Perm fields') : SameMap (.object fields) (.object fields') :=
  .inr ⟨fields, fields', fields', rfl, rfl, hdistinct, hperm, List.forall₂_same.2 fun _ _ => ⟨rfl, .inl rfl⟩⟩

theorem optionRel_sameMap_symm {v v' : Option Json} (h : Option.Rel SameMap v v') : Option.Rel SameMap v' v := by
  cases h with
  | none => exact .none
  | some h => exact .some h.symm

end Json

/-! ## Checked values -/

namespace Checked

theorem fmap_eq_ok_iff {α β : Type} {x : Checked α} {f : α → β} {b : β} :
    f <$> x = .ok b ↔ ∃ a, x = .ok a ∧ f a = b := by
  cases x with
  | ok a =>
    refine ⟨fun h => ⟨a, rfl, Checked.ok.inj h⟩, ?_⟩
    rintro ⟨_, ⟨⟩, rfl⟩
    rfl
  | bad problems =>
    refine iff_of_false (fun h => ?_) ?_
    · cases h
    · rintro ⟨_, ⟨⟩, -⟩

variable {α : Type} {check : Data → Checked α}

/-- The members of an object are checked one by one. -/
theorem entries_eq_ok_iff {fields : List (Text × Json)} {pairs : List (Text × α)} :
    entries check (Data.ofFields fields) = .ok pairs ↔
      List.Forall₂ (fun field pair => field.1 = pair.1 ∧ check (Data.ofJson field.2) = .ok pair.2) fields pairs := by
  induction fields generalizing pairs with
  | nil =>
    rw [List.forall₂_nil_left_iff]
    exact ⟨fun h => (Checked.ok.inj h).symm, fun h => by rw [h]; rfl⟩
  | cons field rest ih =>
    rw [List.forall₂_cons_left_iff]
    show (fun k v m => (k, v) :: m) <$> textKey (.text field.1) <*> (check (Data.ofJson field.2)).under (.text field.1)
      <*> entries check (Data.ofFields rest) = _ ↔ _
    have hkey : textKey (.text field.1) = .ok field.1 := rfl
    rw [hkey]
    cases hvalue : check (Data.ofJson field.2) with
    | bad problems =>
      refine iff_of_false ?_ (by simp)
      cases entries check (Data.ofFields rest) <;> rintro ⟨⟩
    | ok value =>
      cases hrest : entries check (Data.ofFields rest) with
      | bad problems =>
        refine iff_of_false (by rintro ⟨⟩) ?_
        rintro ⟨pair, others, -, hothers, -⟩
        cases hrest.symm.trans (ih.2 hothers)
      | ok found =>
        constructor
        · rintro ⟨⟩
          exact ⟨_, found, ⟨rfl, rfl⟩, ih.1 hrest, rfl⟩
        · rintro ⟨⟨key, other⟩, others, ⟨rfl, hother⟩, hothers, rfl⟩
          cases Checked.ok.inj hother
          cases Checked.ok.inj (hrest.symm.trans (ih.2 hothers))
          rfl

/-- An object with distinct keys is checked to a map with these keys. -/
theorem map_eq_ok_iff {fields : List (Text × Json)} (hdistinct : OrderedMap.Distinct fields) {m : OrderedMap α} :
    map check (Data.ofJson (.object fields)) = .ok m ↔
      List.Forall₂ (fun field pair => field.1 = pair.1 ∧ check (Data.ofJson field.2) = .ok pair.2) fields m := by
  have hmap : map check (Data.ofJson (.object fields)) = OrderedMap.ofPairs <$> entries check (Data.ofFields fields) :=
    rfl
  rw [hmap, fmap_eq_ok_iff]
  constructor
  · rintro ⟨pairs, hpairs, rfl⟩
    rw [entries_eq_ok_iff] at hpairs
    rwa [OrderedMap.ofPairs_of_distinct (hdistinct.of_forall₂ hpairs)]
  · exact fun h => ⟨m, entries_eq_ok_iff.2 h, OrderedMap.ofPairs_of_distinct (hdistinct.of_forall₂ h)⟩

/-- The same map in another order is checked to the same map in another order. -/
theorem exists_map_of_reordered {same : Json → Json → Prop} {R : α → α → Prop} {v v' : Json}
    (hrefl : ∀ a, R a a) (hmember : ∀ a b, same a b → ∀ x, check (Data.ofJson a) = .ok x →
      ∃ y, check (Data.ofJson b) = .ok y ∧ R x y)
    (h : Json.Reordered same v v') {m : OrderedMap α} (hm : map check (Data.ofJson v) = .ok m) :
    ∃ between m', map check (Data.ofJson v') = .ok m' ∧ List.Perm m between ∧
      List.Forall₂ (fun a b => a.1 = b.1 ∧ R a.2 b.2) between m' := by
  rcases h with rfl | ⟨fields, between, fields', rfl, rfl, hdistinct, hperm, hmembers⟩
  · exact ⟨m, m, hm, .rfl, List.forall₂_same.2 fun pair _ => ⟨rfl, hrefl _⟩⟩
  · have hdistinct' : OrderedMap.Distinct fields' := (hdistinct.perm hperm).of_forall₂ hmembers
    obtain ⟨found, hfound, hfoundPerm⟩ := List.Forall₂.exists_perm ((map_eq_ok_iff hdistinct).1 hm) hperm
    -- member by member, the fields in the other order are checked too
    have hcheck : ∃ m', List.Forall₂ (fun (field : Text × Json) (pair : Text × α) =>
        field.1 = pair.1 ∧ check (Data.ofJson field.2) = .ok pair.2) fields' m' ∧
          List.Forall₂ (fun a b => a.1 = b.1 ∧ R a.2 b.2) found m' := by
      clear hdistinct hdistinct' hperm hfoundPerm hm
      induction hmembers generalizing found with
      | nil =>
        cases hfound
        exact ⟨[], .nil, .nil⟩
      | cons hfield _ ih =>
        cases hfound with
        | cons hpair hrest =>
          obtain ⟨rest', hrest', hsame⟩ := ih _ hrest
          obtain ⟨y, hy, hR⟩ := hmember _ _ hfield.2 _ hpair.2
          exact ⟨(_, y) :: rest', .cons ⟨hfield.1.symm.trans hpair.1, hy⟩ hrest', .cons ⟨rfl, hR⟩ hsame⟩
    obtain ⟨m', hm', hsame⟩ := hcheck
    exact ⟨found, m', (map_eq_ok_iff hdistinct').2 hm', hfoundPerm, hsame⟩

end Checked

/-! ## Contents -/

namespace Content

/-- The same contents with the keys of maps in another order. -/
def SameMap : Content → Content → Prop
  | .map texts, .map texts' => List.Perm texts texts'
  | .keyedRecords items, .keyedRecords items' => ∃ between, List.Perm items between ∧
      List.Forall₂ (fun a b => a.1 = b.1 ∧ Option.Rel List.Perm a.2 b.2) between items'
  | content, content' => content = content'

theorem perm_refl_of_record (record : Option FlatMap) : Option.Rel List.Perm record record := by
  cases record with
  | none => exact .none
  | some texts => exact .some .rfl

theorem SameMap.refl (content : Content) : content.SameMap content := by
  cases content with
  | map texts => exact List.Perm.refl texts
  | records items => exact Eq.refl (Content.records items)
  | keyedRecords items => exact ⟨items, .rfl, List.forall₂_same.2 fun _ _ => ⟨rfl, perm_refl_of_record _⟩⟩

theorem SameMap.exists_map {content content' : Content} (h : content.SameMap content') (hshape : content.shape = .map) :
    ∃ texts texts', content = .map texts ∧ content' = .map texts' ∧ List.Perm texts texts' := by
  cases content with
  | map texts =>
    cases content' with
    | map texts' => exact ⟨texts, texts', rfl, rfl, h⟩
    | _ => cases h
  | _ => cases hshape

theorem SameMap.exists_keyedRecords {content content' : Content} (h : content.SameMap content')
    (hshape : content.shape = .keyedRecords) :
    ∃ items items', content = .keyedRecords items ∧ content' = .keyedRecords items' := by
  cases content with
  | keyedRecords items =>
    cases content' with
    | keyedRecords items' => exact ⟨items, items', rfl, rfl⟩
    | _ => cases h
  | _ => cases hshape

/-- Texts in another order are accepted in that order. -/
theorem exists_checkTexts {v v' : Json} {texts : FlatMap} (h : Json.SameMap v v')
    (htexts : checkTexts (Data.ofJson v) = .ok texts) :
    ∃ texts', checkTexts (Data.ofJson v') = .ok texts' ∧ List.Perm texts texts' := by
  have hmember : ∀ a b, Json.Reordered Eq a b → ∀ x, Checked.nullable Checked.text (Data.ofJson a) = .ok x →
      ∃ y, Checked.nullable Checked.text (Data.ofJson b) = .ok y ∧ x = y := by
    rintro a b (rfl | ⟨fields, between, fields', rfl, rfl, -⟩) x hx
    · exact ⟨x, hx, rfl⟩
    -- no object is accepted for a text
    · cases hx
  obtain ⟨between, texts', htexts', hperm, hsame⟩ := Checked.exists_map_of_reordered (fun _ => rfl) hmember h htexts
  have heq := hsame.imp fun a b hab => Prod.ext hab.1 hab.2
  rw [List.forall₂_eq_eq_eq] at heq
  exact ⟨texts', htexts', heq ▸ hperm⟩

/-- Records in another order are accepted in that order. -/
theorem exists_checkRecords {v v' : Json} {items : OrderedMap (Option FlatMap)} (h : Json.SameMap v v')
    (hitems : Checked.map (Checked.nullable checkTexts) (Data.ofJson v) = .ok items) :
    ∃ items', Checked.map (Checked.nullable checkTexts) (Data.ofJson v') = .ok items' ∧
      (keyedRecords items).SameMap (keyedRecords items') := by
  have hmember : ∀ a b, Json.Reordered Eq a b → ∀ x, Checked.nullable checkTexts (Data.ofJson a) = .ok x →
      ∃ y, Checked.nullable checkTexts (Data.ofJson b) = .ok y ∧ Option.Rel List.Perm x y := by
    intro a b hab x hx
    have hmap : Json.SameMap a b := hab.mono fun a b h => .inl h
    rcases hab with rfl | ⟨fields, between, fields', rfl, rfl, -⟩
    · exact ⟨x, hx, perm_refl_of_record x⟩
    · obtain ⟨texts, htexts, rfl⟩ := Checked.fmap_eq_ok_iff.1 hx
      obtain ⟨texts', htexts', hperm⟩ := exists_checkTexts hmap htexts
      exact ⟨some texts', Checked.fmap_eq_ok_iff.2 ⟨texts', htexts', rfl⟩, .some hperm⟩
  obtain ⟨between, items', hitems', hperm, hsame⟩ :=
    Checked.exists_map_of_reordered perm_refl_of_record hmember h hitems
  exact ⟨items', hitems', between, hperm, hsame⟩

/-- Contents whose maps have their keys in another order are accepted in that order. -/
theorem exists_ofJson {shape : Shape} {v v' : Json} {content : Content} (h : Json.SameMap v v')
    (hcontent : ofJson shape v = .ok content) :
    ∃ content', ofJson shape v' = .ok content' ∧ content.SameMap content' := by
  cases shape with
  | map =>
    obtain ⟨texts, htexts, rfl⟩ := Checked.fmap_eq_ok_iff.1 hcontent
    obtain ⟨texts', htexts', hperm⟩ := exists_checkTexts h htexts
    exact ⟨map texts', Checked.fmap_eq_ok_iff.2 ⟨texts', htexts', rfl⟩, hperm⟩
  | records =>
    rcases h with rfl | ⟨fields, between, fields', rfl, rfl, -⟩
    · exact ⟨content, hcontent, .refl content⟩
    · cases hcontent
  | keyedRecords =>
    obtain ⟨items, hitems, rfl⟩ := Checked.fmap_eq_ok_iff.1 hcontent
    obtain ⟨items', hitems', hsame⟩ := exists_checkRecords h hitems
    exact ⟨keyedRecords items', Checked.fmap_eq_ok_iff.2 ⟨items', hitems', rfl⟩, hsame⟩

end Content

end Bilingual
