import Mathlib.Data.List.Dedup
import Bilingual.Patch.Site
import Bilingual.Proofs.Block.Rewrite
import Bilingual.Proofs.Plan.Record

set_option autoImplicit false

/-! # The texts that are bound to literals

A text of the contents is bound to a literal by its key, its number or its field. Told literal by literal, patching
is one edit for every bound literal that stands for another text (`boundEdits_eq_ok_iff`). The fields of a record
may be named more than once; what is planned for its item are the bound literals of the different names
(`Plan.changedTexts_perm`). -/

namespace Bilingual

/-- The literal stands for a text. -/
def LiteralSpan.Decodes (l : LiteralSpan) : Prop := ∃ t, l.value = .ok t

/-- A literal and the text for it, if there are both. -/
def bound? (site : Option LiteralSpan) (value : Option Text) : Option (LiteralSpan × Text) :=
  site.bind fun l => value.map (l, ·)

/-- The literal does not stand for the text that is bound to it. -/
def Differs (pair : LiteralSpan × Text) : Bool := pair.1.value ≠ .ok pair.2

/-- The edits of the literals that stand for other texts than those bound to them. -/
def boundEdits (pairs : List (LiteralSpan × Text)) : Except Failure (List Edit) := do
  return (← pairs.mapM fun (l, value) => l.editTo? value).filterMap id

theorem bound?_eq_some_iff {site : Option LiteralSpan} {value : Option Text} {l : LiteralSpan} {t : Text} :
    bound? site value = some (l, t) ↔ site = some l ∧ value = some t := by
  cases site <;> cases value <;> simp [bound?]

/-! ## Edits literal by literal -/

theorem editTo?_of_decodes {pair : LiteralSpan × Text} (h : pair.1.Decodes) :
    pair.1.editTo? pair.2 = .ok (if Differs pair then some (pair.1.edit pair.2) else none) := by
  obtain ⟨t, ht⟩ := h
  rw [LiteralSpan.editTo?, ht]
  by_cases heq : t = pair.2
  · have hsame : Differs pair = false := by simp [Differs, ht, heq]
    rw [hsame]
    exact if_pos heq
  · have hdiffers : Differs pair = true := by simp [Differs, ht, heq]
    rw [hdiffers]
    exact if_neg heq

theorem decodes_of_editTo? {l : LiteralSpan} {value : Text} {edit : Option Edit} (h : l.editTo? value = .ok edit) :
    l.Decodes := by
  obtain ⟨t, ht, -⟩ := Except.bind_eq_ok_iff.1 h
  exact ⟨t, ht⟩

/-- There is one edit for every bound literal that stands for another text, provided that all stand for some. -/
theorem boundEdits_eq_ok_iff {pairs : List (LiteralSpan × Text)} {edits : List Edit} :
    boundEdits pairs = .ok edits ↔ (∀ pair ∈ pairs, pair.1.Decodes) ∧
      edits = (pairs.filter Differs).map fun pair => pair.1.edit pair.2 := by
  have hedits : pairs.filterMap (fun pair => if Differs pair then some (pair.1.edit pair.2) else none) =
      (pairs.filter Differs).map fun pair => pair.1.edit pair.2 := by
    rw [← List.filterMap_eq_map, List.filterMap_filter]
    rfl
  have hplanned : ∀ hall : ∀ pair ∈ pairs, pair.1.Decodes, boundEdits pairs = .ok _ := fun hall =>
    Except.bind_eq_ok_iff.2 ⟨_, Except.mapM_eq_ok_map fun pair hpair => editTo?_of_decodes (hall pair hpair), rfl⟩
  constructor
  · intro h
    obtain ⟨planned, hplanned', -⟩ := Except.bind_eq_ok_iff.1 h
    have hall : ∀ pair ∈ pairs, pair.1.Decodes := by
      intro pair hpair
      obtain ⟨edit, -, hedit⟩ := List.Forall₂.exists_of_mem_left (Except.mapM_eq_ok_iff.1 hplanned') hpair
      exact decodes_of_editTo? hedit
    refine ⟨hall, ?_⟩
    rw [← hedits, ← Except.ok.inj ((hplanned hall).symm.trans h), List.filterMap_map]
    rfl
  · rintro ⟨hall, rfl⟩
    rw [hplanned hall, List.filterMap_map, ← hedits]
    rfl

namespace Plan

/-! ## The texts of a record -/

/-- The text that a record, if there is one, has under a name. -/
def textUnder? (record : Option FlatMap) (name : Text) : Option Text :=
  record.bind fun texts => (texts.lookup? name).join

/-- The texts of a record that are bound to literals of an item. -/
def recordTexts (c : Category) (names : List Text) (record : Option FlatMap) (item : BlockItem) :
    List (LiteralSpan × Text) :=
  names.dedup.filterMap fun name => bound? (siteIn? c item name) (textUnder? record name)

/-- Those that differ from what the literals stand for, as they are planned: the first one of each literal. -/
def changedTexts (c : Category) (names : List Text) (record : Option FlatMap) (item : BlockItem) :
    List (LiteralSpan × Text) :=
  distinctLiterals (names.filterMap fun name =>
    (bound? (siteIn? c item name) (textUnder? record name)).filter Differs)

theorem mem_recordTexts_iff {c : Category} {names : List Text} {record : Option FlatMap} {item : BlockItem}
    {pair : LiteralSpan × Text} : pair ∈ recordTexts c names record item ↔
      ∃ name ∈ names, bound? (siteIn? c item name) (textUnder? record name) = some pair := by
  unfold recordTexts
  rw [List.mem_filterMap]
  simp only [List.mem_dedup]

theorem mem_of_mem_distinctLiterals {pairs : List (LiteralSpan × Text)} {pair : LiteralSpan × Text}
    (h : pair ∈ distinctLiterals pairs) : pair ∈ pairs := by
  induction pairs with
  | nil => exact h
  | cons first rest ih =>
    rcases List.mem_cons.1 h with rfl | h
    · exact List.mem_cons_self
    · exact List.mem_cons_of_mem _ (ih (List.mem_of_mem_filter h))

theorem nodup_distinctLiterals (pairs : List (LiteralSpan × Text)) :
    ((distinctLiterals pairs).map Prod.fst).Nodup := by
  induction pairs with
  | nil => exact List.nodup_nil
  | cons first rest ih =>
    rw [distinctLiterals, List.map_cons]
    refine List.nodup_cons.2 ⟨fun hmem => ?_, ih.sublist (List.filter_sublist.map _)⟩
    obtain ⟨other, hother, heq⟩ := List.mem_map.1 hmem
    exact absurd heq (by simpa using (List.mem_filter.1 hother).2)

/-- No pair is lost if no literal is bound to two texts. -/
theorem mem_distinctLiterals {pairs : List (LiteralSpan × Text)} {pair : LiteralSpan × Text} (h : pair ∈ pairs)
    (hone : ∀ other ∈ pairs, other.1 = pair.1 → other = pair) : pair ∈ distinctLiterals pairs := by
  induction pairs with
  | nil => exact h
  | cons first rest ih =>
    obtain ⟨hfirst, hrest⟩ := List.forall_mem_cons.1 hone
    by_cases heq : first.1 = pair.1
    · rw [← hfirst heq]
      exact List.mem_cons_self
    · have hmem : pair ∈ rest := (List.mem_cons.1 h).resolve_left fun h => heq (congrArg Prod.fst h.symm)
      refine List.mem_cons_of_mem _ (List.mem_filter.2 ⟨ih hmem hrest, ?_⟩)
      simpa using fun h : pair.1 = first.1 => heq h.symm

theorem mem_literals_of_literal? {item : BlockItem} {l : LiteralSpan} (h : item.literal? = some l) :
    l ∈ item.content.literals := by
  unfold BlockItem.literal? at h
  split at h
  · next heq =>
    rw [heq, ItemContent.literals, Option.some.inj h]
    exact List.mem_singleton_self l
  · next heq =>
    rw [heq, ItemContent.literals, Option.some.inj h]
    exact List.mem_singleton_self l
  · cases h

theorem literals_of_mem_fields {item : BlockItem} {field : RecordField} (h : field ∈ item.fields) :
    item.content.literals = item.fields.filterMap RecordField.literal := by
  unfold BlockItem.fields at h ⊢
  split at h
  · next heq => rw [heq, ItemContent.literals]
  · next heq => rw [heq, ItemContent.literals]
  · cases h

theorem exists_of_fieldLiteral? {item : BlockItem} {name : Text} {l : LiteralSpan}
    (h : fieldLiteral? item name = some l) :
    ∃ field ∈ item.fields, field.name = name ∧ field.literal = some l := by
  unfold fieldLiteral? at h
  split at h
  · next field hfield =>
    exact ⟨field, List.mem_reverse.1 (List.mem_of_find?_eq_some hfield),
      by simpa using List.find?_some hfield, h⟩
  · cases h

theorem siteIn?_mem {c : Category} {item : BlockItem} {name : Text} {l : LiteralSpan}
    (h : siteIn? c item name = some l) : l ∈ item.content.literals := by
  unfold siteIn? at h
  split at h
  · exact mem_literals_of_literal? h
  · obtain ⟨field, hfield, -, hl⟩ := exists_of_fieldLiteral? h
    rw [literals_of_mem_fields hfield]
    exact List.mem_filterMap.2 ⟨field, hfield, hl⟩

/-- Different fields have different literals. -/
theorem fieldLiteral?_inj {item : BlockItem} {name name' : Text} {l : LiteralSpan}
    (hnodup : item.content.literals.Nodup) (h : fieldLiteral? item name = some l)
    (h' : fieldLiteral? item name' = some l) : name = name' := by
  obtain ⟨field, hfield, rfl, hl⟩ := exists_of_fieldLiteral? h
  obtain ⟨field', hfield', rfl, hl'⟩ := exists_of_fieldLiteral? h'
  rw [literals_of_mem_fields hfield, List.Nodup, List.pairwise_filterMap] at hnodup
  by_contra hne
  have hsymm : Std.Symm fun a b : RecordField => ∀ x, a.literal = some x → ∀ y, b.literal = some y → x ≠ y :=
    ⟨fun _ _ hab x hx y hy => (hab y hy x hx).symm⟩
  exact hnodup.forall hfield hfield' (fun heq => hne (congrArg RecordField.name heq)) l hl l hl' rfl

/-- The names of a record are told apart in an item: those of its fields are, and a block of literals has one. -/
def NamesApart (c : Category) (names : List Text) : Prop :=
  match c.placement with
  | .listBlock .. => ∃ name, names = [name]
  | _ => True

/-- A literal is bound to the text of one name only. -/
theorem siteIn?_inj {c : Category} {names : List Text} {item : BlockItem} {name name' : Text} {l : LiteralSpan}
    (hapart : NamesApart c names) (hnodup : item.content.literals.Nodup) (hname : name ∈ names)
    (hname' : name' ∈ names) (h : siteIn? c item name = some l) (h' : siteIn? c item name' = some l) :
    name = name' := by
  unfold siteIn? at h h'
  unfold NamesApart at hapart
  split at h
  · next hplace =>
    rw [hplace] at hapart
    obtain ⟨only, rfl⟩ := hapart
    rw [List.mem_singleton.1 hname, List.mem_singleton.1 hname']
  · next hplace =>
    split at h'
    · next hplace' => exact absurd hplace' (hplace _ _ _)
    · exact fieldLiteral?_inj hnodup h h'

/-- What is planned for an item are the changed texts of the different names. -/
theorem changedTexts_perm {c : Category} {names : List Text} {record : Option FlatMap} {item : BlockItem}
    (hapart : NamesApart c names) (hnodup : item.content.literals.Nodup) :
    (changedTexts c names record item).Perm ((recordTexts c names record item).filter Differs) := by
  have hbound : ∀ {name l t}, (bound? (siteIn? c item name) (textUnder? record name)).filter Differs =
      some (l, t) → siteIn? c item name = some l ∧ textUnder? record name = some t := by
    intro name l t h
    exact bound?_eq_some_iff.1 (Option.filter_eq_some_iff.1 h).1
  have hnames : ∀ {name name' l t t'}, name ∈ names → name' ∈ names →
      (bound? (siteIn? c item name) (textUnder? record name)).filter Differs = some (l, t) →
      (bound? (siteIn? c item name') (textUnder? record name')).filter Differs = some (l, t') → name = name' :=
    fun hname hname' h h' => siteIn?_inj hapart hnodup hname hname' (hbound h).1 (hbound h').1
  rw [recordTexts, List.filter_filterMap]
  refine (List.perm_ext_iff_of_nodup (List.Nodup.of_map _ (nodup_distinctLiterals _)) ?_).2 fun pair => ?_
  · refine List.pairwise_filterMap.2 ((List.nodup_dedup names).imp_of_mem fun {a b} ha hb hne => ?_)
    rintro pair hpair _ hpair' rfl
    exact hne (hnames (List.mem_dedup.1 ha) (List.mem_dedup.1 hb) hpair hpair')
  · constructor
    · intro h
      obtain ⟨name, hname, hpair⟩ := List.mem_filterMap.1 (mem_of_mem_distinctLiterals h)
      exact List.mem_filterMap.2 ⟨name, List.mem_dedup.2 hname, hpair⟩
    · intro h
      obtain ⟨name, hname, hpair⟩ := List.mem_filterMap.1 h
      have hname := List.mem_dedup.1 hname
      refine mem_distinctLiterals (List.mem_filterMap.2 ⟨name, hname, hpair⟩) fun other hother heq => ?_
      obtain ⟨name', hname', hpair'⟩ := List.mem_filterMap.1 hother
      obtain ⟨l, t⟩ := other
      obtain rfl : l = pair.1 := heq
      obtain rfl := hnames hname hname' hpair hpair'
      exact Option.some.inj (hpair'.symm.trans hpair)

theorem mem_recordTexts_of_changedTexts {c : Category} {names : List Text} {record : Option FlatMap}
    {item : BlockItem} {pair : LiteralSpan × Text} (h : pair ∈ changedTexts c names record item) :
    pair ∈ recordTexts c names record item := by
  obtain ⟨name, hname, hbound⟩ := List.mem_filterMap.1 (mem_of_mem_distinctLiterals h)
  exact mem_recordTexts_iff.2 ⟨name, hname, (Option.filter_eq_some_iff.1 hbound).1⟩

theorem replaces_changedTexts (c : Category) (names : List Text) (record : Option FlatMap) (item : BlockItem) :
    Replaces item (changedTexts c names record item) := by
  refine ⟨fun pair hpair => ?_, nodup_distinctLiterals _⟩
  obtain ⟨name, -, hbound⟩ := mem_recordTexts_iff.1 (mem_recordTexts_of_changedTexts hpair)
  exact siteIn?_mem (bound?_eq_some_iff.1 hbound).1

end Plan

end Bilingual
