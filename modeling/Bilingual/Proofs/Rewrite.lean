import Bilingual.Proofs.Plan.Rewrite

set_option autoImplicit false

/-! # Blocks are patched literal by literal

For every kind of block, the plan that replaces the whole body agrees with one edit for each literal that the contents
bind a text to (`PatchInput.plan_agrees`), as long as no item is appended. What binds a text to a literal is the key
of an entry, the number of a record or of a literal, or the key of a keyed record, and for records the name of the
field (`Category.boundTexts`). -/

namespace Bilingual

open ParsedBlock

/-- The record that goes to an item: the one under its key, if the item is the first with that key. -/
def keyedRecord? (parsed : ParsedBlock) (records : OrderedMap (Option FlatMap)) (i : Nat) (item : BlockItem) :
    Option FlatMap :=
  item.key?.bind fun key =>
    if Plan.itemOf? parsed key.value = some (i, item) then (records.lookup? key.value).join else none

namespace Category

/-- The texts that contents, with those of merged categories, bind to the literals of the item with a number. -/
def boundTexts (c : Category) (parsed : ParsedBlock) (content : Content) (merged : List FlatMap) (i : Nat)
    (item : BlockItem) : List (LiteralSpan × Text) :=
  match c.placement, content with
  | .dictBlock .., .map texts => Plan.entryTexts (Plan.overlay texts merged) item
  | .recordBlock _ names _, .records records => Plan.recordTexts c names records[i]?.join item
  | .listBlock _ name _, .records records => Plan.recordTexts c [name] records[i]?.join item
  | .keyedRecordBlock _ names _, .keyedRecords records =>
    Plan.recordTexts c names (keyedRecord? parsed records i item) item
  | _, _ => []

/-- No text and no complete record of the contents is without an item. -/
def AppendsNothing (c : Category) (parsed : ParsedBlock) (content : Content) (merged : List FlatMap) : Prop :=
  match c.placement, content with
  | .dictBlock .., .map texts =>
    ∀ key value, (key, some value) ∈ Plan.overlay texts merged → key ∈ Plan.existingKeys parsed
  | .recordBlock _ names _, .records records => ∀ (i : Nat) (texts : FlatMap), records[i]? = some (some texts) →
    parsed.items[i]? = none → Plan.completeTexts? texts names = none
  | .listBlock _ name _, .records records => ∀ (i : Nat) (texts : FlatMap), records[i]? = some (some texts) →
    parsed.items[i]? = none → Plan.completeTexts? texts [name] = none
  | .keyedRecordBlock _ names _, .keyedRecords records => ∀ key texts, (key, some texts) ∈ records →
    Plan.itemOf? parsed key = none → Plan.completeTexts? texts names = none
  | _, _ => True

end Category

/-! ## The item of a key -/

theorem Plan.itemOf?_eq_some {parsed : ParsedBlock} {key : Text} {i : Nat} {item : BlockItem}
    (h : Plan.itemOf? parsed key = some (i, item)) :
    parsed.items[i]? = some item ∧ item.key?.map ItemKey.value = some key := by
  obtain ⟨⟨found, index⟩, hfound, heq⟩ := List.exists_of_findSome?_eq_some h
  dsimp only at heq
  split at heq
  · next hkey =>
    cases heq
    exact ⟨List.mem_zipIdx_iff_getElem?.1 hfound, hkey⟩
  · cases heq

theorem keyedRecord?_eq_some_iff {parsed : ParsedBlock} {records : OrderedMap (Option FlatMap)} {i : Nat}
    {item : BlockItem} {texts : FlatMap} (hdistinct : OrderedMap.Distinct records) :
    keyedRecord? parsed records i item = some texts ↔
      ∃ pair ∈ records, pair.2 = some texts ∧ Plan.itemOf? parsed pair.1 = some (i, item) := by
  unfold keyedRecord?
  rw [Option.bind_eq_some_iff]
  constructor
  · rintro ⟨key, -, h⟩
    split at h
    · next hitem =>
      exact ⟨(key.value, some texts), OrderedMap.mem_of_lookup? (Option.join_eq_some_iff.1 h), rfl, hitem⟩
    · cases h
  · rintro ⟨⟨key, _⟩, hpair, rfl, hitem⟩
    obtain ⟨k, hk, rfl⟩ := Option.map_eq_some_iff.1 (Plan.itemOf?_eq_some hitem).2
    refine ⟨k, hk, ?_⟩
    rw [if_pos hitem, OrderedMap.lookup?_of_mem hdistinct hpair]
    rfl

namespace Plan

variable {c : Category} {text locale : Text} {names : List Text} {parsed : ParsedBlock} {kind : ItemKind}
  {parts : List BlockPart} {last : Text}

theorem rewrites_recordBlock {records : List (Option FlatMap)}
    (hblock : c.parsedBlock text locale = .ok (some parsed)) (hlaid : parsed.Laid text kind parts last)
    (hapart : NamesApart c names) (hnew : ∀ (i : Nat) (texts : FlatMap), records[i]? = some (some texts) → parsed.items[i]? = none →
      completeTexts? texts names = none) :
    Rewrites parsed text (fun i item => recordTexts c names records[i]?.join item)
      (recordBlock c text locale names records).result := by
  unfold recordBlock
  rw [Logged.result_bind, Logged.result_lift, hblock]
  refine rewrites_rows Prod.fst (fun a => parsed.items[a.2]?.map (a.2, ·)) hlaid hapart ?_ ?_ ?_
  · intro a _ i item hsite
    obtain ⟨found, hfound, heq⟩ := Option.map_eq_some_iff.1 hsite
    cases heq
    exact hfound
  · intro i item texts hitem
    rw [Option.join_eq_some_iff]
    constructor
    · intro hrecord
      exact ⟨(some texts, i), List.mem_zipIdx_iff_getElem?.2 hrecord, rfl, by rw [hitem]; rfl⟩
    · rintro ⟨⟨record, index⟩, hmem, rfl, hsite⟩
      obtain ⟨found, -, heq⟩ := Option.map_eq_some_iff.1 hsite
      cases heq
      exact List.mem_zipIdx_iff_getElem?.1 hmem
  · rintro ⟨record, i⟩ hmem texts rfl hsite
    exact hnew i texts (List.mem_zipIdx_iff_getElem?.1 hmem) (Option.map_eq_none_iff.1 hsite)

theorem rewrites_keyedRecordBlock {records : OrderedMap (Option FlatMap)}
    (hblock : c.parsedBlock text locale = .ok (some parsed)) (hlaid : parsed.Laid text kind parts last)
    (hapart : NamesApart c names) (hdistinct : OrderedMap.Distinct records)
    (hnew : ∀ key texts, (key, some texts) ∈ records → itemOf? parsed key = none →
      completeTexts? texts names = none) :
    Rewrites parsed text (fun i item => recordTexts c names (keyedRecord? parsed records i item) item)
      (keyedRecordBlock c text locale names records).result := by
  unfold keyedRecordBlock
  rw [Logged.result_bind, Logged.result_lift, hblock]
  refine rewrites_rows Prod.snd (fun a => itemOf? parsed a.1) hlaid hapart ?_ ?_ ?_
  · exact fun a _ i item hsite => (itemOf?_eq_some hsite).1
  · exact fun i item texts _ => keyedRecord?_eq_some_iff hdistinct
  · rintro ⟨key, record⟩ hmem texts rfl
    exact hnew key texts hmem

/-- Nothing is done when contents have another shape than those of the block. -/
theorem rewrites_nothing : Rewrites parsed text (fun _ _ => []) (.ok {}) := by
  have hnone : inItems parsed.items (fun _ _ => ([] : List (LiteralSpan × Text))) = [] := by simp [inItems]
  constructor
  · intro plan _ pair hpair
    rw [hnone] at hpair
    cases hpair
  · refine fun _ => ⟨[], [], fun _ _ => [], rfl, ⟨List.forall_mem_nil _, ?_, ?_⟩, fun i item _ => ⟨⟨?_, ?_⟩, .rfl⟩⟩
    · intro i source h
      cases h
    · exact fun i item _ hne => absurd rfl hne
    · exact List.forall_mem_nil _
    · exact List.nodup_nil

end Plan

/-! ## Every kind of block -/

/-- A block of a category is located in the window of the category, and its items are of the category's kind. -/
theorem Category.exists_of_parsedBlock {c : Category} {text locale : Text} {parsed : ParsedBlock}
    (h : c.parsedBlock text locale = .ok (some parsed)) : ∃ place window kind block,
      c.placement.blockPlace? = some place ∧ c.window? text = some window ∧ c.placement.itemKind? = some kind ∧
        BlockSpan.locate text (place.anchors.map (substituteLocale · locale))
          (substituteLocale (place.openerFor locale) locale) window.start window.stop = .ok (some block) ∧
        ParsedBlock.parse text block kind = .ok (some parsed) := by
  obtain ⟨found, hfound, hparse⟩ := Except.bind_eq_ok_iff.1 h
  unfold Category.block at hfound
  split at hparse
  · next kind block hkind =>
    split at hfound
    · next place window hplace hwindow => exact ⟨place, window, kind, block, hplace, hwindow, hkind, hfound, hparse⟩
    · cases hfound
  · cases hparse

namespace PatchInput

variable {input : PatchInput} {c : Category} {text : Text} {content : Content} {merged : List FlatMap}
  {parsed : ParsedBlock}

theorem rewrites_plan {kind : ItemKind} {parts : List BlockPart} {last : Text}
    (hblock : c.parsedBlock text input.manifest.locales.secondary = .ok (some parsed))
    (hlaid : parsed.Laid text kind parts last)
    (hdistinct : c.placement.itemKind? = some .keyedRecord → content.Distinct)
    (happends : c.AppendsNothing parsed content merged) :
    Plan.Rewrites parsed text (c.boundTexts parsed content merged) (input.plan c text content merged).result := by
  obtain ⟨place, -, -, -, hplace, -⟩ := c.exists_of_parsedBlock hblock
  have hapart : ∀ names, (∃ name, names = [name]) ∨ (∀ place name defaults,
      c.placement ≠ .listBlock place name defaults) → Plan.NamesApart c names := by
    intro names hnames
    unfold Plan.NamesApart
    split
    · next hlist => exact hnames.resolve_right fun h => h _ _ _ hlist
    · trivial
  unfold plan
  unfold Category.AppendsNothing at happends
  unfold Category.boundTexts
  cases hkind : c.placement with
  | dictBlock place merge defaults =>
    rw [hkind] at happends
    cases content with
    | map texts => exact Plan.rewrites_dictBlock hblock hlaid happends
    | _ => exact Plan.rewrites_nothing
  | recordBlock place names defaults =>
    rw [hkind] at happends
    cases content with
    | records records => exact Plan.rewrites_recordBlock hblock hlaid (hapart _ (.inr (by simp [hkind]))) happends
    | _ => exact Plan.rewrites_nothing
  | listBlock place name defaults =>
    rw [hkind] at happends
    cases content with
    | records records => exact Plan.rewrites_recordBlock hblock hlaid (hapart _ (.inl ⟨name, rfl⟩)) happends
    | _ => exact Plan.rewrites_nothing
  | keyedRecordBlock place names defaults =>
    rw [hkind] at happends
    cases content with
    | keyedRecords records =>
      exact Plan.rewrites_keyedRecordBlock hblock hlaid (hapart _ (.inr (by simp [hkind]))) (hdistinct (by rw [hkind]; rfl)).1 happends
    | _ => exact Plan.rewrites_nothing
  | _ =>
    rw [hkind] at hplace
    cases hplace

/-- The plan of a block that appends nothing agrees with one edit for each literal that a text is bound to. -/
theorem plan_agrees (hblock : c.parsedBlock text input.manifest.locales.secondary = .ok (some parsed))
    (hdistinct : content.Distinct) (happends : c.AppendsNothing parsed content merged) :
    Plan.Agrees parsed text (Plan.inItems parsed.items (c.boundTexts parsed content merged))
      (input.plan c text content merged).result := by
  obtain ⟨place, window, kind, block, -, -, -, hlocate, hparse⟩ := c.exists_of_parsedBlock hblock
  obtain ⟨parts, last, hlaid, -⟩ := ParsedBlock.exists_laid hlocate hparse
  obtain ⟨-, -, hend, hlt, -⟩ := BlockSpan.exists_behind hlocate
  obtain ⟨rfl, -⟩ := ParsedBlock.parse_eq_ok_iff.1 hparse
  exact (rewrites_plan hblock hlaid (fun _ => hdistinct) happends).agrees hlaid (by omega) (by omega)

/-- A block of records with two fields. -/
def rowsSample : Category :=
  { name := "rows", region := none
    placement := .recordBlock ⟨[], "\x7blocale\x7d: [", []⟩ ["a", "b"] [] }

/-- A file of it, with a comment behind its record. -/
def rowsText (a b : String) : Text := "ar: [\n  \x7b a: '" ++ a ++ "', b: \"" ++ b ++ "\" \x7d, // one\n]\n"

/-- The block of the file. -/
def rowsBlock : ParsedBlock where
  block := ⟨0, 5, 35, [], ']'⟩
  items := [⟨8, 27, "  ", true, .record [
    ⟨"a", "'x'", some ⟨14, 15, .single, "x"⟩⟩, ⟨"b", "\"y\"", some ⟨22, 23, .double, "y"⟩⟩]⟩]
  gaps := ["\n  ", " // one\n"]

/-- A text with an apostrophe for one field, and none for the other. -/
def rowsContent : Content := .records [some [("a", some "it's"), ("b", none)]]

/-- The manifest and the contents. -/
def rowsInput : PatchInput where
  manifest := { artifacts := [{ path := "page.ts", categories := [rowsSample] }] }
  snapshot := { categories := [("rows", rowsContent.toJson)] }

theorem plan_agrees_rows :
    rowsSample.parsedBlock (rowsText "x" "y") "ar" = .ok (some rowsBlock) ∧
      (do
        let plan ← (rowsInput.plan rowsSample (rowsText "x" "y") rowsContent []).result
        Edit.applyAll (rowsText "x" "y") plan.edits) = .ok (rowsText "it\\'s" "y") := by
  have hblock : rowsSample.parsedBlock (rowsText "x" "y") rowsInput.manifest.locales.secondary =
      .ok (some rowsBlock) := by decide +kernel
  have hdistinct : rowsContent.Distinct := by
    intro texts htexts
    cases List.mem_singleton.1 htexts
    unfold OrderedMap.Distinct
    decide
  have happends : rowsSample.AppendsNothing rowsBlock rowsContent [] := by
    intro i texts hrecord hitem
    cases i with
    | zero => cases hitem
    | succ i => cases hrecord
  refine ⟨hblock, ((plan_agrees hblock hdistinct happends).patched_iff _).2 ?_⟩
  decide +kernel

end PatchInput

end Bilingual
