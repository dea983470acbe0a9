import Mathlib.Data.List.Perm.Basic
import Bilingual.Patch.Artifact
import Bilingual.Proofs.Content
import Bilingual.Proofs.Plan.Bound

set_option autoImplicit false

/-! # A block is rewritten literal by literal

A block is planned as a whole: every item with a changed text gets a new source, and one edit replaces the body.
If no item is appended, carrying out that edit is the same as carrying out one edit for each literal that a text is
bound to and that stands for another one, in the text as it is (`Plan.Rewrites.agrees`). Comments, blank lines,
commas and the other literals are what they were. -/

namespace Bilingual

open ParsedBlock

namespace Plan

variable {parsed : ParsedBlock} {text : Text}

/-! ## Changes that put in new values -/

/-- Changes put new values into the items of a block: each replaces an item by its source with the new values that
are wanted for it, and there is one for every item that new values are wanted for. -/
structure Carries (text : Text) (items : List BlockItem) (wanted : Nat → BlockItem → List (LiteralSpan × Text))
    (changes : List ItemChange) : Prop where
  kept : ∀ change ∈ changes, change.appended? = none
  sound : ∀ i source, .replace i source ∈ changes →
    ∃ item, items[i]? = some item ∧ item.withLiterals text (wanted i item) = .ok source
  complete : ∀ i item, items[i]? = some item → wanted i item ≠ [] → ∃ source, .replace i source ∈ changes

/-- What is wanted for all items of a block. -/
def inItems {α : Type} (items : List BlockItem) (wanted : Nat → BlockItem → List α) : List α :=
  items.zipIdx.flatMap fun (item, i) => wanted i item

theorem mem_inItems_iff {α : Type} {items : List BlockItem} {wanted : Nat → BlockItem → List α} {a : α} :
    a ∈ inItems items wanted ↔ ∃ i item, items[i]? = some item ∧ a ∈ wanted i item := by
  unfold inItems
  rw [List.mem_flatMap]
  constructor
  · rintro ⟨⟨item, i⟩, hitem, ha⟩
    exact ⟨i, item, List.mem_zipIdx_iff_getElem?.1 hitem, ha⟩
  · rintro ⟨i, item, hitem, ha⟩
    exact ⟨(item, i), List.mem_zipIdx_iff_getElem?.2 hitem, ha⟩

variable {wanted : Nat → BlockItem → List (LiteralSpan × Text)} {changes : List ItemChange}

theorem replace_mem_of_findSome? {i : Nat} {source : Text}
    (h : changes.findSome? (ItemChange.replaced? i) = some source) : .replace i source ∈ changes := by
  obtain ⟨change, hchange, hsource⟩ := List.exists_of_findSome?_eq_some h
  cases change with
  | replace j other =>
    unfold ItemChange.replaced? at hsource
    dsimp only at hsource
    split at hsource
    · next hj =>
      cases hsource
      rwa [hj] at hchange
    · cases hsource
  | keep => cases hsource
  | append other => cases hsource

/-- An item gets its source with the new values that are wanted for it. -/
theorem Carries.withLiterals {items : List BlockItem} (h : Carries text items wanted changes) {i : Nat}
    {item : BlockItem} (hitem : items[i]? = some item) : item.withLiterals text (wanted i item) =
      .ok ((changes.findSome? (ItemChange.replaced? i)).getD (item.source text)) := by
  cases hfound : changes.findSome? (ItemChange.replaced? i) with
  | some source =>
    obtain ⟨other, hother, hsource⟩ := h.sound i source (replace_mem_of_findSome? hfound)
    rw [hitem] at hother
    cases hother
    exact hsource
  | none =>
    have hnone : wanted i item = [] := by
      by_contra hne
      obtain ⟨source, hsource⟩ := h.complete i item hitem hne
      have := List.findSome?_eq_none_iff.1 hfound _ hsource
      simp [ItemChange.replaced?] at this
    rw [hnone]
    rfl

theorem Carries.rewriteItems (h : Carries text parsed.items wanted changes) :
    Bilingual.rewriteItems text parsed.items (parsed.items.zipIdx.map fun (item, i) => wanted i item) =
      .ok (parsed.items.zipIdx.map fun (item, i) =>
        (changes.findSome? (ItemChange.replaced? i)).getD (item.source text)) := by
  have hzip : parsed.items.zip (parsed.items.zipIdx.map fun (item, i) => wanted i item) =
      parsed.items.zipIdx.map fun (item, i) => (item, wanted i item) :=
    calc _ = (parsed.items.zipIdx.map Prod.fst).zip (parsed.items.zipIdx.map fun (item, i) => wanted i item) := by
          rw [List.zipIdx_map_fst]
      _ = _ := List.zip_map' ..
  rw [Bilingual.rewriteItems, hzip, List.mapM_map]
  exact Except.mapM_eq_ok_map fun (item, i) hitem => h.withLiterals (List.mem_zipIdx_iff_getElem?.1 hitem)

/-! ## The edit of a body -/

/-- A plan has at most one edit, which replaces the body of a block. -/
def EditsBody (block : BlockSpan) (plan : Plan) : Prop :=
  plan.edits = [] ∨ ∃ body, plan.edits = [⟨block.bodyStart, block.bodyEnd, body⟩]

theorem applyAll_body {block : BlockSpan} (hstart : block.bodyStart ≤ block.bodyEnd)
    (hend : block.bodyEnd ≤ text.length) (body : Text) :
    Edit.applyAll text [⟨block.bodyStart, block.bodyEnd, body⟩] = .ok (block.replaceBody text body) := by
  rw [Edit.applyAll_of_pairwise .rfl (List.forall_mem_singleton.2 ?_) (List.pairwise_singleton _ _)]
  · rfl
  · constructor
    · exact Int.natCast_nonneg _
    · exact Int.ofNat_le.2 hstart
    · exact Int.ofNat_le.2 hend

/-- The texts of the items of a block with the new values that are wanted for each. -/
def rewritten (text : Text) (items : List BlockItem) (wanted : Nat → BlockItem → List (LiteralSpan × Text)) :
    Except Failure (List Text) :=
  rewriteItems text items (items.zipIdx.map fun (item, i) => wanted i item)

theorem forall₂_wanted {items : List BlockItem} {R : BlockItem → List (LiteralSpan × Text) → Prop}
    (h : ∀ i item, items[i]? = some item → R item (wanted i item)) :
    List.Forall₂ R items (items.zipIdx.map fun (item, i) => wanted i item) := by
  conv => arg 2; rw [← List.zipIdx_map_fst 0 items]
  rw [List.forall₂_map_left_iff, List.forall₂_map_right_iff, List.forall₂_same]
  exact fun (item, i) hitem => h i item (List.mem_zipIdx_iff_getElem?.1 hitem)

/-- Changes that put new values into the items of a block come to one edit, which puts together the body again, and
carrying it out is carrying out the edits of the new values. -/
theorem Carries.exists_sources {kind : ItemKind} {parts : List BlockPart} {last : Text}
    (h : Carries text parsed.items wanted changes) (hlaid : parsed.Laid text kind parts last)
    (hstart : parsed.block.bodyStart ≤ parsed.block.bodyEnd) (hend : parsed.block.bodyEnd ≤ text.length)
    (hreplaces : ∀ i item, parsed.items[i]? = some item → Replaces item (wanted i item))
    (entries : List PatchEntry) :
    ∃ plan sources, ofChanges parsed text changes entries = .ok plan ∧ plan.EditsBody parsed.block ∧
      rewritten text parsed.items wanted = .ok sources ∧
      Edit.applyAll text plan.edits = .ok (parsed.block.replaceBody text (interleave parsed.gaps sources)) ∧
      ∀ edits : List Edit, edits.Perm ((inItems parsed.items wanted).map fun pair => pair.1.edit pair.2) →
        Edit.applyAll text edits = .ok (parsed.block.replaceBody text (interleave parsed.gaps sources)) := by
  obtain ⟨sources, hsources, hedits⟩ := hlaid.applyAll_literals (forall₂_wanted hreplaces)
  cases hsources.symm.trans h.rewriteItems
  have hflat : (parsed.items.zipIdx.map fun (item, i) => wanted i item).flatten = inItems parsed.items wanted := rfl
  rw [hflat] at hedits
  by_cases hkeep : changes.all (· = .keep)
  -- nothing is wanted for any item
  · have hnone : inItems parsed.items wanted = [] := by
      refine List.eq_nil_iff_forall_not_mem.2 fun pair hpair => ?_
      obtain ⟨i, item, hitem, hpair⟩ := mem_inItems_iff.1 hpair
      obtain ⟨source, hsource⟩ := h.complete i item hitem (List.ne_nil_of_mem hpair)
      have := List.all_eq_true.1 hkeep _ hsource
      simp at this
    refine ⟨{ entries }, _, if_pos hkeep, .inl rfl, hsources, hedits [] ?_, hedits⟩
    rw [hnone]
    exact .nil
  · have happended : changes.filterMap ItemChange.appended? = [] := List.filterMap_eq_nil_iff.2 h.kept
    refine ⟨{ edits := [⟨parsed.block.bodyStart, parsed.block.bodyEnd, _⟩], entries }, _, ?_, .inr ⟨_, rfl⟩,
      hsources, applyAll_body hstart hend _, hedits⟩
    rw [ofChanges, if_neg hkeep, happended]
    refine Except.bind_eq_ok_iff.2 ⟨_, ?_, rfl⟩
    rw [renderBody, if_neg (not_not.2 (length_zipIdx_map _ _))]
    rfl

/-! ## Plans that rewrite literal by literal -/

/-- Planning a block agrees with one edit for each of the literals that texts are bound to: the plan has at most one
edit, it makes of a text what those edits make of it, and it does so whenever all the literals can be decoded. -/
structure Agrees (parsed : ParsedBlock) (text : Text) (bound : List (LiteralSpan × Text))
    (result : Except Failure Plan) : Prop where
  editsBody : ∀ plan, result = .ok plan → plan.EditsBody parsed.block
  patched_iff : ∀ patched, (do Edit.applyAll text (← result).edits) = .ok patched ↔
    (do Edit.applyAll text (← boundEdits bound)) = .ok patched
  exists_iff : (∃ patched, (do Edit.applyAll text (← result).edits) = .ok patched) ↔
    ∀ pair ∈ bound, pair.1.Decodes

/-- A step decodes every literal that a text is bound to, and then comes to changes that put in those texts that
differ. -/
structure Rewrites (parsed : ParsedBlock) (text : Text) (bound : Nat → BlockItem → List (LiteralSpan × Text))
    (result : Except Failure Plan) : Prop where
  decodes : ∀ plan, result = .ok plan → ∀ pair ∈ inItems parsed.items bound, pair.1.Decodes
  carries : (∀ pair ∈ inItems parsed.items bound, pair.1.Decodes) → ∃ changes entries wanted,
    result = ofChanges parsed text changes entries ∧ Carries text parsed.items wanted changes ∧
      ∀ i item, parsed.items[i]? = some item → Replaces item (wanted i item) ∧
        (wanted i item).Perm ((bound i item).filter Differs)

section Rewrites

variable {bound : Nat → BlockItem → List (LiteralSpan × Text)} {result : Except Failure Plan} {kind : ItemKind}
  {parts : List BlockPart} {last : Text}

/-- When all literals that texts are bound to can be decoded, the texts that differ are put into the items. -/
theorem Rewrites.exists_sources (h : Rewrites parsed text bound result) (hlaid : parsed.Laid text kind parts last)
    (hstart : parsed.block.bodyStart ≤ parsed.block.bodyEnd) (hend : parsed.block.bodyEnd ≤ text.length)
    (hdecodes : ∀ pair ∈ inItems parsed.items bound, pair.1.Decodes) : ∃ plan wanted sources,
      result = .ok plan ∧ plan.EditsBody parsed.block ∧ rewritten text parsed.items wanted = .ok sources ∧
      Edit.applyAll text plan.edits = .ok (parsed.block.replaceBody text (interleave parsed.gaps sources)) ∧
      (∀ i item, parsed.items[i]? = some item → Replaces item (wanted i item) ∧
        (wanted i item).Perm ((bound i item).filter Differs)) ∧
      (do Edit.applyAll text (← boundEdits (inItems parsed.items bound))) =
        .ok (parsed.block.replaceBody text (interleave parsed.gaps sources)) := by
  obtain ⟨changes, entries, wanted, rfl, hcarries, hwanted⟩ := h.carries hdecodes
  obtain ⟨plan, sources, hplan, hbody, hsources, hpatched, hedits⟩ :=
    hcarries.exists_sources hlaid hstart hend (fun i item hitem => (hwanted i item hitem).1) entries
  have hperm : ((inItems parsed.items bound).filter Differs).Perm (inItems parsed.items wanted) := by
    unfold inItems
    rw [List.filter_flatMap]
    exact List.Perm.flatMap_left _ fun (item, i) hitem =>
      (hwanted i item (List.mem_zipIdx_iff_getElem?.1 hitem)).2.symm
  refine ⟨plan, wanted, sources, hplan, hbody, hsources, hpatched, hwanted, ?_⟩
  rw [boundEdits_eq_ok_iff.2 ⟨hdecodes, rfl⟩]
  exact hedits _ (hperm.map _)

theorem Rewrites.agrees (h : Rewrites parsed text bound result) (hlaid : parsed.Laid text kind parts last)
    (hstart : parsed.block.bodyStart ≤ parsed.block.bodyEnd) (hend : parsed.block.bodyEnd ≤ text.length) :
    Agrees parsed text (inItems parsed.items bound) result := by
  by_cases hdecodes : ∀ pair ∈ inItems parsed.items bound, pair.1.Decodes
  · obtain ⟨plan, wanted, sources, hplan, hbody, -, hpatched, -, hbound⟩ := h.exists_sources hlaid hstart hend hdecodes
    have hresult : (do Edit.applyAll text (← result).edits) =
        .ok (parsed.block.replaceBody text (interleave parsed.gaps sources)) := by
      rw [hplan]
      exact hpatched
    refine ⟨fun other hother => ?_, fun other => by rw [hbound, hresult], iff_of_true ⟨_, hresult⟩ hdecodes⟩
    cases hplan.symm.trans hother
    exact hbody
  -- a literal that cannot be decoded stops both
  · have hplan : ∀ plan, result ≠ .ok plan := fun plan hplan => hdecodes (h.decodes plan hplan)
    have hnone : ∀ patched, (do Edit.applyAll text (← result).edits) ≠ .ok patched := by
      intro patched hpatched
      obtain ⟨plan, hresult, -⟩ := Except.bind_eq_ok_iff.1 hpatched
      exact hplan plan hresult
    refine ⟨fun plan hresult => absurd hresult (hplan plan), fun patched => iff_of_false (hnone patched) ?_,
      iff_of_false (fun ⟨patched, hpatched⟩ => hnone patched hpatched) hdecodes⟩
    intro hpatched
    obtain ⟨edits, hedits, -⟩ := Except.bind_eq_ok_iff.1 hpatched
    exact hdecodes (boundEdits_eq_ok_iff.1 hedits).1

end Rewrites

/-! ## Entries -/

theorem replaceEntry?_eq (text : Text) (item : BlockItem) (texts : FlatMap) :
    replaceEntry? text item texts = match bound? item.literal? (boundText? texts item) with
      | none => .ok none
      | some pair => do
        if (← pair.1.value) = pair.2 then return none
        else return some (← item.withLiterals text [pair]) := by
  unfold replaceEntry? boundText?
  cases item.key? with
  | none => cases item.literal? <;> rfl
  | some key =>
    cases item.literal? with
    | none => rfl
    | some l =>
      dsimp only [Option.bind]
      cases (texts.lookup? key.value).join <;> rfl

/-- The text that is bound to the literal of an entry. -/
def entryTexts (texts : FlatMap) (item : BlockItem) : List (LiteralSpan × Text) :=
  (bound? item.literal? (boundText? texts item)).toList

theorem decodes_of_replaceEntry? {item : BlockItem} {texts : FlatMap} {source : Option Text}
    (h : replaceEntry? text item texts = .ok source) : ∀ pair ∈ entryTexts texts item, pair.1.Decodes := by
  intro pair hpair
  rw [replaceEntry?_eq, Option.mem_toList.1 hpair] at h
  obtain ⟨t, ht, -⟩ := Except.bind_eq_ok_iff.1 h
  exact ⟨t, ht⟩

/-- An entry gets a new source exactly if its literal stands for another text than the one bound to it. -/
theorem replaceEntry?_of_decodes {item : BlockItem} {texts : FlatMap} {source : Text}
    (hdecodes : ∀ pair ∈ entryTexts texts item, pair.1.Decodes)
    (hsource : item.withLiterals text ((entryTexts texts item).filter Differs) = .ok source) :
    replaceEntry? text item texts =
      .ok (if (entryTexts texts item).filter Differs = [] then none else some source) := by
  unfold entryTexts at hdecodes hsource ⊢
  rw [replaceEntry?_eq]
  cases hbound : bound? item.literal? (boundText? texts item) with
  | none => rfl
  | some pair =>
    rw [hbound] at hdecodes hsource
    obtain ⟨t, ht⟩ := hdecodes pair (List.mem_singleton_self pair)
    dsimp only
    rw [ht]
    by_cases heq : t = pair.2
    · have hsame : Differs pair = false := by simp [Differs, ht, heq]
      rw [Option.toList_some, List.filter_singleton, hsame]
      exact if_pos heq
    · have hdiffers : Differs pair = true := by simp [Differs, ht, heq]
      rw [Option.toList_some, List.filter_singleton, hdiffers] at hsource ⊢
      refine (if_neg heq).trans ?_
      have hsource : item.withLiterals text [pair] = .ok source := hsource
      rw [hsource]
      rfl

theorem replaces_entryTexts (texts : FlatMap) (item : BlockItem) :
    Replaces item ((entryTexts texts item).filter Differs) := by
  unfold entryTexts
  cases hbound : bound? item.literal? (boundText? texts item) with
  | none => exact ⟨List.forall_mem_nil _, List.nodup_nil⟩
  | some pair =>
    refine ⟨fun other hother => ?_, ?_⟩
    · obtain rfl := List.mem_singleton.1 (List.mem_of_mem_filter hother)
      exact mem_literals_of_literal? (bound?_eq_some_iff.1 hbound).1
    · exact (List.nodup_singleton pair.1).sublist (List.filter_sublist.map Prod.fst)

/-- With the new values of its items, a block of entries gets changes that put them in. -/
theorem carries_entryChanges {texts : FlatMap} {wanted : Nat → BlockItem → List (LiteralSpan × Text)}
    {replaced : List (Option Text)}
    (hkeys : ∀ key value, (key, some value) ∈ texts → key ∈ existingKeys parsed)
    (hreplaced : List.Forall₂ (fun item source => replaceEntry? text item texts = .ok source) parsed.items replaced)
    (hwanted : ∀ i item, parsed.items[i]? = some item → ∃ source, item.withLiterals text (wanted i item) = .ok source ∧
      replaceEntry? text item texts = .ok (if wanted i item = [] then none else some source)) :
    Carries text parsed.items wanted (entryChanges parsed texts replaced) := by
  constructor
  · intro change hchange
    rcases List.mem_append.1 hchange with hchange | hchange
    · obtain ⟨⟨found, index⟩, -, heq⟩ := List.mem_filterMap.1 hchange
      obtain ⟨t, -, rfl⟩ := Option.map_eq_some_iff.1 heq
      rfl
    · obtain ⟨⟨key, value⟩, hkey, heq⟩ := List.mem_filterMap.1 hchange
      cases value with
      | none => simp at heq
      | some value =>
        have hold := hkeys key value hkey
        simp [hold] at heq
  · intro i source hchange
    obtain ⟨item, hitem, hstep⟩ := List.Forall₂.exists_of_getElem? hreplaced.flip
      (replace_mem_entryChanges_iff.1 hchange)
    obtain ⟨source', hsource', hentry⟩ := hwanted i item hitem
    have hstep : replaceEntry? text item texts = .ok (some source) := hstep
    rw [hentry] at hstep
    refine ⟨item, hitem, ?_⟩
    split at hstep
    · cases hstep
    · cases hstep
      exact hsource'
  · intro i item hitem hne
    obtain ⟨source, -, hentry⟩ := hwanted i item hitem
    obtain ⟨found, hfound, hstep⟩ := List.Forall₂.exists_of_getElem? hreplaced hitem
    rw [if_neg hne] at hentry
    rw [Except.ok.inj (hstep.symm.trans hentry)] at hfound
    exact ⟨source, replace_mem_entryChanges_iff.2 hfound⟩

theorem rewrites_dictBlock {c : Category} {locale : Text} {given : FlatMap} {merged : List FlatMap} {kind : ItemKind}
    {parts : List BlockPart} {last : Text} (hblock : c.parsedBlock text locale = .ok (some parsed))
    (hlaid : parsed.Laid text kind parts last)
    (hkeys : ∀ key value, (key, some value) ∈ overlay given merged → key ∈ existingKeys parsed) :
    Rewrites parsed text (fun _ item => entryTexts (overlay given merged) item)
      (dictBlock c text locale given merged).result := by
  have hresult : (dictBlock c text locale given merged).result =
      (parsed.items.mapM fun item => replaceEntry? text item (overlay given merged)) >>= fun replaced =>
        ofChanges parsed text (entryChanges parsed (overlay given merged) replaced)
          (entryReports c parsed (overlay given merged) replaced) := by
    rw [dictBlock_eq, Logged.result_bind, Logged.result_lift, hblock]
    show (Logged.result ((parsed.items.mapM fun item => _) >>= _)) = _
    rw [Logged.result_bind, Logged.result_mapM]
    rfl
  rw [hresult]
  constructor
  · intro plan hplan pair hpair
    obtain ⟨replaced, hreplaced, -⟩ := Except.bind_eq_ok_iff.1 hplan
    obtain ⟨i, item, hitem, hpair⟩ := mem_inItems_iff.1 hpair
    obtain ⟨source, -, hsource⟩ := List.Forall₂.exists_of_getElem? (Except.mapM_eq_ok_iff.1 hreplaced) hitem
    exact decodes_of_replaceEntry? hsource pair hpair
  · intro hdecodes
    have hentry : ∀ (i : Nat) (item : BlockItem), parsed.items[i]? = some item → ∃ source,
        item.withLiterals text ((entryTexts (overlay given merged) item).filter Differs) = .ok source ∧
          replaceEntry? text item (overlay given merged) =
            .ok (if (entryTexts (overlay given merged) item).filter Differs = [] then none else some source) := by
      intro i item hitem
      obtain ⟨source, hsource⟩ := hlaid.exists_withLiterals (List.mem_of_getElem? hitem)
        (replaces_entryTexts (overlay given merged) item)
      exact ⟨source, hsource, replaceEntry?_of_decodes
        (fun pair hpair => hdecodes pair (mem_inItems_iff.2 ⟨i, item, hitem, hpair⟩)) hsource⟩
    obtain ⟨replaced, hreplaced⟩ : ∃ replaced, (parsed.items.mapM fun item =>
        replaceEntry? text item (overlay given merged)) = .ok replaced := by
      refine Except.mapM_ok_of_forall fun item hitem => ?_
      obtain ⟨i, hi⟩ := List.mem_iff_getElem?.1 hitem
      obtain ⟨source, -, hsource⟩ := hentry i item hi
      exact ⟨_, hsource⟩
    refine ⟨_, _, fun _ item => (entryTexts (overlay given merged) item).filter Differs, by rw [hreplaced]; rfl,
      carries_entryChanges hkeys (Except.mapM_eq_ok_iff.1 hreplaced) hentry, fun i item _ =>
        ⟨replaces_entryTexts _ item, .rfl⟩⟩

/-! ## Records -/

section Record

variable {c : Category} {entry : PatchEntry} {names : List Text}

theorem recordField_of_decodes {site : Option LiteralSpan} {value : Option Text}
    (h : ∀ pair ∈ bound? site value, pair.1.Decodes) :
    ∃ entries, (recordField entry site value).result = .ok ((bound? site value).filter Differs, entries) := by
  unfold recordField
  match value, site with
  | none, none => exact ⟨_, rfl⟩
  | none, some l => exact ⟨_, rfl⟩
  | some value, none => exact ⟨_, rfl⟩
  | some value, some l =>
    obtain ⟨t, ht⟩ := h (l, value) rfl
    show ∃ entries, ((liftM l.value : Logged Failure Text) >>= fun current => _).result = _
    rw [Logged.result_bind, Logged.result_lift, ht]
    by_cases heq : t = value
    · have hsame : Differs (l, value) = false := by simp [Differs, ht, heq]
      refine ⟨[{ entry with status := .unchanged }], ?_⟩
      have hbound : (bound? (some l) (some value)).filter Differs = none := by simp [bound?, hsame]
      rw [hbound]
      show (if t = value then _ else _ : Logged Failure _).result = _
      rw [if_pos heq]
      rfl
    · have hdiffers : Differs (l, value) = true := by simp [Differs, ht, heq]
      refine ⟨[{ entry with status := .updated }], ?_⟩
      have hbound : (bound? (some l) (some value)).filter Differs = some (l, value) := by simp [bound?, hdiffers]
      rw [hbound]
      show (if t = value then _ else _ : Logged Failure _).result = _
      rw [if_neg heq]
      rfl

theorem decodes_of_recordField {site : Option LiteralSpan} {value : Option Text}
    {p : Option (LiteralSpan × Text) × List PatchEntry} (h : (recordField entry site value).result = .ok p) :
    ∀ pair ∈ bound? site value, pair.1.Decodes := by
  rintro ⟨l, t⟩ hpair
  obtain ⟨rfl, rfl⟩ := bound?_eq_some_iff.1 hpair
  unfold recordField at h
  dsimp only at h
  rw [Logged.result_bind, Logged.result_lift] at h
  obtain ⟨current, hcurrent, -⟩ := Except.bind_eq_ok_iff.1 h
  exact ⟨current, hcurrent⟩

theorem fst_of_recordField {site : Option LiteralSpan} {value : Option Text}
    {p : Option (LiteralSpan × Text) × List PatchEntry} (h : (recordField entry site value).result = .ok p) :
    p.1 = (bound? site value).filter Differs := by
  obtain ⟨entries, hentries⟩ := recordField_of_decodes (decodes_of_recordField h)
  rw [h] at hentries
  cases hentries
  rfl

variable {record : FlatMap} {index : Nat} {item : BlockItem}

theorem decodes_of_existingRecord {p : ItemChange × List PatchEntry}
    (h : (existingRecord c text entry names record index item).result = .ok p) :
    ∀ name ∈ names, ∀ pair ∈ bound? (siteIn? c item name) (record.lookup? name).join, pair.1.Decodes := by
  intro name hname
  rw [existingRecord_result] at h
  obtain ⟨planned, hplanned, -⟩ := Except.bind_eq_ok_iff.1 h
  obtain ⟨found, -, hfound⟩ := List.Forall₂.exists_of_mem_left (Except.mapM_eq_ok_iff.1 hplanned) hname
  exact decodes_of_recordField hfound

/-- An item gets a new source exactly if its record has a changed text for one of its literals. -/
theorem existingRecord_of_decodes {source : Text}
    (hdecodes : ∀ name ∈ names, ∀ pair ∈ bound? (siteIn? c item name) (record.lookup? name).join, pair.1.Decodes)
    (hsource : item.withLiterals text (changedTexts c names (some record) item) = .ok source) :
    ∃ entries, (existingRecord c text entry names record index item).result =
      .ok (if changedTexts c names (some record) item = [] then .keep else .replace index source, entries) := by
  rw [existingRecord_result]
  obtain ⟨planned, hplanned⟩ : ∃ planned, (names.mapM fun name => (recordField { entry with field := some name }
      (siteIn? c item name) (record.lookup? name).join).result) = .ok planned :=
    Except.mapM_ok_of_forall fun name hname =>
      (recordField_of_decodes (hdecodes name hname)).elim fun entries h => ⟨_, h⟩
  have hfields : names.map (fun name => (bound? (siteIn? c item name) (record.lookup? name).join).filter Differs) =
      planned.map Prod.fst :=
    List.Forall₂.map_eq_map (Except.mapM_eq_ok_iff.1 hplanned) fun _ _ h => (fst_of_recordField h).symm
  have hchanged : distinctLiterals (planned.filterMap Prod.fst) = changedTexts c names (some record) item := by
    have := congrArg (List.filterMap id) hfields
    rw [List.filterMap_map, List.filterMap_map] at this
    exact congrArg distinctLiterals this.symm
  refine ⟨planned.flatMap Prod.snd, Except.bind_eq_ok_iff.2 ⟨planned, hplanned, ?_⟩⟩
  rw [hchanged]
  cases hnil : changedTexts c names (some record) item with
  | nil => rfl
  | cons pair rest =>
    rw [hnil] at hsource
    dsimp only
    rw [hsource]
    rfl

/-- A record without an item that is not appended leaves the block as it is, and so does a missing one; any other
gives its item a new source exactly if it has a changed text for it. -/
theorem record_of_decodes (entry : PatchEntry) (render : List (Text × Text) → Text) {given : Option FlatMap}
    {site : Option (Nat × BlockItem)}
    (hdecodes : ∀ texts i item, given = some texts → site = some (i, item) →
      (∀ name ∈ names, ∀ pair ∈ bound? (siteIn? c item name) (texts.lookup? name).join, pair.1.Decodes) ∧
        ∃ source, item.withLiterals text (changedTexts c names (some texts) item) = .ok source)
    (hnew : ∀ texts, given = some texts → site = none → completeTexts? texts names = none) :
    ∃ change entries, (Plan.record c text entry names given site render).result = .ok (change, entries) ∧
      change.appended? = none ∧ ∀ i source, change = .replace i source ↔ ∃ texts item, given = some texts ∧
        site = some (i, item) ∧ changedTexts c names (some texts) item ≠ [] ∧
          item.withLiterals text (changedTexts c names (some texts) item) = .ok source := by
  match given, site with
  | none, _ => exact ⟨.keep, _, rfl, rfl, by simp⟩
  | some texts, none =>
    have hrest : (Plan.record c text entry names (some texts) none render).result =
        .ok (newRecord entry names texts render) := rfl
    rw [hrest, newRecord, hnew texts rfl rfl]
    exact ⟨.keep, _, rfl, rfl, by simp⟩
  | some texts, some (i, item) =>
    obtain ⟨hfields, source, hsource⟩ := hdecodes texts i item rfl rfl
    obtain ⟨entries, hresult⟩ := existingRecord_of_decodes hfields hsource
    refine ⟨_, entries, hresult, ?_, fun j other => ?_⟩
    · split_ifs <;> rfl
    · split_ifs with hnil
      · refine iff_of_false (by simp) ?_
        rintro ⟨_, _, ⟨⟩, ⟨⟩, hne, -⟩
        exact hne hnil
      · constructor
        · rintro ⟨⟩
          exact ⟨texts, item, rfl, rfl, hnil, hsource⟩
        · rintro ⟨_, _, ⟨⟩, ⟨⟩, -, hother⟩
          rw [Except.ok.inj (hsource.symm.trans hother)]

end Record

section Rows

variable {α : Type} {things : List α} (given : α → Option FlatMap) (site : α → Option (Nat × BlockItem))
  {entry : α → PatchEntry} {render : α → List (Text × Text) → Text} {givenIn : Nat → BlockItem → Option FlatMap}
  {c : Category} {names : List Text}

/-- Records in a row, each for the item that it goes to. -/
theorem rewrites_rows {kind : ItemKind} {parts : List BlockPart} {last : Text}
    (hlaid : parsed.Laid text kind parts last) (hapart : NamesApart c names)
    (hsite : ∀ a ∈ things, ∀ i item, site a = some (i, item) → parsed.items[i]? = some item)
    (hgiven : ∀ i item texts, parsed.items[i]? = some item →
      (givenIn i item = some texts ↔ ∃ a ∈ things, given a = some texts ∧ site a = some (i, item)))
    (hnew : ∀ a ∈ things, ∀ texts, given a = some texts → site a = none → completeTexts? texts names = none) :
    Rewrites parsed text (fun i item => recordTexts c names (givenIn i item) item)
      (Logged.result (things.mapM (fun a => record c text (entry a) names (given a) (site a) (render a)) >>=
        fun planned => liftM (ofChanges parsed text (planned.map Prod.fst) (planned.flatMap Prod.snd)))) := by
  rw [Logged.result_bind, Logged.result_mapM]
  constructor
  · intro plan hplan pair hpair
    obtain ⟨planned, hplanned, -⟩ := Except.bind_eq_ok_iff.1 hplan
    obtain ⟨i, item, hitem, hpair⟩ := mem_inItems_iff.1 hpair
    obtain ⟨name, hname, hbound⟩ := mem_recordTexts_iff.1 hpair
    obtain ⟨texts, htexts, htext⟩ := Option.bind_eq_some_iff.1 (bound?_eq_some_iff.1 hbound).2
    obtain ⟨a, ha, hrecord, hplace⟩ := (hgiven i item texts hitem).1 htexts
    obtain ⟨p, -, hp⟩ := List.Forall₂.exists_of_mem_left (Except.mapM_eq_ok_iff.1 hplanned) ha
    rw [hrecord, hplace] at hp
    rw [htexts] at hbound
    exact decodes_of_existingRecord hp name hname pair hbound
  · intro hdecodes
    obtain ⟨planned, hplanned⟩ : ∃ planned, List.Forall₂ (fun a (p : ItemChange × List PatchEntry) =>
        (record c text (entry a) names (given a) (site a) (render a)).result = .ok p ∧ p.1.appended? = none ∧
          ∀ i source, p.1 = .replace i source ↔ ∃ texts item, given a = some texts ∧ site a = some (i, item) ∧
            changedTexts c names (some texts) item ≠ [] ∧
              item.withLiterals text (changedTexts c names (some texts) item) = .ok source) things planned := by
      refine List.exists_forall₂ fun a ha => ?_
      obtain ⟨change, entries, hrecord⟩ := record_of_decodes (entry a) (render a)
        (fun texts i item hrecord hplace => by
          have hitem := hsite a ha i item hplace
          have htexts := (hgiven i item texts hitem).2 ⟨a, ha, hrecord, hplace⟩
          refine ⟨fun name hname pair hpair => hdecodes pair (mem_inItems_iff.2 ⟨i, item, hitem, ?_⟩),
            hlaid.exists_withLiterals (List.mem_of_getElem? hitem) (replaces_changedTexts c names _ item)⟩
          rw [htexts]
          exact mem_recordTexts_iff.2 ⟨name, hname, hpair⟩) (hnew a ha)
      exact ⟨(change, entries), hrecord⟩
    refine ⟨planned.map Prod.fst, planned.flatMap Prod.snd,
      fun i item => changedTexts c names (givenIn i item) item, ?_, ?_, fun i item hitem =>
        ⟨replaces_changedTexts c names _ item, changedTexts_perm hapart ?_⟩⟩
    · rw [Except.mapM_eq_ok_iff.2 (hplanned.imp fun _ _ => And.left)]
      rfl
    · constructor
      · intro change hchange
        obtain ⟨p, hp, rfl⟩ := List.mem_map.1 hchange
        obtain ⟨a, -, -, hkept, -⟩ := List.Forall₂.exists_of_mem_right hplanned hp
        exact hkept
      · intro i source hchange
        obtain ⟨p, hp, hreplace⟩ := List.mem_map.1 hchange
        obtain ⟨a, ha, -, -, hiff⟩ := List.Forall₂.exists_of_mem_right hplanned hp
        obtain ⟨texts, item, hrecord, hplace, -, hsource⟩ := (hiff i source).1 hreplace
        have hitem := hsite a ha i item hplace
        rw [← (hgiven i item texts hitem).2 ⟨a, ha, hrecord, hplace⟩] at hsource
        exact ⟨item, hitem, hsource⟩
      · intro i item hitem hne
        obtain ⟨source, hsource⟩ := hlaid.exists_withLiterals (List.mem_of_getElem? hitem)
          (replaces_changedTexts c names (givenIn i item) item)
        obtain ⟨pair, hpair⟩ := List.exists_mem_of_ne_nil _ hne
        obtain ⟨name, -, hbound⟩ := mem_recordTexts_iff.1 (mem_recordTexts_of_changedTexts hpair)
        obtain ⟨texts, htexts, -⟩ := Option.bind_eq_some_iff.1 (bound?_eq_some_iff.1 hbound).2
        obtain ⟨a, ha, hrecord, hplace⟩ := (hgiven i item texts hitem).1 htexts
        obtain ⟨p, hp, -, -, hiff⟩ := List.Forall₂.exists_of_mem_left hplanned ha
        rw [htexts] at hne hsource
        exact ⟨source, List.mem_map.2 ⟨p, hp, (hiff i source).2 ⟨texts, item, hrecord, hplace, hne, hsource⟩⟩⟩
    · exact (hlaid.literalsIn (List.mem_of_getElem? hitem)).1.nodup

end Rows

end Plan

end Bilingual
