import Bilingual.Proofs.RoundTrip

set_option autoImplicit false

/-! # Exports that complete

A category is added to an export unless a body that is read for it names no code point, or a group that is asked for is
not there (`Export.addCategory_completes_iff`), as long as the manifest is not at fault itself (`Placement.Readable`).
What is added comes in order: one entry and one value for each category (`Export.Grows`). -/

namespace Bilingual

/-! ## Openers in a locale -/

/-- The last code point in front of any whitespace at the end is an opening bracket. -/
def Text.EndsWithBracket (t : Text) : Prop := ∃ closer, t.trim.getLast?.bind Bracket.closerOf? = some closer

/-- What stands for the locale in an opener ends with another bracket than the opener does. -/
theorem Text.EndsWithBracket.substituteLocale {template : Text} (h : template.EndsWithBracket) (locale : Text) :
    (substituteLocale template locale).EndsWithBracket := by
  obtain ⟨closer, hcloser⟩ := h
  refine ⟨closer, ?_⟩
  rw [Text.getLast?_trim] at hcloser ⊢
  obtain ⟨bracket, hfind, hbracket⟩ := Option.bind_eq_some_iff.1 hcloser
  obtain ⟨hspace, blanks, before, hreverse, hblanks⟩ := List.find?_eq_some_iff_append.1 hfind
  have htemplate : template = before.reverse ++ (bracket :: blanks.reverse) := by
    rw [← List.reverse_reverse template, hreverse]
    simp
  have hlast : ('}' : CodePoint) ∉ bracket :: blanks.reverse := by
    rw [List.mem_cons, not_or]
    refine ⟨?_, fun hmem => ?_⟩
    · rintro rfl
      cases hbracket
    · have := hblanks _ (List.mem_reverse.1 hmem)
      revert this
      decide
  have hreplaced : Bilingual.substituteLocale template locale =
      Bilingual.substituteLocale before.reverse locale ++ (bracket :: blanks.reverse) := by
    rw [htemplate]
    exact Text.replace_append locale rfl hlast
  have hagain : (Bilingual.substituteLocale template locale).reverse =
      blanks ++ bracket :: (Bilingual.substituteLocale before.reverse locale).reverse := by
    rw [hreplaced]
    simp
  have hfound : (Bilingual.substituteLocale template locale).reverse.find? (!·.isSpace) = some bracket :=
    List.find?_eq_some_iff_append.2 ⟨hspace, _, _, hagain, hblanks⟩
  rw [hfound]
  exact hbracket

/-- The openers of a block end with brackets in all locales. -/
def BlockPlace.EndsWithBracket (place : BlockPlace) : Prop :=
  ∀ written ∈ place.opener :: place.localeOpeners.map Prod.snd, written.EndsWithBracket

theorem BlockPlace.EndsWithBracket.opener {place : BlockPlace} (h : place.EndsWithBracket) (locale : Text)
    (failure : Failure) :
    BlockSpan.opener (substituteLocale (place.openerFor locale) locale) ≠ .error failure := by
  have hmem : place.openerFor locale ∈ place.opener :: place.localeOpeners.map Prod.snd := by
    unfold BlockPlace.openerFor
    cases hlookup : place.localeOpeners.lookup? locale with
    | none => exact List.mem_cons_self
    | some written => exact List.mem_cons_of_mem _ (List.mem_map_of_mem (OrderedMap.mem_of_lookup? hlookup))
  obtain ⟨closer, hcloser⟩ := (h _ hmem).substituteLocale locale
  rw [BlockSpan.opener_eq_ok_iff.2 ⟨hcloser, rfl⟩]
  rintro ⟨⟩

/-- The manifest is not at fault: what has to follow an occurrence can be read, and openers end with brackets. -/
structure Placement.Readable (placement : Placement) : Prop where
  following : ∀ fields defaults, placement = .pairs fields defaults →
    ∀ field ∈ fields, ∃ following, Following.ofText (field.followedBy.getD []) = .ok following
  bracket : ∀ place, placement.blockPlace? = some place → place.EndsWithBracket

theorem Placement.Readable.not_faulty {placement : Placement} (h : placement.Readable) (locale : Text)
    (failure : Failure) : ¬ placement.Faulty locale failure := by
  rintro (⟨fields, defaults, hplace, field, hfield, hfails⟩ | ⟨place, hplace, hfails⟩)
  · obtain ⟨following, hfollowing⟩ := h.following fields defaults hplace field hfield
    rw [hfollowing] at hfails
    cases hfails
  · exact (h.bracket place hplace).opener locale failure hfails

/-! ## Categories that can be read -/

namespace Category

variable {c : Category} {text : Text} {locales : Locales} {locale : Text}

/-- No body that is read for the contents of a category names a number beyond the last code point, and no match that is
looked at for them lacks a group that is asked for. -/
def Legible (c : Category) (text : Text) (locales : Locales) (locale : Text) : Prop :=
  ∀ failure, c.contents? text locales locale = .error failure → ¬ failure.IsCodePoint ∧ ¬ failure.IsGroup

theorem not_isUnterminated_of_isGroup {failure : Failure} (h : failure.IsGroup) : ¬ failure.IsUnterminated := by
  rintro ⟨delimiter, start, rfl⟩
  rcases h with h | h <;> cases h

/-- A file without an escape beyond the last code point can be read, whatever else it holds, unless a group is asked
for. -/
theorem legible_of_not_hasWideEscape (hreadable : c.placement.Readable) (hplain : c.placement.Plain)
    (h : ¬ text.HasWideEscape) : c.Legible text locales locale := by
  intro failure hfails
  rcases c.failsOnly_contents? text locales locale failure hfails with hfails | hfails | hfails | hfails
  · rcases c.failsOnly_documentBodies text locale failure hfails with hfails | hfails
    · exact ⟨fun hcode => hcode.not_isUnterminated hfails, fun hgroup => not_isUnterminated_of_isGroup hgroup hfails⟩
    · exact absurd hfails.hasWideEscape h
  · exact absurd hfails.hasWideEscape h
  · exact absurd hplain hfails.2
  · exact absurd hfails (hreadable.not_faulty locale failure)

/-- Contents that cannot be read either have a body without an end, or are not legible. -/
theorem isUnterminated_or_not_legible (hreadable : c.placement.Readable) {failure : Failure}
    (h : c.contents? text locales locale = .error failure) :
    failure.IsUnterminated ∨ failure.IsCodePoint ∨ failure.IsGroup := by
  rcases c.failsOnly_contents? text locales locale failure h with h | h | h | h
  · exact (c.failsOnly_documentBodies text locale failure h).imp_right fun h => .inl h.isCodePoint
  · exact .inr (.inl h.isCodePoint)
  · exact .inr (.inr h.1)
  · exact absurd h (hreadable.not_faulty locale failure)

end Category

namespace Export

/-! ## What an export gains -/

/-- An export gains one entry and one value for each of some categories, in order. -/
structure Grows (e : Export) (cs : List AnyCategory) (e' : Export) : Prop where
  locale_eq : e'.locale = e.locale
  entries_eq : e'.entries.map CategoryExport.name = e.entries.map CategoryExport.name ++ cs.map AnyCategory.name
  keys_eq : (OrderedMap.keys e.contents ++ cs.map AnyCategory.name).Nodup →
    OrderedMap.keys e'.contents = OrderedMap.keys e.contents ++ cs.map AnyCategory.name

theorem Grows.refl (e : Export) : e.Grows [] e :=
  ⟨rfl, by rw [List.map_nil, List.append_nil], fun _ => by rw [List.map_nil, List.append_nil]⟩

theorem Grows.trans {e e' e'' : Export} {cs cs' : List AnyCategory} (h : e.Grows cs e') (h' : e'.Grows cs' e'') :
    e.Grows (cs ++ cs') e'' := by
  refine ⟨h'.locale_eq.trans h.locale_eq, ?_, fun hnodup => ?_⟩
  · rw [h'.entries_eq, h.entries_eq, List.map_append, List.append_assoc]
  · rw [List.map_append, ← List.append_assoc] at hnodup ⊢
    have hkeys := h.keys_eq (List.nodup_append.1 hnodup).1
    rw [← hkeys] at hnodup ⊢
    exact h'.keys_eq hnodup

theorem grows_add (e : Export) (c : AnyCategory) (artifact : Option Text) (source : ExportSource) (content : Content)
    (counts : OrderedMap Nat) : e.Grows [c] (e.add c artifact source content counts) := by
  refine ⟨rfl, List.map_append, fun hnodup => ?_⟩
  have hnew : c.name ∉ OrderedMap.keys e.contents := fun hmem =>
    (List.nodup_append.1 hnodup).2.2 _ hmem _ List.mem_cons_self rfl
  show OrderedMap.keys (OrderedMap.put e.contents c.name content) = _
  rw [OrderedMap.keys_put, if_neg hnew]
  rfl

section Fold

variable {ε γ : Type} {f : Export → γ → Except ε Export} {cs : γ → List AnyCategory} {l : List γ} {e : Export}

theorem grows_of_foldlM (hgrows : ∀ e, ∀ a ∈ l, ∀ e', f e a = .ok e' → e.Grows (cs a) e') {e' : Export}
    (h : l.foldlM f e = .ok e') : e.Grows (l.flatMap cs) e' := by
  induction l generalizing e with
  | nil =>
    cases h
    exact .refl _
  | cons a rest ih =>
    rw [List.foldlM_cons] at h
    obtain ⟨between, ha, h⟩ := Except.bind_eq_ok_iff.1 h
    rw [List.flatMap_cons]
    exact (hgrows e a List.mem_cons_self between ha).trans
      (ih (fun e b hb => hgrows e b (List.mem_cons_of_mem _ hb)) h)

/-- Steps in a row complete exactly if each of them does. -/
theorem foldlM_completes_iff (hgrows : ∀ e, ∀ a ∈ l, ∀ e', f e a = .ok e' → e.Grows (cs a) e') {P : γ → Prop}
    {locale : Text} (hstep : ∀ e : Export, e.locale = locale → ∀ a ∈ l, ((∃ e', f e a = .ok e') ↔ P a))
    (he : e.locale = locale) : (∃ e', l.foldlM f e = .ok e') ↔ ∀ a ∈ l, P a := by
  induction l generalizing e with
  | nil => exact ⟨fun _ => List.forall_mem_nil _, fun _ => ⟨e, rfl⟩⟩
  | cons a rest ih =>
    have hrest : ∀ between, f e a = .ok between → ((∃ e', rest.foldlM f between = .ok e') ↔ ∀ b ∈ rest, P b) :=
      fun between ha => ih (fun e b hb => hgrows e b (List.mem_cons_of_mem _ hb))
        (fun e he b hb => hstep e he b (List.mem_cons_of_mem _ hb))
        ((hgrows e a List.mem_cons_self between ha).locale_eq.trans he)
    rw [List.foldlM_cons, List.forall_mem_cons]
    constructor
    · rintro ⟨e', h⟩
      obtain ⟨between, ha, h⟩ := Except.bind_eq_ok_iff.1 h
      exact ⟨(hstep e he a List.mem_cons_self).1 ⟨between, ha⟩, (hrest between ha).1 ⟨e', h⟩⟩
    · rintro ⟨hPa, hPrest⟩
      obtain ⟨between, ha⟩ := (hstep e he a List.mem_cons_self).2 hPa
      obtain ⟨e', h⟩ := (hrest between ha).2 hPrest
      exact ⟨e', Except.bind_eq_ok_iff.2 ⟨between, ha, h⟩⟩

end Fold

/-! ## The categories of a file -/

variable {m : Manifest} {reference : Reference} {path text : Text} {c : Category}

theorem grows_of_addCategory {e e' : Export} (h : (addCategory m reference path text e c).result = .ok e') :
    e.Grows [.artifact c] e' := by
  unfold addCategory at h
  rw [Logged.result_bind] at h
  obtain ⟨found, -, h⟩ := Except.bind_eq_ok_iff.1 h
  cases found with
  | some content =>
    rw [Logged.result_bind] at h
    obtain ⟨counts, -, h⟩ := Except.bind_eq_ok_iff.1 h
    cases h
    exact e.grows_add _ _ _ _ _
  | none =>
    cases h
    exact e.grows_add _ _ _ _ _

/-- A category is added when its file has nothing for it, or its sites can be counted. -/
theorem exists_of_found? {e : Export} {given : Option Content}
    (hgiven : (c.found? path text m.locales e.locale).result = .ok given)
    (hcounts : given ≠ none → ∃ counts, c.ordinalCounts text m.locales = .ok counts) :
    ∃ e', (addCategory m reference path text e c).result = .ok e' := by
  unfold addCategory
  rw [Logged.result_bind, hgiven]
  cases given with
  | none => exact ⟨_, rfl⟩
  | some content =>
    obtain ⟨counts, hcounts⟩ := hcounts (Option.some_ne_none content)
    refine ⟨e.add (.artifact c) (some path) .artifact content counts, ?_⟩
    show (liftM (c.ordinalCounts text m.locales) >>= fun counts =>
      (pure (e.add (.artifact c) (some path) .artifact content counts) : Logged Failure Export)).result = _
    rw [Logged.result_bind, Logged.result_lift, hcounts]
    rfl

/-- A category is added unless a body that is read for it names no code point. -/
theorem addCategory_completes_iff {e : Export} (hreadable : c.placement.Readable) :
    (∃ e', (addCategory m reference path text e c).result = .ok e') ↔ c.Legible text m.locales e.locale := by
  cases hcontents : c.contents? text m.locales e.locale with
  | ok contents =>
    have hgiven : (c.found? path text m.locales e.locale).result = .ok (contents.filter (!·.isEmpty)) := by
      unfold Category.found?
      rw [hcontents]
      rfl
    refine ⟨fun _ failure h => ?_, fun _ => exists_of_found? hgiven fun _ => ?_⟩
    · rw [hcontents] at h
      cases h
    -- the sites of contents that could be read can be counted too
    · cases hcounts : c.ordinalCounts text m.locales with
      | ok counts => exact ⟨counts, rfl⟩
      | error failure =>
        obtain ⟨-, place, hplace, hfails⟩ := Category.error_of_ordinalCounts hcontents hcounts
        exact absurd hfails ((hreadable.bracket place hplace).opener _ failure)
  | error failure =>
    have hlegible : c.Legible text m.locales e.locale ↔ ¬ failure.IsCodePoint ∧ ¬ failure.IsGroup := by
      unfold Category.Legible
      rw [hcontents]
      exact ⟨fun h => h failure rfl, fun h other heq => Except.error.inj heq ▸ h⟩
    rw [hlegible]
    rcases c.isUnterminated_or_not_legible hreadable hcontents with hend | hstops
    · have hgiven : (c.found? path text m.locales e.locale).result = .ok none := by
        obtain ⟨delimiter, start, rfl⟩ := hend
        unfold Category.found?
        rw [hcontents]
        rfl
      exact ⟨fun _ => ⟨fun hcode => hcode.not_isUnterminated hend, fun hgroup =>
        Category.not_isUnterminated_of_isGroup hgroup hend⟩, fun _ => exists_of_found? hgiven fun h => absurd rfl h⟩
    · refine ⟨?_, fun h => absurd hstops (not_or.2 h)⟩
      rintro ⟨e', h⟩
      unfold addCategory Category.found? at h
      rw [Logged.result_bind, hcontents] at h
      rcases hstops with (rfl | rfl) | (rfl | rfl) <;> cases h

theorem grows_of_addArtifact {a : Artifact} {e e' : Export} (h : (e.addArtifact m reference text a).result = .ok e') :
    e.Grows (a.categories.map .artifact) e' := by
  unfold addArtifact at h
  rw [Logged.result_foldlM] at h
  rw [List.map_eq_flatMap]
  exact grows_of_foldlM (fun e c _ e' h => grows_of_addCategory h) h

theorem addArtifact_completes_iff {a : Artifact} {e : Export} (hreadable : ∀ c ∈ a.categories, c.placement.Readable) :
    (∃ e', (e.addArtifact m reference text a).result = .ok e') ↔
      ∀ c ∈ a.categories, c.Legible text m.locales e.locale := by
  unfold addArtifact
  rw [Logged.result_foldlM]
  have hgrows : ∀ e, ∀ c ∈ a.categories, ∀ e', (addCategory m reference a.path text e c).result = .ok e' →
      e.Grows [.artifact c] e' := fun e c _ e' h => grows_of_addCategory h
  refine foldlM_completes_iff hgrows (fun e he c hc => ?_) rfl
  rw [addCategory_completes_iff (hreadable c hc), he]

/-- The reference categories are added in order. -/
theorem grows_addReferences (e : Export) (m : Manifest) (reference : Reference) :
    e.Grows (m.references.map .reference) (e.addReferences m reference) := by
  unfold addReferences
  generalize m.references = references
  induction references generalizing e with
  | nil => exact .refl e
  | cons c rest ih =>
    rw [List.foldl_cons, List.map_cons]
    exact (e.grows_add (.reference c) _ _ _ _).trans (ih _)

end Export

end Bilingual
