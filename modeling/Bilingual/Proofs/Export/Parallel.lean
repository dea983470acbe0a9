import Bilingual.Proofs.Export.Collect

set_option autoImplicit false

/-! # Exports with two references

Two exports of the same files in one locale only differ in the contents that stand in for missing ones, since a
reference is asked for nothing else. Where one export is made with a reference, the other one can be made with any
other reference (`Export.Parallel`), category after category. -/

namespace Bilingual

namespace AnyCategory

variable {c : AnyCategory} {locales : Locales} {locale : Text} {reference reference' : Reference}

theorem name_not_mem {done : List AnyCategory} (h : ((done ++ [c]).map name).Nodup) : c.name ∉ done.map name := by
  rw [List.map_append, List.nodup_append] at h
  exact fun hmem => h.2.2 _ hmem _ List.mem_cons_self rfl

/-- What two exports with different references have for a category: the same contents, or in either one what stands in
for missing ones. -/
structure Stands (c : AnyCategory) (locales : Locales) (locale : Text) (reference reference' : Reference)
    (content content' : Content) : Prop where
  shape_eq : content.shape = c.shape
  same_or_fallback : content' = content ∨ content = (c.fallback locales locale reference).1 ∧
    content' = (c.fallback locales locale reference').1

end AnyCategory

namespace Export

variable {m : Manifest} {reference reference' : Reference} {locale path text : Text} {done cs : List AnyCategory}
  {e e' : Export}

/-- Two exports in one locale that have come equally far, with different references. -/
structure Parallel (m : Manifest) (reference reference' : Reference) (locale : Text) (done : List AnyCategory)
    (e e' : Export) : Prop where
  locale_eq : e.locale = locale
  locale_eq' : e'.locale = locale
  stands : ∀ c ∈ done, ∃ content content', OrderedMap.lookup? e.contents c.name = some content ∧
    OrderedMap.lookup? e'.contents c.name = some content' ∧
      c.Stands m.locales locale reference reference' content content'

theorem parallel_start (m : Manifest) (reference reference' : Reference) (locale : Text) :
    Parallel m reference reference' locale [] { locale := locale } { locale := locale } :=
  ⟨rfl, rfl, List.forall_mem_nil _⟩

/-- A category with a new name is added to both. -/
theorem Parallel.add {c : AnyCategory} {content content' : Content}
    (h : Parallel m reference reference' locale done e e')
    (hname : c.name ∉ done.map AnyCategory.name)
    (hstands : c.Stands m.locales locale reference reference' content content') (artifact : Option Text)
    (source source' : ExportSource) (counts counts' : OrderedMap Nat) :
    Parallel m reference reference' locale (done ++ [c]) (e.add c artifact source content counts)
      (e'.add c artifact source' content' counts') := by
  refine ⟨h.locale_eq, h.locale_eq', fun other hother => ?_⟩
  rcases List.mem_append.1 hother with hother | hother
  · have hne : c.name ≠ other.name := fun heq => hname (heq ▸ List.mem_map_of_mem hother)
    obtain ⟨old, old', hold, hold', hstands⟩ := h.stands other hother
    exact ⟨old, old', (OrderedMap.lookup?_put_of_ne _ _ hne).trans hold,
      (OrderedMap.lookup?_put_of_ne _ _ hne).trans hold', hstands⟩
  · rw [List.mem_singleton.1 hother]
    exact ⟨content, content', OrderedMap.lookup?_put_self .., OrderedMap.lookup?_put_self .., hstands⟩

/-- Steps that go on with both exports do so in a row. -/
theorem Parallel.foldlM {ε γ : Type} {f f' : Export → γ → Except ε Export} {cats : γ → List AnyCategory} {l : List γ}
    (hstep : ∀ {done e e' a e₁}, Parallel m reference reference' locale done e e' →
      ((done ++ cats a).map AnyCategory.name).Nodup → f e a = .ok e₁ →
        ∃ e₁', f' e' a = .ok e₁' ∧ Parallel m reference reference' locale (done ++ cats a) e₁ e₁')
    (h : Parallel m reference reference' locale done e e')
    (hnames : ((done ++ l.flatMap cats).map AnyCategory.name).Nodup) {e₁ : Export} (hf : l.foldlM f e = .ok e₁) :
    ∃ e₁', l.foldlM f' e' = .ok e₁' ∧ Parallel m reference reference' locale (done ++ l.flatMap cats) e₁ e₁' := by
  induction l generalizing done e e' with
  | nil =>
    cases hf
    exact ⟨e', rfl, by rwa [List.flatMap_nil, List.append_nil]⟩
  | cons a rest ih =>
    rw [List.flatMap_cons, ← List.append_assoc] at hnames ⊢
    rw [List.foldlM_cons] at hf
    obtain ⟨between, ha, hf⟩ := Except.bind_eq_ok_iff.1 hf
    obtain ⟨between', ha', hbetween⟩ := hstep h (List.nodup_append.1 (List.map_append ▸ hnames)).1 ha
    obtain ⟨e₁', hf', h₁⟩ := ih hbetween hnames hf
    exact ⟨e₁', by rw [List.foldlM_cons, ha']; exact hf', h₁⟩

/-- A category of a file is added to both exports: its contents do not depend on the reference. -/
theorem Parallel.addCategory {c : Category} (h : Parallel m reference reference' locale done e e')
    (hnames : ((done ++ [AnyCategory.artifact c]).map AnyCategory.name).Nodup) {e₁ : Export}
    (hadd : (addCategory m reference path text e c).result = .ok e₁) :
    ∃ e₁', (Export.addCategory m reference' path text e' c).result = .ok e₁' ∧
      Parallel m reference reference' locale (done ++ [AnyCategory.artifact c]) e₁ e₁' := by
  have hname := AnyCategory.name_not_mem hnames
  unfold Export.addCategory at hadd ⊢
  rw [Logged.result_bind, h.locale_eq] at hadd
  rw [Logged.result_bind, h.locale_eq']
  obtain ⟨given, hgiven, hadd⟩ := Except.bind_eq_ok_iff.1 hadd
  rw [hgiven]
  cases given with
  | some content =>
    rw [Logged.result_bind] at hadd
    obtain ⟨counts, hcounts, hadd⟩ := Except.bind_eq_ok_iff.1 hadd
    cases hadd
    refine ⟨e'.add (.artifact c) (some path) .artifact content counts, ?_, ?_⟩
    · show (liftM (c.ordinalCounts text m.locales) >>= fun counts =>
        (pure (e'.add (.artifact c) (some path) .artifact content counts) : Logged Failure Export)).result = _
      rw [Logged.result_bind, hcounts]
      rfl
    · exact h.add hname ⟨Category.shape_of_found? hgiven, .inl rfl⟩ _ _ _ _ _
  | none =>
    cases hadd
    exact ⟨_, rfl, h.add hname ⟨AnyCategory.shape_fallback _ _ _ _, .inr ⟨rfl, rfl⟩⟩ _ _ _ _ _⟩

/-- The categories of a file are added to both exports. -/
theorem Parallel.addArtifact {a : Artifact} (h : Parallel m reference reference' locale done e e')
    (hnames : ((done ++ a.categories.map AnyCategory.artifact).map AnyCategory.name).Nodup) {e₁ : Export}
    (hadd : (e.addArtifact m reference text a).result = .ok e₁) :
    ∃ e₁', (e'.addArtifact m reference' text a).result = .ok e₁' ∧
      Parallel m reference reference' locale (done ++ a.categories.map AnyCategory.artifact) e₁ e₁' := by
  unfold Export.addArtifact at hadd ⊢
  rw [Logged.result_foldlM] at hadd ⊢
  have hcats : a.categories.map AnyCategory.artifact = a.categories.flatMap fun c => [AnyCategory.artifact c] :=
    List.map_eq_flatMap
  rw [hcats] at hnames ⊢
  exact h.foldlM (fun h hnames hadd => h.addCategory hnames hadd) hnames hadd

/-- The reference categories are added to both exports. -/
theorem Parallel.addReferences (h : Parallel m reference reference' locale done e e')
    (hnames : ((done ++ m.references.map AnyCategory.reference).map AnyCategory.name).Nodup) :
    Parallel m reference reference' locale (done ++ m.references.map AnyCategory.reference)
      (e.addReferences m reference) (e'.addReferences m reference') := by
  unfold Export.addReferences
  generalize m.references = references at hnames ⊢
  induction references generalizing done e e' with
  | nil => rwa [List.map_nil, List.append_nil]
  | cons c rest ih =>
    rw [List.map_cons, ← List.singleton_append, ← List.append_assoc] at hnames ⊢
    have hfirst : ((done ++ [AnyCategory.reference c]).map AnyCategory.name).Nodup :=
      (List.nodup_append.1 (List.map_append ▸ hnames)).1
    have hstands : (AnyCategory.reference c).Stands m.locales locale reference reference'
        (AnyCategory.fallback (.reference c) m.locales e.locale reference).1
        (AnyCategory.fallback (.reference c) m.locales e'.locale reference').1 := by
      rw [h.locale_eq, h.locale_eq']
      exact ⟨AnyCategory.shape_fallback _ _ _ _, .inr ⟨rfl, rfl⟩⟩
    exact ih (h.add (AnyCategory.name_not_mem hfirst) hstands none _ _ [] []) hnames

end Export

end Bilingual
