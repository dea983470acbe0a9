import Bilingual.Proofs.Export.Collect
import Bilingual.Proofs.Shift

set_option autoImplicit false

/-! # The numbers of sites in an export

An export records the sites of every category that a file brings contents for, one category after the other, in one map
for all of them (`Export.counts_of_addArtifact`). What is recorded later under the same key stands in place of what was
recorded before. -/

namespace Bilingual

/-- A file brings contents for a category. -/
def Category.FoundIn (c : Category) (path text : Text) (locales : Locales) (locale : Text) : Prop :=
  ∃ content, (c.found? path text locales locale).result = .ok (some content)

/-- The keys under which the sites of a category are recorded: one for each field of pairs, its name for records and
literals. -/
def Category.countKeys (c : Category) : List Text :=
  match c.placement with
  | .pairs fields _ => fields.map fun field => c.fieldKey field.name
  | .recordBlock .. | .listBlock .. => [c.name]
  | _ => []

theorem Category.mem_countKeys {c : Category} {text : Text} {locales : Locales} {counts : OrderedMap Nat}
    (h : c.ordinalCounts text locales = .ok counts) {key : Text} {count : Nat} (hmem : (key, count) ∈ counts) :
    key ∈ c.countKeys := by
  unfold ordinalCounts at h
  unfold countKeys
  cases hplace : c.placement with
  | pairs fields defaults =>
    rw [hplace] at h
    obtain ⟨pairs, hpairs, h⟩ := Except.bind_eq_ok_iff.1 h
    cases h
    obtain ⟨field, hfield, h⟩ := List.Forall₂.exists_of_mem_right (Except.mapM_eq_ok_iff.1 hpairs)
      (OrderedMap.mem_of_mem_ofPairs hmem)
    obtain ⟨occurrences, -, h⟩ := Except.bind_eq_ok_iff.1 h
    cases h
    exact List.mem_map_of_mem hfield
  | recordBlock | listBlock =>
    rw [hplace] at h
    obtain ⟨block, -, h⟩ := Except.bind_eq_ok_iff.1 h
    cases block <;> cases h <;> cases List.mem_singleton.1 hmem <;> exact List.mem_singleton_self _
  | _ =>
    rw [hplace] at h
    cases h
    cases hmem

/-- The name of a category is what is in front of the first period of its keys, if it has no period itself. -/
theorem Category.takeWhile_of_mem_countKeys {c : Category} (hname : ('.' : CodePoint) ∉ c.name) {key : Text}
    (h : key ∈ c.countKeys) : key.takeWhile (· ≠ ('.' : CodePoint)) = c.name := by
  have hall : ∀ x ∈ c.name, decide (x ≠ ('.' : CodePoint)) = true := fun x hx =>
    decide_eq_true fun heq => hname (heq ▸ hx)
  have hself : c.name.takeWhile (· ≠ ('.' : CodePoint)) = c.name := List.takeWhile_eq_self_iff.2 hall
  unfold countKeys at h
  split at h
  · obtain ⟨field, -, rfl⟩ := List.mem_map.1 h
    rw [fieldKey, List.append_assoc, List.takeWhile_append_of_pos hall]
    exact List.append_nil _
  · rwa [List.mem_singleton.1 h]
  · rwa [List.mem_singleton.1 h]
  · cases h

namespace Export

variable {m : Manifest} {reference : Reference} {e e' e'' : Export} {path text : Text} {c : Category}

/-- From one export to a later one the numbers of sites have been recorded for some categories in their texts, each as
a whole. -/
def Counts (locales : Locales) (counted : Category → Text → Prop) (e e' : Export) : Prop :=
  ∃ pieces : List (OrderedMap Nat), e'.occurrences = e.occurrences.putAll pieces.flatten ∧
    (∀ c text, counted c text → ∃ counts ∈ pieces, c.ordinalCounts text locales = .ok counts) ∧
    ∀ counts ∈ pieces, ∃ c text, counted c text ∧ c.ordinalCounts text locales = .ok counts

variable {locales : Locales} {counted counted' : Category → Text → Prop}

theorem Counts.of_none (hnone : ∀ c text, ¬ counted c text) (h : e'.occurrences = e.occurrences) :
    Counts locales counted e e' :=
  ⟨[], h, fun c text hc => absurd hc (hnone c text), List.forall_mem_nil _⟩

theorem Counts.trans (h : Counts locales counted e e') (h' : Counts locales counted' e' e'') :
    Counts locales (fun c text => counted c text ∨ counted' c text) e e'' := by
  obtain ⟨pieces, hpieces, hall, hsound⟩ := h
  obtain ⟨pieces', hpieces', hall', hsound'⟩ := h'
  refine ⟨pieces ++ pieces', ?_, fun c text hc => ?_, List.forall_mem_append.2 ⟨fun counts hcounts => ?_,
    fun counts hcounts => ?_⟩⟩
  · rw [hpieces', hpieces, List.flatten_append]
    exact List.foldl_append.symm
  · rcases hc with hc | hc
    · obtain ⟨counts, hmem, hcounts⟩ := hall c text hc
      exact ⟨counts, List.mem_append_left _ hmem, hcounts⟩
    · obtain ⟨counts, hmem, hcounts⟩ := hall' c text hc
      exact ⟨counts, List.mem_append_right _ hmem, hcounts⟩
  · obtain ⟨c, text, hc, hcount⟩ := hsound counts hcounts
    exact ⟨c, text, .inl hc, hcount⟩
  · obtain ⟨c, text, hc, hcount⟩ := hsound' counts hcounts
    exact ⟨c, text, .inr hc, hcount⟩

theorem Counts.congr (h : Counts locales counted e e') (hiff : ∀ c text, counted c text ↔ counted' c text) :
    Counts locales counted' e e' := by
  have heq : counted = counted' := funext fun c => funext fun text => propext (hiff c text)
  exact heq ▸ h

/-- Under every key of a category that is counted a number is recorded, which is that of some category with that
key. -/
theorem Counts.exists_lookup? (h : Counts locales counted e e') (hnone : e.occurrences = []) {counts : OrderedMap Nat}
    (hc : counted c text) (hcounts : c.ordinalCounts text locales = .ok counts) {key : Text} {count : Nat}
    (hmem : (key, count) ∈ counts) : ∃ found, OrderedMap.lookup? e'.occurrences key = some found ∧
      ∃ c' text' counts', counted c' text' ∧ c'.ordinalCounts text' locales = .ok counts' ∧ (key, found) ∈ counts' := by
  obtain ⟨pieces, hpieces, hall, hsound⟩ := h
  obtain ⟨piece, hpiece, hcounts'⟩ := hall c text hc
  cases hcounts.symm.trans hcounts'
  have hlookup : OrderedMap.lookup? e'.occurrences key = OrderedMap.lookup? pieces.flatten.reverse key := by
    rw [hpieces, hnone]
    exact OrderedMap.lookup?_ofPairs _ _
  rw [hlookup]
  cases hfound : OrderedMap.lookup? pieces.flatten.reverse key with
  | none =>
    refine absurd (OrderedMap.mem_keys_of_mem (List.mem_reverse.2 (List.mem_flatten.2 ⟨counts, hpiece, hmem⟩))) ?_
    exact OrderedMap.lookup?_eq_none_iff.1 hfound
  | some found =>
    obtain ⟨counts', hmem', hpair⟩ := List.mem_flatten.1 (List.mem_reverse.1 (OrderedMap.mem_of_lookup? hfound))
    obtain ⟨c', text', hc', hcount'⟩ := hsound counts' hmem'
    exact ⟨found, rfl, c', text', counts', hc', hcount', hpair⟩

/-! ## The steps of an export -/

theorem counts_of_addCategory (h : (addCategory m reference path text e c).result = .ok e') :
    Counts m.locales (fun c' text' => c' = c ∧ text' = text ∧ c.FoundIn path text m.locales e.locale) e e' := by
  unfold addCategory at h
  rw [Logged.result_bind] at h
  obtain ⟨given, hgiven, h⟩ := Except.bind_eq_ok_iff.1 h
  cases given with
  | some content =>
    rw [Logged.result_bind] at h
    obtain ⟨counts, hcounts, h⟩ := Except.bind_eq_ok_iff.1 h
    cases h
    refine ⟨[counts], ?_, ?_, ?_⟩
    · show OrderedMap.putAll e.occurrences counts = _
      rw [List.flatten_singleton]
    · rintro _ _ ⟨rfl, rfl, -⟩
      exact ⟨counts, List.mem_singleton_self _, hcounts⟩
    · exact List.forall_mem_singleton.2 ⟨c, text, ⟨rfl, rfl, content, hgiven⟩, hcounts⟩
  | none =>
    cases h
    refine .of_none ?_ rfl
    rintro _ _ ⟨-, -, content, hcontent⟩
    cases hgiven.symm.trans hcontent

/-- A file counts the sites of the categories that it brings contents for. -/
theorem counts_of_addArtifact {a : Artifact} (h : (e.addArtifact m reference text a).result = .ok e') :
    Counts m.locales (fun c text' => text' = text ∧ c ∈ a.categories ∧ c.FoundIn a.path text m.locales e.locale) e
      e' := by
  unfold addArtifact at h
  rw [Logged.result_foldlM] at h
  generalize a.categories = cs at h ⊢
  induction cs generalizing e with
  | nil =>
    cases h
    exact .of_none (by simp) rfl
  | cons c rest ih =>
    rw [List.foldlM_cons] at h
    obtain ⟨between, hc, h⟩ := Except.bind_eq_ok_iff.1 h
    have hlocale := (addCategory_eq_ok hc).1
    refine ((counts_of_addCategory hc).trans (ih h)).congr fun c' text' => ?_
    rw [hlocale, List.mem_cons]
    constructor
    · rintro (⟨rfl, rfl, hfound⟩ | ⟨rfl, hmem, hfound⟩)
      · exact ⟨rfl, .inl rfl, hfound⟩
      · exact ⟨rfl, .inr hmem, hfound⟩
    · rintro ⟨rfl, rfl | hmem, hfound⟩
      · exact .inl ⟨rfl, rfl, hfound⟩
      · exact .inr ⟨rfl, hmem, hfound⟩

theorem occurrences_addReferences (reference : Reference) :
    (e.addReferences m reference).occurrences = e.occurrences := by
  unfold addReferences
  generalize m.references = references
  induction references generalizing e with
  | nil => rfl
  | cons c rest ih => exact ih

end Export

end Bilingual
