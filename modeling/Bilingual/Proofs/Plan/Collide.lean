import Bilingual.Proofs.Plan.Apart

set_option autoImplicit false

/-! # Fields that collide

The fields of a pair category, and scalar fields, are each searched on their own, so the literal of one field may stand
inside that of another one. Edits of one field never overlap (`Category.pairwise_bodies`), and a plan is carried out
exactly if no two bodies of different fields that change do (`PatchInput.carriedOut_iff`). -/

namespace Bilingual

/-- The name of the field that a leaf belongs to, or its key. -/
def Leaf.name : Leaf → Text
  | .field _ name => name
  | .key k => k

/-- The texts of a category go to fields that are searched one by one, and no two fields have one name. -/
def Placement.HasFields : Placement → Prop
  | .pairs fields _ => (fields.map PairField.name).Nodup
  | .scalarFields .. => True
  | .keyedPairs .. | .choices .. | .documents .. | .dictBlock .. | .recordBlock .. | .listBlock ..
  | .keyedRecordBlock .. => False

/-- Two bodies do not overlap; they may touch. -/
def Body.Clear (a b : Body) : Prop := a.stop ≤ b.start ∨ b.stop ≤ a.start

theorem Body.Clear.symm {a b : Body} (h : a.Clear b) : b.Clear a := Or.symm h

theorem Body.Apart.clear {a b : Body} (h : a.Apart b) : a.Clear b := h.imp Nat.le_of_lt Nat.le_of_lt

/-- Contents have a text for a body that does not stand for it yet. -/
def Content.Changes (content : Content) (text : Text) (p : Leaf × Body) : Prop :=
  ∃ value, content.text? p.1 = some value ∧ Target.Changes text ⟨p.2, value⟩ = true

namespace Category

variable {c : Category} {text : Text} {locales : Locales}

theorem pairwise_fieldSites_clear {field : PairField} {occurrences : List Occurrence}
    (h : c.occurrences text (field.pattern locales) = .ok occurrences) :
    (fieldSites field.name occurrences).Pairwise fun s s' =>
      s.occurrence.secondary.body.Clear s'.occurrence.secondary.body := by
  have hmap : (fieldSites field.name occurrences).map Site.occurrence = occurrences := by
    unfold fieldSites
    rw [List.map_map]
    exact List.zipIdx_map_fst 0 occurrences
  have hapart := Plan.pairwise_secondary h
  rw [← hmap, List.pairwise_map] at hapart
  exact hapart.imp Body.Apart.clear

theorem field?_of_isSiteColumn {field : PairField} {column : List Site}
    (h : c.IsSiteColumn text locales field column) {s : Site} (hs : s ∈ column) : s.field? = some s.leaf.name := by
  obtain ⟨occurrences, -, rfl⟩ := h
  obtain ⟨index, hleaf, -⟩ := mem_fieldSites_iff.1 hs
  rw [Site.field?, hleaf]
  rfl

/-- The bodies of one field do not overlap. -/
theorem pairwise_bodies (hfields : c.placement.HasFields) {found : List (Leaf × Body)}
    (h : c.bodies text locales = .ok found) : found.Pairwise fun p q => p.1.name = q.1.name → p.2.Clear q.2 := by
  unfold bodies at h
  cases hkind : c.placement with
  | pairs fields defaults =>
    rw [hkind] at h hfields
    obtain ⟨sites, hsites, h⟩ := Except.bind_eq_ok_iff.1 h
    cases h
    obtain ⟨columns, hcolumns, rfl⟩ := (sites_pairs_iff hkind).1 hsites
    refine List.pairwise_map.2 (List.pairwise_flatten.2 ⟨fun column hcolumn => ?_, ?_⟩)
    · obtain ⟨field, -, occurrences, hoccurrences, rfl⟩ := List.Forall₂.exists_of_mem_right hcolumns hcolumn
      refine (pairwise_fieldSites_clear hoccurrences).imp fun {s s'} hclear => ?_
      exact fun _ => hclear
    · refine (pairwise_siteColumns hcolumns hfields).imp_of_mem
        fun {first second} hfirst hsecond hne s hs s' hs' heq => absurd ?_ (hne s hs s' hs')
      obtain ⟨field, -, hcolumn⟩ := List.Forall₂.exists_of_mem_right hcolumns hfirst
      obtain ⟨field', -, hcolumn'⟩ := List.Forall₂.exists_of_mem_right hcolumns hsecond
      rw [field?_of_isSiteColumn hcolumn hs, field?_of_isSiteColumn hcolumn' hs']
      exact congrArg some heq
  | scalarFields anchors fields defaults =>
    rw [hkind] at h
    cases h
    refine List.pairwise_map.2 ?_
    cases hliterals : c.scalarLiterals? text locales.secondary with
    | none => exact .nil
    | some literals =>
      have hdistinct : (literals.map Prod.fst).Nodup := distinct_scalarLiterals? hliterals
      refine (List.pairwise_map.1 hdistinct).imp fun {p q} hne heq => ?_
      obtain ⟨key, l⟩ := p
      obtain ⟨key', l'⟩ := q
      exact absurd heq hne
  | _ =>
    rw [hkind] at hfields
    exact hfields.elim

end Category

namespace PatchInput

variable {input : PatchInput} {c : Category} {text : Text} {content : Content} {found : List (Leaf × Body)}

/-- The edits that contents need do not overlap exactly if the bodies that change do not. -/
theorem pairwise_edits_clear_iff : (Target.edits text (found.filterMap fun p =>
    (content.text? p.1).map (Target.mk p.2))).Pairwise Edit.Clear ↔
      found.Pairwise fun p q => content.Changes text p → content.Changes text q → p.2.Clear q.2 := by
  rw [Target.edits, List.pairwise_map, List.pairwise_filter, List.pairwise_filterMap]
  refine List.Pairwise.iff fun p q => ?_
  constructor
  · rintro h ⟨value, hvalue, hchanges⟩ ⟨value', hvalue', hchanges'⟩
    have hclear := h ⟨p.2, value⟩ (by rw [hvalue]; rfl) ⟨q.2, value'⟩ (by rw [hvalue']; rfl) hchanges hchanges'
    exact hclear.imp Int.ofNat_le.1 Int.ofNat_le.1
  · intro h t ht t' ht' hchanges hchanges'
    obtain ⟨value, hvalue, rfl⟩ := Option.map_eq_some_iff.1 ht
    obtain ⟨value', hvalue', rfl⟩ := Option.map_eq_some_iff.1 ht'
    exact (h ⟨value, hvalue, hchanges⟩ ⟨value', hvalue', hchanges'⟩).imp Int.ofNat_le.2 Int.ofNat_le.2

/-- Fields that are each searched on their own: a plan for them is made as soon as the bodies that have a text can be
decoded, and its edits lie in the text. They are carried out exactly if no two bodies of different fields overlap that
both change. -/
theorem carriedOut_iff (hfields : c.placement.HasFields) (hshape : content.shape = c.placement.shape)
    (hcontent : content.Distinct) (hbodies : c.bodies text input.manifest.locales = .ok found)
    (hdecodes : ∀ p ∈ found, ∀ value, content.text? p.1 = some value → Target.Decodes text ⟨p.2, value⟩)
    (merged : List FlatMap) :
    ∃ plan, (input.plan c text content merged).result = .ok plan ∧
      (∀ e ∈ plan.edits, e.Within 0 text.length) ∧
      ((∃ patched, Edit.applyAll text plan.edits = .ok patched) ↔
        ∀ p ∈ found, ∀ q ∈ found, p.1.name ≠ q.1.name → content.Changes text p → content.Changes text q →
          p.2.Clear q.2) := by
  have hplace : c.placement.blockPlace? = none := by
    cases hkind : c.placement with
    | pairs | scalarFields => rfl
    | _ =>
      rw [hkind] at hfields
      exact hfields.elim
  have htargets : c.targets text input.manifest.locales content =
      .ok (found.filterMap fun p => (content.text? p.1).map (Target.mk p.2)) := by
    rw [Category.targets, hbodies]
    rfl
  obtain ⟨plan, hplan, hedits⟩ :=
    reaches_plan hplace hshape hcontent htargets merged (Target.forall_mem_filterMap hdecodes)
  have hwithin : ∀ e ∈ plan.edits, e.Within 0 text.length := fun e he => Target.within_of_mem_edits
    (Target.forall_mem_filterMap fun _ hp _ _ => Category.in_of_mem_bodies hbodies hp) (hedits.mem_iff.1 he)
  refine ⟨plan, hplan, hwithin, ?_⟩
  rw [Edit.applyAll_ok_iff hwithin, hedits.pairwise_iff Edit.Clear.symm, pairwise_edits_clear_iff]
  constructor
  · intro hclear p hp q hq hne
    have hsymm : Std.Symm fun p q : Leaf × Body =>
        content.Changes text p → content.Changes text q → p.2.Clear q.2 := ⟨fun _ _ h hq hp => (h hp hq).symm⟩
    exact hclear.forall hp hq fun heq => hne (by rw [heq])
  · intro hclear
    refine (Category.pairwise_bodies hfields hbodies).imp_of_mem fun {p q} hp hq hname hchanges hchanges' => ?_
    by_cases heq : p.1.name = q.1.name
    · exact hname heq
    · exact hclear p hp q hq heq hchanges hchanges'

/-- Pairs with two fields. -/
def namesSample : Category :=
  { name := "names", region := none, placement := .pairs [⟨"short", none, none⟩, ⟨"long", none, none⟩] [] }

/-- A file with one pair of each field; the secondary texts are as given. -/
def namesText (short long : Text) : Text :=
  "short: \x7b en: 'A', ar: '" ++ short ++ "' \x7d\nlong: \x7b en: 'B', ar: '" ++ long ++ "' \x7d\n"

/-- One record with texts for both fields. -/
def namesContent (short long : Text) : Content := .records [some [("short", some short), ("long", some long)]]

/-- The manifest and the contents. -/
def namesInput (content : Content) : PatchInput where
  manifest := { artifacts := [{ path := "page.ts", categories := [namesSample] }] }
  snapshot := { categories := [("names", content.toJson)] }

theorem distinct_namesContent (short long : Text) : (namesContent short long).Distinct := by
  intro texts h
  cases Option.some.inj (List.mem_singleton.1 h)
  show (["short", "long"] : List Text).Nodup
  decide

/-- The bodies of both fields. -/
def namesBodies : List (Leaf × Body) :=
  [(.field 0 "short", ⟨23, 24, .quote .single⟩), (.field 0 "long", ⟨50, 51, .quote .single⟩)]

theorem carriedOut_names :
    namesSample.bodies (namesText "P" "Q") ⟨"en", "ar"⟩ = .ok namesBodies ∧
      ∃ plan, ((namesInput (namesContent "X" "Y")).plan namesSample (namesText "P" "Q") (namesContent "X" "Y")
          []).result = .ok plan ∧
        (∀ e ∈ plan.edits, e.Within 0 (namesText "P" "Q").length) ∧
        ((∃ patched, Edit.applyAll (namesText "P" "Q") plan.edits = .ok patched) ↔
          ∀ p ∈ namesBodies, ∀ q ∈ namesBodies, p.1.name ≠ q.1.name →
            (namesContent "X" "Y").Changes (namesText "P" "Q") p →
              (namesContent "X" "Y").Changes (namesText "P" "Q") q → p.2.Clear q.2) := by
  have hbodies : namesSample.bodies (namesText "P" "Q") (namesInput (namesContent "X" "Y")).manifest.locales =
      .ok namesBodies := by decide +kernel
  have hfields : namesSample.placement.HasFields := by
    show (List.map PairField.name _).Nodup
    decide
  have hdecodes : ∀ p ∈ namesBodies, ∀ value, (namesContent "X" "Y").text? p.1 = some value →
      Target.Decodes (namesText "P" "Q") ⟨p.2, value⟩ := by
    refine List.forall_mem_cons.2 ⟨fun _ _ => ⟨"P", ?_⟩, List.forall_mem_singleton.2 fun _ _ => ⟨"Q", ?_⟩⟩
    · show Literal.decode ((namesText "P" "Q").slice 23 24) = .ok "P"
      decide +kernel
    · show Literal.decode ((namesText "P" "Q").slice 50 51) = .ok "Q"
      decide +kernel
  exact ⟨hbodies, carriedOut_iff hfields rfl (distinct_namesContent "X" "Y") hbodies hdecodes []⟩

/-- A short name that shows a pair of the field for long names. -/
def nestedText : Text := "short: \x7b en: 'A', ar: 'long: \x7b en: \"B\", ar: \"Q\" \x7d' \x7d\n"

/-- Texts for the short name and for what stands in it. -/
def nestedContent : Content := namesContent "long: \x7b en: \"B\", ar: \"Y\" \x7d" "Y"

/-- The secondary text of one field may hold a pair of another one. With texts for both the whole patch fails, although
all literals can be decoded and the fields have different names and labels. -/
theorem not_carriedOut_nested :
    namesSample.placement.HasFields ∧ nestedContent.shape = namesSample.placement.shape ∧ nestedContent.Distinct ∧
      namesSample.bodies nestedText ⟨"en", "ar"⟩ =
        .ok [(.field 0 "short", ⟨23, 49, .quote .single⟩), (.field 0 "long", ⟨45, 46, .quote .double⟩)] ∧
      Literal.decode (nestedText.slice 23 49) = .ok "long: \x7b en: \"B\", ar: \"Q\" \x7d" ∧
      Literal.decode (nestedText.slice 45 46) = .ok "Q" ∧
      ((namesInput nestedContent).patchText nestedText [namesSample]).result = .error (.editSpan 45 46) := by
  refine ⟨?_, rfl, distinct_namesContent _ _, by decide +kernel, by decide +kernel, by decide +kernel,
    by decide +kernel⟩
  show (List.map PairField.name _).Nodup
  decide

end PatchInput

end Bilingual
