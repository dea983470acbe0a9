import Bilingual.Proofs.Export.Contents
import Bilingual.Proofs.Legible

set_option autoImplicit false

/-! # Contents that cannot be read

The contents of a category cannot be read where a document has no end, where a body in the text cannot be decoded, where
a group is asked for that is not there, or where the manifest is at fault (`Category.failsOnly_contents?`), and nowhere
else. It is the same for the bodies that texts are put into (`Category.failsOnly_bodies`). -/

namespace Bilingual

/-- The failure is for what the manifest says about the place of a category: an expression that has to follow cannot
be read, or the opener of a block does not end with a bracket. -/
def Placement.Faulty (placement : Placement) (locale : Text) (failure : Failure) : Prop :=
  (∃ fields defaults, placement = .pairs fields defaults ∧
      ∃ field ∈ fields, Following.ofText (field.followedBy.getD []) = .error failure) ∨
    ∃ place, placement.blockPlace? = some place ∧
      BlockSpan.opener (substituteLocale (place.openerFor locale) locale) = .error failure

/-- What has to follow an occurrence has no group that is asked for, wherever it can be read. -/
def Placement.Plain (placement : Placement) : Prop :=
  ∀ fields defaults, placement = .pairs fields defaults → ∀ field ∈ fields, ∀ following,
    Following.ofText (field.followedBy.getD []) = .ok following → following.Plain

namespace Category

variable {c : Category} {text : Text} {locales : Locales} {locale : Text}

theorem failsOnly_textIn {o : Occurrence} (h : o.In text) :
    FailsOnly (Failure.Undecoded text) (o.textIn locales locale) := by
  unfold Occurrence.textIn
  split
  · exact h.inside.primary.in.failsOnly_value
  · exact h.inside.secondary.in.failsOnly_value

theorem failsOnly_keyLiteral {o : Occurrence} (h : o.In text) :
    FailsOnly (Failure.Undecoded text) o.keyLiteral.value := by
  unfold Literals.keyLiteral
  cases hkey : o.key with
  | none => exact h.inside.primary.in.failsOnly_value
  | some l => exact (h.inside.key l hkey).in.failsOnly_value

/-- The texts of the items of a block are decoded from literals in the text. -/
theorem failsOnly_blockContent? {items : List BlockItem} {read : List BlockItem → Except Failure Content}
    (hplace : blockContent? c.placement = some read)
    (hin : ∀ item ∈ items, ∀ l ∈ item.content.literals, l.In text) :
    FailsOnly (Failure.Undecoded text) (read items) := by
  have hrecord : ∀ item ∈ items, ∀ names, FailsOnly (Failure.Undecoded text) (item.recordOf names) := by
    intro item hitem names
    refine FailsOnly.bind ?_ fun _ _ => failsOnly_pure _
    refine (failsOnly_mapM fun pair hpair => ?_).bind fun _ _ => failsOnly_pure _
    obtain ⟨field, hfield, heq⟩ := List.mem_filterMap.1 hpair
    obtain ⟨l, hl, rfl⟩ := Option.map_eq_some_iff.1 heq
    have hmem : l ∈ item.content.literals := by
      rw [Plan.literals_of_mem_fields hfield]
      exact List.mem_filterMap.2 ⟨field, hfield, hl⟩
    exact (hin item hitem l hmem).failsOnly_value.bind fun _ _ => failsOnly_pure _
  unfold blockContent? at hplace
  split at hplace
  · cases hplace
    refine FailsOnly.bind ?_ fun _ _ => failsOnly_pure _
    refine (failsOnly_mapM fun pair hpair => ?_).bind fun _ _ => failsOnly_pure _
    obtain ⟨key, l⟩ := pair
    obtain ⟨item, hitem, -, -, -, hl⟩ := mem_keyedLiterals_iff.1 hpair
    exact (hin item hitem l (Plan.mem_literals_of_literal? hl)).failsOnly_value.bind fun _ _ => failsOnly_pure _
  · cases hplace
    refine (failsOnly_mapM fun item hitem => ?_).bind fun _ _ => failsOnly_pure _
    exact (hrecord item hitem _).bind fun _ _ => failsOnly_pure _
  · cases hplace
    refine (failsOnly_mapM fun item hitem => ?_).bind fun _ _ => failsOnly_pure _
    refine FailsOnly.bind ?_ fun _ _ => failsOnly_pure _
    cases hl : item.literal? with
    | none => exact failsOnly_pure _
    | some l => exact (hin item hitem l (Plan.mem_literals_of_literal? hl)).failsOnly_value.map some
  · cases hplace
    refine FailsOnly.bind ?_ fun _ _ => failsOnly_pure _
    refine (failsOnly_mapM fun pair hpair => ?_).bind fun _ _ => failsOnly_pure _
    obtain ⟨item, hitem, heq⟩ := List.mem_filterMap.1 hpair
    obtain ⟨key, -, rfl⟩ := Option.map_eq_some_iff.1 heq
    exact (hrecord item hitem _).bind fun _ _ => failsOnly_pure _
  · cases hplace

/-- What can be wrong with the contents of a category: its documents, a body in the text, a group that is asked for, or
the manifest. -/
def Fault (c : Category) (text locale : Text) (failure : Failure) : Prop :=
  c.documentBodies text locale = .error failure ∨ failure.Undecoded text ∨
    (failure.IsGroup ∧ ¬ c.placement.Plain) ∨ c.placement.Faulty locale failure

section Following

variable {P : Failure → Prop} {pattern : Pattern}

/-- Nothing has to follow a pattern that is keyed at its sites. -/
theorem following_of_keyedPattern? (h : c.placement.keyedPattern? locales = some pattern) :
    pattern.following = .ok {} := by
  unfold Placement.keyedPattern? at h
  split at h <;> cases h <;> rfl

theorem failsOnly_following_of_keyed (h : c.placement.keyedPattern? locales = some pattern) :
    FailsOnly P pattern.following ∧ ∀ following, pattern.following = .ok following → ¬ following.Plain →
      ∀ failure : Failure, failure.IsGroup → P failure := by
  rw [following_of_keyedPattern? h]
  refine ⟨failsOnly_pure _, ?_⟩
  rintro following ⟨⟩ hplain
  exact absurd ⟨rfl, rfl⟩ hplain

theorem failsOnly_following_of_pairs {fields : List PairField} {defaults : List (OrderedMap Text)}
    (hplace : c.placement = .pairs fields defaults) {field : PairField} (hfield : field ∈ fields) :
    FailsOnly (c.Fault text locale) (field.pattern locales).following ∧
      ∀ following, (field.pattern locales).following = .ok following → ¬ following.Plain →
        ∀ failure : Failure, failure.IsGroup → c.Fault text locale failure :=
  ⟨fun _ h => .inr (.inr (.inr (.inl ⟨fields, defaults, hplace, field, hfield, h⟩))),
    fun _ hfollowing hplain _ hfailure =>
      .inr (.inr (.inl ⟨hfailure, fun h => hplain (h fields defaults hplace field hfield _ hfollowing)⟩))⟩

end Following

theorem failsOnly_keyedTexts {pattern : Pattern} (h : c.placement.keyedPattern? locales = some pattern) :
    FailsOnly (Failure.Undecoded text) (c.keyedTexts text locales locale pattern) := by
  obtain ⟨hfollowing, hgroup⟩ := failsOnly_following_of_keyed h
  refine FailsOnly.bind (failsOnly_mapOccurrences hfollowing hgroup fun o ho => ?_) fun _ _ => failsOnly_pure _
  exact (failsOnly_keyLiteral ho).bind fun _ _ => (failsOnly_textIn ho).bind fun _ _ => failsOnly_pure _

/-- A column cannot be read where a text in it cannot be decoded, or for what has to follow its field. -/
theorem failsOnly_columns {fields : List PairField} {defaults : List (OrderedMap Text)}
    (hplace : c.placement = .pairs fields defaults) :
    FailsOnly (c.Fault text locale) (c.columns text locales locale fields) := by
  refine (failsOnly_mapM fun field hfield => ?_).bind fun _ _ => failsOnly_pure _
  obtain ⟨hfollowing, hgroup⟩ := failsOnly_following_of_pairs hplace hfield
  refine FailsOnly.bind (failsOnly_mapOccurrences hfollowing hgroup fun o ho => ?_) fun _ _ => failsOnly_pure _
  exact (failsOnly_textIn ho).mono fun _ h => .inr (.inl h)

/-- The sites of a category are found unless a key cannot be decoded, or for what has to follow a field. -/
theorem failsOnly_sites (c : Category) (text : Text) (locales : Locales) (locale : Text) :
    FailsOnly (c.Fault text locale) (c.sites text locales) := by
  cases hkind : c.placement with
  | pairs fields defaults =>
    simp only [sites, hkind]
    refine (failsOnly_mapM fun field hfield => ?_).bind fun _ _ => failsOnly_pure _
    obtain ⟨hfollowing, hgroup⟩ := failsOnly_following_of_pairs hkind hfield
    exact (failsOnly_occurrences hfollowing hgroup).bind fun _ _ => failsOnly_pure _
  | keyedPairs | choices =>
    simp only [sites, hkind]
    obtain ⟨hfollowing, hgroup⟩ := failsOnly_following_of_keyed (P := c.Fault text locale) (by rw [hkind]; rfl)
    refine (failsOnly_occurrences hfollowing hgroup).bind fun occurrences hoccurrences => failsOnly_mapM fun o ho => ?_
    refine FailsOnly.bind ((failsOnly_keyLiteral ?_).mono fun _ h => .inr (.inl h)) fun _ _ => failsOnly_pure _
    exact (occurrences_spec hoccurrences).1 o ho
  | _ =>
    simp only [sites, hkind]
    exact failsOnly_pure _

/-- The bodies that texts are put into are found unless a document has no end, a key cannot be decoded, or for what has
to follow a field. -/
theorem failsOnly_bodies (c : Category) (text : Text) (locales : Locales) :
    FailsOnly (c.Fault text locales.secondary) (c.bodies text locales) := by
  cases hkind : c.placement with
  | documents =>
    simp only [bodies, hkind]
    exact FailsOnly.bind (fun _ h => .inl h) fun _ _ => failsOnly_pure _
  | scalarFields =>
    simp only [bodies, hkind]
    exact failsOnly_pure _
  | _ =>
    simp only [bodies, hkind]
    exact (c.failsOnly_sites text locales _).bind fun _ _ => failsOnly_pure _

theorem failsOnly_contents? (c : Category) (text : Text) (locales : Locales) (locale : Text) :
    FailsOnly (c.Fault text locale) (c.contents? text locales locale) := by
  have hundecoded : ∀ {α : Type} {x : Except Failure α}, FailsOnly (Failure.Undecoded text) x →
      FailsOnly (c.Fault text locale) x := fun h => h.mono fun _ h => .inr (.inl h)
  cases hread : blockContent? c.placement with
  | some read =>
    rw [contents?_eq_block hread]
    refine ((c.failsOnly_parsedBlock text locale).mono ?_).bind fun block hblock => ?_
    · rintro failure (⟨kind, -, h, -⟩ | h)
      · exact .inr (.inl h)
      · exact .inr (.inr (.inr (.inr h)))
    · cases block with
      | none => exact failsOnly_pure _
      | some parsed =>
        refine (hundecoded ?_).bind fun _ _ => failsOnly_pure _
        exact failsOnly_blockContent? hread fun item hitem l hl => in_of_mem_items hblock hitem hl
  | none =>
    cases hpattern : c.placement.keyedPattern? locales with
    | some pattern =>
      rw [contents?_eq_keyed hpattern]
      split
      · exact failsOnly_pure _
      · refine FailsOnly.bind ?_ fun _ _ => failsOnly_pure _
        exact hundecoded (failsOnly_keyedTexts hpattern)
    | none =>
      unfold contents?
      cases hkind : c.placement with
      | pairs fields defaults =>
        dsimp only
        split
        · exact failsOnly_pure _
        · exact (failsOnly_columns hkind).bind fun _ _ => failsOnly_pure _
      | documents keyField bodyField defaults =>
        refine FailsOnly.bind (fun failure h => .inl h) fun bodies _ => ?_
        cases bodies with
        | none => exact failsOnly_pure _
        | some spans =>
          refine FailsOnly.bind (failsOnly_mapM fun span _ => ?_) fun _ _ => failsOnly_pure _
          exact (hundecoded (failsOnly_decode_slice _ _ _)).bind fun _ _ => failsOnly_pure _
      | scalarFields anchors fields defaults =>
        dsimp only
        split
        · exact failsOnly_pure _
        · next literals hliterals =>
          refine FailsOnly.bind (failsOnly_mapM fun pair hpair => ?_) fun _ _ => failsOnly_pure _
          exact (hundecoded (in_of_mem_scalarLiterals? hliterals pair hpair).failsOnly_value).bind
            fun _ _ => failsOnly_pure _
      | keyedPairs keyField label defaults =>
        rw [hkind] at hpattern
        cases hpattern
      | choices condition defaults =>
        rw [hkind] at hpattern
        cases hpattern
      | _ =>
        rw [hkind] at hread
        cases hread

/-- Contents are read without an end only where the body of a document has none. -/
theorem unterminated_contents? {delimiter : CodePoint} {start : Nat}
    (h : c.contents? text locales locale = .error (.unterminated delimiter start)) :
    (∃ keyField bodyField defaults, c.placement = .documents keyField bodyField defaults) ∧
      c.documentBodies text locale = .error (.unterminated delimiter start) := by
  rcases c.failsOnly_contents? text locales locale _ h with
    h | h | ⟨h, -⟩ | ⟨-, -, -, field, -, h⟩ | ⟨place, -, h⟩
  · refine ⟨?_, h⟩
    unfold documentBodies at h
    split at h
    · next keyField bodyField defaults _ hplace _ => exact ⟨keyField, bodyField, defaults, hplace⟩
    · cases h
  · rcases h.isCodePoint with h | h <;> cases h
  · rcases h with h | h <;> cases h
  · rcases Following.error_of_ofText h with h | h <;> cases h
  · cases BlockSpan.blockOpener_of_opener h

end Category

end Bilingual
