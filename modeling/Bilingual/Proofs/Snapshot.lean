import Bilingual.Proofs.Content
import Bilingual.Proofs.Json.RoundTrip
import Bilingual.Snapshot.Basic
import Mathlib.Data.List.Nodup

set_option autoImplicit false

/-! # Snapshots read back from their documents

The known fields of a provenance are written in a fixed order and without those that are missing, and the others come
behind them as they are (`SnapshotMeta.toJson_eq`). Checking what is written gives the provenance back
(`SnapshotMeta.check_fields`), so a snapshot of plain values is read back from its document
(`Snapshot.read_write`). -/

namespace Bilingual

namespace Json

theorem arePlainFields_iff {fields : List (Text × Json)} : arePlainFields fields = true ↔
    ∀ field ∈ fields, field.1.hasSurrogate = false ∧ field.2.isPlain = true := by
  induction fields with
  | nil => simp [arePlainFields]
  | cons field fields ih => simp [arePlainFields, ih]

theorem isPlain_object {fields : List (Text × Json)} : (object fields).isPlain = true ↔
    (∀ field ∈ fields, field.1.hasSurrogate = false ∧ field.2.isPlain = true) ∧ OrderedMap.Distinct fields := by
  rw [isPlain, Bool.and_eq_true, arePlainFields_iff, decide_eq_true_eq]
  rfl

end Json

/-! ## Provenance -/

namespace SnapshotMeta

mutual

/-- A plain value is written as it is. -/
theorem finiteValue_of_isPlain : ∀ v : Json, v.isPlain = true → finiteValue v = v
  | .null, _ | .bool _, _ | .integer _, _ | .text _, _ => rfl
  | .list items, h => congrArg Json.list (finiteItems_of_arePlain items h)
  | .object fields, h => congrArg Json.object (finiteFields_of_arePlainFields fields (Bool.and_eq_true_iff.1 h).1)

/-- So are plain items. -/
theorem finiteItems_of_arePlain : ∀ items : List Json, Json.arePlain items = true →
    finiteValue.finiteItems items = items
  | [], _ => rfl
  | item :: items, h => by
    obtain ⟨hitem, hitems⟩ := Bool.and_eq_true_iff.1 h
    rw [finiteValue.finiteItems, finiteValue_of_isPlain item hitem, finiteItems_of_arePlain items hitems]

/-- So are plain fields. -/
theorem finiteFields_of_arePlainFields : ∀ fields : List (Text × Json), Json.arePlainFields fields = true →
    finiteValue.finiteFields fields = fields
  | [], _ => rfl
  | (name, value) :: fields, h => by
    obtain ⟨hfield, hfields⟩ := Bool.and_eq_true_iff.1 h
    rw [finiteValue.finiteFields, finiteValue_of_isPlain value (Bool.and_eq_true_iff.1 hfield).2,
      finiteFields_of_arePlainFields fields hfields]

end

/-- What a provenance has to be for its document to tell all of it: its texts can be encoded, the names that sites are
counted under can too and do not repeat, and its other fields are plain, not null, and none of those that are known. -/
structure IsPlain (m : SnapshotMeta) : Prop where
  generatedAt : ∀ t ∈ m.generatedAt, t.hasSurrogate = false
  primaryLocale : ∀ t ∈ m.primaryLocale, t.hasSurrogate = false
  secondaryLocale : ∀ t ∈ m.secondaryLocale, t.hasSurrogate = false
  locale : ∀ t ∈ m.locale, t.hasSurrogate = false
  occurrences : ∀ pair ∈ m.occurrences, pair.1.hasSurrogate = false
  occurrences_distinct : OrderedMap.Distinct m.occurrences
  others : Json.isPlain (.object m.others) = true
  others_unknown : ∀ pair ∈ m.others, pair.1 ∉ fieldNames ∧ pair.2 ≠ .null

/-- The known fields as they are written. -/
def knownFields (m : SnapshotMeta) : List (Text × Json) :=
  ("schema_version", .integer m.schemaVersion) ::
    (textField "generated_at" m.generatedAt ++ textField "primary_locale" m.primaryLocale ++
      textField "secondary_locale" m.secondaryLocale ++ textField "locale" m.locale ++
      [(Text.ofString "occurrences", .object (OrderedMap.mapValues Json.integer m.occurrences))])

variable {m : SnapshotMeta}

/-- The numbers of sites are written under their names. -/
theorem IsPlain.occurrencesJson_eq (h : m.IsPlain) :
    m.occurrencesJson = .object (OrderedMap.mapValues Json.integer m.occurrences) := by
  have hdistinct : (OrderedMap.keys (OrderedMap.mapValues Json.integer m.occurrences)).Nodup := by
    rw [OrderedMap.keys_mapValues]
    exact h.occurrences_distinct
  refine congrArg Json.object (Eq.trans ?_ (OrderedMap.ofPairs_of_distinct hdistinct))
  refine congrArg OrderedMap.ofPairs (List.map_congr_left fun pair hpair => ?_)
  show (Text.Utf8.lossy pair.1, Json.integer pair.2) = (pair.1, Json.integer pair.2)
  rw [Text.Utf8.lossy_of_hasSurrogate (h.occurrences pair hpair)]

/-- The known fields are written first, and behind them the others as they are. -/
theorem IsPlain.toJson_eq (h : m.IsPlain) : m.toJson = .object (m.knownFields ++ m.others) := by
  have hfilter : m.others.filter (fun pair => decide (pair.2 ≠ .null)) = m.others :=
    List.filter_eq_self.2 fun pair hpair => decide_eq_true (h.others_unknown pair hpair).2
  have hvalues : OrderedMap.mapValues finiteValue m.others = m.others := by
    have hvalue : ∀ pair ∈ m.others, (pair.1, finiteValue pair.2) = pair := fun pair hpair => by
      rw [finiteValue_of_isPlain pair.2 ((Json.isPlain_object.1 h.others).1 pair hpair).2]
    exact (List.map_congr_left hvalue).trans (List.map_id' m.others)
  show Json.object (_ :: (_ ++ (_, m.occurrencesJson) ::
    OrderedMap.mapValues finiteValue (m.others.filter fun pair => decide (pair.2 ≠ .null)))) = _
  rw [h.occurrencesJson_eq, hfilter, hvalues]
  simp only [knownFields, List.cons_append, List.append_assoc, List.nil_append]

/-! ## Reading a provenance back -/

theorem keys_textField_sublist (name : Text) (t : Option Text) :
    List.Sublist (OrderedMap.keys (textField name t)) [name] := by
  cases t with
  | none => exact List.nil_sublist _
  | some t => exact List.Sublist.refl _

/-- The known fields come in their order. -/
theorem keys_knownFields_sublist (m : SnapshotMeta) : List.Sublist (OrderedMap.keys m.knownFields) fieldNames := by
  simp only [knownFields, OrderedMap.keys_cons, OrderedMap.keys_append]
  exact ((((keys_textField_sublist _ _).append (keys_textField_sublist _ _)).append
    (keys_textField_sublist _ _)).append (keys_textField_sublist _ _)).append (List.Sublist.refl _) |>.cons_cons _

theorem lookup?_textField (name other : Text) (t : Option Text) :
    OrderedMap.lookup? (textField name t) other = if name = other then t.map Json.text else none := by
  cases t with
  | none => simp [textField, OrderedMap.lookup?]
  | some t => rfl

theorem lookup?_knownFields (m : SnapshotMeta) :
    OrderedMap.lookup? m.knownFields "schema_version" = some (.integer m.schemaVersion) ∧
      OrderedMap.lookup? m.knownFields "generated_at" = m.generatedAt.map Json.text ∧
      OrderedMap.lookup? m.knownFields "primary_locale" = m.primaryLocale.map Json.text ∧
      OrderedMap.lookup? m.knownFields "secondary_locale" = m.secondaryLocale.map Json.text ∧
      OrderedMap.lookup? m.knownFields "locale" = m.locale.map Json.text ∧
      OrderedMap.lookup? m.knownFields "occurrences" =
        some (.object (OrderedMap.mapValues Json.integer m.occurrences)) := by
  simp [knownFields, OrderedMap.lookup?, OrderedMap.lookup?_append, lookup?_textField, Text.ofString_inj]

/-- A known field is looked up among the known ones. -/
theorem IsPlain.lookup?_eq (h : m.IsPlain) {name : Text} (hname : name ∈ fieldNames) :
    OrderedMap.lookup? (m.knownFields ++ m.others) name = OrderedMap.lookup? m.knownFields name := by
  have hothers : OrderedMap.lookup? m.others name = none := by
    refine OrderedMap.lookup?_eq_none_iff.2 fun hmem => ?_
    obtain ⟨pair, hpair, rfl⟩ := List.mem_map.1 hmem
    exact (h.others_unknown pair hpair).1 hname
  rw [OrderedMap.lookup?_append, hothers, Option.or_none]

/-- Taking the known fields out leaves the others. -/
theorem IsPlain.filter_eq (h : m.IsPlain) :
    (m.knownFields ++ m.others).filter (fun (name, _) => !fieldNames.contains name) = m.others := by
  have hknown : m.knownFields.filter (fun (name, _) => !fieldNames.contains name) = [] := by
    refine List.filter_eq_nil_iff.2 fun field hfield => ?_
    have hmem := m.keys_knownFields_sublist.subset (OrderedMap.mem_keys_of_mem hfield)
    simp [hmem]
  have hothers : m.others.filter (fun (name, _) => !fieldNames.contains name) = m.others := by
    refine List.filter_eq_self.2 fun field hfield => ?_
    simp [(h.others_unknown field hfield).1]
  rw [List.filter_append, hknown, hothers, List.nil_append]

theorem IsPlain.distinct_fields (h : m.IsPlain) : OrderedMap.Distinct (m.knownFields ++ m.others) := by
  have hsublist : List.Sublist (OrderedMap.keys (m.knownFields ++ m.others))
      (fieldNames ++ OrderedMap.keys m.others) := by
    rw [OrderedMap.keys_append]
    exact m.keys_knownFields_sublist.append (List.Sublist.refl _)
  refine List.Nodup.sublist hsublist (List.Nodup.append (by decide) (Json.isPlain_object.1 h.others).2 ?_)
  intro name hname hmem
  obtain ⟨pair, hpair, rfl⟩ := List.mem_map.1 hmem
  exact (h.others_unknown pair hpair).1 hname

theorem IsPlain.isPlain_toJson (h : m.IsPlain) : m.toJson.isPlain = true := by
  have htext : ∀ {name : Text} {t : Option Text}, name.hasSurrogate = false → (∀ s ∈ t, s.hasSurrogate = false) →
      ∀ field ∈ textField name t, field.1.hasSurrogate = false ∧ field.2.isPlain = true := by
    intro name t hname ht field hfield
    cases t with
    | none => cases hfield
    | some t =>
      rw [List.mem_singleton.1 hfield]
      exact ⟨hname, by rw [Json.isPlain, ht t rfl]; rfl⟩
  have hoccurrences : Json.isPlain (.object (OrderedMap.mapValues Json.integer m.occurrences)) = true := by
    refine Json.isPlain_object.2 ⟨fun field hfield => ?_, ?_⟩
    · obtain ⟨pair, hpair, rfl⟩ := List.mem_map.1 hfield
      exact ⟨h.occurrences pair hpair, rfl⟩
    · rw [OrderedMap.Distinct, OrderedMap.keys_mapValues]
      exact h.occurrences_distinct
  rw [h.toJson_eq, Json.isPlain_object]
  refine ⟨?_, h.distinct_fields⟩
  simp only [knownFields, List.cons_append, List.forall_mem_cons, List.forall_mem_append]
  exact ⟨⟨rfl, rfl⟩, ⟨⟨⟨⟨htext rfl h.generatedAt, htext rfl h.primaryLocale⟩, htext rfl h.secondaryLocale⟩,
    htext rfl h.locale⟩, ⟨rfl, hoccurrences⟩, List.forall_mem_nil _⟩, (Json.isPlain_object.1 h.others).1⟩

/-- A provenance is read back from the fields that it is written as. -/
theorem IsPlain.check_fields (h : m.IsPlain) : check (m.knownFields ++ m.others) = .ok m := by
  obtain ⟨hversion, hgenerated, hprimary, hsecondary, hlocale, hoccurrences⟩ := m.lookup?_knownFields
  rw [← h.lookup?_eq (by decide)] at hversion hgenerated hprimary hsecondary hlocale hoccurrences
  have hkeys : Checked.hasBrokenKey (Data.ofFields (m.knownFields ++ m.others)) = false := by
    have hplain := h.isPlain_toJson
    rw [h.toJson_eq] at hplain
    exact Checked.hasBrokenKey_ofFields fun field hfield => ((Json.isPlain_object.1 hplain).1 field hfield).1
  have hcounted : Checked.map Checked.integer
      (Data.ofJson (.object (OrderedMap.mapValues Json.integer m.occurrences))) = .ok m.occurrences :=
    Checked.map_ofJson h.occurrences_distinct fun _ _ => rfl
  have hversion : Checked.defaulted (Data.ofFields (m.knownFields ++ m.others)) "schema_version" 1 Checked.integer =
      .ok m.schemaVersion := Checked.defaulted_of_lookup? 1 hversion rfl
  rw [check, Checked.withSoundKeys, hkeys]
  simp only [Bool.false_eq_true, if_false, hversion, Checked.optional_text hgenerated,
    Checked.optional_text hprimary, Checked.optional_text hsecondary, Checked.optional_text hlocale,
    Checked.defaulted_of_lookup? _ hoccurrences hcounted, h.filter_eq]
  rfl

end SnapshotMeta

/-! ## Snapshots -/

namespace Snapshot

/-- What a snapshot has to be for its document to tell all of it. The contents of its categories may be any plain
values. -/
structure IsPlain (s : Snapshot) : Prop where
  categories : Json.isPlain (.object s.categories) = true
  metaKey_unused : metaKey ∉ OrderedMap.keys s.categories
  provenance : ∀ m ∈ s.provenance, m.IsPlain

variable {s : Snapshot}

/-- The document holds the provenance and behind it the categories in their order. -/
theorem IsPlain.toFields_eq (h : s.IsPlain) :
    s.toFields = s.provenance.toList.map (fun m => (metaKey, m.toJson)) ++ s.categories := by
  have hdistinct := (Json.isPlain_object.1 h.categories).2
  unfold toFields
  cases s.provenance with
  | none => exact OrderedMap.ofPairs_of_distinct hdistinct
  | some m => exact OrderedMap.putAll_of_distinct (List.nodup_cons.2 ⟨h.metaKey_unused, hdistinct⟩)

theorem IsPlain.isPlain_toFields (h : s.IsPlain) : Json.isPlain (.object s.toFields) = true := by
  obtain ⟨hfields, hdistinct⟩ := Json.isPlain_object.1 h.categories
  rw [h.toFields_eq]
  cases hprovenance : s.provenance with
  | none => exact h.categories
  | some m =>
    refine Json.isPlain_object.2 ⟨?_, List.nodup_cons.2 ⟨h.metaKey_unused, hdistinct⟩⟩
    refine List.forall_mem_cons.2 ⟨⟨?_, ?_⟩, hfields⟩
    · exact (by decide : metaKey.hasSurrogate = false)
    · exact (h.provenance m hprovenance).isPlain_toJson

/-- Checking the fields of its document gives the snapshot. -/
theorem IsPlain.check_toFields (h : s.IsPlain) : check s.toFields = .ok s := by
  have hcategories : s.categories.filter (fun (name, _) => name ≠ metaKey) = s.categories :=
    List.filter_eq_self.2 fun pair hpair => decide_eq_true fun hkey =>
      h.metaKey_unused (hkey ▸ OrderedMap.mem_keys_of_mem hpair)
  rw [h.toFields_eq]
  cases hprovenance : s.provenance with
  | none =>
    have hlookup : OrderedMap.lookup? s.categories metaKey = none := OrderedMap.lookup?_eq_none_iff.2 h.metaKey_unused
    show check s.categories = _
    rw [check, hlookup, hcategories, ← hprovenance]
  | some m =>
    have hm := h.provenance m hprovenance
    have hlookup : OrderedMap.lookup? ((metaKey, m.toJson) :: s.categories) metaKey =
        some (.object (m.knownFields ++ m.others)) := by
      rw [OrderedMap.lookup?, if_pos rfl, hm.toJson_eq]
    have hfilter : ((metaKey, m.toJson) :: s.categories).filter (fun (name, _) => name ≠ metaKey) = s.categories := by
      rw [List.filter_cons_of_neg (by simp), hcategories]
    show check ((metaKey, m.toJson) :: s.categories) = _
    rw [check, hlookup, hfilter]
    show _ <$> SnapshotMeta.check (m.knownFields ++ m.others) = _
    rw [hm.check_fields]
    show Checked.ok ({ categories := s.categories, provenance := some m } : Snapshot) = _
    rw [← hprovenance]

/-- A snapshot of plain values is read back from its document. -/
theorem IsPlain.read_write (h : s.IsPlain) : Snapshot.read s.write = .ok s := by
  have hread : Json.read? s.write = some (.object s.toFields) := Json.read?_pretty h.isPlain_toFields
  have hobject : readObject s.write = .ok s.toFields := by rw [readObject, hread]
  unfold Snapshot.read
  simp only [hobject, bind, Except.bind, h.check_toFields]
  rfl

/-- Its document can be encoded. -/
theorem IsPlain.hasSurrogate_write (h : s.IsPlain) : s.write.hasSurrogate = false := by
  have hlayout := Json.hasSurrogate_layout _ 0 h.isPlain_toFields
  rw [Snapshot.write, writeObject, Text.hasSurrogate_append, Json.pretty, hlayout]
  rfl

end Snapshot

end Bilingual
