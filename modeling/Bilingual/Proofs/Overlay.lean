import Bilingual.Proofs.Block.Relocate
import Bilingual.Proofs.Planned
import Bilingual.Proofs.Rewrite

set_option autoImplicit false

/-! # Blocks of literals hold what is put into them

A block of entries or of literals that is patched without new items is located again at the same place, and parses
into as many items with the same keys and the same gaps. The literal of each stands for the text that the contents
have for it, or else for what it stood for (`PatchInput.patchText_overlays`). An entry gets the text of its key, the
last one among the contents and the merged categories (`Plan.lookup?_overlay`), and a literal the text of the record
with its number (`Category.textFor?`). -/

namespace Bilingual

open ParsedBlock

/-! ## The texts that are put into a block -/

namespace Plan

/-- The last text that some maps have under a key. -/
def lastText? (maps : List FlatMap) (key : Text) : Option Text :=
  maps.reverse.findSome? fun texts => (texts.lookup? key).join

/-- A map that is laid over another one has what it has a text for. -/
theorem lookup?_overlay_one {source : FlatMap} (hdistinct : OrderedMap.Distinct source) (texts : FlatMap)
    (key : Text) : (overlay texts [source]).lookup? key =
      ((source.lookup? key).join.map some).or (texts.lookup? key) := by
  show OrderedMap.lookup? (source.foldl _ texts) key = _
  induction source generalizing texts with
  | nil => rfl
  | cons pair rest ih =>
    obtain ⟨k, value⟩ := pair
    obtain ⟨hk, hrest⟩ := List.nodup_cons.1 hdistinct
    rw [List.foldl_cons, ih hrest]
    by_cases hkey : k = key
    · subst hkey
      rw [OrderedMap.lookup?_eq_none_iff.2 hk]
      cases value <;> simp [OrderedMap.lookup?]
    · cases value <;> simp [OrderedMap.lookup?, OrderedMap.lookup?_put, hkey]

/-- Overlaid maps have under each key the last text that one of them has. -/
theorem lookup?_overlay {merged : List FlatMap} (hmerged : ∀ source ∈ merged, OrderedMap.Distinct source)
    (texts : FlatMap) (key : Text) :
    ((overlay texts merged).lookup? key).join = lastText? (texts :: merged) key := by
  induction merged generalizing texts with
  | nil => cases h : (texts.lookup? key).join <;> simp [lastText?, overlay, h]
  | cons source rest ih =>
    obtain ⟨hsource, hrest⟩ := List.forall_mem_cons.1 hmerged
    have hone : ((overlay texts [source]).lookup? key).join =
        ((source.lookup? key).join).or (texts.lookup? key).join := by
      rw [lookup?_overlay_one hsource]
      cases (source.lookup? key).join <;> rfl
    calc _ = lastText? (overlay texts [source] :: rest) key := ih hrest _
      _ = _ := by
        simp only [lastText?, List.reverse_cons, List.findSome?_append, List.findSome?_singleton, hone,
          Option.or_assoc]

end Plan

/-- The text that contents, with those of merged categories, have for an item: an entry gets that of its key, the last
one of all maps, and a literal that of the record with its number. -/
def Category.textFor? (c : Category) (content : Content) (merged : List FlatMap) (i : Nat) (item : BlockItem) :
    Option Text :=
  match c.placement, content with
  | .dictBlock .., .map texts => item.key?.bind fun key => Plan.lastText? (texts :: merged) key.value
  | .listBlock _ name _, .records records => records[i]?.join.bind fun texts => (texts.lookup? name).join
  | _, _ => none

/-- What is bound to an item of a block of entries or literals is the text for it, if there is one. -/
theorem Category.boundTexts_eq {c : Category} (hkind : c.placement.itemKind? = some .entry ∨
    c.placement.itemKind? = some .literal) {merged : List FlatMap}
    (hmerged : ∀ texts ∈ merged, OrderedMap.Distinct texts) (parsed : ParsedBlock) (content : Content) (i : Nat)
    (item : BlockItem) : c.boundTexts parsed content merged i item =
      (bound? item.literal? (c.textFor? content merged i item)).toList := by
  unfold boundTexts textFor?
  cases hplace : c.placement with
  | dictBlock place merge defaults =>
    cases content with
    | map texts =>
      simp only [Plan.entryTexts, Plan.boundText?, Plan.lookup?_overlay hmerged]
    | _ => cases item.literal? <;> rfl
  | listBlock place name defaults =>
    cases content with
    | records records =>
      have hone : ∀ f : Text → Option (LiteralSpan × Text), [name].filterMap f = (f name).toList := by
        intro f
        cases h : f name <;> simp [h]
      dsimp only
      rw [Plan.recordTexts, (List.nodup_singleton name).dedup, hone, Plan.siteIn?, hplace]
      rfl
    | _ => cases item.literal? <;> rfl
  | _ =>
    rw [hplace] at hkind
    rcases hkind with h | h <;> cases h

/-! ## Overlaid blocks -/

/-- A block of literals in a text with new texts for its items: it has as many items with the same keys and gaps,
each literal stands for the new text, or without one for what it stood for, and nothing else has changed. -/
structure ParsedBlock.OverlaidBy (parsed : ParsedBlock) (text : Text) (texts : Nat → BlockItem → Option Text)
    (after : ParsedBlock) (patched : Text) : Prop where
  bodyStart_eq : after.block.bodyStart = parsed.block.bodyStart
  length_eq : after.items.length = parsed.items.length
  gaps_eq : after.gaps = parsed.gaps
  items : ∀ i item, parsed.items[i]? = some item → ∃ item' l l', after.items[i]? = some item' ∧
    item'.key? = item.key? ∧ item.literal? = some l ∧ item'.literal? = some l' ∧
      l'.value = ((texts i item).map .ok).getD l.value
  before : patched.take after.block.bodyStart = text.take parsed.block.bodyStart
  behind : patched.drop after.block.bodyEnd = text.drop parsed.block.bodyEnd

theorem BlockSpan.drop_withBody {block : BlockSpan} {text : Text} (body : Text) (h : block.bodyStart ≤ text.length) :
    (block.replaceBody text body).drop (block.withBody body).bodyEnd = text.drop block.bodyEnd := by
  show (text.take block.bodyStart ++ body ++ text.drop block.bodyEnd).drop (block.bodyStart + body.length) = _
  rw [List.drop_left' (by rw [List.length_append, List.length_take_of_le h])]

/-- The value of the literal of an item, when a text that differs is put into it. -/
theorem Overlaid.exists_value {item item' : BlockItem} {pairs : List (LiteralSpan × Text)} {value : Option Text}
    (h : Overlaid item pairs item')
    (hpairs : pairs.Perm ((bound? item.literal? value).toList.filter Differs)) : ∃ l l', item.literal? = some l ∧
      item'.literal? = some l' ∧ l'.value = (value.map .ok).getD l.value := by
  obtain ⟨-, l, l', hl, hl', hkept, hput⟩ := h
  refine ⟨l, l', hl, hl', ?_⟩
  rw [hl] at hpairs
  cases value with
  | none => exact hkept (List.perm_nil.1 hpairs)
  | some t =>
    have hone : ((bound? (some l) (some t)).toList.filter Differs) = [(l, t)].filter Differs := rfl
    rw [hone, List.filter_singleton] at hpairs
    by_cases hdiffers : Differs (l, t) = true
    · rw [hdiffers] at hpairs
      exact hput t (hpairs.mem_iff.2 (List.mem_singleton_self _))
    · rw [Bool.eq_false_iff.2 hdiffers] at hpairs
      have hsame : l.value = .ok t := by simpa [Differs] using hdiffers
      exact (hkept (List.perm_nil.1 hpairs)).trans hsame

section Overlaid

variable {parsed : ParsedBlock} {text : Text} {kind : ItemKind} {parts : List BlockPart} {last : Text}
  {bound : Nat → BlockItem → List (LiteralSpan × Text)} {texts : Nat → BlockItem → Option Text}
  {result : Except Failure Plan}

/-- A plan that rewrites a block of literals gives a text in which the block is found again, with the new texts. -/
theorem Plan.Rewrites.exists_overlaid {anchors : List Text} {written : Text} {start : Nat}
    (h : Rewrites parsed text bound result) (hlaid : parsed.Laid text kind parts last)
    (hkind : kind = .entry ∨ kind = .literal)
    (hlocate : BlockSpan.locate text anchors written start text.length = .ok (some parsed.block))
    (hbound : ∀ i item, bound i item = (bound? item.literal? (texts i item)).toList)
    (hdecodes : ∀ item ∈ parsed.items, ∀ l, item.literal? = some l → l.Decodes) :
    ∃ plan patched after, result = .ok plan ∧ Edit.applyAll text plan.edits = .ok patched ∧
      BlockSpan.locate patched anchors written start patched.length = .ok (some after.block) ∧
      ParsedBlock.parse patched after.block kind = .ok (some after) ∧ parsed.block.bodyStart ≤ patched.length ∧
      parsed.OverlaidBy text texts after patched := by
  obtain ⟨-, -, hend, hlt, -⟩ := BlockSpan.exists_behind hlocate
  obtain ⟨plan, wanted, sources, hplan, -, hsources, hpatched, hwanted, -⟩ :=
    h.exists_sources hlaid (by omega) (by omega) fun pair hpair => by
      obtain ⟨i, item, hitem, hpair⟩ := mem_inItems_iff.1 hpair
      rw [hbound, Option.mem_toList] at hpair
      exact hdecodes item (List.mem_of_getElem? hitem) _ (bound?_eq_some_iff.1 hpair).1
  have hliteral : ∀ part ∈ parts, part.form.kind = .entry ∨ part.form.kind = .literal := by
    intro part hpart
    rw [hlaid.hasKind part hpart]
    exact hkind
  obtain ⟨parts', hparts, rfl, hitems⟩ := exists_requoted hliteral hlaid.items_eq hlaid.text_eq
    (forall₂_wanted fun i item hitem => (hwanted i item hitem).1) hsources
  have hgaps : parts.map BlockPart.gap = parts'.map BlockPart.gap := (map_gap_of_requoted hparts).symm
  have hbody : interleave parsed.gaps (parts'.map fun part => part.form.text) = partsText parts' ++ last := by
    rw [hlaid.gaps_eq, hgaps, interleave_append (by simp), interleave_parts, List.flatten_singleton]
  rw [hbody] at hpatched
  obtain ⟨items', hitems', hall⟩ := hitems (parsed.block.replaceBody text (partsText parts' ++ last))
    parsed.block.bodyStart
  refine ⟨plan, _, ⟨parsed.block.withBody (partsText parts' ++ last), items', parts'.map BlockPart.gap ++ [last]⟩,
    hplan, hpatched, hlaid.locate_again hlocate hparts,
    hlaid.parse_parts (kind_of_requoted hparts hlaid.hasKind) hlaid.isLast hitems',
    BlockSpan.le_length_replaceBody _ hlaid.start_le, ?_⟩
  constructor
  · rfl
  · rw [← hall.length_eq]
    simp
  · rw [hlaid.gaps_eq, hgaps]
  · intro i item hitem
    have hpair : (parsed.items.zip (parsed.items.zipIdx.map fun pair => wanted pair.2 pair.1))[i]? =
        some (item, wanted i item) := List.getElem?_zip_eq_some.2 ⟨hitem, by simp [hitem]⟩
    obtain ⟨item', hitem', hoverlaid⟩ := List.Forall₂.exists_of_getElem? hall hpair
    have hperm := (hwanted i item hitem).2
    rw [hbound] at hperm
    obtain ⟨l, l', hl, hl', hvalue⟩ := hoverlaid.exists_value hperm
    exact ⟨item', l, l', hitem', hoverlaid.key_eq, hl, hl', hvalue⟩
  · exact BlockSpan.take_replaceBody _ hlaid.start_le
  · exact BlockSpan.drop_withBody _ hlaid.start_le

end Overlaid

/-! ## Patched texts -/

/-- A window without a text that it ends before reaches from its start up to the end of the text. -/
theorem Category.window?_open_iff {c : Category} {text : Text} {window : Window}
    (hopen : ∀ region ∈ c.region, region.stop = none) : c.window? text = some window ↔
      window.stop = text.length ∧ match c.region.bind Region.start with
        | some needle => text.findEnd? needle 0 text.length = some window.start
        | none => window.start = 0 := by
  obtain ⟨start, stop⟩ := window
  unfold Category.window?
  rcases hregion : c.region with _ | ⟨_ | needle, stop'⟩
  · simp [Window.whole, eq_comm, and_comm]
  · obtain rfl : stop' = none := hopen _ hregion
    simp [Region.window?, eq_comm, and_comm]
  · obtain rfl : stop' = none := hopen _ hregion
    show (text.findEnd? needle 0 text.length).bind (fun first => some (Window.mk first text.length)) = _ ↔
      stop = text.length ∧ text.findEnd? needle 0 text.length = some start
    cases text.findEnd? needle 0 text.length <;> simp [eq_comm, and_comm]

/-- It is found again in a text that is the same up to a place behind its start. -/
theorem Category.window?_again {c : Category} {text text' : Text} {start k : Nat}
    (hopen : ∀ region ∈ c.region, region.stop = none) (h : c.window? text = some ⟨start, text.length⟩)
    (htake : text.take k = text'.take k) (hk : start ≤ k) (hlength : k ≤ text'.length) :
    c.window? text' = some ⟨start, text'.length⟩ := by
  obtain ⟨-, hstart⟩ := (window?_open_iff hopen).1 h
  refine (window?_open_iff hopen).2 ⟨rfl, ?_⟩
  split at hstart
  · exact (Text.findEnd?_again hstart htake hk hlength).1
  · exact hstart

namespace PatchInput

variable {input : PatchInput} {c : Category} {text : Text} {content : Content} {parsed : ParsedBlock}
  {counts : OrderedMap Nat}

/-- Contents for an ordinal category whose numbers of sites are the recorded ones are put into the text. -/
theorem result_patchText_one {plan : Plan} {patched : Text} (hgiven : input.given? c = some (.ok content))
    (hcounts : c.ordinalCounts text input.manifest.locales = .ok counts) (hexpects : input.Expects counts)
    (hplan : (input.plan c text content (input.mergedTexts c)).result = .ok plan)
    (hpatched : Edit.applyAll text plan.edits = .ok patched) :
    (input.patchText text [c]).result = .ok (patched, plan.entries) := by
  have hshifts := (shifts_eq_nil_iff input c text hcounts).2 hexpects
  have hone : (input.patchCategory c text).result = .ok (patched, plan.entries) := by
    rw [result_patchCategory, hgiven]
    refine Except.bind_eq_ok_iff.2 ⟨[], hshifts, Except.bind_eq_ok_iff.2 ⟨plan, hplan, ?_⟩⟩
    exact Except.bind_eq_ok_iff.2 ⟨patched, hpatched, rfl⟩
  rw [result_patchText_cons, hone]
  show Except.ok (patched, plan.entries ++ []) = _
  rw [List.append_nil]

/-- A block of entries or literals in a window without an end is patched, if nothing is appended and its sites are
counted as the snapshot expects. It is found again in the patched text, and holds the texts that the contents have for
its items. -/
theorem patchText_overlays
    (hkind : c.placement.itemKind? = some .entry ∨ c.placement.itemKind? = some .literal)
    (hopen : ∀ region ∈ c.region, region.stop = none)
    (hblock : c.parsedBlock text input.manifest.locales.secondary = .ok (some parsed))
    (hdecodes : ∀ item ∈ parsed.items, ∀ l, item.literal? = some l → l.Decodes)
    (hgiven : input.given? c = some (.ok content))
    (happends : c.AppendsNothing parsed content (input.mergedTexts c))
    (hcounts : c.ordinalCounts text input.manifest.locales = .ok counts) (hexpects : input.Expects counts) :
    ∃ patched entries after, (input.patchText text [c]).result = .ok (patched, entries) ∧
      c.parsedBlock patched input.manifest.locales.secondary = .ok (some after) ∧
      parsed.OverlaidBy text (c.textFor? content (input.mergedTexts c)) after patched := by
  obtain ⟨place, window, kind, block, hplace, hwindow, hitems, hlocate, hparse⟩ := c.exists_of_parsedBlock hblock
  obtain ⟨parts, last, hlaid, -⟩ := ParsedBlock.exists_laid hlocate hparse
  obtain ⟨rfl, -⟩ := ParsedBlock.parse_eq_ok_iff.1 hparse
  have hkind' : kind = .entry ∨ kind = .literal := by
    rw [hitems] at hkind
    exact hkind.imp Option.some.inj Option.some.inj
  have hdistinct : c.placement.itemKind? = some .keyedRecord → content.Distinct := fun hkeyed => by
    rw [hitems] at hkeyed
    cases hkeyed
    rcases hkind' with h | h <;> cases h
  have hrewrites := rewrites_plan hblock hlaid hdistinct happends
  obtain ⟨start, stop⟩ := window
  obtain rfl : stop = text.length := ((Category.window?_open_iff hopen).1 hwindow).1
  have hmerged : ∀ texts ∈ input.mergedTexts c, OrderedMap.Distinct texts := fun _ => distinct_of_mem_mergedTexts
  obtain ⟨plan, patched, after, hplan, hpatched, hlocate', hparse', hlength, hoverlaid⟩ :=
    hrewrites.exists_overlaid hlaid hkind' hlocate (c.boundTexts_eq hkind hmerged parsed content) hdecodes
  have hbefore := hoverlaid.before
  rw [hoverlaid.bodyStart_eq] at hbefore
  have hwindow' := Category.window?_again hopen hwindow hbefore.symm (BlockSpan.start_le_bodyStart hlocate) hlength
  refine ⟨patched, plan.entries, after, result_patchText_one hgiven hcounts hexpects hplan hpatched, ?_, hoverlaid⟩
  refine Except.bind_eq_ok_iff.2 ⟨some after.block, ?_, ?_⟩
  · unfold Category.block
    rw [hplace, hwindow']
    exact hlocate'
  · rw [hitems]
    exact hparse'

/-- A block of entries behind a mark, into which the texts of another category are put too. -/
def labelsSample : Category :=
  { name := "labels", region := some ⟨some "// labels", none⟩
    placement := .dictBlock ⟨[], "\x7blocale\x7d: \x7b", []⟩ ["more"] [] }

/-- A file of it, with a comment behind the first entry. -/
def labelsText (a b : Text) : Text :=
  "// labels\nar: \x7b\n  'a': '" ++ a ++ "', // one\n  b: \"" ++ b ++ "\"\n\x7d\n"

/-- The block of the file. -/
def labelsBlock : ParsedBlock where
  block := ⟨10, 15, 44, [], '\x7d'⟩
  items := [
    ⟨18, 27, "  ", true, .entry ⟨"'a'", "a"⟩ ⟨24, 25, .single, "x"⟩⟩,
    ⟨37, 43, "  ", false, .entry ⟨"b", "b"⟩ ⟨41, 42, .double, "y"⟩⟩]
  gaps := ["\n  ", " // one\n  ", "\n"]

/-- A text that holds the closing bracket and a quote. -/
def labelsContent : Content := .map [("a", some "\x7d'"), ("b", none)]

/-- The manifest and the contents, with a text of the other category. -/
def labelsInput : PatchInput where
  manifest := { artifacts := [{ path := "page.ts", categories := [labelsSample] }] }
  snapshot := { categories := [("labels", labelsContent.toJson), ("more", .object [("b", .text "z")])] }

theorem patchText_overlays_labels :
    (labelsInput.patchText (labelsText "x" "y") [labelsSample]).result.map Prod.fst =
        .ok (labelsText "\x7d\\'" "z") ∧
      ∃ patched entries after,
        (labelsInput.patchText (labelsText "x" "y") [labelsSample]).result = .ok (patched, entries) ∧
          labelsSample.parsedBlock patched "ar" = .ok (some after) ∧
          labelsBlock.OverlaidBy (labelsText "x" "y") (labelsSample.textFor? labelsContent [[("b", some "z")]]) after
            patched := by
  have hdecodes : ∀ item ∈ labelsBlock.items, ∀ l, item.literal? = some l → l.Decodes := by
    refine List.forall_mem_cons.2 ⟨?_, List.forall_mem_singleton.2 ?_⟩
    · rintro _ ⟨⟩
      exact ⟨"x", by decide +kernel⟩
    · rintro _ ⟨⟩
      exact ⟨"y", by decide +kernel⟩
  have hmerged : labelsInput.mergedTexts labelsSample = [[(Text.ofString "b", some (Text.ofString "z"))]] := by
    decide +kernel
  have happends : labelsSample.AppendsNothing labelsBlock labelsContent (labelsInput.mergedTexts labelsSample) := by
    intro key value hmem
    rw [hmerged] at hmem
    have hkeys : ∀ pair ∈ Plan.overlay [("a", some "\x7d'"), ("b", none)]
        [[(Text.ofString "b", some (Text.ofString "z"))]], pair.1 ∈ Plan.existingKeys labelsBlock := by decide +kernel
    exact hkeys _ hmem
  refine ⟨by decide +kernel, ?_⟩
  have hblock : labelsSample.parsedBlock (labelsText "x" "y") labelsInput.manifest.locales.secondary =
      .ok (some labelsBlock) := by decide +kernel
  have hoverlaid := patchText_overlays (.inl rfl) (by decide) hblock hdecodes
    (show labelsInput.given? labelsSample = some (.ok labelsContent) by decide +kernel)
    happends rfl (fun key current h => by cases h)
  rwa [hmerged] at hoverlaid

/-- A block of literals whose opener in the primary locale has no bracket. -/
def uncountedSample : Category :=
  { name := "words", region := none
    placement := .listBlock ⟨[], "\x7blocale\x7d: [", [("en", "en:")]⟩ "value" [] }

/-- The block of a file with one literal. -/
def uncountedBlock : ParsedBlock where
  block := ⟨0, 5, 13, [], ']'⟩
  items := [⟨8, 12, "  ", true, .literal ⟨9, 10, .single, "x"⟩⟩]
  gaps := ["\n  ", "\n"]

/-- One text. -/
def uncountedContent : Content := .records [some [("value", some "y")]]

/-- The manifest and the contents, without numbers of sites. -/
def uncountedInput : PatchInput where
  manifest := { artifacts := [{ path := "page.ts", categories := [uncountedSample] }] }
  snapshot := { categories := [("words", uncountedContent.toJson)] }

/-- Sites that cannot be counted stop patching, also when no number is recorded and the block is there. -/
theorem patchText_uncounted :
    uncountedSample.parsedBlock "ar: [\n  'x',\n]\n" "ar" = .ok (some uncountedBlock) ∧
      (∀ item ∈ uncountedBlock.items, ∀ l, item.literal? = some l → l.Decodes) ∧
      uncountedInput.given? uncountedSample = some (.ok uncountedContent) ∧
      uncountedContent.size ≤ uncountedBlock.items.length ∧ uncountedInput.snapshot.provenance = none ∧
      (uncountedInput.patchText "ar: [\n  'x',\n]\n" [uncountedSample]).result = .error (.blockOpener "en:") := by
  refine ⟨by decide +kernel, ?_, by decide +kernel, by decide +kernel, rfl, by decide +kernel⟩
  refine List.forall_mem_singleton.2 ?_
  rintro _ ⟨⟩
  exact ⟨"x", by decide +kernel⟩

end PatchInput

end Bilingual
