import Bilingual.Proofs.Json.Token
import Bilingual.Proofs.OrderedMap

set_option autoImplicit false

/-! # Documents that are read back

A value is plain when it is made of null, truth values, integers, texts that can be encoded, lists, and objects whose
names can be encoded and do not repeat. A plain value is read back from its layout at any level
(`Json.Reader.value?_layout`), so it is read back from the document it is written as (`Json.read?_pretty`), and that
document can be encoded (`Json.hasSurrogate_layout`). -/

namespace Bilingual

namespace Json

/-! ## Plain values -/

mutual

/-- Whether a value has no number but integers, no surrogate, and no object with a name that repeats. -/
def isPlain : Json → Bool
  | null | bool _ | integer _ => true
  | real _ => false
  | text t => !t.hasSurrogate
  | list items => arePlain items
  | object fields => arePlainFields fields && decide (OrderedMap.keys fields).Nodup

/-- Whether all items are plain. -/
def arePlain : List Json → Bool
  | [] => true
  | item :: items => isPlain item && arePlain items

/-- Whether all fields are plain, their names taken as texts. -/
def arePlainFields : List (Text × Json) → Bool
  | [] => true
  | (name, value) :: fields => !name.hasSurrogate && isPlain value && arePlainFields fields

end

/-- The items of a list, laid out one below the other. -/
def layoutList (level : Nat) : List Json → Text
  | [] => []
  | item :: items => layout level item ++ layoutItems level items

/-- The fields of an object, laid out one below the other. -/
def layoutObject (level : Nat) : List (Text × Json) → Text
  | [] => []
  | (name, value) :: fields => quote name ++ ": " ++ layout level value ++ layoutFields level fields

namespace Reader

variable {rest : Text}

/-! ## Blanks -/

theorem skipBlanks_newLine (level : Nat) (t : Text) : skipBlanks (newLine level ++ t) = skipBlanks t := by
  have hspaces : ∀ n : Nat, skipBlanks (List.replicate n (CodePoint.ofChar ' ') ++ t) = skipBlanks t := by
    intro n
    induction n with
    | zero => rfl
    | succ n ih => exact ih
  exact hspaces (2 * level)

theorem skipBlanks_of_head {c : CodePoint} {t : Text} (h : isBlank c = false) : skipBlanks (c :: t) = c :: t :=
  List.dropWhile_cons_of_neg (by simp [h])

/-- The layout of a plain value begins with no blank and with no closing bracket. -/
theorem exists_layout {v : Json} (h : v.isPlain = true) (level : Nat) :
    ∃ (c : CodePoint) (t : Text), layout level v = c :: t ∧ isBlank c = false ∧ c ≠ ']' := by
  cases v with
  | null => exact ⟨_, _, rfl, rfl, by decide⟩
  | bool b => cases b <;> exact ⟨_, _, rfl, rfl, by decide⟩
  | integer n =>
    cases n with
    | ofNat m =>
      obtain ⟨c, others, hothers, hdigit, -⟩ := Text.exists_ofNat m
      have hne : ∀ {d : Char}, (CodePoint.ofChar d).isAsciiDigit = false → c ≠ CodePoint.ofChar d :=
        fun hd => (Text.ne_of_isAsciiDigit hdigit hd).symm
      refine ⟨c, others, hothers, ?_, hne rfl⟩
      rw [isBlank, beq_false_of_ne (hne rfl), beq_false_of_ne (hne rfl), beq_false_of_ne (hne rfl),
        beq_false_of_ne (hne rfl)]
      rfl
    | negSucc m => exact ⟨_, _, rfl, rfl, by decide⟩
  | real x => cases h
  | text t => exact ⟨_, _, rfl, rfl, by decide⟩
  | list items => cases items <;> exact ⟨_, _, rfl, rfl, by decide⟩
  | object fields => rcases fields with _ | ⟨⟨name, value⟩, fields⟩ <;> exact ⟨_, _, rfl, rfl, by decide⟩

theorem skipBlanks_layout {v : Json} (h : v.isPlain = true) (level : Nat) (t : Text) :
    skipBlanks (layout level v ++ t) = layout level v ++ t := by
  obtain ⟨c, others, hlayout, hblank, -⟩ := exists_layout h level
  rw [hlayout]
  exact skipBlanks_of_head hblank

/-! ## Steps of the reader -/

theorem quote_append (t rest : Text) :
    quote t ++ rest = ('"' : CodePoint) :: (t.flatMap escapePoint ++ ('"' : CodePoint) :: rest) := by
  show "\"" ++ t.flatMap escapePoint ++ "\"" ++ rest = _
  rw [List.append_assoc, List.append_assoc]
  rfl

variable {fuel : Nat} {t behind further : Text} {name : Text} {item : Json} {items : List Json}
  {fields : List (Text × Json)}

theorem value?_quote (fuel : Nat) (t rest : Text) : value? (fuel + 1) (quote t ++ rest) = some (text t, rest) := by
  rw [quote_append, value?, if_pos rfl, string?_quote]
  rfl

/-- What begins neither a string nor a list nor an object is a name or a number. -/
theorem value?_of_head {c : CodePoint} (hc : c ≠ '"' ∧ c ≠ '[' ∧ c ≠ '{') (fuel : Nat) (t : Text) :
    value? (fuel + 1) (c :: t) = (name? (c :: t)).or (number? (c :: t)) := by
  rw [value?, if_neg hc.1, if_neg hc.2.1, if_neg hc.2.2]
  cases name? (c :: t) <;> rfl

theorem value?_null (fuel : Nat) (rest : Text) : value? (fuel + 1) ("null" ++ rest) = some (null, rest) := by
  have hhead : value? (fuel + 1) ("null" ++ rest) = (name? ("null" ++ rest)).or (number? ("null" ++ rest)) :=
    value?_of_head (by decide) fuel _
  rw [hhead, name?_null]
  rfl

theorem value?_bool (fuel : Nat) (b : Bool) (rest : Text) :
    value? (fuel + 1) ((if b then ("true" : Text) else "false") ++ rest) = some (bool b, rest) := by
  have hhead : value? (fuel + 1) ((if b then ("true" : Text) else "false") ++ rest) =
      (name? ((if b then ("true" : Text) else "false") ++ rest)).or
        (number? ((if b then ("true" : Text) else "false") ++ rest)) := by
    cases b <;> exact value?_of_head (by decide) fuel _
  rw [hhead, name?_bool]
  rfl

theorem value?_ofInt (fuel : Nat) (n : Int) (h : Stops rest) :
    value? (fuel + 1) (Text.ofInt n ++ rest) = some (integer n, rest) := by
  obtain ⟨c, others, hothers, hc⟩ : ∃ (c : CodePoint) (others : Text), Text.ofInt n ++ rest = c :: others ∧
      c ≠ '"' ∧ c ≠ '[' ∧ c ≠ '{' := by
    cases n with
    | ofNat m =>
      obtain ⟨c, others, hothers, hdigit, -⟩ := Text.exists_ofNat m
      have hne : ∀ {d : Char}, (CodePoint.ofChar d).isAsciiDigit = false → c ≠ CodePoint.ofChar d :=
        fun hd => (Text.ne_of_isAsciiDigit hdigit hd).symm
      exact ⟨c, others ++ rest, by rw [Text.ofInt, hothers]; rfl, hne rfl, hne rfl, hne rfl⟩
    | negSucc m => exact ⟨_, _, rfl, by decide⟩
  rw [hothers, value?_of_head hc, ← hothers, name?_ofInt, number?_ofInt n h]
  rfl

theorem value?_bracket (h : expect "]" (skipBlanks t) = none)
    (hitems : items? fuel (skipBlanks t) = some (items, rest)) :
    value? (fuel + 1) (('[' : CodePoint) :: t) = some (list items, rest) := by
  rw [value?, if_neg (by decide), if_pos rfl, h, hitems]
  rfl

theorem value?_brace (h : expect "\x7d" (skipBlanks t) = none)
    (hfields : members? fuel (skipBlanks t) = some (fields, rest)) (hdistinct : (OrderedMap.keys fields).Nodup) :
    value? (fuel + 1) (('{' : CodePoint) :: t) = some (object fields, rest) := by
  rw [value?, if_neg (by decide), if_neg (by decide), if_pos rfl, h, hfields]
  show some (object (OrderedMap.ofPairs fields), rest) = _
  rw [OrderedMap.ofPairs_of_distinct hdistinct]

theorem items?_last (hitem : value? fuel t = some (item, behind))
    (hbehind : skipBlanks behind = (']' : CodePoint) :: rest) : items? (fuel + 1) t = some ([item], rest) := by
  have hclose : expect "]" (skipBlanks behind) = some rest := by rw [hbehind]; rfl
  simp only [items?, hitem, Option.bind_eq_bind, Option.bind_some, hclose]
  rfl

theorem items?_more (hitem : value? fuel t = some (item, behind))
    (hbehind : skipBlanks behind = (',' : CodePoint) :: further)
    (hitems : items? fuel (skipBlanks further) = some (items, rest)) :
    items? (fuel + 1) t = some (item :: items, rest) := by
  have hopen : expect "]" (skipBlanks behind) = none := by rw [hbehind]; rfl
  have hcomma : expect "," (skipBlanks behind) = some further := by rw [hbehind]; rfl
  simp only [items?, hitem, Option.bind_eq_bind, Option.bind_some, hopen, hcomma, hitems]
  rfl

/-- A field is read up to its value. -/
theorem expect_quote (name t : Text) : expect "\"" (quote name ++ (": " ++ t)) =
    some (name.flatMap escapePoint ++ ('"' : CodePoint) :: (": " ++ t)) := by
  rw [quote_append]
  exact expect_append "\"" _

theorem expect_colon (t : Text) : expect ":" (skipBlanks (": " ++ t)) = some ((' ' : CodePoint) :: t) := rfl

theorem skipBlanks_space (t : Text) : skipBlanks ((' ' : CodePoint) :: t) = skipBlanks t := rfl

theorem members?_last (hitem : value? fuel (skipBlanks t) = some (item, behind))
    (hbehind : skipBlanks behind = ('}' : CodePoint) :: rest) :
    members? (fuel + 1) (quote name ++ (": " ++ t)) = some ([(name, item)], rest) := by
  have hclose : expect "\x7d" (skipBlanks behind) = some rest := by rw [hbehind]; rfl
  simp only [members?, expect_quote, expect_colon, skipBlanks_space, string?_quote, hitem, Option.bind_eq_bind,
    Option.bind_some, hclose]
  rfl

theorem members?_more (hitem : value? fuel (skipBlanks t) = some (item, behind))
    (hbehind : skipBlanks behind = (',' : CodePoint) :: further)
    (hfields : members? fuel (skipBlanks further) = some (fields, rest)) :
    members? (fuel + 1) (quote name ++ (": " ++ t)) = some ((name, item) :: fields, rest) := by
  have hopen : expect "\x7d" (skipBlanks behind) = none := by rw [hbehind]; rfl
  have hcomma : expect "," (skipBlanks behind) = some further := by rw [hbehind]; rfl
  simp only [members?, expect_quote, expect_colon, skipBlanks_space, string?_quote, hitem, Option.bind_eq_bind,
    Option.bind_some, hopen, hcomma, hfields]
  rfl

/-! ## Layouts read back -/

theorem layout_list_append (level : Nat) (h : items ≠ []) (rest : Text) : layout level (list items) ++ rest =
    ('[' : CodePoint) :: (newLine (level + 1) ++ (layoutList (level + 1) items ++
      (newLine level ++ (']' : CodePoint) :: rest))) := by
  cases items with
  | nil => exact absurd rfl h
  | cons item items =>
    simp only [layout, layoutList, List.append_assoc]
    rfl

theorem layout_object_append (level : Nat) (h : fields ≠ []) (rest : Text) : layout level (object fields) ++ rest =
    ('{' : CodePoint) :: (newLine (level + 1) ++ (layoutObject (level + 1) fields ++
      (newLine level ++ ('}' : CodePoint) :: rest))) := by
  rcases fields with _ | ⟨⟨name, value⟩, fields⟩
  · exact absurd rfl h
  · simp only [layout, layoutObject, List.append_assoc]
    rfl

theorem layoutList_cons_cons (level : Nat) (item next : Json) (items : List Json) (rest : Text) :
    layoutList level (item :: next :: items) ++ rest = layout level item ++ ((',' : CodePoint) :: (newLine level ++
      (layoutList level (next :: items) ++ rest))) := by
  simp only [layoutList, layoutItems, List.append_assoc]
  rfl

theorem layoutObject_cons (level : Nat) (name : Text) (value : Json) (fields : List (Text × Json)) (rest : Text) :
    layoutObject level ((name, value) :: fields) ++ rest =
      quote name ++ (": " ++ (layout level value ++ (layoutFields level fields ++ rest))) := by
  simp only [layoutObject, List.append_assoc]

theorem layoutFields_cons (level : Nat) (field : Text × Json) (fields : List (Text × Json)) (rest : Text) :
    layoutFields level (field :: fields) ++ rest =
      (',' : CodePoint) :: (newLine level ++ (layoutObject level (field :: fields) ++ rest)) := by
  simp only [layoutFields, layoutObject, List.append_assoc]
  rfl

theorem stops_cons {c : CodePoint} (h : c.isAsciiDigit = false ∧ c ≠ '.' ∧ c ≠ 'e' ∧ c ≠ 'E') (t : Text) :
    Stops (c :: t) := by
  intro d hd
  rw [← Option.some.inj hd]
  exact h

theorem stops_newLine (level : Nat) (t : Text) : Stops (newLine level ++ t) := stops_cons (by decide) _

mutual

/-- A plain value is read back from its layout, whatever text follows that could not belong to it. -/
theorem value?_layout : ∀ (v : Json) (level fuel : Nat) (rest : Text), v.isPlain = true → Stops rest →
    (layout level v).length < fuel → value? fuel (layout level v ++ rest) = some (v, rest)
  | _, _, 0, _, _, _, hfuel => absurd hfuel (Nat.not_lt_zero _)
  | null, _, fuel + 1, rest, _, _, _ => value?_null fuel rest
  | bool b, _, fuel + 1, rest, _, _, _ => value?_bool fuel b rest
  | integer n, _, fuel + 1, _, _, hrest, _ => value?_ofInt fuel n hrest
  | text t, _, fuel + 1, rest, _, _, _ => value?_quote fuel t rest
  | list [], _, fuel + 1, _, _, _, _ => rfl
  | object [], _, fuel + 1, _, _, _, _ => rfl
  | list (item :: items), level, fuel + 1, rest, hplain, _, hfuel => by
    have hitems := items?_layout (item :: items) (level + 1) level fuel rest (by simp) hplain
      (by simp [layout, layoutList, newLine] at hfuel ⊢; omega)
    obtain ⟨hitem, -⟩ := Bool.and_eq_true_iff.1 hplain
    rw [layout_list_append level (by simp) rest]
    rw [layoutList, List.append_assoc] at hitems ⊢
    refine value?_bracket ?_ ?_
    · rw [skipBlanks_newLine, skipBlanks_layout hitem]
      obtain ⟨c, others, hlayout, -, hc⟩ := exists_layout hitem (level + 1)
      rw [hlayout]
      exact expect_cons_of_ne hc.symm _ _
    · rw [skipBlanks_newLine, skipBlanks_layout hitem]
      exact hitems
  | object ((name, value) :: fields), level, fuel + 1, rest, hplain, _, hfuel => by
    obtain ⟨hfields, hdistinct⟩ := Bool.and_eq_true_iff.1 hplain
    have hmembers := members?_layout ((name, value) :: fields) (level + 1) level fuel rest (by simp) hfields
      (by simp [layout, layoutObject, newLine] at hfuel ⊢; omega)
    rw [layoutObject_cons, quote_append] at hmembers
    rw [layout_object_append level (by simp) rest, layoutObject_cons, quote_append]
    refine value?_brace ?_ ?_ (of_decide_eq_true hdistinct)
    · rw [skipBlanks_newLine, skipBlanks_of_head rfl]
      exact expect_cons_of_ne (by decide) _ _
    · rw [skipBlanks_newLine, skipBlanks_of_head rfl]
      exact hmembers

/-- So are the items of a list, up to its closing bracket. -/
theorem items?_layout : ∀ (items : List Json) (level outer fuel : Nat) (rest : Text), items ≠ [] →
    arePlain items = true → (layoutList level items).length + 1 < fuel →
    items? fuel (layoutList level items ++ (newLine outer ++ (']' : CodePoint) :: rest)) = some (items, rest)
  | [], _, _, _, _, hne, _, _ => absurd rfl hne
  | _, _, _, 0, _, _, _, hfuel => absurd hfuel (Nat.not_lt_zero _)
  | [item], level, outer, fuel + 1, rest, _, hplain, hfuel => by
    have hitem := value?_layout item level fuel (newLine outer ++ (']' : CodePoint) :: rest)
      (Bool.and_eq_true_iff.1 hplain).1 (stops_newLine _ _) (by simp [layoutList] at hfuel; omega)
    rw [layoutList, layoutItems, List.append_nil]
    refine items?_last hitem ?_
    rw [skipBlanks_newLine, skipBlanks_of_head rfl]
  | item :: next :: items, level, outer, fuel + 1, rest, _, hplain, hfuel => by
    obtain ⟨hplain, hothers⟩ := Bool.and_eq_true_iff.1 hplain
    have hlength := hfuel
    simp [layoutList, layoutItems, newLine] at hlength
    rw [layoutList_cons_cons]
    have hitem := value?_layout item level fuel ((',' : CodePoint) :: (newLine level ++
      (layoutList level (next :: items) ++ (newLine outer ++ (']' : CodePoint) :: rest)))) hplain
      (stops_cons (by decide) _) (by omega)
    have hitems := items?_layout (next :: items) level outer fuel rest (by simp) hothers
      (by simp [layoutList]; omega)
    refine items?_more hitem (skipBlanks_of_head rfl) ?_
    rw [skipBlanks_newLine]
    rw [layoutList, List.append_assoc] at hitems ⊢
    rw [skipBlanks_layout (Bool.and_eq_true_iff.1 hothers).1]
    exact hitems

/-- So are the fields of an object, up to its closing brace. -/
theorem members?_layout : ∀ (fields : List (Text × Json)) (level outer fuel : Nat) (rest : Text), fields ≠ [] →
    arePlainFields fields = true → (layoutObject level fields).length + 1 < fuel →
    members? fuel (layoutObject level fields ++ (newLine outer ++ ('}' : CodePoint) :: rest)) = some (fields, rest)
  | [], _, _, _, _, hne, _, _ => absurd rfl hne
  | _, _, _, 0, _, _, _, hfuel => absurd hfuel (Nat.not_lt_zero _)
  | [(name, value)], level, outer, fuel + 1, rest, _, hplain, hfuel => by
    simp only [arePlainFields, Bool.and_eq_true] at hplain
    have hvalue := value?_layout value level fuel (newLine outer ++ ('}' : CodePoint) :: rest) hplain.1.2
      (stops_newLine _ _) (by simp [layoutObject] at hfuel; omega)
    rw [layoutObject_cons, layoutFields, List.nil_append]
    refine members?_last (skipBlanks_layout hplain.1.2 _ _ ▸ hvalue) ?_
    rw [skipBlanks_newLine, skipBlanks_of_head rfl]
  | (name, value) :: next :: fields, level, outer, fuel + 1, rest, _, hplain, hfuel => by
    obtain ⟨hplain, hothers⟩ := Bool.and_eq_true_iff.1 hplain
    have hlength := hfuel
    simp [layoutObject, layoutFields, newLine] at hlength
    rw [layoutObject_cons, layoutFields_cons]
    have hvalue := value?_layout value level fuel ((',' : CodePoint) :: (newLine level ++
      (layoutObject level (next :: fields) ++ (newLine outer ++ ('}' : CodePoint) :: rest))))
      (Bool.and_eq_true_iff.1 hplain).2 (stops_cons (by decide) _) (by omega)
    have hfields := members?_layout (next :: fields) level outer fuel rest (by simp) hothers
      (by simp [layoutObject]; omega)
    refine members?_more (skipBlanks_layout (Bool.and_eq_true_iff.1 hplain).2 _ _ ▸ hvalue) (skipBlanks_of_head rfl) ?_
    rw [skipBlanks_newLine]
    rw [layoutObject_cons, quote_append] at hfields ⊢
    rw [skipBlanks_of_head rfl]
    exact hfields

end

end Reader

/-- A plain value is read back from the document it is written as. -/
theorem read?_pretty {v : Json} (h : v.isPlain = true) : read? (v.pretty ++ "\n") = some v := by
  have hread : Reader.value? (2 * (v.pretty ++ "\n").length + 2) (layout 0 v ++ newLine 0) = some (v, newLine 0) :=
    Reader.value?_layout v 0 _ (newLine 0) h (Reader.stops_newLine 0 []) (by
      rw [List.length_append, pretty]
      omega)
  have hblanks : Reader.skipBlanks (v.pretty ++ "\n") = layout 0 v ++ newLine 0 := Reader.skipBlanks_layout h 0 _
  simp only [read?, hblanks, hread]
  rfl

/-! ## Documents that can be encoded -/

theorem hasSurrogate_escapePoint (c : CodePoint) : (escapePoint c).hasSurrogate = c.isSurrogate := by
  have hcontrol : ∀ n < 0x20, (Text.hexPadded 4 n).hasSurrogate = false := by decide +kernel
  unfold escapePoint
  split_ifs with hspecial hline hreturn htab hbackspace hfeed hlow
  · rcases hspecial with rfl | rfl <;> rfl
  · subst hline; rfl
  · subst hreturn; rfl
  · subst htab; rfl
  · subst hbackspace; rfl
  · subst hfeed; rfl
  · rw [Text.hasSurrogate_append, hcontrol c.val hlow]
    exact (CodePoint.isSurrogate_eq_false_iff.2 (.inl (by omega))).symm
  · exact Bool.or_false _

@[simp] theorem hasSurrogate_quote (t : Text) : (quote t).hasSurrogate = t.hasSurrogate := by
  have hinner : ∀ t : Text, Text.hasSurrogate (t.flatMap escapePoint) = t.hasSurrogate := by
    intro t
    induction t with
    | nil => rfl
    | cons c t ih =>
      rw [List.flatMap_cons, Text.hasSurrogate_append, hasSurrogate_escapePoint, ih, Text.hasSurrogate_cons]
  rw [quote, Text.hasSurrogate_append, Text.hasSurrogate_append, hinner]
  exact Bool.or_false _

@[simp] theorem hasSurrogate_newLine (level : Nat) : (newLine level).hasSurrogate = false := by
  rw [newLine, Text.hasSurrogate_cons, Text.hasSurrogate, List.any_replicate]
  split_ifs <;> rfl

theorem hasSurrogate_ofInt (n : Int) : (Text.ofInt n).hasSurrogate = false := by
  have hnat : ∀ m : Nat, (Text.ofNat m).hasSurrogate = false := by
    intro m
    refine List.any_eq_false.2 fun c hc => ?_
    have hdigit := Text.isAsciiDigit_of_mem_ofNat hc
    rw [CodePoint.isAsciiDigit, Bool.and_eq_true, decide_eq_true_eq, decide_eq_true_eq] at hdigit
    rw [CodePoint.isSurrogate_eq_false_iff.2 (.inl (by omega))]
    exact Bool.false_ne_true
  cases n with
  | ofNat m => exact hnat m
  | negSucc m => exact hnat (m + 1)

mutual

/-- The layout of a plain value can be encoded. -/
theorem hasSurrogate_layout : ∀ (v : Json) (level : Nat), v.isPlain = true → (layout level v).hasSurrogate = false
  | null, _, _ => rfl
  | bool b, _, _ => by cases b <;> rfl
  | integer n, _, _ => hasSurrogate_ofInt n
  | text t, _, h => by simpa [layout, isPlain] using h
  | list [], _, _ => rfl
  | object [], _, _ => rfl
  | list (item :: items), level, h => by
    obtain ⟨hitem, hitems⟩ := Bool.and_eq_true_iff.1 h
    simp only [layout, Text.hasSurrogate_append, hasSurrogate_newLine, hasSurrogate_layout item _ hitem,
      hasSurrogate_layoutItems items _ hitems]
    rfl
  | object ((name, value) :: fields), level, h => by
    simp only [isPlain, arePlainFields, Bool.and_eq_true, Bool.not_eq_true'] at h
    obtain ⟨⟨⟨hname, hvalue⟩, hfields⟩, -⟩ := h
    simp only [layout, Text.hasSurrogate_append, hasSurrogate_newLine, hasSurrogate_quote, hname,
      hasSurrogate_layout value _ hvalue, hasSurrogate_layoutFields fields _ hfields]
    rfl

/-- So can that of further items. -/
theorem hasSurrogate_layoutItems : ∀ (items : List Json) (level : Nat), arePlain items = true →
    (layoutItems level items).hasSurrogate = false
  | [], _, _ => rfl
  | item :: items, level, h => by
    obtain ⟨hitem, hitems⟩ := Bool.and_eq_true_iff.1 h
    simp only [layoutItems, Text.hasSurrogate_append, hasSurrogate_newLine, hasSurrogate_layout item _ hitem,
      hasSurrogate_layoutItems items _ hitems]
    rfl

/-- So can that of further fields. -/
theorem hasSurrogate_layoutFields : ∀ (fields : List (Text × Json)) (level : Nat), arePlainFields fields = true →
    (layoutFields level fields).hasSurrogate = false
  | [], _, _ => rfl
  | (name, value) :: fields, level, h => by
    simp only [arePlainFields, Bool.and_eq_true, Bool.not_eq_true'] at h
    simp only [layoutFields, Text.hasSurrogate_append, hasSurrogate_newLine, hasSurrogate_quote, h.1.1,
      hasSurrogate_layout value _ h.1.2, hasSurrogate_layoutFields fields _ h.2]
    rfl

end

end Json

end Bilingual
