import Bilingual.Proofs.Body

set_option autoImplicit false

/-! # Escaping

Escaping is told point by point, and it is also a chain of replacements of whole texts: backslashes first, then what
could end the body or break its line (`Delimiter.escape_eq_replaceAll`). What is escaped says nothing but its own text,
whatever stands around it: it is read back in front of any rest of a body, it is closed by the delimiter behind it and
by nothing in it, and neither a line break nor an interpolation is left in it (`Delimiter.escape_selfContained`). -/

namespace Bilingual

/-! ## Chains of replacements -/

namespace Text

/-- Several replacements one after the other. -/
def replaceAll (replacements : List (Text × Text)) (t : Text) : Text :=
  replacements.foldl (fun t (needle, replacement) => replace needle replacement t) t

/-- To replace a single code point is to write something else for it. -/
theorem replace_point (c : CodePoint) (replacement t : Text) :
    replace [c] replacement t = t.flatMap fun d => if d = c then replacement else [d] := by
  show replace.go [c] replacement 0 t = _
  induction t with
  | nil => rfl
  | cons d rest ih =>
    rw [List.flatMap_cons, ← ih, replace.go]
    by_cases h : d = c
    · rw [if_pos h, if_pos (by simp [h])]
      rfl
    · rw [if_neg h, if_neg (by simp [Ne.symm h])]
      rfl

end Text

/-- The replacements that escape a text for a delimiter. -/
def Delimiter.replacements : Delimiter → List (Text × Text)
  | .quote q => [(['\\'], ['\\', '\\']), ([q.point], ['\\', q.point]), (['\r'], ['\\', 'r']), (['\n'], ['\\', 'n'])]
  | .template => [(['\\'], ['\\', '\\']), (['\x60'], ['\\', '\x60']), (['$', '{'], ['\\', '$', '{'])]

/-- Each code point goes through all replacements of a quoted literal on its own. -/
theorem Quote.escape_eq_replaceAll (q : Quote) (value : Text) :
    q.escape value = Text.replaceAll (Delimiter.quote q).replacements value := by
  show _ = Text.replace _ _ (Text.replace _ _ (Text.replace _ _ (Text.replace _ _ value)))
  simp only [Text.replace_point, List.flatMap_assoc]
  unfold Quote.escape
  congr 1
  funext c
  unfold Quote.escapePoint
  have hbackslash := q.point_ne_backslash
  by_cases hc : c = '\\'
  · subst hc
    cases q <;> rfl
  · by_cases hquote : c = q.point
    · subst hquote
      cases q <;> rfl
    · by_cases hreturn : c = '\r'
      · subst hreturn
        cases q <;> rfl
      · by_cases hline : c = '\n'
        · subst hline
          cases q <;> rfl
        · simp [hc, hquote, hreturn, hline]

/-- A code point of a template with the backslash that it always needs. -/
def templatePoint (c : CodePoint) : Text := if c = '\\' ∨ c = '\x60' then ['\\', c] else [c]

theorem head?_templatePoints (value : Text) :
    (value.flatMap templatePoint).head? = some ('{' : CodePoint) ↔ value.head? = some ('{' : CodePoint) := by
  cases value with
  | nil => rfl
  | cons c rest =>
    rw [List.flatMap_cons, templatePoint]
    split
    · next h => rcases h with rfl | rfl <;> simp
    · simp

/-- What begins no interpolation stays. -/
theorem replace_go_sigil_of_not {c : CodePoint} {replacement rest : Text}
    (h : ¬ (c = '$' ∧ rest.head? = some ('{' : CodePoint))) :
    Text.replace.go ['$', '{'] replacement 0 (c :: rest) = c :: Text.replace.go ['$', '{'] replacement 0 rest := by
  rw [Text.replace.go, if_neg]
  intro hstarts
  obtain ⟨hc, hrest⟩ := List.cons_prefix_cons.1 (List.isPrefixOf_iff_prefix.1 hstarts)
  obtain ⟨behind, rfl⟩ := hrest
  exact h ⟨hc.symm, rfl⟩

/-- What is left to replace in a template behind the backslashes and backticks is the `$` in front of a brace. -/
theorem escapeTemplate_eq_replaceAll (value : Text) :
    escapeTemplate value = Text.replaceAll Delimiter.template.replacements value := by
  show _ = Text.replace _ _ (Text.replace _ _ (Text.replace _ _ value))
  simp only [Text.replace_point, List.flatMap_assoc]
  have hpoint : ∀ c : CodePoint, (if c = '\\' then (['\\', '\\'] : Text) else [c]).flatMap
      (fun d : CodePoint => if d = '\x60' then (['\\', '\x60'] : Text) else [d]) = templatePoint c := by
    intro c
    unfold templatePoint
    by_cases hbackslash : c = '\\'
    · subst hbackslash
      rfl
    · by_cases hbacktick : c = '\x60'
      · subst hbacktick
        rfl
      · simp [hbackslash, hbacktick]
  simp only [hpoint]
  show _ = Text.replace.go _ _ 0 _
  fun_induction escapeTemplate value with
  | case1 => rfl
  | case2 c rest hspecial ih =>
    have hdollar : c ≠ '$' := by rcases hspecial with rfl | rfl <;> decide
    rw [List.flatMap_cons, templatePoint, if_pos hspecial, List.cons_append, List.cons_append, List.nil_append,
      replace_go_sigil_of_not fun h => by simp at h, replace_go_sigil_of_not fun h => hdollar h.1, ih]
  | case3 c rest hspecial hdollar ih =>
    obtain ⟨rfl, hhead⟩ := hdollar
    obtain ⟨behind, rfl⟩ := List.head?_eq_some_iff.1 hhead
    have hbrace : templatePoint ('{' : CodePoint) = [('{' : CodePoint)] := rfl
    rw [ih, List.flatMap_cons, hbrace, List.singleton_append, replace_go_sigil_of_not fun h => by simp at h]
    rfl
  | case4 c rest hspecial hdollar ih =>
    rw [List.flatMap_cons, templatePoint, if_neg hspecial, List.singleton_append, replace_go_sigil_of_not, ih]
    rwa [head?_templatePoints]

/-- Escaping is the chain of the delimiter's replacements. -/
theorem Delimiter.escape_eq_replaceAll (d : Delimiter) (value : Text) :
    d.escape value = Text.replaceAll d.replacements value := by
  cases d with
  | quote q => exact q.escape_eq_replaceAll value
  | template => exact escapeTemplate_eq_replaceAll value

/-! ## What is left in an escaped text -/

/-- Between quotes no line break is left, of either kind. -/
theorem Quote.not_mem_escape (q : Quote) (value : Text) :
    ('\n' : CodePoint) ∉ q.escape value ∧ ('\r' : CodePoint) ∉ q.escape value := by
  refine ⟨(q.encloses_escape value).not_mem_line, fun hmem => ?_⟩
  obtain ⟨c, -, hc⟩ := List.mem_flatMap.1 hmem
  unfold Quote.escapePoint at hc
  split_ifs at hc with hbackslash hquote hreturn hline
  · simp at hc
  · rw [hquote] at hc
    cases q <;> simp [Quote.point] at hc
  · simp at hc
  · simp at hc
  · exact hreturn (List.mem_singleton.1 hc).symm

theorem head?_escapeTemplate {value : Text} (h : (escapeTemplate value).head? = some ('{' : CodePoint)) :
    value.head? = some ('{' : CodePoint) := by
  fun_cases escapeTemplate value with
  | case1 => cases h
  | case2 c rest _ => simp [escapeTemplate, *] at h
  | case3 c rest _ _ => simp [escapeTemplate, *] at h
  | case4 c rest _ _ => simpa [escapeTemplate, *] using h

/-- In a template every interpolation is escaped: the run of backslashes in front of it is odd. The texts in front of
the template, last code point first, may be any with an even run. -/
theorem odd_escapesBefore_sigil {value before pre behind : Text} (hbefore : Literal.escapesBefore before % 2 = 0)
    (h : escapeTemplate value = pre ++ ('$' : CodePoint) :: ('{' : CodePoint) :: behind) :
    Literal.escapesBefore (pre.reverse ++ before) % 2 = 1 := by
  fun_induction escapeTemplate value generalizing before pre with
  | case1 => simp at h
  | case2 c rest hspecial ih =>
    obtain _ | ⟨first, _ | ⟨second, pre⟩⟩ := pre
    · simp at h
    · obtain ⟨-, rfl, -⟩ := by simpa using h
      simp at hspecial
    · obtain ⟨rfl, rfl, hrest⟩ := by simpa using h
      simpa using ih (Literal.even_escapesBefore_escaped c hbefore) hrest
  | case3 c rest hspecial hdollar ih =>
    obtain _ | ⟨first, _ | ⟨second, pre⟩⟩ := pre
    · simp at h
    · obtain ⟨rfl, -⟩ := by simpa using h
      rw [List.reverse_singleton, List.singleton_append, Literal.escapesBefore_backslash]
      omega
    · obtain ⟨rfl, rfl, hrest⟩ := by simpa using h
      simpa using ih (Literal.even_escapesBefore_escaped c hbefore) hrest
  | case4 c rest hspecial hdollar ih =>
    cases pre with
    | nil =>
      -- an unescaped `$` is not in front of a brace
      obtain ⟨rfl, hrest⟩ := List.cons.inj h
      exact absurd ⟨rfl, head?_escapeTemplate (by rw [hrest]; rfl)⟩ hdollar
    | cons first pre =>
      obtain ⟨rfl, hrest⟩ := by simpa using h
      have hnext : Literal.escapesBefore (c :: before) % 2 = 0 := by
        rw [Literal.escapesBefore_cons_of_ne _ fun hc => hspecial (.inl hc)]
      simpa using ih hnext hrest

/-! ## Escaped texts in any context -/

theorem Delimiter.decode_escape_append (d : Delimiter) (value behind : Text) :
    Literal.decode (d.escape value ++ behind) = (Literal.decode behind).map (value ++ ·) := by
  cases d with
  | quote q => exact Literal.decodeFrom_escape q value behind
  | template => exact Literal.decodeFrom_escapeTemplate value behind

/-- Escaping a text is the chain of its delimiter's replacements. The escaped text is read back in front of any rest of
a body, which is read as it is without it. Between its delimiters it ends at the one behind it, whatever comes then.
Between quotes it has no line break, and in a template each interpolation stands behind an odd run of backslashes. -/
theorem Delimiter.escape_selfContained (d : Delimiter) (value behind : Text) :
    d.escape value = Text.replaceAll d.replacements value ∧
      Literal.decode (d.escape value ++ behind) = (Literal.decode behind).map (value ++ ·) ∧
      Literal.closing? (d.point :: (d.escape value ++ d.point :: behind)) d.point 1 =
        some (1 + (d.escape value).length) ∧
      match d with
      | .quote q => ('\n' : CodePoint) ∉ q.escape value ∧ ('\r' : CodePoint) ∉ q.escape value
      | .template => ∀ pre post, escapeTemplate value = pre ++ ('$' : CodePoint) :: ('{' : CodePoint) :: post →
          Literal.escapesBefore pre.reverse % 2 = 1 := by
  refine ⟨d.escape_eq_replaceAll value, d.decode_escape_append value behind, ?_, ?_⟩
  · exact Literal.closing?_of_closes (d.closes_escape value) rfl
  · cases d with
    | quote q => exact q.not_mem_escape value
    | template =>
      intro pre post h
      have hodd := odd_escapesBefore_sigil (show Literal.escapesBefore [] % 2 = 0 from rfl) h
      rwa [List.append_nil] at hodd

/-- A backslash in front of an interpolation, then a quote, a backtick and a line break. -/
def sigilSample : Text := "\\$\x7bx\x7d'\x60\n"

/-- The sample is read back from a template, in front of an escape, which goes on being one, and in front of more code
with a backtick in it. Three backslashes stand in front of its interpolation, and between quotes it is on one line. -/
theorem Delimiter.escape_selfContained_sigil :
    Literal.decode (Delimiter.template.escape sigilSample ++ "\\x41") = .ok (sigilSample ++ "A") ∧
      Literal.closing? (('\x60' : CodePoint) :: (Delimiter.template.escape sigilSample ++
        ('\x60' : CodePoint) :: (" + \x60" : Text))) '\x60' 1 = some 12 ∧
      Literal.escapesBefore ("\\\\\\" : Text).reverse % 2 = 1 ∧
      ('\n' : CodePoint) ∉ Quote.single.escape sigilSample := by
  obtain ⟨-, hdecode, -, hsigils⟩ := escape_selfContained .template sigilSample "\\x41"
  obtain ⟨-, -, hclosing, -⟩ := escape_selfContained .template sigilSample " + \x60"
  obtain ⟨-, -, -, hline, -⟩ := escape_selfContained (.quote .single) sigilSample []
  have hrest : Literal.decode "\\x41" = .ok "A" := by decide +kernel
  have hlength : (Delimiter.template.escape sigilSample).length = 11 := by decide +kernel
  rw [hrest] at hdecode
  rw [hlength] at hclosing
  have hsigil : escapeTemplate sigilSample =
      "\\\\\\" ++ ('$' : CodePoint) :: ('{' : CodePoint) :: ("x\x7d'\\\x60\n" : Text) := by decide +kernel
  exact ⟨hdecode, hclosing, hsigils _ _ hsigil, hline⟩

end Bilingual
