import Bilingual.Json.Printer
import Bilingual.Json.Reader
import Bilingual.Proofs.Utf8
import Mathlib.Data.List.TakeWhile

set_option autoImplicit false

/-! # Tokens of a written document

Strings, integers and names are read back from their written forms, whatever text follows that could not belong to
them (`Json.Reader.string?_quote`, `Json.Reader.number?_ofInt`, `Json.Reader.name?_bool`). -/

namespace Bilingual

/-! ## Decimal digits -/

namespace Text

theorem ofNat_of_lt {n : Nat} (h : n < 10) : ofNat n = [CodePoint.ofChar n.digitChar] := by
  rw [ofNat, Nat.toDigits_of_lt_base h]
  rfl

theorem ofNat_of_le {n : Nat} (h : 10 ≤ n) : ofNat n = ofNat (n / 10) ++ [CodePoint.ofChar (n % 10).digitChar] := by
  rw [ofNat, Nat.toDigits_of_base_le (by decide) h, List.map_append]
  rfl

theorem digitValue?_digitChar {n : Nat} (h : n < 10) : (CodePoint.ofChar n.digitChar).digitValue? = some n :=
  (by decide : ∀ n < 10, (CodePoint.ofChar (Nat.digitChar n)).digitValue? = some n) n h

theorem decimalNumber?_concat {t : Text} {c : CodePoint} {n d : Nat} (ht : decimalNumber? t = some n)
    (hc : c.digitValue? = some d) : decimalNumber? (t ++ [c]) = some (n * 10 + d) := by
  cases t with
  | nil => cases ht
  | cons first rest =>
    have hfold : (first :: rest).foldl (fun n c => do return (← n) * 10 + (← c.digitValue?)) (some 0) = some n := ht
    show ((first :: rest) ++ [c]).foldl (fun n c => do return (← n) * 10 + (← c.digitValue?)) (some 0) = _
    rw [List.foldl_append, hfold, List.foldl_cons, List.foldl_nil, hc]
    rfl

/-- The number is read back from its digits. -/
theorem decimalNumber?_ofNat (n : Nat) : decimalNumber? (ofNat n) = some n := by
  induction n using Nat.strongRecOn with
  | _ n ih =>
    by_cases h : n < 10
    · rw [ofNat_of_lt h]
      show (do return (← some 0) * 10 + (← (CodePoint.ofChar n.digitChar).digitValue?) : Option Nat) = some n
      rw [digitValue?_digitChar h]
      simp
    · have hle := Nat.le_of_not_lt h
      rw [ofNat_of_le hle, decimalNumber?_concat (ih (n / 10) (by omega))
        (digitValue?_digitChar (Nat.mod_lt n (by decide)))]
      exact congrArg some (by omega)

theorem isAsciiDigit_of_mem_ofNat {n : Nat} {c : CodePoint} (h : c ∈ ofNat n) : c.isAsciiDigit = true := by
  induction n using Nat.strongRecOn with
  | _ n ih =>
    have hdigit : ∀ m < 10, (CodePoint.ofChar (Nat.digitChar m)).isAsciiDigit = true := by decide
    by_cases hn : n < 10
    · rw [ofNat_of_lt hn] at h
      rw [List.mem_singleton.1 h]
      exact hdigit n hn
    · rw [ofNat_of_le (Nat.le_of_not_lt hn)] at h
      rcases List.mem_append.1 h with h | h
      · exact ih (n / 10) (by omega) h
      · rw [List.mem_singleton.1 h]
        exact hdigit _ (Nat.mod_lt n (by decide))

/-- The digits of a number begin with a zero for zero only, and then there is no other. -/
theorem exists_ofNat (n : Nat) : ∃ (c : CodePoint) (others : Text), ofNat n = c :: others ∧ c.isAsciiDigit = true ∧
    (c = '0' → n = 0) := by
  induction n using Nat.strongRecOn with
  | _ n ih =>
    by_cases h : n < 10
    · refine ⟨_, [], ofNat_of_lt h, isAsciiDigit_of_mem_ofNat (n := n) (by simp [ofNat_of_lt h]), ?_⟩
      exact (by decide : ∀ n < 10, CodePoint.ofChar (Nat.digitChar n) = '0' → n = 0) n h
    · obtain ⟨c, others, hothers, hdigit, hzero⟩ := ih (n / 10) (by omega)
      refine ⟨c, others ++ [CodePoint.ofChar (n % 10).digitChar], ?_, hdigit, fun hc => ?_⟩
      · rw [ofNat_of_le (Nat.le_of_not_lt h), hothers]
        rfl
      · have := hzero hc
        omega

theorem ne_of_isAsciiDigit {c : CodePoint} {d : Char} (hc : c.isAsciiDigit = true)
    (hd : (CodePoint.ofChar d).isAsciiDigit = false) : CodePoint.ofChar d ≠ c := by
  rintro rfl
  rw [hd] at hc
  cases hc

end Text

namespace Json.Reader

/-! ## Strings -/

theorem string?_skip (t rest : Text) : string? t.length (t ++ rest) = string? 0 rest := by
  induction t with
  | nil => rfl
  | cons c t ih => rw [List.length_cons, List.cons_append, string?, ih]

/-- What an escape stands for is read as one code point. -/
theorem string?_escaped {c : CodePoint} {t rest : Text} (h : escape? (t ++ rest) = some (c, t.length)) :
    string? 0 (('\\' : CodePoint) :: (t ++ rest)) =
      (string? 0 rest).map fun found => (c :: found.1, found.2) := by
  rw [string?, if_neg (by decide), if_pos rfl, h]
  show (string? t.length (t ++ rest)).bind _ = _
  rw [string?_skip]
  cases string? 0 rest <;> rfl

theorem string?_plain {c : CodePoint} {rest : Text} (hquote : c ≠ '"') (hbackslash : c ≠ '\\')
    (hcontrol : ¬ c.val < 0x20) :
    string? 0 (c :: rest) = (string? 0 rest).map fun found => (c :: found.1, found.2) := by
  rw [string?, if_neg hquote, if_neg hbackslash, if_neg hcontrol]
  cases string? 0 rest <;> rfl

theorem hexPadded_control {n : Nat} (h : n < 0x20) :
    (Text.hexPadded 4 n).length = 4 ∧ Text.hexNumber? (Text.hexPadded 4 n) = some n :=
  (by decide +kernel : ∀ n < 0x20,
    (Text.hexPadded 4 n).length = 4 ∧ Text.hexNumber? (Text.hexPadded 4 n) = some n) n h

/-- The number of a control code point is read from its four digits. -/
theorem escape?_control {c : CodePoint} (h : c.val < 0x20) (rest : Text) :
    escape? (('u' : CodePoint) :: (Text.hexPadded 4 c.val ++ rest)) = some (c, 5) := by
  obtain ⟨hlength, hnumber⟩ := hexPadded_control h
  have hfirst : unicodeEscape? (('u' : CodePoint) :: (Text.hexPadded 4 c.val ++ rest)) = some c.val := by
    have htake : (Text.hexPadded 4 c.val ++ rest).take 4 = Text.hexPadded 4 c.val := List.take_left' hlength
    rw [unicodeEscape?, List.drop_one, List.tail_cons, htake, List.head?_cons, if_pos ⟨rfl, hlength⟩, hnumber]
  -- no surrogate comes first, so nothing is joined with what follows
  have hjoin : ∀ second : Option Nat, second.bind (joinSurrogates? c.val) = none := by
    rintro (_ | second)
    · rfl
    · exact if_neg (by omega)
  have hpoint : CodePoint.ofNat? c.val = some c := CodePoint.ofNat?_eq_some_iff.2 rfl
  simp [escape?, hfirst, hjoin, hpoint]

/-- An escaped code point is read back, whatever comes behind it. -/
theorem string?_escapePoint (c : CodePoint) (rest : Text) :
    string? 0 (escapePoint c ++ rest) = (string? 0 rest).map fun found => (c :: found.1, found.2) := by
  have hescaped : ∀ {t : Text}, escape? (t ++ rest) = some (c, t.length) →
      string? 0 (('\\' : CodePoint) :: t ++ rest) = (string? 0 rest).map fun found => (c :: found.1, found.2) :=
    string?_escaped
  unfold escapePoint
  split_ifs with hspecial hline hreturn htab hbackspace hfeed hcontrol
  · rcases hspecial with rfl | rfl <;> exact hescaped rfl
  · subst hline
    exact hescaped rfl
  · subst hreturn
    exact hescaped rfl
  · subst htab
    exact hescaped rfl
  · subst hbackspace
    exact hescaped rfl
  · subst hfeed
    exact hescaped rfl
  · have hcode : escape? (('u' : CodePoint) :: Text.hexPadded 4 c.val ++ rest) =
        some (c, (('u' : CodePoint) :: Text.hexPadded 4 c.val).length) := by
      rw [List.cons_append, escape?_control hcontrol, List.length_cons, (hexPadded_control hcontrol).1]
    exact hescaped hcode
  · rw [not_or] at hspecial
    exact string?_plain hspecial.1 hspecial.2 hcontrol

/-- A written string is read up to its closing quote. -/
theorem string?_quote (t rest : Text) :
    string? 0 (t.flatMap escapePoint ++ ('"' : CodePoint) :: rest) = some (t, rest) := by
  induction t with
  | nil => rfl
  | cons c t ih =>
    rw [List.flatMap_cons, List.append_assoc, string?_escapePoint, ih]
    rfl

/-! ## Numbers -/

/-- No number goes on in a text. -/
def Stops (rest : Text) : Prop := ∀ c ∈ rest.head?, c.isAsciiDigit = false ∧ c ≠ '.' ∧ c ≠ 'e' ∧ c ≠ 'E'

variable {rest : Text}

theorem digits_append {ds : Text} (hds : ∀ c ∈ ds, c.isAsciiDigit = true)
    (hrest : ∀ c ∈ rest.head?, c.isAsciiDigit = false) : digits (ds ++ rest) = (ds, rest) := by
  have hbehind : rest.takeWhile (·.isAsciiDigit) = [] ∧ rest.dropWhile (·.isAsciiDigit) = rest := by
    cases rest with
    | nil => exact ⟨rfl, rfl⟩
    | cons c rest =>
      have hc := hrest c rfl
      exact ⟨List.takeWhile_cons_of_neg (by simp [hc]), List.dropWhile_cons_of_neg (by simp [hc])⟩
  rw [digits, List.takeWhile_append_of_pos hds, List.dropWhile_append_of_pos hds, hbehind.1, hbehind.2, List.append_nil]

theorem Stops.fraction_eq (h : Stops rest) : fraction rest = ([], rest) := by
  cases rest with
  | nil => rfl
  | cons c rest => simp [fraction, (h c rfl).2.1]

theorem Stops.exponent_eq (h : Stops rest) : exponent rest = (none, rest) := by
  cases rest with
  | nil => rfl
  | cons c rest => simp [exponent, (h c rfl).2.2.1, (h c rfl).2.2.2]

/-- An integer is read from its sign and its digits, also when those begin with a zero. -/
theorem number?_of_digits {t : Text} {negative : Bool} {m : Nat}
    (hsign : (t.head? == some ('-' : CodePoint)) = negative)
    (hunsigned : (if negative then t.tail else t) = Text.ofNat m ++ rest) (h : Stops rest) :
    number? t = some (integer (if negative then -(m : Int) else m), rest) := by
  have hdigits : digits (Text.ofNat m ++ rest) = (Text.ofNat m, rest) :=
    digits_append (fun c => Text.isAsciiDigit_of_mem_ofNat) fun c hc => (h c hc).1
  have hwhole : (if (Text.ofNat m).head? = some ('0' : CodePoint) then
      ((Text.ofNat m).take 1, (Text.ofNat m ++ rest).tail) else (Text.ofNat m, rest)) = (Text.ofNat m, rest) := by
    split_ifs with hzero
    · obtain ⟨c, others, hothers, -, hc⟩ := Text.exists_ofNat m
      rw [hothers] at hzero
      obtain rfl := hc (Option.some.inj hzero)
      rfl
    · rfl
  unfold number?
  simp only [hsign, hunsigned, hdigits, hwhole, Text.decimalNumber?_ofNat, h.fraction_eq, h.exponent_eq]
  rfl

/-- An integer is read back from its decimal form. -/
theorem number?_ofInt (n : Int) (h : Stops rest) : number? (Text.ofInt n ++ rest) = some (integer n, rest) := by
  cases n with
  | ofNat m =>
    obtain ⟨c, others, hothers, hdigit, -⟩ := Text.exists_ofNat m
    have hsign : ((Text.ofNat m ++ rest).head? == some ('-' : CodePoint)) = false := by
      rw [hothers, List.cons_append, List.head?_cons]
      exact beq_eq_false_iff_ne.2 fun hc => Text.ne_of_isAsciiDigit hdigit (by decide) (Option.some.inj hc).symm
    exact number?_of_digits hsign rfl h
  | negSucc m => exact number?_of_digits (m := m + 1) rfl rfl h

/-! ## Names -/

theorem expect_append (head t : Text) : expect head (head ++ t) = some t := by
  rw [expect, if_pos (List.isPrefixOf_iff_prefix.2 (List.prefix_append head t)), List.drop_left]

theorem expect_of_ne (common : Text) {c d : CodePoint} (h : c ≠ d) (head t : Text) :
    expect (common ++ c :: head) (common ++ d :: t) = none := by
  rw [expect, if_neg]
  rw [List.isPrefixOf_iff_prefix, List.prefix_append_right_inj, List.cons_prefix_cons]
  exact fun hprefix => h hprefix.1

theorem expect_cons_of_ne {c d : CodePoint} (h : c ≠ d) (head t : Text) : expect (c :: head) (d :: t) = none :=
  expect_of_ne [] h head t

theorem name?_null (rest : Text) : name? ("null" ++ rest) = some (null, rest) := by
  have hname := expect_append "null" rest
  simp only [name?, List.findSome?, hname]
  rfl

theorem name?_bool (b : Bool) (rest : Text) :
    name? ((if b then ("true" : Text) else "false") ++ rest) = some (bool b, rest) := by
  cases b with
  | true =>
    have hname := expect_append "true" rest
    have hnull : expect "null" ("true" ++ rest) = none := rfl
    simp only [name?, List.findSome?, if_true, hname, hnull]
    rfl
  | false =>
    have hname := expect_append "false" rest
    have hnull : expect "null" ("false" ++ rest) = none := rfl
    have htrue : expect "true" ("false" ++ rest) = none := rfl
    simp only [name?, List.findSome?, if_false, Bool.false_eq_true, hname, hnull, htrue]
    rfl

theorem name?_of_expect {t : Text}
    (h : ∀ name ∈ (["null", "true", "false", "NaN", "Infinity", "-Infinity"] : List Text), expect name t = none) :
    name? t = none := by
  simp only [List.mem_cons, List.not_mem_nil, or_false, forall_eq_or_imp, forall_eq] at h
  obtain ⟨hnull, htrue, hfalse, hnan, hinfinity, hnegative⟩ := h
  simp only [name?, List.findSome?, hnull, htrue, hfalse, hnan, hinfinity, hnegative, Option.map_none]

/-- No name begins like an integer. -/
theorem name?_ofInt (n : Int) (rest : Text) : name? (Text.ofInt n ++ rest) = none := by
  refine name?_of_expect ?_
  simp only [List.mem_cons, List.not_mem_nil, or_false, forall_eq_or_imp, forall_eq]
  cases n with
  | ofNat m =>
    obtain ⟨c, others, hothers, hdigit, -⟩ := Text.exists_ofNat m
    have hnone : ∀ {d : Char} (name : Text), (CodePoint.ofChar d).isAsciiDigit = false →
        expect (CodePoint.ofChar d :: name) (Text.ofNat m ++ rest) = none := by
      intro d name hd
      rw [hothers]
      exact expect_cons_of_ne (Text.ne_of_isAsciiDigit hdigit hd) name (others ++ rest)
    exact ⟨hnone _ rfl, hnone _ rfl, hnone _ rfl, hnone _ rfl, hnone _ rfl, hnone _ rfl⟩
  | negSucc m =>
    -- the sign is that of negative infinity, but a digit comes behind it
    obtain ⟨c, others, hothers, hdigit, -⟩ := Text.exists_ofNat (m + 1)
    have hinfinity : expect "-Infinity" (Text.ofInt (.negSucc m) ++ rest) = none := by
      rw [Text.ofInt, hothers]
      exact expect_of_ne ['-'] (Text.ne_of_isAsciiDigit hdigit (by decide)) _ (others ++ rest)
    exact ⟨rfl, rfl, rfl, rfl, rfl, hinfinity⟩

end Json.Reader

end Bilingual
