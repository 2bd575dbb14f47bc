import ImageGateway.Json.Token
import ImageGateway.Proofs.Json.Grammar
import Mathlib.Data.List.TakeWhile

/-!
# Tokens and the grammar

The token at the front of a text is found by its first byte.  A number goes on as long as bytes of
numbers follow, and so it is told from what stands behind it only if no such byte comes next.

* `closeQuote_append`, `raw_of_closeQuote` : a string ends at the first quotation mark that is not
  escaped.
* `isNumber_iff` : the numbers are those of the grammar.
* `TokenText`, `token?_append`, `tokenText_of_token?` : **the bytes of a token**, which are found in
  front of what follows and are all that is taken.
-/

namespace ImageGateway

namespace Json

theorem isBlankByte_iff {b : UInt8} :
    isBlankByte b = true ↔ b = 0x20 ∨ b = 0x0a ∨ b = 0x0d ∨ b = 0x09 := by
  simp [isBlankByte, or_assoc]

theorem isDigitByte_iff {b : UInt8} : isDigitByte b = true ↔ 0x30 ≤ b ∧ b ≤ 0x39 := by
  simp [isDigitByte]

/-! ### Strings -/

theorem fourDigits?_append (d₁ d₂ d₃ d₄ : UInt8) (tail : Bytes) :
    fourDigits? (d₁ :: d₂ :: d₃ :: d₄ :: tail) = fourDigits? [d₁, d₂, d₃, d₄] := rfl

theorem lookup_shortEscapes {e b : UInt8} (h : (e, b) ∈ shortEscapes) :
    e ≠ 0x75 ∧ shortEscapes.lookup e = some b := by
  have hall : shortEscapes.all (fun p => p.1 ≠ 0x75 ∧ shortEscapes.lookup p.1 = some p.2) = true :=
    by decide
  exact of_decide_eq_true (List.all_eq_true.1 hall _ h)

variable {raw rest : Bytes}

theorem closeQuote_quote (rest : Bytes) : closeQuote (0x22 :: rest) = some ([], rest) := by
  rw [closeQuote.eq_def]
  exact if_pos rfl

theorem closeQuote_plain {b : UInt8} (hcontrol : 0x20 ≤ b) (hquote : b ≠ 0x22)
    (hslash : b ≠ 0x5c) :
    closeQuote (b :: rest) = (closeQuote rest).map fun (x, y) => (b :: x, y) := by
  rw [closeQuote.eq_def]
  simp [hquote, hslash, UInt8.not_lt.2 hcontrol]

theorem closeQuote_short {e b : UInt8} (h : (e, b) ∈ shortEscapes) :
    closeQuote (0x5c :: e :: rest) = (closeQuote rest).map fun (x, y) => (0x5c :: e :: x, y) := by
  obtain ⟨hcode, hlookup⟩ := lookup_shortEscapes h
  rw [closeQuote.eq_def]
  simp [hcode, hlookup]

theorem closeQuote_code {d₁ d₂ d₃ d₄ : UInt8} {n : Nat}
    (h : fourDigits? [d₁, d₂, d₃, d₄] = some n) :
    closeQuote (0x5c :: 0x75 :: d₁ :: d₂ :: d₃ :: d₄ :: rest) =
      (closeQuote rest).map fun (x, y) => (0x5c :: 0x75 :: d₁ :: d₂ :: d₃ :: d₄ :: x, y) := by
  rw [closeQuote.eq_3]
  simp [fourDigits?_append, h]

theorem closeQuote_append (h : Raw raw) (rest : Bytes) :
    closeQuote (raw ++ 0x22 :: rest) = some (raw, rest) := by
  induction h with
  | nil => exact closeQuote_quote rest
  | plain hcontrol hquote hslash _ ih =>
    rw [List.cons_append, closeQuote_plain hcontrol hquote hslash, ih]
    rfl
  | short he _ ih =>
    rw [List.cons_append, List.cons_append, closeQuote_short he, ih]
    rfl
  | code hdigits _ ih =>
    simp only [List.cons_append]
    rw [closeQuote_code hdigits, ih]
    rfl

theorem raw_of_closeQuote {s : Bytes} (h : closeQuote s = some (raw, rest)) :
    Raw raw ∧ s = raw ++ 0x22 :: rest := by
  fun_induction closeQuote s generalizing raw rest with
  | case1 | case3 | case4 | case7 | case9 => cases h
  | case2 rest =>
    cases h
    exact ⟨.nil, rfl⟩
  | case6 _ _ _ _ _ _ _ hdigits =>
    rw [if_neg hdigits] at h
    cases h
  | case5 d₁ d₂ d₃ d₄ tail _ _ hdigits ih =>
    rw [if_pos hdigits] at h
    obtain ⟨n, hn⟩ := Option.isSome_iff_exists.1 hdigits
    obtain ⟨⟨x, y⟩, hxy, heq⟩ := Option.map_eq_some_iff.1 h
    cases heq
    obtain ⟨hraw, rfl⟩ := ih hxy
    exact ⟨.code hn hraw, rfl⟩
  | case8 e after hcode hlookup _ _ ih =>
    obtain ⟨b, hb⟩ := Option.isSome_iff_exists.1 hlookup
    obtain ⟨_, _, htable, -⟩ := List.lookup_eq_some_iff.1 hb
    obtain ⟨⟨x, y⟩, hxy, heq⟩ := Option.map_eq_some_iff.1 h
    cases heq
    obtain ⟨hraw, rfl⟩ := ih hxy
    exact ⟨.short (b := b) (by rw [htable]; simp) hraw, rfl⟩
  | case10 b tail hquote hcontrol hslash ih =>
    obtain ⟨⟨x, y⟩, hxy, heq⟩ := Option.map_eq_some_iff.1 h
    cases heq
    obtain ⟨hraw, rfl⟩ := ih hxy
    exact ⟨.plain (UInt8.not_lt.1 hcontrol) hquote hslash hraw, rfl⟩

/-! ### Numbers -/

/-- The text does not go on with a byte that the predicate has. -/
def Stops (p : UInt8 → Bool) (s : Bytes) : Prop := ∀ b, s.head? = some b → p b = false

theorem stops_nil {p : UInt8 → Bool} : Stops p [] := fun _ h => nomatch h

theorem stops_cons {p : UInt8 → Bool} {b : UInt8} (h : p b = false) : Stops p (b :: rest) := by
  rintro _ ⟨⟩
  exact h

theorem stops_dropWhile (p : UInt8 → Bool) (s : Bytes) : Stops p (s.dropWhile p) := by
  intro b hb
  have hfirst := List.head?_dropWhile_not p s
  rw [hb] at hfirst
  simpa using hfirst

theorem takeWhile_append {p : UInt8 → Bool} {s : Bytes} (h : ∀ b ∈ s, p b = true)
    (hrest : Stops p rest) : (s ++ rest).takeWhile p = s ∧ (s ++ rest).dropWhile p = rest := by
  rw [List.takeWhile_append_of_pos h, List.dropWhile_append_of_pos h]
  cases rest with
  | nil => simp
  | cons b rest => simp [hrest b rfl]

theorem digits_iff {s : Bytes} : Digits s ↔ s ≠ [] ∧ s.all isDigitByte = true := by
  simp [Digits, isDigitByte_iff]

theorem isIntegerPart_iff {s : Bytes} (h : ∀ b ∈ s, isDigitByte b = true) :
    isIntegerPart s = true ↔ IntegerPart s := by
  rw [IntegerPart, digits_iff, List.all_eq_true]
  match s with
  | [] => simp [isIntegerPart]
  | [d] => simpa [isIntegerPart] using h
  | d :: e :: s => simpa [isIntegerPart] using fun _ => h

/-- The bytes behind a sign, if there is one. -/
def dropSign : Bytes → Bytes
  | 0x2b :: digits => digits
  | 0x2d :: digits => digits
  | digits => digits

/-- The bytes are an exponent, or there are none. -/
def isExponent : Bytes → Bool
  | [] => true
  | e :: rest =>
    (e = 0x65 || e = 0x45) && !(dropSign rest).isEmpty && (dropSign rest).all isDigitByte

theorem isFractionAndExponent_stop (rest : Bytes) : isFractionAndExponent (0x2e :: rest) =
    (!(rest.takeWhile isDigitByte).isEmpty && isExponent (rest.dropWhile isDigitByte)) := by
  rw [isFractionAndExponent]
  cases (rest.takeWhile isDigitByte).isEmpty with
  | true => rfl
  | false => cases rest.dropWhile isDigitByte <;> rfl

/-- Without a full stop there is no fraction. -/
theorem isFractionAndExponent_of_ne {s : Bytes} (h : s.head? ≠ some 0x2e) :
    isFractionAndExponent s = isExponent s := by
  rw [isFractionAndExponent.eq_def]
  match s with
  | [] => rfl
  | b :: rest =>
    split
    · next heq => exact absurd (congrArg List.head? heq) h
    · rfl

/-- What begins with a digit does not begin with another byte. -/
theorem head_ne_of_digits {s : Bytes} {b : UInt8} (h : Digits s) (hb : isDigitByte b = false)
    (rest : Bytes) : (s ++ rest).head? ≠ some b := by
  obtain ⟨d, s, rfl⟩ := List.exists_cons_of_ne_nil h.1
  rw [List.cons_append, List.head?_cons, ne_eq, Option.some.injEq]
  rintro rfl
  rw [isDigitByte_iff.2 (h.2 _ List.mem_cons_self)] at hb
  cases hb

theorem dropSign_append {sign digits : Bytes} (hsign : sign = [] ∨ sign = [0x2b] ∨ sign = [0x2d])
    (h : Digits digits) : dropSign (sign ++ digits) = digits := by
  rcases hsign with rfl | rfl | rfl
  · have hplus := head_ne_of_digits (b := 0x2b) h rfl []
    have hminus := head_ne_of_digits (b := 0x2d) h rfl []
    rw [List.append_nil] at hplus hminus
    rw [List.nil_append, dropSign.eq_def]
    split
    · exact absurd rfl hplus
    · exact absurd rfl hminus
    · rfl
  · rfl
  · rfl

theorem exists_sign (s : Bytes) :
    ∃ sign, (sign = [] ∨ sign = [0x2b] ∨ sign = [0x2d]) ∧ s = sign ++ dropSign s := by
  rw [dropSign.eq_def]
  split
  · exact ⟨[0x2b], by simp⟩
  · exact ⟨[0x2d], by simp⟩
  · exact ⟨[], by simp⟩

theorem isExponent_iff {s : Bytes} : isExponent s = true ↔ Exponent s := by
  rw [Exponent]
  cases s with
  | nil => simp [isExponent]
  | cons e rest =>
    simp only [isExponent, Bool.and_eq_true, Bool.or_eq_true, decide_eq_true_eq,
      Bool.not_eq_true', List.isEmpty_eq_false_iff, reduceCtorEq, false_or, List.cons.injEq]
    constructor
    · rintro ⟨⟨he, hne⟩, hdigits⟩
      obtain ⟨sign, hsign, hrest⟩ := exists_sign rest
      exact ⟨e, sign, dropSign rest, ⟨rfl, hrest⟩, he, hsign, digits_iff.2 ⟨hne, hdigits⟩⟩
    · rintro ⟨_, sign, digits, ⟨rfl, rfl⟩, he, hsign, hdigits⟩
      rw [dropSign_append hsign hdigits]
      exact ⟨⟨he, hdigits.1⟩, (digits_iff.1 hdigits).2⟩

theorem isDigitByte_of_mem {s : Bytes} (h : Digits s) : ∀ b ∈ s, isDigitByte b = true :=
  fun b hb => isDigitByte_iff.2 (h.2 b hb)

/-- An exponent neither goes on with a digit nor with a full stop. -/
theorem head_of_exponent {s : Bytes} (h : Exponent s) :
    Stops isDigitByte s ∧ s.head? ≠ some 0x2e := by
  rcases h with rfl | ⟨e, sign, digits, rfl, rfl | rfl, -, -⟩
  · exact ⟨stops_nil, by simp⟩
  all_goals exact ⟨stops_cons rfl, by simp⟩

theorem isFractionAndExponent_iff {s : Bytes} : isFractionAndExponent s = true ↔
    ∃ fraction exponent, s = fraction ++ exponent ∧ Fraction fraction ∧ Exponent exponent := by
  constructor
  · intro h
    by_cases hstop : s.head? = some 0x2e
    · obtain ⟨rest, rfl⟩ : ∃ rest, s = 0x2e :: rest := by
        match s, hstop with
        | _ :: rest, rfl => exact ⟨rest, rfl⟩
      rw [isFractionAndExponent_stop, Bool.and_eq_true, isExponent_iff, Bool.not_eq_true',
        List.isEmpty_eq_false_iff] at h
      refine ⟨0x2e :: rest.takeWhile isDigitByte, _, ?_, .inr ⟨_, rfl, h.1, ?_⟩, h.2⟩
      · rw [List.cons_append, List.takeWhile_append_dropWhile]
      · exact fun b hb => isDigitByte_iff.1 (List.mem_takeWhile_imp hb)
    · rw [isFractionAndExponent_of_ne hstop, isExponent_iff] at h
      exact ⟨[], s, rfl, .inl rfl, h⟩
  · rintro ⟨fraction, exponent, rfl, rfl | ⟨digits, rfl, hdigits⟩, hexponent⟩
    · rw [List.nil_append, isFractionAndExponent_of_ne (head_of_exponent hexponent).2]
      exact isExponent_iff.2 hexponent
    · obtain ⟨htake, hdrop⟩ := takeWhile_append (isDigitByte_of_mem hdigits)
        (head_of_exponent hexponent).1
      rw [List.cons_append, isFractionAndExponent_stop, htake, hdrop, isExponent_iff.2 hexponent,
        List.isEmpty_eq_false_iff.2 hdigits.1]
      rfl

/-- The numbers are those of the grammar. -/
theorem isNumber_iff {s : Bytes} : isNumber s = true ↔ Number s := by
  rw [isNumber, Bool.and_eq_true, isIntegerPart_iff fun b hb => List.mem_takeWhile_imp hb,
    isFractionAndExponent_iff]
  constructor
  · rintro ⟨hinteger, fraction, exponent, hrest, hfraction, hexponent⟩
    obtain ⟨sign, hsign, hs⟩ : ∃ sign, (sign = [] ∨ sign = [0x2d]) ∧ s = sign ++ dropMinus s := by
      rw [dropMinus.eq_def]
      split
      · exact ⟨[0x2d], by simp⟩
      · exact ⟨[], by simp⟩
    refine ⟨sign, _, fraction, exponent, ?_, hsign, hinteger, hfraction, hexponent⟩
    rw [← hrest, List.takeWhile_append_dropWhile, ← hs]
  · rintro ⟨sign, integer, fraction, exponent, rfl, hsign, hinteger, hfraction, hexponent⟩
    have hminus : dropMinus (sign ++ (integer ++ (fraction ++ exponent))) =
        integer ++ (fraction ++ exponent) := by
      rcases hsign with rfl | rfl
      · rw [List.nil_append, dropMinus.eq_def]
        split
        · next heq =>
          exact absurd (congrArg List.head? heq) (head_ne_of_digits hinteger.1 rfl _)
        · rfl
      · rfl
    have hstops : Stops isDigitByte (fraction ++ exponent) := by
      rcases hfraction with rfl | ⟨digits, rfl, -⟩
      · exact (head_of_exponent hexponent).1
      · exact stops_cons rfl
    obtain ⟨htake, hdrop⟩ := takeWhile_append (isDigitByte_of_mem hinteger.1) hstops
    rw [hminus, htake, hdrop]
    exact ⟨hinteger, fraction, exponent, rfl, hfraction, hexponent⟩

theorem isNumberByte_of_isDigitByte {b : UInt8} (h : isDigitByte b = true) :
    isNumberByte b = true := by
  simp [isNumberByte, h]

theorem isNumberByte_of_digits {s : Bytes} (h : Digits s) : ∀ b ∈ s, isNumberByte b = true :=
  fun b hb => isNumberByte_of_isDigitByte (isDigitByte_of_mem h b hb)

theorem ne_nil_of_number {s : Bytes} (h : Number s) : s ≠ [] := by
  obtain ⟨sign, integer, fraction, exponent, rfl, -, hinteger, -, -⟩ := h
  simp [hinteger.1.1]

theorem isNumberByte_of_number {s : Bytes} (h : Number s) : ∀ b ∈ s, isNumberByte b = true := by
  obtain ⟨sign, integer, fraction, exponent, rfl, hsign, hinteger, hfraction, hexponent⟩ := h
  simp only [List.forall_mem_append]
  refine ⟨?_, isNumberByte_of_digits hinteger.1, ?_, ?_⟩
  · rcases hsign with rfl | rfl <;> simp [isNumberByte]
  · rcases hfraction with rfl | ⟨digits, rfl, hdigits⟩
    · simp
    · exact List.forall_mem_cons.2 ⟨rfl, isNumberByte_of_digits hdigits⟩
  · rcases hexponent with rfl | ⟨e, sign, digits, rfl, he, hsign, hdigits⟩
    · simp
    · rw [List.forall_mem_cons, List.forall_mem_append]
      refine ⟨?_, ?_, isNumberByte_of_digits hdigits⟩
      · rcases he with rfl | rfl <;> rfl
      · rcases hsign with rfl | rfl | rfl <;> simp [isNumberByte]

/-! ### Tokens -/

/-- The bytes are those of the token. -/
inductive TokenText : Token → Bytes → Prop where
  | mark {b : UInt8} {t : Token} (h : punctuation? b = some t) : TokenText t [b]
  | null : TokenText .null (Utf8.encode "null")
  | yes : TokenText (.boolean true) (Utf8.encode "true")
  | no : TokenText (.boolean false) (Utf8.encode "false")
  | number {s : Bytes} (h : Number s) : TokenText (.number s) s
  | string {raw : RawText} (h : Raw raw) : TokenText (.string raw) (Value.quoted raw)

/-- The token ends where the rest begins: a number must not go on. -/
def EndsBefore (rest : Bytes) : Token → Prop
  | .number _ => Stops isNumberByte rest
  | _ => True

theorem eq_of_punctuation? {b : UInt8} {t : Token} (h : punctuation? b = some t) :
    b = 0x5b ∨ b = 0x5d ∨ b = 0x7b ∨ b = 0x7d ∨ b = 0x3a ∨ b = 0x2c := by
  unfold punctuation? at h
  split_ifs at h <;> simp_all

theorem endsBefore_of_punctuation? {b : UInt8} {t : Token} (h : punctuation? b = some t) :
    EndsBefore rest t := by
  rcases eq_of_punctuation? h with rfl | rfl | rfl | rfl | rfl | rfl <;> cases h <;> trivial

theorem punctuation?_eq_none {b : UInt8} (h : isNumberByte b = true) : punctuation? b = none := by
  by_contra hne
  obtain ⟨t, ht⟩ := Option.ne_none_iff_exists'.1 hne
  rcases eq_of_punctuation? ht with rfl | rfl | rfl | rfl | rfl | rfl <;> cases h

theorem isBlankByte_eq_false {b : UInt8} (h : isNumberByte b = true) : isBlankByte b = false := by
  by_contra hblank
  rw [Bool.not_eq_false, isBlankByte_iff] at hblank
  rcases hblank with rfl | rfl | rfl | rfl <;> cases h

theorem token?_of_isNumberByte {b : UInt8} (h : isNumberByte b = true) (rest : Bytes) :
    token? b rest = numberToken? b rest := by
  have hquote : b ≠ 0x22 := by
    rintro rfl
    cases h
  simp [token?, punctuation?_eq_none h, hquote, h]

/-- A token is found in front of what it ends before. -/
theorem token?_append {t : Token} {w : Bytes} (h : TokenText t w) (hrest : EndsBefore rest t) :
    ∃ b more, w = b :: more ∧ isBlankByte b = false ∧ token? b (more ++ rest) = some (t, rest) := by
  cases h with
  | @mark b t h =>
    refine ⟨b, [], rfl, ?_, ?_⟩
    · rcases eq_of_punctuation? h with rfl | rfl | rfl | rfl | rfl | rfl <;> rfl
    · simp [token?, h]
  | null | yes | no => exact ⟨_, _, rfl, rfl, rfl⟩
  | number h =>
    have hbytes := isNumberByte_of_number h
    obtain ⟨b, more, rfl⟩ := List.exists_cons_of_ne_nil (ne_nil_of_number h)
    rw [List.forall_mem_cons] at hbytes
    obtain ⟨htake, hdrop⟩ := takeWhile_append hbytes.2 hrest
    refine ⟨b, more, rfl, isBlankByte_eq_false hbytes.1, ?_⟩
    rw [token?_of_isNumberByte hbytes.1, numberToken?, htake, hdrop, if_pos (isNumber_iff.2 h)]
  | @string raw h =>
    refine ⟨0x22, raw ++ [0x22], rfl, rfl, ?_⟩
    rw [List.append_assoc]
    simp [token?, punctuation?, closeQuote_append h]

/-- A token takes its bytes, and a number all of them. -/
theorem tokenText_of_token? {b : UInt8} {rest' : Bytes} {t : Token}
    (h : token? b rest = some (t, rest')) :
    ∃ w, b :: rest = w ++ rest' ∧ TokenText t w ∧ EndsBefore rest' t := by
  unfold token? at h
  split at h
  · next t' ht =>
    cases h
    exact ⟨[b], rfl, .mark ht, endsBefore_of_punctuation? ht⟩
  split_ifs at h with hquote hnumber
  · obtain ⟨⟨raw, tail⟩, hraw, heq⟩ := Option.map_eq_some_iff.1 h
    cases heq
    obtain ⟨hgrammar, rfl⟩ := raw_of_closeQuote hraw
    exact ⟨Value.quoted raw, by simp [Value.quoted, hquote], .string hgrammar, trivial⟩
  · unfold numberToken? at h
    split_ifs at h with hs
    cases h
    refine ⟨_, ?_, .number (isNumber_iff.1 hs), stops_dropWhile isNumberByte rest⟩
    rw [List.cons_append, List.takeWhile_append_dropWhile]
  · unfold wordToken? at h
    split at h <;> cases h
    · exact ⟨_, rfl, .null, trivial⟩
    · exact ⟨_, rfl, .yes, trivial⟩
    · exact ⟨_, rfl, .no, trivial⟩

/-- A mark is the only text of its token. -/
theorem eq_of_tokenText {t : Token} {w : Bytes} {b : UInt8} (h : TokenText t w)
    (hb : punctuation? b = some t) : w = [b] := by
  cases h with
  | @mark c t hc =>
    rcases eq_of_punctuation? hb with rfl | rfl | rfl | rfl | rfl | rfl <;> cases hb <;>
      rcases eq_of_punctuation? hc with rfl | rfl | rfl | rfl | rfl | rfl <;> cases hc <;> rfl
  | null | yes | no | number | string =>
    rcases eq_of_punctuation? hb with rfl | rfl | rfl | rfl | rfl | rfl <;> cases hb

theorem eq_quoted_of_tokenText {w : Bytes} (h : TokenText (.string raw) w) :
    w = Value.quoted raw ∧ Raw raw := by
  cases h with
  | mark hb => rcases eq_of_punctuation? hb with rfl | rfl | rfl | rfl | rfl | rfl <;> cases hb
  | string h => exact ⟨rfl, h⟩

theorem ne_nil_of_tokenText {t : Token} {w : Bytes} (h : TokenText t w) : w ≠ [] := by
  cases h with
  | mark | null | yes | no | string => exact List.cons_ne_nil _ _
  | number h => exact ne_nil_of_number h

end Json

end ImageGateway
