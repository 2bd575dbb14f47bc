import ImageGateway.Json.Text

/-!
# Tokens of JSON texts

`tokens?` splits bytes into tokens and drops the blanks between them.  A number is the longest row
of characters that numbers are made of, and that row must be a number.

* `token?_length` : a token takes at least the byte in front.
-/

namespace ImageGateway

namespace Json

/-- A token. -/
inductive Token where
  | openBracket
  | closeBracket
  | openBrace
  | closeBrace
  | colon
  | comma
  | null
  | boolean (b : Bool)
  | number (written : Bytes)
  | string (raw : RawText)
deriving DecidableEq, Repr

/-- A blank between tokens. -/
def isBlankByte (b : UInt8) : Bool := b = 0x20 || b = 0x0a || b = 0x0d || b = 0x09

/-- A decimal digit. -/
def isDigitByte (b : UInt8) : Bool := 0x30 ≤ b && b ≤ 0x39

/-- A byte of which numbers are made. -/
def isNumberByte (b : UInt8) : Bool :=
  isDigitByte b || b = 0x2b || b = 0x2d || b = 0x2e || b = 0x45 || b = 0x65

/-- The bytes behind a minus sign, if there is one. -/
def dropMinus : Bytes → Bytes
  | 0x2d :: rest => rest
  | s => s

/-- Digits without a leading zero. -/
def isIntegerPart (digits : Bytes) : Bool :=
  match digits with
  | [] => false
  | [_] => true
  | d :: _ => d != 0x30

/-- Nothing, or a full stop and digits, or that with an exponent. -/
def isFractionAndExponent (s : Bytes) : Bool :=
  let afterFraction : Option Bytes := match s with
    | 0x2e :: rest =>
      if (rest.takeWhile isDigitByte).isEmpty then none else some (rest.dropWhile isDigitByte)
    | _ => some s
  match afterFraction with
  | none => false
  | some [] => true
  | some (e :: rest) =>
    let digits := match rest with
      | 0x2b :: digits => digits
      | 0x2d :: digits => digits
      | digits => digits
    (e = 0x65 || e = 0x45) && !digits.isEmpty && digits.all isDigitByte

/-- The bytes are a number. -/
def isNumber (s : Bytes) : Bool :=
  let s := dropMinus s
  isIntegerPart (s.takeWhile isDigitByte) && isFractionAndExponent (s.dropWhile isDigitByte)

/-- The token that is a single byte. -/
def punctuation? (b : UInt8) : Option Token :=
  if b = 0x5b then some .openBracket
  else if b = 0x5d then some .closeBracket
  else if b = 0x7b then some .openBrace
  else if b = 0x7d then some .closeBrace
  else if b = 0x3a then some .colon
  else if b = 0x2c then some .comma
  else none

/-- A number that begins with the byte `b`, and the bytes behind it. -/
def numberToken? (b : UInt8) (rest : Bytes) : Option (Token × Bytes) :=
  if isNumber (b :: rest.takeWhile isNumberByte) then
    some (.number (b :: rest.takeWhile isNumberByte), rest.dropWhile isNumberByte)
  else none

/-- A word that begins with the byte `b`, and the bytes behind it. -/
def wordToken? (b : UInt8) (rest : Bytes) : Option (Token × Bytes) :=
  match b, rest with
  | 0x6e, 0x75 :: 0x6c :: 0x6c :: rest => some (.null, rest)
  | 0x74, 0x72 :: 0x75 :: 0x65 :: rest => some (.boolean true, rest)
  | 0x66, 0x61 :: 0x6c :: 0x73 :: 0x65 :: rest => some (.boolean false, rest)
  | _, _ => none

/-- The token that begins with the byte `b`, and the bytes behind it. -/
def token? (b : UInt8) (rest : Bytes) : Option (Token × Bytes) :=
  match punctuation? b with
  | some t => some (t, rest)
  | none =>
    if b = 0x22 then (closeQuote rest).map fun (raw, rest) => (.string raw, rest)
    else if isNumberByte b then numberToken? b rest
    else wordToken? b rest

theorem closeQuote_length {s : Bytes} {raw rest : Bytes} (h : closeQuote s = some (raw, rest)) :
    rest.length < s.length := by
  fun_induction closeQuote s generalizing raw rest
  case case2 => simp_all
  all_goals
    simp only [*, Prod.mk.injEq, Option.map_eq_some_iff, Prod.exists,
      reduceCtorEq, if_true, if_false, Bool.false_eq_true] at h
  all_goals
    obtain ⟨x, y, hxy, rfl, rfl⟩ := h
    rename_i ih
    have := ih hxy
    simp only [List.length_cons]
    omega

theorem numberToken?_length {b : UInt8} {rest rest' : Bytes} {t : Token}
    (h : numberToken? b rest = some (t, rest')) : rest'.length ≤ rest.length := by
  unfold numberToken? at h
  split at h
  · cases h
    exact (List.dropWhile_suffix _).length_le
  · contradiction

theorem wordToken?_length {b : UInt8} {rest rest' : Bytes} {t : Token}
    (h : wordToken? b rest = some (t, rest')) : rest'.length ≤ rest.length := by
  unfold wordToken? at h
  split at h <;> cases h <;> simp only [List.length_cons] <;> omega

theorem token?_length {b : UInt8} {rest rest' : Bytes} {t : Token}
    (h : token? b rest = some (t, rest')) : rest'.length ≤ rest.length := by
  unfold token? at h
  split at h
  · cases h
    exact Nat.le_refl _
  · split at h
    · simp only [Option.map_eq_some_iff, Prod.mk.injEq, Prod.exists] at h
      obtain ⟨x, y, hxy, rfl, rfl⟩ := h
      exact Nat.le_of_lt (closeQuote_length hxy)
    · split at h
      · exact numberToken?_length h
      · exact wordToken?_length h

/-- The tokens of a JSON text. -/
def tokens? : Bytes → Option (List Token)
  | [] => some []
  | b :: rest =>
    if isBlankByte b then tokens? rest
    else match _h : token? b rest with
      | none => none
      | some (t, rest') => (tokens? rest').map (t :: ·)
termination_by s => s.length
decreasing_by
  · simp
  · have := token?_length _h
    simp only [List.length_cons]
    omega

end Json

end ImageGateway
