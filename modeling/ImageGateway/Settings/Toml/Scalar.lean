import ImageGateway.Settings.Value
import ImageGateway.Text.Cut
import ImageGateway.Text.Hex

/-!
# Scalars of TOML files

Numbers, dates and words.  Integers have 64 bits; a number with a fraction or an exponent must be
finite; what is not a number or infinite counts as `null`; dates and times are texts, in a uniform
spelling.
-/

namespace ImageGateway

namespace Settings

namespace Toml

/-- The digits of a row in which single underscores may stand between digits. -/
def digits? (isDigit : Char → Bool) (s : List Char) : Option (List Char) :=
  let parts := s.splitOn '_'
  if parts.all fun part => !part.isEmpty && part.all isDigit then some parts.flatten else none

/-- The number that digits of a base write. -/
def numberIn (base : Nat) (digits : List Char) : Nat :=
  digits.foldl (fun n c => n * base + (Text.hexValue? c.toNat).getD 0) 0

/-- An integer of 64 bits. -/
def integer? (n : Int) : Option Value :=
  if -9223372036854775808 ≤ n ∧ n ≤ 9223372036854775807 then some (.integer n) else none

/-- The text without a sign, and whether the sign was a minus. -/
def cutSign : List Char → Bool × List Char
  | '-' :: s => (true, s)
  | '+' :: s => (false, s)
  | s => (false, s)

/-- Digits without a needless zero in front. -/
def plainDigits? (s : List Char) : Option (List Char) := do
  let digits ← digits? Char.isDigit s
  if digits.length == 1 || digits.head? != some '0' then some digits else none

/-- A decimal integer. -/
def decimal? (s : List Char) : Option Value := do
  let (minus, s) := cutSign s
  let n : Int := numberIn 10 (← plainDigits? s)
  integer? (if minus then -n else n)

/-- A hexadecimal digit. -/
def isHexDigit (c : Char) : Bool := (Text.hexValue? c.toNat).isSome

/-- An integer of another base. -/
def based? : List Char → Option Value
  | '0' :: 'x' :: s => do integer? (numberIn 16 (← digits? isHexDigit s))
  | '0' :: 'o' :: s => do integer? (numberIn 8 (← digits? (fun c => '0' ≤ c && c ≤ '7') s))
  | '0' :: 'b' :: s => do integer? (numberIn 2 (← digits? (fun c => c == '0' || c == '1') s))
  | _ => none

/-- The least number that is rounded to infinity. -/
def overflowBound : Nat := Nat.pow 2 1024 - Nat.pow 2 970

/-- The number with these digits, times a power of ten, is too large for a finite number. -/
def overflows (digits : List Char) (exponent : Int) : Bool :=
  let significant := digits.dropWhile (· == '0')
  let magnitude : Int := significant.length + exponent
  -- the exact comparison is made only for numbers near the bound
  if significant.isEmpty || magnitude < 300 then false
  else if 320 < magnitude then true
  else
    let n := numberIn 10 significant
    if 0 ≤ exponent then overflowBound ≤ n * Nat.pow 10 exponent.toNat
    else overflowBound * Nat.pow 10 (-exponent).toNat ≤ n

/-- The digits behind the full stop, if there is one, and the rest. -/
def fraction? : List Char → Option (List Char × List Char)
  | '.' :: s => do
    let isPart (c : Char) := c.isDigit || c == '_'
    some (← digits? Char.isDigit (s.takeWhile isPart), s.dropWhile isPart)
  | s => some ([], s)

/-- The exponent behind its mark, if there is one. -/
def exponent? : List Char → Option Int
  | [] => some 0
  | e :: s =>
    if e == 'e' || e == 'E' then do
      let (minus, s) := cutSign s
      let n : Int := numberIn 10 (← digits? Char.isDigit s)
      some (if minus then -n else n)
    else none

/-- A finite number with a fraction or an exponent. -/
def float? (s : List Char) : Option Value := do
  let isPart (c : Char) := c.isDigit || c == '_'
  let (_, unsigned) := cutSign s
  let whole ← plainDigits? (unsigned.takeWhile isPart)
  let (fraction, rest) ← fraction? (unsigned.dropWhile isPart)
  let exponent ← exponent? rest
  let digits := whole ++ fraction
  if (fraction.isEmpty && rest.isEmpty) || overflows digits (exponent - fraction.length) then none
  else some (.decimal (String.ofList s))

/-- Two digits with a value in a range. -/
def twoDigits? (low high : Nat) : List Char → Option (List Char)
  | a :: b :: rest =>
    let n := numberIn 10 [a, b]
    if a.isDigit && b.isDigit && low ≤ n && n ≤ high then some rest else none
  | _ => none

/-- The number of days of a month. -/
def daysIn (year month : Nat) : Nat :=
  if month = 2 then if year % 4 = 0 ∧ (year % 100 ≠ 0 ∨ year % 400 = 0) then 29 else 28
  else if month = 4 ∨ month = 6 ∨ month = 9 ∨ month = 11 then 30 else 31

/-- A date in front of a text, and the rest. -/
def date? (s : List Char) : Option (List Char × List Char) := do
  let year := s.take 4
  if year.length = 4 && year.all Char.isDigit then
    match s.drop 4 with
    | '-' :: rest => do
      let month := numberIn 10 (rest.take 2)
      match ← twoDigits? 1 12 rest with
      | '-' :: rest => do
        let rest ← twoDigits? 1 (daysIn (numberIn 10 year) month) rest
        some (s.take 10, rest)
      | _ => none
    | _ => none
  else none

/-- The fraction of a second in the uniform spelling: at most nine digits, without zeros at the end
except for the first one. -/
def secondFraction (digits : List Char) : List Char :=
  match ((digits.take 9).reverse.dropWhile (· == '0')).reverse with
  | [] => ['.', '0']
  | kept => '.' :: kept

/-- A time in front of a text, in the uniform spelling, and the rest.  Seconds may be missing. -/
def time? (s : List Char) : Option (List Char × List Char) := do
  match ← twoDigits? 0 23 s with
  | ':' :: r => do
    match ← twoDigits? 0 59 r with
    | ':' :: r => do
      match ← twoDigits? 0 60 r with
      | '.' :: r =>
        let digits := r.takeWhile Char.isDigit
        if digits.isEmpty then none
        else some (s.take 8 ++ secondFraction digits, r.dropWhile Char.isDigit)
      | r => some (s.take 8, r)
    | r => some (s.take 5, r)
  | _ => none

/-- The offset behind a time, in the uniform spelling. -/
def offset? : List Char → Option (List Char)
  | [] => some []
  | ['Z'] => some ['Z']
  | ['z'] => some ['Z']
  | sign :: s => do
    if sign == '+' || sign == '-' then
      match ← twoDigits? 0 23 s with
      | ':' :: r => do
        match ← twoDigits? 0 59 r with
        -- the offset zero has no minus
        | [] => some ((if s == "00:00".toList then '+' else sign) :: s)
        | _ => none
      | _ => none
    else none

/-- A date, a time or both. -/
def dateTime? (s : List Char) : Option Value :=
  match date? s with
  | some (date, []) => some (.text (String.ofList date))
  | some (date, separator :: rest) =>
    if separator == 'T' || separator == 't' || separator == ' ' then do
      let (time, rest) ← time? rest
      some (.text (String.ofList (date ++ 'T' :: time ++ (← offset? rest))))
    else none
  | none =>
    match time? s with
    | some (time, []) => some (.text (String.ofList time))
    | _ => none

/-- A word. -/
def word? (s : List Char) : Option Value :=
  if s == "true".toList then some (.boolean true)
  else if s == "false".toList then some (.boolean false)
  else
    let (_, unsigned) := cutSign s
    if unsigned == "inf".toList || unsigned == "nan".toList then some .null else none

/-- The value that a row of scalar characters is. -/
def scalar? (s : List Char) : Option Value :=
  (word? s).orElse fun _ => (based? s).orElse fun _ => (decimal? s).orElse fun _ =>
    (float? s).orElse fun _ => dateTime? s

end Toml

end Settings

end ImageGateway
