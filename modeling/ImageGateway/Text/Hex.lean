import ImageGateway.Text.Utf8

/-!
# Hexadecimal digits

Digits are read in either case and written in the case that the caller asks for.
-/

namespace ImageGateway

namespace Text

/-- The value of a hexadecimal digit. -/
def hexValue? (n : Nat) : Option Nat :=
  if 0x30 ≤ n ∧ n ≤ 0x39 then some (n - 0x30)
  else if 0x61 ≤ n ∧ n ≤ 0x66 then some (n - 0x61 + 10)
  else if 0x41 ≤ n ∧ n ≤ 0x46 then some (n - 0x41 + 10)
  else none

/-- The digit of a value below 16, with small letters. -/
def hexDigit (n : Nat) : Char := Char.ofNat (if n < 10 then 0x30 + n else 0x61 + (n - 10))

/-- The digit of a value below 16, with capital letters. -/
def hexDigitUpper (n : Nat) : Char := Char.ofNat (if n < 10 then 0x30 + n else 0x41 + (n - 10))

/-- The value of a row of hexadecimal digits. -/
def hexNumber? (digits : List Char) : Option Nat :=
  digits.foldl (fun n c => do some ((← n) * 16 + (← hexValue? c.toNat))) (some 0)

/-- The digits of a number without leading zeros, with small letters. -/
def hexDigits (n : Nat) : List Char :=
  if n < 16 then [hexDigit n] else hexDigits (n / 16) ++ [hexDigit (n % 16)]

/-- The two digits of a byte, with small letters. -/
def hexByte (b : UInt8) : List Char := [hexDigit (b.toNat / 16), hexDigit (b.toNat % 16)]

/-- The two digits of a byte, with capital letters. -/
def hexByteUpper (b : UInt8) : List Char :=
  [hexDigitUpper (b.toNat / 16), hexDigitUpper (b.toNat % 16)]

end Text

end ImageGateway
