import ImageGateway.Text.Utf8

/-!
# Base64

The standard alphabet with padding.  `Base64.decode?` is strict: the length is a multiple of four,
padding stands only where it must, and the bits that carry nothing are zero, so each byte string
has one written form.
-/

namespace ImageGateway

namespace Base64

/-- The 64 digits in the order of their values. -/
def alphabet : List Char :=
  "ABCDEFGHIJKLMNOPQRSTUVWXYZabcdefghijklmnopqrstuvwxyz0123456789+/".toList

/-- The digit of a value below 64. -/
def digit (n : Nat) : Char := alphabet.getD n 'A'

/-- The value of a digit. -/
def value? (c : Char) : Option Nat := alphabet.findIdx? (· == c)

/-- The written form of a byte string. -/
def encode : Bytes → List Char
  | a :: b :: c :: rest =>
    let n := a.toNat * 65536 + b.toNat * 256 + c.toNat
    digit (n / 262144) :: digit (n / 4096 % 64) :: digit (n / 64 % 64) :: digit (n % 64) ::
      encode rest
  | [a, b] =>
    let n := a.toNat * 1024 + b.toNat * 4
    [digit (n / 4096), digit (n / 64 % 64), digit (n % 64), '=']
  | [a] => [digit (a.toNat / 4), digit (a.toNat % 4 * 16), '=', '=']
  | [] => []

/-- The digit that stands in URLs for one of the standard alphabet. -/
def urlDigit (c : Char) : Char := if c == '+' then '-' else if c == '/' then '_' else c

/-- The written form for URLs, which has no padding. -/
def encodeUrl (bytes : Bytes) : List Char := ((encode bytes).takeWhile (· != '=')).map urlDigit

/-- The bytes of two digits that end a text. -/
def decodeTwo? (a b : Char) : Option Bytes := do
  let x ← value? a
  let y ← value? b
  if y % 16 = 0 then some [UInt8.ofNat (x * 4 + y / 16)] else none

/-- The bytes of three digits that end a text. -/
def decodeThree? (a b c : Char) : Option Bytes := do
  let x ← value? a
  let y ← value? b
  let z ← value? c
  let n := x * 4096 + y * 64 + z
  if z % 4 = 0 then some [UInt8.ofNat (n / 1024), UInt8.ofNat (n / 4 % 256)] else none

/-- The bytes of four digits. -/
def decodeFour? (a b c d : Char) : Option Bytes := do
  let x ← value? a
  let y ← value? b
  let z ← value? c
  let w ← value? d
  let n := x * 262144 + y * 4096 + z * 64 + w
  some [UInt8.ofNat (n / 65536), UInt8.ofNat (n / 256 % 256), UInt8.ofNat (n % 256)]

/-- The byte string with this written form. -/
def decode? : List Char → Option Bytes
  | [] => some []
  | a :: b :: c :: d :: rest =>
    if rest.isEmpty && d == '=' then
      if c == '=' then decodeTwo? a b else decodeThree? a b c
    else do
      let front ← decodeFour? a b c d
      let back ← decode? rest
      some (front ++ back)
  | _ => none

end Base64

end ImageGateway
