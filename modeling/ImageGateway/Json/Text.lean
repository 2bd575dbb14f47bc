import ImageGateway.Text.Hex

/-!
# Strings of JSON texts

A JSON string is kept as it is written: `RawText` is what stands between the quotation marks.
`RawText.decode?` gives the text that it writes, and fails on an escape for half of a surrogate pair
and on bytes that are not UTF-8.  A raw text that nobody reads may hold either.
-/

namespace ImageGateway

namespace Json

/-- The bytes between the quotation marks of a string. -/
abbrev RawText := Bytes

/-- A byte that may follow a backslash, `u` apart, and the byte that the two write. -/
def shortEscapes : List (UInt8 × UInt8) :=
  [(0x22, 0x22), (0x5c, 0x5c), (0x2f, 0x2f), (0x62, 0x08), (0x66, 0x0c), (0x6e, 0x0a),
    (0x72, 0x0d), (0x74, 0x09)]

/-- The number that four hexadecimal digits write. -/
def fourDigits? : Bytes → Option Nat
  | a :: b :: c :: d :: _ => Text.hexNumber? ([a, b, c, d].map fun x => Char.ofNat x.toNat)
  | _ => none

/-- Splits behind the quotation mark that closes a string.  Escapes must be well formed and control
characters must be escaped. -/
def closeQuote : Bytes → Option (RawText × Bytes)
  | [] => none
  | b :: rest =>
    if b = 0x22 then some ([], rest)
    else if b < 0x20 then none
    else if b = 0x5c then
      match rest with
      | [] => none
      | e :: after =>
        if e = 0x75 then
          match after with
          | d₁ :: d₂ :: d₃ :: d₄ :: tail =>
            if (fourDigits? after).isSome then
              (closeQuote tail).map fun (x, y) => (b :: e :: d₁ :: d₂ :: d₃ :: d₄ :: x, y)
            else none
          | _ => none
        else if (shortEscapes.lookup e).isSome then
          (closeQuote after).map fun (x, y) => (b :: e :: x, y)
        else none
    else (closeQuote rest).map fun (x, y) => (b :: x, y)

namespace RawText

/-- The first half of a surrogate pair. -/
def isHighHalf (n : Nat) : Bool := 0xd800 ≤ n && n < 0xdc00

/-- The second half of a surrogate pair. -/
def isLowHalf (n : Nat) : Bool := 0xdc00 ≤ n && n < 0xe000

/-- The character of a surrogate pair. -/
def joinHalves (high low : Nat) : Char :=
  Char.ofNat (0x10000 + (high - 0xd800) * 0x400 + (low - 0xdc00))

/-- The bytes that a raw text writes. -/
def unescape? : RawText → Option Bytes
  | [] => some []
  | b :: rest =>
    if b = 0x5c then
      match rest with
      | [] => none
      | e :: after =>
        if e = 0x75 then
          match after with
          | _ :: _ :: _ :: _ :: tail => do
            let n ← fourDigits? after
            if isHighHalf n then
              match tail with
              | 0x5c :: 0x75 :: d₁ :: d₂ :: d₃ :: d₄ :: tail => do
                let m ← fourDigits? [d₁, d₂, d₃, d₄]
                if isLowHalf m then
                  let more ← unescape? tail
                  some (String.utf8EncodeChar (joinHalves n m) ++ more)
                else none
              | _ => none
            else if isLowHalf n then none
            else
              let more ← unescape? tail
              some (String.utf8EncodeChar (Char.ofNat n) ++ more)
          | _ => none
        else do
          let byte ← shortEscapes.lookup e
          let more ← unescape? after
          some (byte :: more)
    else (unescape? rest).map (b :: ·)

/-- The text that a raw text writes. -/
def decode? (raw : RawText) : Option String := (unescape? raw).bind Utf8.decode?

/-- How a byte of a text is written. -/
def escapeByte (b : UInt8) : Bytes :=
  if b = 0x22 then [0x5c, 0x22]
  else if b = 0x5c then [0x5c, 0x5c]
  else if b = 0x08 then [0x5c, 0x62]
  else if b = 0x0c then [0x5c, 0x66]
  else if b = 0x0a then [0x5c, 0x6e]
  else if b = 0x0d then [0x5c, 0x72]
  else if b = 0x09 then [0x5c, 0x74]
  else if b < 0x20 then
    [0x5c, 0x75, 0x30, 0x30] ++ (Text.hexByte b).map fun c => UInt8.ofNat c.toNat
  else [b]

/-- The raw text that writes a text: only what has to be escaped is. -/
def ofText (s : String) : RawText := (Utf8.encode s).flatMap escapeByte

end RawText

end Json

end ImageGateway
