import ImageGateway.Text.Cut
import ImageGateway.Text.Hex

/-!
# Internet addresses

Version 4 addresses are four bytes, version 6 addresses eight pieces of sixteen bits.  The written
form of a version 6 address shortens the first of the longest rows of zero pieces, if that row has
two pieces or more.
-/

namespace ImageGateway

namespace Net

/-- The bytes of a version 4 address, first to last. -/
abbrev Ipv4 := List Nat

/-- The pieces of a version 6 address, first to last. -/
abbrev Ipv6 := List Nat

/-- An address of either version. -/
inductive Address where
  | v4 (bytes : Ipv4)
  | v6 (pieces : Ipv6)
deriving DecidableEq, Repr

/-- The value of a row of decimal digits. -/
def decimal? (digits : List Char) : Option Nat :=
  if !digits.isEmpty && digits.all Char.isDigit then
    some (digits.foldl (fun n c => n * 10 + (c.toNat - 0x30)) 0)
  else none

/-- One byte of a dotted address: at most three digits and no leading zero. -/
def octet? (digits : List Char) : Option Nat := do
  let n ← decimal? digits
  if digits.length ≤ 3 && n ≤ 255 && (digits.length == 1 || digits.head? != some '0') then some n
  else none

/-- The address that four bytes with full stops between them write. -/
def ipv4? (s : List Char) : Option Ipv4 :=
  let parts := s.splitOn '.'
  if parts.length = 4 then parts.mapM octet? else none

/-- One piece of a version 6 address: one to four hexadecimal digits. -/
def piece? (digits : List Char) : Option Nat :=
  if 1 ≤ digits.length && digits.length ≤ 4 then Text.hexNumber? digits else none

/-- The pieces between colons; the last part may be a dotted version 4 address. -/
def pieces? (allowDotted : Bool) : List (List Char) → Option (List Nat)
  | [] => some []
  | [part] =>
    match piece? part with
    | some n => some [n]
    | none =>
      if allowDotted then
        match ipv4? part with
        | some [a, b, c, d] => some [a * 256 + b, c * 256 + d]
        | _ => none
      else none
  | part :: parts => do
    let n ← piece? part
    let rest ← pieces? allowDotted parts
    some (n :: rest)

/-- The pieces of one side of a row that is left out; the side may be empty. -/
def side? (allowDotted : Bool) (s : List Char) : Option (List Nat) :=
  if s.isEmpty then some [] else pieces? allowDotted (s.splitOn ':')

/-- The parts around the first pair of colons. -/
def cutDoubleColon : List Char → Option (List Char × List Char)
  | ':' :: ':' :: rest => some ([], rest)
  | c :: rest => (cutDoubleColon rest).map fun (x, y) => (c :: x, y)
  | [] => none

/-- The version 6 address that a text writes. -/
def ipv6? (s : List Char) : Option Ipv6 :=
  match cutDoubleColon s with
  | none => do
    let pieces ← pieces? true (s.splitOn ':')
    if pieces.length = 8 then some pieces else none
  | some (before, after) => do
    let front ← side? false before
    let back ← side? true after
    let n := front.length + back.length
    if n ≤ 7 then some (front ++ List.replicate (8 - n) 0 ++ back) else none

/-- The address that a text writes. -/
def Address.ofText? (s : String) : Option Address :=
  match ipv4? s.toList with
  | some bytes => some (.v4 bytes)
  | none => (ipv6? s.toList).map .v6

/-- The written form of a version 4 address. -/
def renderIpv4 (bytes : Ipv4) : String := ".".intercalate (bytes.map toString)

/-- The length of the row of zeros at the front. -/
def zeroRow (pieces : List Nat) : Nat := (pieces.takeWhile (· == 0)).length

/-- The start and the length of the first of the longest rows of zeros, counted from `start`. -/
def longestZeroRow : Nat → List Nat → Nat × Nat
  | start, [] => (start, 0)
  | start, n :: pieces =>
    let here := zeroRow (n :: pieces)
    let later := longestZeroRow (start + 1) pieces
    if here < later.2 then later else (start, here)

/-- The hexadecimal pieces with colons between them. -/
def renderPieces (pieces : List Nat) : String :=
  ":".intercalate (pieces.map fun n => String.ofList (Text.hexDigits n))

/-- The written form of a version 6 address. -/
def renderIpv6 (pieces : Ipv6) : String :=
  let (start, length) := longestZeroRow 0 pieces
  if length < 2 then renderPieces pieces
  else renderPieces (pieces.take start) ++ "::" ++ renderPieces (pieces.drop (start + length))

/-- The written form of an address.  A version 4 address inside version 6 keeps its full stops. -/
def Address.render : Address → String
  | .v4 bytes => renderIpv4 bytes
  | .v6 [0, 0, 0, 0, 0, 0xffff, a, b] =>
    "::ffff:" ++ renderIpv4 [a / 256, a % 256, b / 256, b % 256]
  | .v6 pieces => renderIpv6 pieces

end Net

end ImageGateway
