import ImageGateway.Net.Address
import ImageGateway.Url.Domain

/-!
# Hosts

The host of a URL is a name or an address.  Schemes that are fetched from a server read the text of
a host as a domain, and as a version 4 address if its last label is a number; other schemes take
almost any text.

* `UrlError` : why a text is no URL.
-/

namespace ImageGateway

/-- Why a text is no URL. -/
inductive UrlError where
  | relativeWithoutBase
  | emptyHost
  | invalidPort
  | invalidIpv4
  | invalidIpv6
  | invalidDomain
  | invalidHostCharacter
deriving DecidableEq, Repr

/-- The wording of an error. -/
def UrlError.message : UrlError → String
  | .relativeWithoutBase => "relative URL without a base"
  | .emptyHost => "empty host"
  | .invalidPort => "invalid port number"
  | .invalidIpv4 => "invalid IPv4 address"
  | .invalidIpv6 => "invalid IPv6 address"
  | .invalidDomain => "invalid international domain name"
  | .invalidHostCharacter => "invalid domain character"

/-- The host of a URL. -/
inductive Host where
  | name (text : List Char)
  | v4 (address : Net.Ipv4)
  | v6 (address : Net.Ipv6)
deriving DecidableEq, Repr

namespace Host

/-- The text of a host in a URL. -/
def render : Host → List Char
  | .name text => text
  | .v4 address => (Net.renderIpv4 address).toList
  | .v6 address => '[' :: (Net.renderIpv6 address).toList ++ [']']

/-- The value of a row of digits of a base. -/
def numberIn? (base : Nat) (digits : List Char) : Option Nat :=
  digits.foldl (fun n c => do
    let d ← Text.hexValue? c.toNat
    if d < base then some ((← n) * base + d) else none) (some 0)

/-- A part of a version 4 address in a URL: decimal, octal behind `0`, hexadecimal behind `0x`. -/
def addressPart? : List Char → Option Nat
  | [] => none
  | ['0'] => some 0
  | '0' :: c :: rest => if c.toLower == 'x' then numberIn? 16 rest else numberIn? 8 (c :: rest)
  | digits => numberIn? 10 digits

/-- The parts of a name; an empty one at the end does not count. -/
def nameParts (name : List Char) : List (List Char) :=
  let parts := name.splitOn '.'
  if 1 < parts.length && parts.getLast? == some [] then parts.dropLast else parts

/-- The last part of the name is a number, so the name is meant as an address. -/
def endsInNumber (name : List Char) : Bool :=
  match (nameParts name).getLast? with
  | none => false
  | some part => (!part.isEmpty && part.all Char.isDigit) || (addressPart? part).isSome

/-- The bytes of a number below 2 ^ 32. -/
def addressBytes (n : Nat) : Net.Ipv4 :=
  [n / 16777216 % 256, n / 65536 % 256, n / 256 % 256, n % 256]

/-- The address that a name with a number at its end is: the last part fills all the bytes that
the parts before it leave. -/
def ipv4OfName? (name : List Char) : Option Net.Ipv4 := do
  let numbers ← (nameParts name).mapM addressPart?
  let last ← numbers.getLast?
  let front := numbers.dropLast
  let room := Nat.pow 256 (4 - front.length)
  if numbers.length ≤ 4 && front.all (· ≤ 255) && last < room then
    some (addressBytes (front.foldl (fun n part => n * 256 + part) 0 * room + last))
  else none

/-- An address between brackets. -/
def bracketed (text : List Char) : Except UrlError Host :=
  match text.getLast?, Net.ipv6? text.dropLast with
  | some ']', some address => .ok (.v6 address)
  | _, _ => .error .invalidIpv6

/-- The host that a text writes under a scheme whose hosts are domains. -/
def ofDomain : List Char → Except UrlError Host
  | '[' :: text => bracketed text
  | text =>
    match Domain.ofEncoded? text with
    | none => .error .invalidDomain
    | some [] => .error .emptyHost
    | some ascii =>
      if endsInNumber ascii then
        match ipv4OfName? ascii with
        | some address => .ok (.v4 address)
        | none => .error .invalidIpv4
      else .ok (.name ascii)

/-- A character that the host of no scheme may hold. -/
def isForbidden (c : Char) : Bool := "\x00\t\n\r #/:<>?@[\\]^|".toList.contains c

/-- The host that a text writes under any other scheme. -/
def ofOpaqueText : List Char → Except UrlError Host
  | '[' :: text => bracketed text
  | text =>
    if text.any isForbidden then .error .invalidHostCharacter
    else .ok (.name (Percent.encode (fun c => 0x20 ≤ c.toNat && c.toNat < 0x7f) text))

end Host

end ImageGateway
