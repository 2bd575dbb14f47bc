import ImageGateway.Codec.Percent
import ImageGateway.Text.Cut
import ImageGateway.Url.Punycode

/-!
# Domain names

The name of a host in its ASCII form: percent-encoding is undone, letters are made small, and a
label with characters outside ASCII is written in Punycode behind `xn--`.  A name with a character
that no domain may hold has no such form.

Capital letters outside ASCII are known for the Latin, Greek, Cyrillic and Armenian alphabets.
-/

namespace ImageGateway

namespace Domain

/-- An ASCII character that no domain may hold. -/
def isForbidden (c : Char) : Bool :=
  c.toNat ≤ 0x20 || c.toNat == 0x7f || "#%/:<>?@[\\]^|".toList.contains c

/-- A character outside ASCII that no domain may hold: controls, private and reserved points. -/
def isDisallowed (c : Char) : Bool :=
  let n := c.toNat
  (0x80 ≤ n && n < 0xa0) || (0x2028 ≤ n && n ≤ 0x202e) || (0xe000 ≤ n && n < 0xf900) ||
    (0xfff9 ≤ n && n ≤ 0xffff) || 0xe0000 ≤ n

/-- A character that a domain may hold and that does not count. -/
def isIgnored (c : Char) : Bool :=
  let n := c.toNat
  n == 0xad || n == 0x34f || n == 0x200b || n == 0x2060 || n == 0xfeff ||
    (0x180b ≤ n && n ≤ 0x180d) || (0xfe00 ≤ n && n ≤ 0xfe0f)

/-- The small letter of a capital letter outside ASCII. -/
def lowerPoint (n : Nat) : Nat :=
  if 0xc0 ≤ n && n ≤ 0xde && n != 0xd7 then n + 32
  -- each capital letter stands before its small letter, at an even point here
  else if (0x100 ≤ n && n ≤ 0x137 && n != 0x130) || (0x14a ≤ n && n ≤ 0x177) ||
      (0x460 ≤ n && n ≤ 0x481) || (0x48a ≤ n && n ≤ 0x4bf) || (0x4d0 ≤ n && n ≤ 0x52f) ||
      (0x1e00 ≤ n && n ≤ 0x1e95) || (0x1ea0 ≤ n && n ≤ 0x1eff) then n + (1 - n % 2)
  -- and at an odd point here
  else if (0x139 ≤ n && n ≤ 0x148) || (0x179 ≤ n && n ≤ 0x17e) then n + n % 2
  else if 0x391 ≤ n && n ≤ 0x3a9 then n + 32
  else if 0x410 ≤ n && n ≤ 0x42f then n + 32
  else if 0x400 ≤ n && n ≤ 0x40f then n + 80
  else if 0x531 ≤ n && n ≤ 0x556 then n + 48
  else n

/-- The form of a character in a domain: wide forms and the full stops of other scripts stand for
their ASCII characters, and letters are made small. -/
def normalForm (c : Char) : Char :=
  let n := c.toNat
  if n == 0x3002 || n == 0xff61 then '.'
  else if 0xff01 ≤ n && n ≤ 0xff5e then (Char.ofNat (n - 0xfee0)).toLower
  else if n < 0x80 then c.toLower
  else Char.ofNat (lowerPoint n)

/-- The ASCII form of one label. -/
def asciiLabel (label : List Char) : List Char :=
  if label.all (·.toNat < 0x80) then label else "xn--".toList ++ Punycode.encode label

/-- The ASCII form of a name. -/
def toAscii? (name : List Char) : Option (List Char) :=
  let normal := (name.filter (!isIgnored ·)).map normalForm
  if normal.any fun c => isForbidden c || isDisallowed c then none
  else some (['.'].intercalate ((normal.splitOn '.').map asciiLabel))

/-- The ASCII form of a name that may be percent-encoded. -/
def ofEncoded? (name : List Char) : Option (List Char) := do
  let text ← Utf8.decode? (Percent.decode (Utf8.encode (String.ofList name)))
  toAscii? text.toList

end Domain

end ImageGateway
