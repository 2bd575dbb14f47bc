import ImageGateway.Text.Cut

/-!
# Request targets

The target of a request is a path with a query, or an absolute address with a scheme and an
authority in front of them, or an authority alone.  `Target.ofText?` accepts what the grammar
allows in each place and drops the fragment; only path and query are kept.

Some characters that ought to be percent-encoded in a path are accepted as they stand: quotation
marks, braces and everything outside ASCII.
-/

namespace ImageGateway

namespace Http

/-- The part of a request target that the gateway looks at. -/
structure Target where
  path : String
  query : Option String
deriving DecidableEq, Repr

namespace Target

/-- A character that a path may hold. -/
def isPathChar (c : Char) : Bool :=
  let n := c.toNat
  n == 0x21 || n == 0x22 || (0x24 ≤ n && n ≤ 0x3b) || n == 0x3d || (0x40 ≤ n && n ≤ 0x5f) ||
    0x61 ≤ n

/-- A character that a query may hold. -/
def isQueryChar (c : Char) : Bool :=
  let n := c.toNat
  n == 0x21 || (0x24 ≤ n && n ≤ 0x3b) || n == 0x3d || 0x3f ≤ n

/-- A character that an authority may hold, `%` apart. -/
def isAuthorityChar (c : Char) : Bool := c.isAlphanum || "!$&'()*+,-.:;=@[]_~".toList.contains c

/-- A character that a scheme may hold. -/
def isSchemeChar (c : Char) : Bool := c.isAlphanum || "+-.~".toList.contains c

/-- The longest scheme that is recognised. -/
def longestScheme : Nat := 64

/-- The longest target that is read, in bytes. -/
def longestTarget : Nat := 65534

/-- The text up to the first member of `stops` and the rest from there. -/
def upTo (stops : List Char) (s : List Char) : List Char × List Char :=
  (s.takeWhile (!stops.contains ·), s.dropWhile (!stops.contains ·))

/-- The target with this path and query, of which the fragment is dropped. -/
def ofPathAndQuery? (s : List Char) : Option Target :=
  let (path, rest) := upTo ['?', '#'] s
  let query := match rest with
    | '?' :: query => some (upTo ['#'] query).1
    | _ => none
  if path.all isPathChar && (query.getD []).all isQueryChar then
    some ⟨if path.isEmpty then "/" else String.ofList path, query.map String.ofList⟩
  else none

/-- What a scan of an authority has seen so far. -/
structure AuthorityScan where
  /-- Colons that belong to neither user information nor an address in brackets. -/
  colons : Nat := 0
  opened : Bool := false
  closed : Bool := false
  percent : Bool := false
  /-- The last character was `@`. -/
  atEnd : Bool := false

/-- One character further. -/
def AuthorityScan.step (s : AuthorityScan) (c : Char) : Option AuthorityScan :=
  let s := { s with atEnd := false }
  if c == ':' then if s.colons < 8 then some { s with colons := s.colons + 1 } else none
  else if c == '[' then if s.percent || s.opened then none else some { s with opened := true }
  else if c == ']' then
    if !s.opened || s.closed then none
    else some { s with closed := true, colons := 0, percent := false }
  else if c == '@' then some { s with colons := 0, percent := false, atEnd := true }
  else if c == '%' then some { s with percent := true }
  else if isAuthorityChar c then some s
  else none

/-- The text is an authority. -/
def isAuthority (s : List Char) : Bool :=
  match s.foldlM AuthorityScan.step ({} : AuthorityScan) with
  | some scan => scan.opened == scan.closed && scan.colons ≤ 1 && !scan.atEnd && !scan.percent
  | none => false

/-- The scheme and what follows its `://`. -/
def cutScheme? (s : List Char) : Option (List Char × List Char) :=
  let (scheme, rest) := (s.takeWhile isSchemeChar, s.dropWhile isSchemeChar)
  match rest with
  | ':' :: '/' :: '/' :: rest => some (scheme, rest)
  | _ => none

/-- The target of a text that does not begin with a slash. -/
def ofAbsolute? (s : List Char) : Option Target :=
  match cutScheme? s with
  | some (scheme, rest) =>
    let (authority, rest) := upTo ['/', '?', '#'] rest
    if scheme.length ≤ longestScheme && !authority.isEmpty && isAuthority authority then
      ofPathAndQuery? rest
    else none
  | none => if isAuthority s && !s.isEmpty then some ⟨"", none⟩ else none

/-- The request target that a text writes. -/
def ofText? (text : String) : Option Target :=
  if longestTarget < text.utf8ByteSize then none
  else match text.toList with
    | [] => none
    | ['*'] => some ⟨"*", none⟩
    | '/' :: rest => ofPathAndQuery? ('/' :: rest)
    | s => ofAbsolute? s

/-- Path and query as they are passed on. -/
def pathAndQuery (t : Target) : String :=
  match t.query with
  | some query => t.path ++ "?" ++ query
  | none => t.path

end Target

end Http

end ImageGateway
