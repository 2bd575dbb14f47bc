import ImageGateway.Http.Header
import ImageGateway.Text.Cut
import ImageGateway.Text.Hex

/-!
# Request identifiers

Every request has an identifier, a UUID, which the response repeats.  A client may bring its own;
it is written in a uniform way, whatever way it came.

* `requestIdOf?` : the identifier that a request brings along.
* `requestIdOfBytes` : a new identifier, of random bytes.
-/

namespace ImageGateway

namespace Server

/-- The field that carries the identifier. -/
def requestIdHeader : String := "x-request-id"

/-- The lengths of the groups of digits of a UUID. -/
def groupLengths : List Nat := [8, 4, 4, 4, 12]

/-- Cuts a list into pieces of the given lengths. -/
def cutLengths {α : Type} : List Nat → List α → List (List α)
  | [], _ => []
  | n :: lengths, l => l.take n :: cutLengths lengths (l.drop n)

/-- The UUID that groups of digits write. -/
def ofGroups? (groups : List (List Char)) : Option String :=
  if groups.map List.length == groupLengths &&
      groups.all fun group => group.all fun c => (Text.hexValue? c.toNat).isSome then
    some (String.ofList (['-'].intercalate (groups.map fun group => group.map Char.toLower)))
  else none

/-- What stands between braces or behind the name of the scheme, if either is there. -/
def unwrapped (s : List Char) : List Char :=
  match "urn:uuid:".toList.isPrefixOf? s with
  | some rest => rest
  | none =>
    match s, s.getLast? with
    | '\x7b' :: rest, some '\x7d' => rest.dropLast
    | _, _ => s

/-- The UUID that a text writes, in small letters and with hyphens.  A row of digits without hyphens
stands for itself alone; with hyphens it may have braces around it or a scheme in front. -/
def uuid? (text : String) : Option String :=
  let s := text.toList
  if s.length = 32 then ofGroups? (cutLengths groupLengths s)
  else ofGroups? ((unwrapped s).splitOn '-')

/-- The identifier that a request brings along. -/
def requestIdOf? (headers : Http.Headers) : Option String :=
  (headers.firstText? requestIdHeader).bind fun value => uuid? (Text.trim value)

/-- The identifier that sixteen random bytes make: a UUID of version 4. -/
def requestIdOfBytes (bytes : Bytes) : String :=
  let marked := bytes.mapIdx fun i b =>
    if i = 6 then b % 16 + 0x40 else if i = 8 then b % 64 + 0x80 else b
  let groups := cutLengths groupLengths (marked.flatMap Text.hexByte)
  String.ofList (['-'].intercalate groups)

end Server

end ImageGateway
