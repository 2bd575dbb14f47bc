import ImageGateway.Codec.Percent
import ImageGateway.Text.Cut

/-!
# Paths of URLs

A path is split at slashes, `..` takes the segment before it away, `.` disappears, and what may not
stand in a path is percent-encoded.  Dot segments are recognised with their full stops written as
`%2e` too.

* `UrlPath.resolve` : the segments without dot segments.
* `UrlPath.ofSegments` : the same, percent-encoded.
-/

namespace ImageGateway

namespace UrlPath

/-- The forms of a full stop in a dot segment. -/
def dotForms : List (List Char) := ["." , "%2e", "%2E"].map String.toList

/-- The forms of `.`. -/
def singleDots : List (List Char) := dotForms

/-- The forms of `..`. -/
def doubleDots : List (List Char) := dotForms.flatMap fun a => dotForms.map (a ++ ·)

/-- The segment stands for its own directory. -/
def isSingleDot (segment : List Char) : Bool := singleDots.contains segment

/-- The segment stands for the directory above. -/
def isDoubleDot (segment : List Char) : Bool := doubleDots.contains segment

/-- Resolves the dot segments of a list behind the segments `done`, the last of which is in front.
A dot segment at the end leaves an empty segment. -/
def resolveAfter (done : List (List Char)) : List (List Char) → List (List Char)
  | [] => done.reverse
  | [s] =>
    if isDoubleDot s then ([] :: done.tail).reverse
    else if isSingleDot s then ([] :: done).reverse
    else (s :: done).reverse
  | s :: t :: rest =>
    if isDoubleDot s then resolveAfter done.tail (t :: rest)
    else if isSingleDot s then resolveAfter done (t :: rest)
    else resolveAfter (s :: done) (t :: rest)

/-- The segments without dot segments. -/
def resolve (segments : List (List Char)) : List (List Char) := resolveAfter [] segments

/-- A character that stands in a path as it is. -/
def keeps (c : Char) : Bool :=
  0x20 < c.toNat && c.toNat < 0x7f && !"\"#<>?\x60\x7b\x7d".toList.contains c

/-- The segments of a path in normal form. -/
def ofSegments (segments : List (List Char)) : List (List Char) :=
  (resolve segments).map (Percent.encode keeps)

end UrlPath

end ImageGateway
