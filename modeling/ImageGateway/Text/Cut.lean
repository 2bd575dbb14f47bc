/-!
# Cutting, trimming and replacing

Splitting a text at a separator, cutting it at the first one, removing a fixed beginning or end or
the blanks at both ends, and replacing every occurrence of a pattern from left to right.  The
operations on lists are the ones that facts are stated about; those on `String` only unpack and
repack.  A character is blank if it has the `White_Space` property of Unicode.
-/

namespace ImageGateway

namespace Text

/-- Splits at the first member of the class `p`, which belongs to neither part. -/
def cutWhere {α : Type} (p : α → Bool) : List α → Option (List α × List α)
  | [] => none
  | a :: l => if p a then some ([], l) else (cutWhere p l).map fun (x, y) => (a :: x, y)

/-- The two parts around the first `c`. -/
def cutAt (c : Char) (s : String) : Option (String × String) :=
  (cutWhere (· == c) s.toList).map fun (x, y) => (String.ofList x, String.ofList y)

/-- The parts around every `c`: one more than there are of them. -/
def splitAt (c : Char) (s : String) : List String :=
  (s.toList.splitOn c).map String.ofList

/-- The rest of `s` behind the beginning `start`. -/
def dropStart? (start s : String) : Option String :=
  (start.toList.isPrefixOf? s.toList).map String.ofList

/-- What stands in `s` before the end `tail`. -/
def dropEnd? (tail s : String) : Option String :=
  (tail.toList.isSuffixOf? s.toList).map String.ofList

/-- `start` is a beginning of `s`. -/
def beginsWith (start s : String) : Bool := start.toList.isPrefixOf s.toList

/-- `part` stands somewhere in the list. -/
def occursIn {α : Type} [BEq α] (part : List α) : List α → Bool
  | [] => part.isEmpty
  | a :: l => part.isPrefixOf (a :: l) || occursIn part l

/-- `part` stands somewhere in `s`. -/
def containsText (part s : String) : Bool := occursIn part.toList s.toList

/-- Replaces the occurrences of `pattern` from left to right, without overlaps; `skip` elements of
the list belong to an occurrence already replaced. -/
def replaceFrom {α : Type} [BEq α] (pattern new : List α) : Nat → List α → List α
  | _, [] => []
  | skip + 1, _ :: l => replaceFrom pattern new skip l
  | 0, a :: l =>
    if pattern.isPrefixOf (a :: l) then new ++ replaceFrom pattern new (pattern.length - 1) l
    else a :: replaceFrom pattern new 0 l

/-- `s` with every occurrence of the nonempty `pattern` replaced, from left to right. -/
def replaceAll (pattern new s : String) : String :=
  String.ofList (replaceFrom pattern.toList new.toList 0 s.toList)

/-- The text with the letters `A` to `Z` made small. -/
def lowerAscii (s : String) : String := String.ofList (s.toList.map Char.toLower)

/-- Equality up to the case of ASCII letters. -/
def eqIgnoringCase (s t : String) : Bool := lowerAscii s == lowerAscii t

/-- The code points with the `White_Space` property. -/
def isBlankCode (n : Nat) : Bool :=
  (0x09 ≤ n && n ≤ 0x0d) || n == 0x20 || n == 0x85 || n == 0xa0 || n == 0x1680 ||
  (0x2000 ≤ n && n ≤ 0x200a) || n == 0x2028 || n == 0x2029 || n == 0x202f || n == 0x205f ||
  n == 0x3000

/-- White space in the sense of Unicode, not only of ASCII. -/
def isBlank (c : Char) : Bool := isBlankCode c.toNat

/-- The list without the members of the class `p` at its two ends. -/
def trimWhere {α : Type} (p : α → Bool) (l : List α) : List α :=
  ((l.dropWhile p).reverse.dropWhile p).reverse

/-- The text without blank characters at its two ends. -/
def trim (s : String) : String := String.ofList (trimWhere isBlank s.toList)

/-- The text without the copies of `c` at its end. -/
def trimEnd (c : Char) (s : String) : String :=
  String.ofList ((s.toList.reverse.dropWhile (· == c)).reverse)

/-- The parts joined by `sep`. -/
def joinWith (sep : String) (parts : List String) : String := sep.intercalate parts

end Text

end ImageGateway
