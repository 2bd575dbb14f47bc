/-!
# Places in YAML files

Indentation gives structure to a YAML file, so its characters are read together with the places
where they stand.  A text is a list of spots, the last of which is its end.

* `Spot.ofChars` : the spots of a text.
* `isMark` : the three characters at the beginning of a line that begin or end a document.
* `restOfLine?` : what lies behind the blanks and the comment that may end a line.
-/

namespace ImageGateway

namespace Settings

namespace Yaml

/-- A character and the place where it stands, or the end of the text. -/
structure Spot where
  /-- The end of the text has the character NUL. -/
  char : Char
  line : Nat
  column : Nat
  /-- Only blanks stand before it on its line. -/
  isFirst : Bool
deriving DecidableEq, Repr

/-- The character that stands for the end of the text. -/
def endChar : Char := '\x00'

/-- A blank within a line. -/
def isBlank (c : Char) : Bool := c == ' ' || c == '\t'

/-- The end of a line or of the text. -/
def endsLine (c : Char) : Bool := c == '\n' || c == endChar

/-- A blank, or the end of a line or of the text. -/
def endsWord (c : Char) : Bool := isBlank c || endsLine c

/-- A character that separates the parts of a collection in brackets or braces. -/
def isFlowMark (c : Char) : Bool := ",[]\x7b\x7d".toList.contains c

/-- A letter, a digit, a hyphen or an underscore. -/
def isWordChar (c : Char) : Bool := c.isAlphanum || c == '_' || c == '-'

/-- The text with one spelling of line ends, up to the first NUL. -/
def uniformLines : List Char → List Char
  | [] => []
  | '\r' :: '\n' :: s => '\n' :: uniformLines s
  | c :: s => if c == endChar then [] else (if c == '\r' then '\n' else c) :: uniformLines s

namespace Spot

/-- The spots of a text that begins at a place. -/
def beginAt (line column : Nat) (isFirst : Bool) : List Char → List Spot
  | [] => [⟨endChar, line, column, isFirst⟩]
  | c :: s =>
    ⟨c, line, column, isFirst⟩ ::
      (if c == '\n' then Spot.beginAt (line + 1) 0 true s
       else Spot.beginAt line (column + 1) (isFirst && isBlank c) s)

/-- The spots of a text. -/
def ofChars (s : List Char) : List Spot := Spot.beginAt 0 0 true (uniformLines s)

/-- The spot in front. -/
def front (t : List Spot) : Spot := t.headD ⟨endChar, 0, 0, true⟩

/-- The character in front. -/
def frontChar (t : List Spot) : Char := (front t).char

/-- The characters of spots. -/
def chars (t : List Spot) : List Char := t.map Spot.char

/-- The longest row of characters of a class in front, and the rest. -/
def row (p : Char → Bool) (t : List Spot) : List Char × List Spot :=
  (chars (t.takeWhile fun x => p x.char), t.dropWhile fun x => p x.char)

end Spot

/-- Three times the given character at the beginning of a line, with a blank or nothing behind. -/
def isMark (c : Char) : List Spot → Bool
  | x :: y :: z :: rest =>
    x.column == 0 && [x, y, z].all (·.char == c) && endsWord (Spot.frontChar rest)
  | _ => false

/-- A document begins or ends here. -/
def isDocumentMark (t : List Spot) : Bool := isMark '-' t || isMark '.' t

/-- What lies behind blanks and a comment.  A comment needs a blank before it. -/
def restOfLine? (t : List Spot) : Option (List Spot) :=
  let (blanks, rest) := Spot.row isBlank t
  if Spot.frontChar rest == '#' then
    if blanks.isEmpty then none else some (rest.dropWhile fun x => !endsLine x.char)
  else some rest

/-- Nothing but blanks and a comment stands on the rest of the line; what lies behind them. -/
def lineEnd? (t : List Spot) : Option (List Spot) := do
  let rest ← restOfLine? t
  if endsLine (Spot.frontChar rest) then some rest else none

end Yaml

end Settings

end ImageGateway
