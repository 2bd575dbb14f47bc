import ImageGateway.Settings.Yaml.Spot
import ImageGateway.Text.Hex

/-!
# Scalars of YAML files that are written in lines of text

A plain scalar has no quotation marks.  It goes on, over lines that are indented further than what
encloses it, up to a comment, a mark of a document or a colon that has a blank behind it; within
brackets or braces also up to one of their marks.

Between double quotation marks a backslash begins an escape, and one at the end of a line joins the
line to the next one.  Between single quotation marks two of them stand for one.  The lines of a
quoted scalar must be indented like what encloses it, and a mark of a document must not begin them.

* `Gap` : what separates two words of such a scalar, over several lines perhaps.
* `plain?`, `quoted?` : the scalar in front of a text.
-/

namespace ImageGateway

namespace Settings

namespace Yaml

/-! ### Gaps -/

/-- What was passed since the last visible character of a scalar.  Blanks within a line count as
they are written, the blanks around a line end do not; one line end counts as a space, and of
several all but the first one count. -/
inductive Gap where
  /-- Blanks of the line, the last one first. -/
  | blanks (passed : List Char)
  /-- A line end and so many more of them.  With `joined`, the first line end does not count. -/
  | lines (joined : Bool) (more : Nat)
deriving DecidableEq, Repr

namespace Gap

/-- Nothing was passed. -/
def none : Gap := .blanks []

/-- The gap with one more blank or line end. -/
def add (c : Char) : Gap → Gap
  | blanks passed => if c == '\n' then lines false 0 else blanks (c :: passed)
  | lines joined more => lines joined (if c == '\n' then more + 1 else more)

/-- What the gap counts as. -/
def text : Gap → List Char
  | blanks passed => passed.reverse
  | lines false 0 => [' ']
  | lines _ more => List.replicate more '\n'

/-- A line end was passed. -/
def hasLineEnd : Gap → Bool
  | blanks _ => false
  | lines _ _ => true

end Gap

/-! ### Plain scalars -/

/-- A plain scalar ends before the characters in front, wherever they stand on their line. -/
def endsPlain (inFlow : Bool) (t : List Spot) : Bool :=
  let c := Spot.frontChar t
  let next := Spot.frontChar (t.drop 1)
  c == endChar || (c == ':' && (endsWord next || (inFlow && isFlowMark next))) ||
    (inFlow && isFlowMark c)

/-- A plain scalar ends at the line of the character in front, which a gap separates from it. -/
def endsPlainLines (inFlow : Bool) (indent : Int) (gap : Gap) (t : List Spot) : Bool :=
  (gap.hasLineEnd && (isDocumentMark t || (!inFlow && (Spot.front t).column < indent))) ||
    (gap != .none && Spot.frontChar t == '#')

/-- A hyphen before a mark of brackets or braces, which must not begin a word between them. -/
def isLoneHyphen (inFlow : Bool) (t : List Spot) : Bool :=
  inFlow && Spot.frontChar t == '-' && isFlowMark (Spot.frontChar (t.drop 1))

/-- What a plain scalar ends with. -/
structure PlainEnd where
  text : List Char
  rest : List Spot
  /-- A line end lies between the scalar and the rest. -/
  hasLineEnd : Bool

/-- Puts text in front of a plain scalar. -/
def PlainEnd.prepend (s : List Char) (e : PlainEnd) : PlainEnd := { e with text := s ++ e.text }

/-- The rest of a plain scalar behind a gap; its further lines are to be indented by `indent`.
While `skipping`, the rest of a line does not count. -/
def plainFrom (inFlow : Bool) (indent : Int) (skipping : Bool) (gap : Gap) :
    List Spot → Option PlainEnd
  | [] => some ⟨[], [], gap.hasLineEnd⟩
  | x :: rest =>
    if skipping && !endsLine x.char then plainFrom inFlow indent true gap rest
    else if x.char == '\n' then plainFrom inFlow indent false (gap.add '\n') rest
    else if isBlank x.char then
      if x.char == '\t' && gap.hasLineEnd && x.column < indent then
        if (lineEnd? (x :: rest)).isSome then plainFrom inFlow indent true gap rest else none
      else plainFrom inFlow indent false (gap.add x.char) rest
    else if endsPlainLines inFlow indent gap (x :: rest) then
      some ⟨[], x :: rest, gap.hasLineEnd⟩
    else if gap != .none && isLoneHyphen inFlow (x :: rest) then none
    else if endsPlain inFlow (x :: rest) then some ⟨[], x :: rest, gap.hasLineEnd⟩
    else (plainFrom inFlow indent false .none rest).map
      (PlainEnd.prepend (gap.text ++ [x.char]))

/-- The plain scalar in front of a text, within an indentation. -/
def plain? (inFlow : Bool) (indent : Int) (t : List Spot) : Option PlainEnd :=
  if isLoneHyphen inFlow t || (inFlow && (Spot.front t).column ≤ indent) then none
  else plainFrom inFlow (indent + 1) false .none t

/-! ### Quoted scalars -/

/-- The character that an escape of one letter stands for. -/
def shortEscape? : Char → Option Char
  | '0' => some '\x00' | 'a' => some '\x07' | 'b' => some '\x08' | 't' => some '\t'
  | '\t' => some '\t' | 'n' => some '\n' | 'v' => some '\x0b' | 'f' => some '\x0c'
  | 'r' => some '\r' | 'e' => some '\x1b' | ' ' => some ' ' | '"' => some '"' | '/' => some '/'
  | '\\' => some '\\' | 'N' => some '\u0085' | '_' => some '\u00a0' | 'L' => some '\u2028'
  | 'P' => some '\u2029' | _ => none

/-- The character that hexadecimal digits name. -/
def codePoint? (digits : List Spot) : Option Char := do
  let n ← Text.hexNumber? (Spot.chars digits)
  if n < 0xd800 || (0xe000 ≤ n && n < 0x110000) then some (Char.ofNat n) else none

/-- Puts text in front of what was read. -/
def prepend (s : List Char) (r : Option (List Char × List Spot)) :
    Option (List Char × List Spot) :=
  r.map fun (text, rest) => (s ++ text, rest)

/-- The visible character in front may not stand here, behind a gap. -/
def isAstray (indent : Int) (gap : Gap) (t : List Spot) : Bool :=
  gap.hasLineEnd && (isDocumentMark t || (Spot.front t).column < indent)

/-- The rest of a scalar in double quotation marks, behind a gap.  A closing quotation mark right
behind a joined line end may stand anywhere. -/
def double (indent : Int) (gap : Gap) : List Spot → Option (List Char × List Spot)
  | [] => none
  | x :: rest =>
    if isBlank x.char || x.char == '\n' then
      if x.char == '\t' && gap.hasLineEnd && x.column < indent then none
      else double indent (gap.add x.char) rest
    else if x.char == '"' && x.column == 0 && gap == .lines true 0 then some ([], rest)
    else if x.char == endChar || isAstray indent gap (x :: rest) then none
    else prepend gap.text (
      if x.char == '"' then some ([], rest)
      else if x.char == '\\' then
        match rest with
        | [] => none
        | e :: rest =>
          -- the line end itself is escaped
          if e.char == '\n' then double indent (.lines true 0) rest
          else match e.char, rest with
          | 'x', a :: b :: rest => do prepend [← codePoint? [a, b]] (double indent .none rest)
          | 'u', a :: b :: c :: d :: rest => do
            prepend [← codePoint? [a, b, c, d]] (double indent .none rest)
          | 'U', a :: b :: c :: d :: f :: g :: h :: i :: rest => do
            prepend [← codePoint? [a, b, c, d, f, g, h, i]] (double indent .none rest)
          | c, rest => do prepend [← shortEscape? c] (double indent .none rest)
      else prepend [x.char] (double indent .none rest))

/-- The rest of a scalar in single quotation marks, behind a gap. -/
def single (indent : Int) (gap : Gap) : List Spot → Option (List Char × List Spot)
  | [] => none
  | x :: rest =>
    if isBlank x.char || x.char == '\n' then
      if x.char == '\t' && gap.hasLineEnd && x.column < indent then none
      else single indent (gap.add x.char) rest
    else if x.char == endChar || isAstray indent gap (x :: rest) then none
    else prepend gap.text (
      if x.char == '\'' then
        match rest with
        | [] => some ([], [])
        | y :: rest =>
          if y.char == '\'' then prepend ['\''] (single indent .none rest)
          else some ([], y :: rest)
      else prepend [x.char] (single indent .none rest))

/-- The quoted scalar in front of a text, within an indentation. -/
def quoted? (indent : Int) : List Spot → Option (List Char × List Spot)
  | [] => none
  | x :: rest => if x.char == '"' then double indent .none rest else single indent .none rest

end Yaml

end Settings

end ImageGateway
