import ImageGateway.Settings.Yaml.Spot
import ImageGateway.Text.Hex

/-!
# Scalars in blocks of lines

Behind `|` a text is written line by line, and behind `>` its lines are joined by spaces, except
for those that begin with a blank.  The indentation of the first line, or the number behind the
mark, says which columns do not belong to the text.  What becomes of the line ends behind the last
line can be chosen.

* `blockText?` : the text in front, and the rest.
-/

namespace ImageGateway

namespace Settings

namespace Yaml

/-- What becomes of the line ends behind a text in a block. -/
inductive Ending where
  /-- They do not count. -/
  | strip
  /-- Only the first one counts. -/
  | clip
  /-- All of them count. -/
  | keep
deriving DecidableEq, Repr

/-- The signs behind the mark of a block. -/
structure BlockHeader where
  ending : Ending
  /-- The number of columns of the indentation, or zero for that of the first line. -/
  width : Nat
  rest : List Spot

/-- The width in front of a text, zero if there is none. -/
def width? (t : List Spot) : Option (Nat × List Spot) :=
  let c := Spot.frontChar t
  if c == '0' then none
  else if c.isDigit then some (c.toNat - '0'.toNat, t.drop 1)
  else some (0, t)

/-- The sign for the ending in front of a text. -/
def ending (t : List Spot) : Ending × List Spot :=
  match Spot.frontChar t with
  | '+' => (.keep, t.drop 1)
  | '-' => (.strip, t.drop 1)
  | _ => (.clip, t)

/-- The signs behind the mark of a block, in either order. -/
def blockHeader? (t : List Spot) : Option BlockHeader := do
  let (chosen, rest) := ending t
  let (width, rest) ← width? rest
  if chosen == .clip then
    let (chosen, rest) := ending rest
    some ⟨chosen, width, rest⟩
  else some ⟨chosen, width, rest⟩

/-! ### Lines -/

/-- Skips the indentation of a line and the empty lines before it, and counts these. -/
def margin (indent : Nat) : List Spot → Nat × List Spot
  | [] => (0, [])
  | x :: rest =>
    if x.char == '\n' then
      let (n, rest) := margin indent rest
      (n + 1, rest)
    else if x.char == ' ' && x.column < indent then margin indent rest
    else (0, x :: rest)

theorem length_margin_le (indent : Nat) (t : List Spot) :
    (margin indent t).2.length ≤ t.length := by
  induction t with
  | nil => simp [margin]
  | cons x rest ih =>
    simp only [margin]
    split
    · simpa using Nat.le_succ_of_le ih
    · split
      · simpa using Nat.le_succ_of_le ih
      · simp

/-- The indentation that the first line gives.  Empty lines before it count as well. -/
def depth (outer : Int) (t : List Spot) : Nat :=
  let isMargin (x : Spot) := x.char == ' ' || x.char == '\n'
  let columns := (t.takeWhile isMargin ++ (t.dropWhile isMargin).take 1).map Spot.column
  columns.foldl max (outer + 1).toNat

/-- The lines of a block. -/
structure BlockLines where
  /-- The lines, each with the number of empty lines before it. -/
  lines : List (Nat × List Char)
  /-- The text ends within the last line. -/
  isOpen : Bool
  /-- The number of empty lines behind the last line. -/
  empty : Nat
  rest : List Spot

/-- The lines from here on, where the margin has been skipped. -/
def blockLines (indent empty : Nat) (t : List Spot) : BlockLines :=
  let x := Spot.front t
  if x.column != indent || x.char == endChar || (indent == 0 && isMark '.' t) then
    ⟨[], false, empty, t⟩
  else
    let text := Spot.chars (t.takeWhile fun x => !endsLine x.char)
    match _h : t.dropWhile fun x => !endsLine x.char with
    | [] => ⟨[(empty, text)], true, 0, []⟩
    | y :: rest =>
      if y.char == '\n' then
        let below := blockLines indent (margin indent rest).1 (margin indent rest).2
        { below with lines := (empty, text) :: below.lines }
      else ⟨[(empty, text)], true, 0, y :: rest⟩
termination_by t.length
decreasing_by
  have h₁ := length_margin_le indent rest
  have h₂ : (t.dropWhile fun x => !endsLine x.char).length ≤ t.length :=
    (List.dropWhile_sublist _).length_le
  rw [_h, List.length_cons] at h₂
  omega

/-- A line begins with a blank. -/
def beginsBlank (line : List Char) : Bool := (line.head?.map isBlank).getD false

/-- What stands between a line and the one before it, if there is one, when so many empty lines
lie between them. -/
def between (folded : Bool) (before : Option (List Char)) (empty : Nat) (line : List Char) :
    List Char :=
  match before with
  | none => List.replicate empty '\n'
  | some previous =>
    if folded && !beginsBlank previous && !beginsBlank line then
      if empty = 0 then [' '] else List.replicate empty '\n'
    else List.replicate (empty + 1) '\n'

/-- The text of lines, given the line before them. -/
def joinLines (folded : Bool) (before : Option (List Char)) : List (Nat × List Char) → List Char
  | [] => []
  | (empty, line) :: rest =>
    between folded before empty line ++ line ++ joinLines folded (some line) rest

/-- The line ends that count behind the last line.  A text that ends within the columns of a block
has one more of them. -/
def lineEnds (ending : Ending) (indent : Nat) (b : BlockLines) : List Char :=
  let last := if b.lines.isEmpty || b.isOpen then 0 else 1
  let x := Spot.front b.rest
  let atEnd := if x.char == endChar && max indent 1 ≤ x.column then 1 else 0
  match ending with
  | .strip => []
  | .clip => List.replicate (last + atEnd) '\n'
  | .keep => List.replicate (last + atEnd + b.empty) '\n'

/-- The text of a block without lines at the end of a file, where the line of its mark ends or
not. -/
def textWithoutLines (ending : Ending) (hasLineEnd : Bool) (empty : Nat) : List Char :=
  if !hasLineEnd then []
  else match ending with
    | .strip => []
    | .clip => ['\n']
    | .keep => List.replicate (max empty 1) '\n'

/-- The text of a block, whose mark stands in front, within an indentation. -/
def blockText? (outer : Int) (t : List Spot) : Option (List Char × List Spot) := do
  let header ← blockHeader? (t.drop 1)
  let atLineEnd ← lineEnd? header.rest
  let hasLineEnd := Spot.frontChar atLineEnd == '\n'
  let body := if hasLineEnd then atLineEnd.drop 1 else atLineEnd
  let indent := if header.width = 0 then depth outer body else outer.toNat + header.width
  let (empty, first) := margin indent body
  let x := Spot.front first
  -- a tab must not indent the text
  if Spot.frontChar body == '\t' then none
  else if x.char == endChar then
    some (textWithoutLines header.ending hasLineEnd empty, first)
  -- neither text nor what encloses it is indented like that
  else if x.column < indent && outer < x.column then none
  else
    let lines := blockLines indent empty first
    let text := joinLines (Spot.frontChar t == '>') none lines.lines
    some (text ++ lineEnds header.ending indent lines, lines.rest)

end Yaml

end Settings

end ImageGateway
