import ImageGateway.Settings.Yaml.Block
import ImageGateway.Settings.Yaml.Layout
import ImageGateway.Settings.Yaml.Flow

/-!
# Cutting YAML files into tokens

Each function of this module takes one lexeme from the front of a text and says what it does to the
layout.  All of them take at least one character, so the cutting ends.

* `Layout.skip?` : takes what lies between two tokens.
* `Layout.read?` : takes the next lexeme.
* `tokens?` : the tokens of a text, if it can be cut.
-/

namespace ImageGateway

namespace Settings

namespace Yaml

/-- What was read, and the rest of the text. -/
abbrev Cut := Option (Layout × List Spot)

namespace Layout

/-! ### Between tokens -/

/-- Takes blanks, line ends and comments.  In a block, a key may begin on a new line, and tabs must
not indent.  While `skipping`, the rest of a line does not count. -/
def skip? (s : Layout) (skipping : Bool) : List Spot → Cut
  | [] => some (s, [])
  | x :: rest =>
    if skipping && !endsLine x.char then skip? s true rest
    else if x.char == '\n' then skip? (s.allowKey (s.mayBeKey || !s.inFlow)) false rest
    else if x.char == '\t' && !s.levels.isEmpty && x.isFirst && x.column < s.indent then
      -- a line of blanks and a comment has no indentation
      if (lineEnd? (x :: rest)).isSome then skip? s true rest else none
    else if isBlank x.char then skip? s false rest
    else if x.char == '#' then skip? s true rest
    else some (s, x :: rest)

/-- Takes blanks, but no tabs, line ends and comments behind a question mark. -/
def skipBehindMark (s : Layout) (skipping : Bool) : List Spot → Layout × List Spot
  | [] => (s, [])
  | x :: rest =>
    if skipping && !endsLine x.char then skipBehindMark s true rest
    else if x.char == '\n' then skipBehindMark (s.allowKey (s.mayBeKey || !s.inFlow)) false rest
    else if x.char == ' ' then skipBehindMark s false rest
    else if x.char == '#' then skipBehindMark s true rest
    else (s, x :: rest)

/-! ### Documents -/

/-- Takes a directive. -/
def readDirective? (s : Layout) (t : List Spot) : Cut := do
  let s ← (s.closeTo (-1)).dropKey?
  let (d, rest) ← directive? t
  some ((s.allowKey false).push (.directive d), rest)

/-- Takes the mark of a document. -/
def readMark? (s : Layout) (token : Token) (t : List Spot) : Cut := do
  let s ← (s.closeTo (-1)).dropKey?
  let s := (s.allowKey false).push token
  if token == .documentEnd then some (s, ← lineEnd? (t.drop 3)) else some (s, t.drop 3)

/-! ### Collections -/

/-- Takes an opening bracket or brace. -/
def readFlowStart? (s : Layout) (kind : Collection) (t : List Spot) : Cut := do
  let s ← (s.noteKey (Spot.front t)).widen.enter?
  let s := match kind with
    | .list => { s with pairs := false :: s.pairs }
    | .mapping => { s with hasMapping := true }
  some ((s.allowKey true).push (.flowStart kind), ← restOfLine? (t.drop 1))

/-- Takes a closing bracket or brace. -/
def readFlowEnd? (s : Layout) (kind : Collection) (t : List Spot) : Cut := do
  let s := (← s.dropKey?).leave.allowKey false
  let s := if kind == .list then { s.endPair with pairs := s.endPair.pairs.drop 1 } else s
  let rest ← restOfLine? (t.drop 1)
  let x := Spot.front rest
  -- what was closed may be a key, and its value may follow the colon at once
  let s := if s.inFlow then { s with adjacent := some (x.line, x.column) } else s
  some (s.push (.flowEnd kind), rest)

/-- Takes a comma. -/
def readComma? (s : Layout) (t : List Spot) : Cut := do
  let s := ((← s.dropKey?).allowKey true).endPair
  some (s.push .comma, ← restOfLine? (t.drop 1))

/-- Takes the hyphen before an item.  Hyphens at the beginning of lines must not follow a name or a
tag at the beginning of a line, which would have to be that of the list. -/
def readDash? (s : Layout) (t : List Spot) : Cut := do
  let x := Spot.front t
  let isStray := x.column == 0 && -1 < s.indent && s.margin == some s.tokens.size
  if s.inFlow || !s.mayBeKey || isStray then none
  let s := s.openBlock x.column s.tokens.size .list
  let hasTab := (Spot.row isBlank (t.drop 1)).1.contains '\t'
  let rest ← restOfLine? (t.drop 1)
  let c := Spot.frontChar rest
  -- the column of a list within the item must not depend on tabs
  if hasTab && c == '-' && endsWord (Spot.frontChar (rest.drop 1)) then none
  let s := if c == '\n' || isFlowMark c then s.widen else s
  some (((← s.dropKey?).allowKey true).push .dash, rest)

/-- Takes the question mark before a key. -/
def readKey? (s : Layout) (t : List Spot) : Cut := do
  let x := Spot.front t
  if !s.inFlow && !s.mayBeKey then none
  let s := if s.inFlow then { s with hasMapping := true }
    else s.openBlock x.column s.tokens.size .mapping
  let s := (← s.dropKey?).allowKey (!s.inFlow)
  let next := Spot.frontChar (t.drop 1)
  if next != ' ' && next != '\n' then none
  let (s, rest) := s.skipBehindMark false (t.drop 1)
  if Spot.frontChar rest == '\t' then none else some (s.push .key, rest)

/-- What lies behind a colon.  Tabs alone must not separate it from a word. -/
def behindColon? (t : List Spot) : Option (List Spot) :=
  if Spot.frontChar t == '\t' then do
    let rest ← restOfLine? t
    let isWord := isWordChar (Spot.frontChar rest)
    if isWord && !(Spot.row isBlank t).1.contains ' ' then none else some rest
  else some t

/-- Takes the colon before a value.  A key in front of it is marked as one now, and between
brackets an entry begins with it. -/
def readValue? (s : Layout) (t : List Spot) : Cut := do
  let x := Spot.front t
  let isPair := !s.pairs.isEmpty && !s.hasMapping
  let s := if isPair then { s with pairs := true :: s.pairs.drop 1 } else s
  let rest ← behindColon? (t.drop 1)
  match s.candidate with
  | some k =>
    -- without braces, a key and its colon share a line
    if isPair && k.line < x.line then none
    else
      -- all three go in front of the key, the last one first
      let s := s.insert k.number .key
      let s := if isPair then s.insert k.number (.flowStart .mapping) else s
      let s := (s.openBlock k.column k.number .mapping).widen
      some ((({ s with candidate := none }).allowKey false).push .value, rest)
  | none =>
    if !s.inFlow && !s.mayBeKey then none
    else
      -- nothing stands in front of the colon, so the key is empty
      let s := if isPair then s.push (.flowStart .mapping) else s
      let s := (s.openBlock x.column s.tokens.size .mapping).widen
      some ((s.allowKey (!s.inFlow)).push .value, rest)

/-! ### Nodes -/

/-- The layout behind a name or a tag. -/
def pushProperty (s : Layout) (x : Spot) (token : Token) : Layout :=
  let s := ((s.noteKey x).allowKey false).push token
  { s with margin := if x.column = 0 then some s.tokens.size else none }

/-- Takes a name. -/
def readAnchor? (s : Layout) (t : List Spot) : Cut := do
  let (name, rest) ← nodeName? t
  some (s.pushProperty (Spot.front t) (.anchor name), rest)

/-- Takes a tag. -/
def readTag? (s : Layout) (t : List Spot) : Cut := do
  let (tag, rest) ← tag? s.inFlow t
  some (s.pushProperty (Spot.front t) (.tag tag), rest)

/-- Takes a reference to a name. -/
def readReference? (s : Layout) (t : List Spot) : Cut := do
  let (name, rest) ← nodeName? t
  some (((s.noteKey (Spot.front t)).allowKey false).push (.reference name), rest)

/-- Takes a scalar in a block of lines. -/
def readBlockText? (s : Layout) (t : List Spot) : Cut := do
  let s := ((s.noteKey (Spot.front t)).allowKey true).narrow
  let (text, rest) ← blockText? s.indent t
  some (s.push (.scalar false text), rest)

/-- What may stand behind a quoted scalar on its last line: the mark of a value only if the scalar
is a key. -/
def mayFollowQuoted (s : Layout) (start next : Spot) : Bool :=
  endsLine next.char ||
    if s.inFlow then ",]\x7d:".toList.contains next.char
    else next.char == ':' && start.line == next.line

/-- Takes a quoted scalar. -/
def readQuoted? (s : Layout) (t : List Spot) : Cut := do
  let x := Spot.front t
  let s := (s.noteKey x).allowKey false
  let (text, rest) ← quoted? s.indent t
  let rest ← restOfLine? rest
  if !s.mayFollowQuoted x (Spot.front rest) then none
  let (s, rest) ← s.skip? false rest
  let next := Spot.front rest
  some ({ s with adjacent := some (next.line, next.column) }.push (.scalar false text), rest)

/-- Takes a plain scalar. -/
def readPlain? (s : Layout) (t : List Spot) : Cut := do
  let s := ((s.noteKey (Spot.front t)).allowKey false).narrow
  let e ← plain? s.inFlow s.indent t
  some ((s.allowKey e.hasLineEnd).push (.scalar true e.text), e.rest)

/-! ### All lexemes -/

/-- The colon in front of a text marks a value. -/
def marksValue (s : Layout) (t : List Spot) : Bool :=
  let x := Spot.front t
  let next := Spot.frontChar (t.drop 1)
  endsWord next || (s.inFlow && (isFlowMark next || s.adjacent == some (x.line, x.column)))

/-- Takes the lexeme in front of a text, which does not begin with a blank. -/
def read? (s : Layout) (t : List Spot) : Cut :=
  let x := Spot.front t
  let isAlone := endsWord (Spot.frontChar (t.drop 1))
  if x.column == 0 && x.char == '%' then s.readDirective? t
  else if isMark '-' t then s.readMark? .documentStart t
  else if isMark '.' t then s.readMark? .documentEnd t
  -- documents may end anywhere, but anything else must be indented
  else if x.column < s.indent then none
  else match x.char with
  | '[' => s.readFlowStart? .list t
  | '\x7b' => s.readFlowStart? .mapping t
  | ']' => s.readFlowEnd? .list t
  | '\x7d' => s.readFlowEnd? .mapping t
  | ',' => s.readComma? t
  | '-' => if isAlone then s.readDash? t else s.readPlain? t
  | '?' => if isAlone then s.readKey? t else s.readPlain? t
  | ':' => if s.marksValue t then s.readValue? t else s.readPlain? t
  | '*' => s.readReference? t
  | '&' => s.readAnchor? t
  | '!' => s.readTag? t
  | '|' => if s.inFlow then s.readPlain? t else s.readBlockText? t
  | '>' => if s.inFlow then s.readPlain? t else s.readBlockText? t
  | '\'' => s.readQuoted? t
  | '"' => s.readQuoted? t
  | '%' => none
  | '@' => none
  | '\x60' => none
  | _ => s.readPlain? t

/-- Closes what is open at the end of the text. -/
def finish? (s : Layout) : Option Layout := (s.closeTo (-1)).dropKey?

/-- Cuts a text into tokens. -/
def readAll? (s : Layout) (t : List Spot) : Option Layout := do
  let (s, here) ← s.skip? false t
  let x := Spot.front here
  let s := (← s.dropFarKey? x).closeTo x.column
  if x.char == endChar then s.finish?
  else
    let (s, rest) ← s.read? here
    -- each lexeme takes a character; the test only shows it to the termination check
    if rest.length < t.length then readAll? s rest else none
termination_by t.length

end Layout

/-- The tokens of a text. -/
def tokens? (s : List Char) : Option (List Token) :=
  (Layout.readAll? {} (Spot.ofChars s)).map fun layout => layout.tokens.toList

end Yaml

end Settings

end ImageGateway
