import ImageGateway.Settings.Yaml.Property

/-!
# The layout of YAML files

While a text is cut into tokens, the layout says what encloses the place that was reached: the
indentations of blocks, and the brackets and braces that are open.  Whether a node is a key shows
only at the colon behind it; so the layout also remembers where a key may have begun, and the
tokens in front of it are put in later.

* `Token` : the parts of a file.
* `Layout` : what encloses a place, with the tokens up to it.
* `Layout.closeTo` : leaves the blocks that are indented too far for a column.
* `Layout.openBlock` : begins a block at a column.
* `Layout.noteKey`, `Layout.dropKey?` : remember and forget where a key may have begun.
-/

namespace ImageGateway

namespace Settings

namespace Yaml

/-- The two kinds of collections. -/
inductive Collection where
  | list
  | mapping
deriving DecidableEq, Repr

/-- A part of a file. -/
inductive Token where
  | directive (d : Directive)
  | documentStart
  | documentEnd
  | blockStart (kind : Collection)
  | blockEnd
  | flowStart (kind : Collection)
  | flowEnd (kind : Collection)
  /-- The hyphen before an item. -/
  | dash
  | comma
  /-- A key follows. -/
  | key
  /-- A value follows. -/
  | value
  /-- A node that is to stand here once more. -/
  | reference (name : String)
  /-- A name for the node that follows. -/
  | anchor (name : String)
  | tag (t : Tag)
  | scalar (isPlain : Bool) (text : List Char)
deriving DecidableEq, Repr

/-- An indentation that is in force. -/
structure Level where
  /-- The indentation outside of it. -/
  outside : Int
  /-- It belongs to a block.  One that does not is a column wide and asks nodes to be indented. -/
  isBlock : Bool
deriving DecidableEq, Repr

/-- The place where a key may have begun. -/
structure Candidate where
  /-- The number of tokens before it. -/
  number : Nat
  line : Nat
  column : Nat
  /-- Nothing but a key can stand there. -/
  isRequired : Bool
deriving DecidableEq, Repr

/-- What encloses a place. -/
structure Layout where
  tokens : Array Token := #[]
  /-- The column of the innermost indentation. -/
  indent : Int := -1
  /-- The indentations, the innermost one first. -/
  levels : List Level := []
  /-- Where a key of the innermost collection may have begun. -/
  candidate : Option Candidate := none
  /-- The same for the collections around the brackets and braces that are open. -/
  outer : List (Option Candidate) := []
  /-- A key may begin here. -/
  mayBeKey : Bool := true
  /-- For each open bracket, an entry without braces of its own is open between them. -/
  pairs : List Bool := []
  /-- A brace or a question mark was read since the last such entry. -/
  hasMapping : Bool := false
  /-- The place right behind a node that may be a key with its value right behind the colon. -/
  adjacent : Option (Nat × Nat) := none
  /-- The number of tokens up to the last name or tag at the beginning of a line. -/
  margin : Option Nat := none

namespace Layout

/-- Brackets or braces are open. -/
def inFlow (s : Layout) : Bool := !s.outer.isEmpty

/-- The innermost indentation belongs to a block. -/
def isInBlock (s : Layout) : Bool := (s.levels.head?.map Level.isBlock).getD false

/-- The layout behind one more token. -/
def push (s : Layout) (token : Token) : Layout := { s with tokens := s.tokens.push token }

/-- The layout with a token put in behind so many others. -/
def insert (s : Layout) (number : Nat) (token : Token) : Layout :=
  { s with tokens := s.tokens.insertIdxIfInBounds number token }

/-! ### Indentation -/

/-- Asks nodes to be indented further than the block that they stand in. -/
def widen (s : Layout) : Layout :=
  if !s.inFlow && s.isInBlock then
    { s with levels := ⟨s.indent, false⟩ :: s.levels, indent := s.indent + 1 }
  else s

/-- Takes back what `widen` asks for. -/
def narrow (s : Layout) : Layout :=
  match s.levels with
  | ⟨outside, false⟩ :: levels => { s with levels := levels, indent := outside }
  | _ => s

/-- Leaves levels as long as they are indented further than a column. -/
def closeLevels (column : Int) : List Level → Layout → Layout
  | [], s => s
  | level :: levels, s =>
    if s.indent ≤ column then s
    else
      let s := if level.isBlock then s.push .blockEnd else s
      closeLevels column levels { s with levels := levels, indent := level.outside }

/-- Leaves the blocks that are indented further than a column. -/
def closeTo (s : Layout) (column : Int) : Layout :=
  if s.inFlow then s else closeLevels column s.levels s

/-- Begins a block at a column, if it is indented further than the one that is open.  Its token is
put in behind `number` others. -/
def openBlock (s : Layout) (column number : Nat) (kind : Collection) : Layout :=
  if s.inFlow then s
  else
    let s := if s.indent ≤ column then s.narrow else s
    if s.indent < column then
      let s := s.insert number (.blockStart kind)
      { s with levels := ⟨s.indent, true⟩ :: s.levels, indent := column }
    else s

/-! ### Keys -/

/-- Remembers that a key may begin here. -/
def noteKey (s : Layout) (x : Spot) : Layout :=
  if s.mayBeKey then
    let isRequired := !s.inFlow && s.indent == x.column && s.isInBlock
    { s with candidate := some ⟨s.tokens.size, x.line, x.column, isRequired⟩ }
  else s

/-- Forgets where a key may have begun, unless it must be one. -/
def dropKey? (s : Layout) : Option Layout :=
  if (s.candidate.map Candidate.isRequired).getD false then none
  else some { s with candidate := none }

/-- Forgets a key that is too far from here: on another line, or more than 1024 columns before. -/
def dropFarKey? (s : Layout) (x : Spot) : Option Layout :=
  match s.candidate with
  | none => some s
  | some k =>
    if !s.inFlow && (k.line < x.line || k.column + 1024 < x.column) then s.dropKey? else some s

/-- The layout in which a key may or may not begin. -/
def allowKey (s : Layout) (mayBeKey : Bool) : Layout := { s with mayBeKey := mayBeKey }

/-! ### Brackets and braces -/

/-- So many brackets and braces may be open. -/
def deepest : Nat := 255

/-- Goes into brackets or braces. -/
def enter? (s : Layout) : Option Layout :=
  if s.outer.length < deepest then
    some { s with candidate := none, outer := s.candidate :: s.outer }
  else none

/-- Leaves brackets or braces. -/
def leave (s : Layout) : Layout :=
  match s.outer with
  | [] => s
  | candidate :: outer => { s with candidate := candidate, outer := outer }

/-- Ends an entry between brackets that has no braces of its own. -/
def endPair (s : Layout) : Layout :=
  match s.pairs with
  | true :: pairs =>
    { s.push (.flowEnd .mapping) with pairs := false :: pairs, hasMapping := false }
  | _ => s

end Layout

end Yaml

end Settings

end ImageGateway
