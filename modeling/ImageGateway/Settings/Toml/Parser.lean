import ImageGateway.Settings.Toml.Scalar
import ImageGateway.Settings.Toml.Text
import ImageGateway.Settings.Toml.Tree

/-!
# Reading TOML files

A file is a row of statements, one to a line: headings, and keys with values.  Lists and inline
tables nest; `fuel` bounds the number of steps, each of which takes a character, so the length of
the text is enough of it.
-/

namespace ImageGateway

namespace Settings

namespace Toml

open Reader

/-- A blank within a line. -/
def isBlankChar (c : Char) : Bool := c == ' ' || c == '\t'

/-- Takes blanks. -/
def blanks : Reader Unit := do let _ ← row isBlankChar

/-- Takes a comment up to the end of its line, if one begins here. -/
def comment : Reader Unit := do
  if ← accept ['#'] then let _ ← row isTextChar

/-- Takes a line end, if one stands here, and says whether it did. -/
def lineEnd : Reader Bool := do
  if ← accept ['\n'] then pure true else accept ['\r', '\n']

/-- Takes what may stand behind a statement. -/
def endStatement : Reader Unit := do
  blanks
  comment
  if !(← lineEnd) then require (← rest).isEmpty

/-- Takes blanks, comments and line ends. -/
def gap : Nat → Reader Unit
  | 0 => pure ()
  | fuel + 1 => do
    blanks
    comment
    if ← lineEnd then gap fuel

/-- A character of a bare key. -/
def isBareChar (c : Char) : Bool := c.isAlphanum || c == '_' || c == '-'

/-- One part of a key. -/
def keyPart : Reader String := do
  match ← rest with
  | '"' :: s => set s; return String.ofList (← of basic)
  | '\'' :: s => set s; return String.ofList (← of literal)
  | _ =>
    let name ← row isBareChar
    require (!name.isEmpty)
    return String.ofList name

/-- A key: parts with full stops between them. -/
def key : Nat → Reader (List String)
  | 0 => fail
  | fuel + 1 => do
    blanks
    let part ← keyPart
    blanks
    if ← accept ['.'] then return part :: (← key fuel) else return [part]

/-- A character of a scalar. -/
def isScalarChar (c : Char) : Bool := c.isAlphanum || "+-_.:".toList.contains c

/-- A scalar; a date may have a time behind a space. -/
def scalar : Reader Value := do
  let front ← row isScalarChar
  let written ← match ← rest with
    | ' ' :: d :: _ =>
      if d.isDigit && (match date? front with | some (_, []) => true | _ => false) then do
        expect [' ']
        pure (front ++ ' ' :: (← row isScalarChar))
      else pure front
    | _ => pure front
  of fun s => (scalar? written).map (·, s)

mutual

/-- A value. -/
def value : Nat → Reader Value
  | 0 => fail
  | fuel + 1 => do
    match ← rest with
    | '"' :: _ => return .text (String.ofList (← of string?))
    | '\'' :: _ => return .text (String.ofList (← of string?))
    | '[' :: s => set s; return .list (← listItems fuel)
    | '{' :: s => set s; return .table (entryValues (← inlineEntries fuel []))
    | _ => scalar

/-- The items of a list up to its closing bracket. -/
def listItems : Nat → Reader (List Value)
  | 0 => fail
  | fuel + 1 => do
    gap fuel
    if ← accept [']'] then return []
    let v ← value fuel
    gap fuel
    if ← accept [','] then return v :: (← listItems fuel)
    expect [']']
    return [v]

/-- The entries of an inline table up to its closing brace. -/
def inlineEntries : Nat → Entries → Reader Entries
  | 0, _ => fail
  | fuel + 1, entries => do
    gap fuel
    if ← accept ['}'] then return entries
    let path ← key fuel
    expect ['=']
    blanks
    let v ← value fuel
    gap fuel
    match entries.addValue v path with
    | none => fail
    | some entries =>
      if ← accept [','] then inlineEntries fuel entries
      else
        expect ['}']
        return entries

end

/-- The statements of a file, given the keys of the heading that is open. -/
def statements : Nat → List String → Entries → Reader Entries
  | 0, _, _ => fail
  | fuel + 1, heading, entries => do
    blanks
    match ← rest with
    | [] => return entries
    | '[' :: '[' :: s =>
      set s
      let path ← key fuel
      expect [']', ']']
      endStatement
      match entries.openItem path with
      | some entries => statements fuel path entries
      | none => fail
    | '[' :: s =>
      set s
      let path ← key fuel
      expect [']']
      endStatement
      match entries.openTable path with
      | some entries => statements fuel path entries
      | none => fail
    | c :: _ =>
      if c == '#' || c == '\n' || c == '\r' then
        endStatement
        statements fuel heading entries
      else
        let path ← key fuel
        expect ['=']
        blanks
        let v ← value fuel
        endStatement
        match Entries.atOpen (Entries.addValue v path) heading entries with
        | some entries => statements fuel heading entries
        | none => fail

/-- The table that a file is. -/
def parse? (s : List Char) : Option Table :=
  match statements (s.length + 2) [] [] s with
  | some (entries, _) => some (entryValues entries)
  | none => none

end Toml

end Settings

end ImageGateway
