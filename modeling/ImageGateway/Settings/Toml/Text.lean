import ImageGateway.Text.Hex

/-!
# Readers, and strings of TOML files

A reader takes something from the front of a text, or fails.

Basic strings have escapes, literal strings have none; each kind has a form for one line and one
for several.  A function of this module reads what stands behind the opening quotation marks, up to
and with the closing ones.
-/

namespace ImageGateway

namespace Settings

/-- Takes something from the front of a text. -/
abbrev Reader := StateT (List Char) Option

namespace Reader

/-- What stands in front, without taking it. -/
def rest : Reader (List Char) := fun s => some (s, s)

/-- Fails. -/
def fail {α : Type} : Reader α := fun _ => none

/-- Succeeds only if the condition holds. -/
def require (condition : Bool) : Reader Unit := fun s => if condition then some ((), s) else none

/-- Takes the longest row of characters of a class. -/
def row (p : Char → Bool) : Reader (List Char) := fun s => some (s.takeWhile p, s.dropWhile p)

/-- Takes the given text. -/
def expect (wanted : List Char) : Reader Unit := fun s =>
  (wanted.isPrefixOf? s).map fun rest => ((), rest)

/-- Takes the given text if it stands in front, and says whether it did. -/
def accept (wanted : List Char) : Reader Bool := fun s =>
  match wanted.isPrefixOf? s with
  | some rest => some (true, rest)
  | none => some (false, s)

/-- Takes what a function on texts takes. -/
def of {α : Type} (f : List Char → Option (α × List Char)) : Reader α := f

end Reader

namespace Toml

/-- A character that may stand in a string or a comment. -/
def isTextChar (c : Char) : Bool := c == '\t' || (0x20 ≤ c.toNat && c.toNat != 0x7f)

/-- The character that hexadecimal digits name. -/
def scalarValue? (digits : List Char) : Option Char := do
  let n ← Text.hexNumber? digits
  if n < 0xd800 || (0xe000 ≤ n && n < 0x110000) then some (Char.ofNat n) else none

/-- The character that a short escape stands for. -/
def shortEscape? : Char → Option Char
  | 'b' => some '\x08' | 't' => some '\t' | 'n' => some '\n' | 'f' => some '\x0c'
  | 'r' => some '\r' | 'e' => some '\x1b' | '"' => some '"' | '\\' => some '\\' | _ => none

/-- Puts a character in front of what was read. -/
def before (c : Char) (r : Option (List Char × List Char)) : Option (List Char × List Char) :=
  r.map fun (s, rest) => (c :: s, rest)

/-- The rest of a basic string. -/
def basic : List Char → Option (List Char × List Char)
  | '"' :: rest => some ([], rest)
  | '\\' :: 'x' :: a :: b :: rest => do before (← scalarValue? [a, b]) (basic rest)
  | '\\' :: 'u' :: a :: b :: c :: d :: rest => do
    before (← scalarValue? [a, b, c, d]) (basic rest)
  | '\\' :: 'U' :: a :: b :: c :: d :: e :: f :: g :: h :: rest => do
    before (← scalarValue? [a, b, c, d, e, f, g, h]) (basic rest)
  | '\\' :: c :: rest => do before (← shortEscape? c) (basic rest)
  | c :: rest => if isTextChar c then before c (basic rest) else none
  | [] => none

/-- The rest of a literal string. -/
def literal : List Char → Option (List Char × List Char)
  | '\'' :: rest => some ([], rest)
  | c :: rest => if isTextChar c then before c (literal rest) else none
  | [] => none

/-- A blank or a line end. -/
def isSpace (c : Char) : Bool := c == ' ' || c == '\t' || c == '\n' || c == '\r'

/-- Only blanks stand in front of the next line end. -/
def endsLine (s : List Char) : Bool :=
  match s.dropWhile fun c => c == ' ' || c == '\t' with
  | '\n' :: _ => true
  | '\r' :: '\n' :: _ => true
  | _ => false

/-- The rest of a basic string of several lines.  While `skipping`, behind a backslash at the end
of a line, blanks and line ends do not count. -/
def basicLines (skipping : Bool) : List Char → Option (List Char × List Char)
  | '"' :: '"' :: '"' :: '"' :: '"' :: rest => some (['"', '"'], rest)
  | '"' :: '"' :: '"' :: '"' :: rest => some (['"'], rest)
  | '"' :: '"' :: '"' :: rest => some ([], rest)
  | '\\' :: 'x' :: a :: b :: rest => do before (← scalarValue? [a, b]) (basicLines false rest)
  | '\\' :: 'u' :: a :: b :: c :: d :: rest => do
    before (← scalarValue? [a, b, c, d]) (basicLines false rest)
  | '\\' :: 'U' :: a :: b :: c :: d :: e :: f :: g :: h :: rest => do
    before (← scalarValue? [a, b, c, d, e, f, g, h]) (basicLines false rest)
  | '\\' :: c :: rest =>
    if endsLine (c :: rest) then basicLines true rest
    else do before (← shortEscape? c) (basicLines false rest)
  | '\r' :: '\n' :: rest =>
    if skipping then basicLines true rest else before '\n' (basicLines false rest)
  | c :: rest =>
    if skipping && isSpace c then basicLines true rest
    else if c == '\n' || isTextChar c then before c (basicLines false rest)
    else none
  | [] => none

/-- The rest of a literal string of several lines. -/
def literalLines : List Char → Option (List Char × List Char)
  | '\'' :: '\'' :: '\'' :: '\'' :: '\'' :: rest => some (['\'', '\''], rest)
  | '\'' :: '\'' :: '\'' :: '\'' :: rest => some (['\''], rest)
  | '\'' :: '\'' :: '\'' :: rest => some ([], rest)
  | '\r' :: '\n' :: rest => before '\n' (literalLines rest)
  | c :: rest => if c == '\n' || isTextChar c then before c (literalLines rest) else none
  | [] => none

/-- A line end behind opening quotation marks does not count. -/
def dropLineEnd : List Char → List Char
  | '\n' :: rest => rest
  | '\r' :: '\n' :: rest => rest
  | s => s

/-- A string that begins in front of the text. -/
def string? : List Char → Option (List Char × List Char)
  | '"' :: '"' :: '"' :: rest => basicLines false (dropLineEnd rest)
  | '\'' :: '\'' :: '\'' :: rest => literalLines (dropLineEnd rest)
  | '"' :: rest => basic rest
  | '\'' :: rest => literal rest
  | _ => none

end Toml

end Settings

end ImageGateway
