import ImageGateway.Text.Cut
import ImageGateway.Text.Hex

/-!
# Search filters

The filter of a directory search is written with parentheses, `&`, `|`, `!` and items such as
`uid=alice`, in which `*` stands for any text and a byte may be written as a backslash and two
hexadecimal digits.  An item such as `cn:dn:caseExactMatch:=alice` names the rule of the match; the
attribute or the rule may be left out, and `:dn` lets the name of the entry count as well.

* `escapeValue` : a text that stands for itself wherever a value is expected.
* `userFilter` : the filter of a template with the identity of a user put in.
* `Filter.parse?`, `Filter.render` : reading and writing filters.
-/

namespace ImageGateway

namespace Directory

/-- The characters that have a meaning of their own inside a value. -/
def isSpecial (c : Char) : Bool :=
  c == '\\' || c == '*' || c == '(' || c == ')' || c == '\x00'

/-- One character as a value writes it. -/
def escapeChar (c : Char) : List Char :=
  if isSpecial c then '\\' :: Text.hexByte (UInt8.ofNat c.toNat) else [c]

/-- The text as a value that stands for it. -/
def escapeValue (s : String) : String := String.ofList (s.toList.flatMap escapeChar)

/-- The template with the escaped identity in the place of each `%s`. -/
def userFilter (template identity : String) : String :=
  Text.replaceAll "%s" (escapeValue identity) template

/-- How an item compares the values of an attribute with its own. -/
inductive Comparison where
  | equal
  | atLeast
  | atMost
  | approximate
deriving DecidableEq, Repr

/-- A search filter. -/
inductive Filter where
  | conj (parts : List Filter)
  | disj (parts : List Filter)
  | neg (part : Filter)
  | present (key : String)
  | compare (key : String) (how : Comparison) (value : Bytes)
  /-- A text that starts, goes on and ends with these parts; the first and the last may be empty. -/
  | substring (key : String) (start : Bytes) (middle : List Bytes) (stop : Bytes)
  /-- A match by a rule, or by that of the attribute; with `dn` the entry's name counts as well. -/
  | extensible (key : Option String) (dn : Bool) (rule : Option String) (value : Bytes)
deriving Repr

namespace Filter

/-- A letter. -/
def isLetter (b : UInt8) : Bool := (0x41 ≤ b && b ≤ 0x5a) || (0x61 ≤ b && b ≤ 0x7a)

/-- A decimal digit. -/
def isDigit (b : UInt8) : Bool := 0x30 ≤ b && b ≤ 0x39

/-- A character inside an attribute name or an option. -/
def isKeyByte (b : UInt8) : Bool := isLetter b || isDigit b || b == 0x2d

/-- Splits nonempty digits without a leading zero off the front. -/
def number? (input : Bytes) : Option (Bytes × Bytes) :=
  match input.takeWhile isDigit with
  | [] => none
  | 0x30 :: _ :: _ => none
  | digits => some (digits, input.drop digits.length)

/-- Numbers with full stops between them; a full stop that no number follows is left. -/
def numbers? : Nat → Bytes → Option (Bytes × Bytes)
  | 0, _ => none
  | fuel + 1, input => do
    let (digits, rest) ← number? input
    match rest with
    | 0x2e :: more =>
      match numbers? fuel more with
      | some (further, rest') => some (digits ++ 0x2e :: further, rest')
      | none => some (digits, rest)
    | _ => some (digits, rest)

/-- Options: semicolons, each with a nonempty name behind it. -/
def options : Nat → Bytes → Bytes × Bytes
  | fuel + 1, 0x3b :: rest =>
    match rest.takeWhile isKeyByte with
    | [] => ([], 0x3b :: rest)
    | name =>
      let (more, rest') := options fuel (rest.drop name.length)
      (0x3b :: name ++ more, rest')
  | _, input => ([], input)

/-- A name or a dotted number. -/
def name? (input : Bytes) : Option (Bytes × Bytes) :=
  match input with
  | b :: _ =>
    if isLetter b then
      let name := input.takeWhile isKeyByte
      some (name, input.drop name.length)
    else numbers? input.length input
  | [] => none

/-- An attribute: a name or a dotted number, and options. -/
def attribute? (input : Bytes) : Option (String × Bytes) := do
  let (name, rest) ← name? input
  let (opts, rest') := options rest.length rest
  let text ← Utf8.decode? (name ++ opts)
  some (text, rest')

/-- A byte that stands for itself in a value. -/
def isValueByte (b : UInt8) : Bool :=
  b != 0 && b != 0x28 && b != 0x29 && b != 0x2a && b != 0x5c

/-- The longest value at the front; `none` if an escape in it is broken. -/
def value? : Bytes → Option (Bytes × Bytes)
  | 0x5c :: a :: b :: rest => do
    let x ← Text.hexValue? a.toNat
    let y ← Text.hexValue? b.toNat
    let (value, rest') ← value? rest
    some (UInt8.ofNat (x * 16 + y) :: value, rest')
  | b :: rest =>
    if b == 0x5c then none
    else if isValueByte b then do
      let (value, rest') ← value? rest
      some (b :: value, rest')
    else some ([], b :: rest)
  | [] => some ([], [])

/-- The values between asterisks that follow the first value. -/
def further? : Nat → Bytes → Option (List Bytes × Bytes)
  | fuel + 1, 0x2a :: rest => do
    let (value, rest') ← value? rest
    let (more, rest'') ← further? fuel rest'
    some (value :: more, rest'')
  | _, input => some ([], input)

/-- The item that an attribute and the values between asterisks make. -/
def ofValues? (key : String) (first : Bytes) (others : List Bytes) : Option Filter :=
  match others.getLast? with
  | none => some (.compare key .equal first)
  | some last =>
    let middle := others.dropLast
    -- a single asterisk asks whether there is any value
    if first.isEmpty && middle.isEmpty && last.isEmpty then some (.present key)
    else if middle.any List.isEmpty then none
    else some (.substring key first middle last)

/-- Whether `:dn` stands in front, and what is behind it. -/
def dnMark : Bytes → Bool × Bytes
  | 0x3a :: 0x64 :: 0x6e :: rest => (true, rest)
  | input => (false, input)

/-- The name of a rule behind a colon, if one stands in front. -/
def rule? (input : Bytes) : Option String × Bytes :=
  let found : Option (String × Bytes) :=
    match input with
    | 0x3a :: rest => do
      let (name, rest') ← name? rest
      let text ← Utf8.decode? name
      some (text, rest')
    | _ => none
  match found with
  | some (rule, rest) => (some rule, rest)
  | none => (none, input)

/-- The rest of an item that names the rule of the match; it has an attribute or a rule. -/
def extensible? (key : Option String) (input : Bytes) : Option (Filter × Bytes) :=
  let (dn, rest) := dnMark input
  let (rule, rest) := rule? rest
  match rest with
  | 0x3a :: 0x3d :: rest =>
    if key.isNone && rule.isNone then none
    else (value? rest).map fun (value, rest') => (.extensible key dn rule value, rest')
  | _ => none

/-- The rest of an item behind its attribute. -/
def itemOf? (key : String) (input : Bytes) : Option (Filter × Bytes) :=
  let compared (how : Comparison) (rest : Bytes) : Option (Filter × Bytes) :=
    (value? rest).map fun (value, rest') => (.compare key how value, rest')
  match input with
  | 0x3d :: rest => do
    let (first, rest) ← value? rest
    let (others, rest) ← further? rest.length rest
    let filter ← ofValues? key first others
    some (filter, rest)
  | 0x3e :: 0x3d :: rest => compared .atLeast rest
  | 0x3c :: 0x3d :: rest => compared .atMost rest
  | 0x7e :: 0x3d :: rest => compared .approximate rest
  | rest => extensible? (some key) rest

/-- An item. -/
def item? (input : Bytes) : Option (Filter × Bytes) :=
  match attribute? input with
  | some (key, rest) => itemOf? key rest
  | none => extensible? none input

mutual

/-- A filter in parentheses; `fuel` bounds the depth and the number of parts. -/
def parenthesised? : Nat → Bytes → Option (Filter × Bytes)
  | fuel + 1, 0x28 :: rest => do
    let (filter, rest') ←
      match rest with
      | 0x26 :: more => some ((parts fuel more).map Filter.conj id)
      | 0x7c :: more => some ((parts fuel more).map Filter.disj id)
      | 0x21 :: more => (parenthesised? fuel more).map fun (f, r) => (.neg f, r)
      | _ => item? rest
    match rest' with
    | 0x29 :: rest'' => some (filter, rest'')
    | _ => none
  | _, _ => none

/-- As many filters in parentheses as follow each other. -/
def parts : Nat → Bytes → List Filter × Bytes
  | fuel + 1, input =>
    match parenthesised? fuel input with
    | some (filter, rest) =>
      let (more, rest') := parts fuel rest
      (filter :: more, rest')
    | none => ([], input)
  | 0, input => ([], input)

end

/-- The filter that a text writes; the outer parentheses of an item may be left out. -/
def parse? (text : String) : Option Filter :=
  let input := Utf8.encode text
  let whole : Option (Filter × Bytes) → Option Filter
    | some (filter, []) => some filter
    | _ => none
  -- of two nested calls at least one takes a byte
  match parenthesised? (2 * input.length + 2) input with
  | some r => whole (some r)
  | none => whole (item? input)

/-- A value as a filter writes it. -/
def renderValue (value : Bytes) : String :=
  match Utf8.decode? value with
  | some s => escapeValue s
  | none => String.ofList (value.flatMap fun b =>
      if b < 0x80 then escapeChar (Char.ofNat b.toNat) else '\\' :: Text.hexByte b)

/-- The sign between the attribute and the value. -/
def Comparison.sign : Comparison → String
  | .equal => "="
  | .atLeast => ">="
  | .atMost => "<="
  | .approximate => "~="

mutual

/-- The written form of a filter. -/
def render : Filter → String
  | .conj parts => "(&" ++ renderAll parts ++ ")"
  | .disj parts => "(|" ++ renderAll parts ++ ")"
  | .neg part => "(!" ++ render part ++ ")"
  | .present key => "(" ++ key ++ "=*)"
  | .compare key how value =>
    "(" ++ key ++ Comparison.sign how ++ renderValue value ++ ")"
  | .substring key start middle stop =>
    "(" ++ key ++ "=" ++ renderValue start ++ "*" ++
      String.join (middle.map fun part => renderValue part ++ "*") ++ renderValue stop ++ ")"
  | .extensible key dn rule value =>
    "(" ++ key.getD "" ++ (if dn then ":dn" else "") ++ (rule.elim "" (":" ++ ·)) ++ ":=" ++
      renderValue value ++ ")"

/-- The written forms of several filters, one behind the other. -/
def renderAll : List Filter → String
  | [] => ""
  | part :: parts => render part ++ renderAll parts

end

end Filter

end Directory

end ImageGateway
