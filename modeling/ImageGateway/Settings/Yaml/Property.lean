import ImageGateway.Settings.Yaml.Spot
import ImageGateway.Text.Hex

/-!
# Tags, names and directives of YAML files

A tag says of what kind a node is, by a handle and a suffix.  A directive at the beginning of a file
says what a handle stands for.  A name marks a node, so that it can stand in several places.

* `tag?` : the tag in front of a text.
* `nodeName?` : the name in front of a text.
* `directive?` : the directive in front of a text.
-/

namespace ImageGateway

namespace Settings

namespace Yaml

/-- A tag as it is written.  The tag `!` has an empty handle. -/
structure Tag where
  handle : String
  suffix : String
deriving DecidableEq, Repr

/-- A directive. -/
inductive Directive where
  | version
  /-- What a handle stands for.  A directive of another kind counts as one for an empty handle. -/
  | meaning (handle full : String)
deriving DecidableEq, Repr

/-! ### Characters -/

/-- A character of a name. -/
def isNameChar (c : Char) : Bool := !endsWord c && !isFlowMark c && c != '\ufeff'

/-- A character of a tag between angle brackets, and of what a handle stands for. -/
def isUriChar (c : Char) : Bool := isWordChar c || "#;/?:@&=+$,.!~*'()[]%".toList.contains c

/-- A character of the suffix of a tag. -/
def isSuffixChar (c : Char) : Bool := isUriChar c && !isFlowMark c && c != '!'

/-- The longest row of characters of a class, in which a percent sign begins an escape: one byte
below 128, or two bytes that make up the number of a character. -/
def escapedRow (p : Char → Bool) : List Spot → Option (List Char × List Spot)
  | [] => some ([], [])
  | x :: rest =>
    if !p x.char then some ([], x :: rest)
    else if x.char == '%' then
      match rest with
      | a :: b :: rest => do
        let first ← Text.hexNumber? [a.char, b.char]
        if first < 0x80 then
          let (s, rest) ← escapedRow p rest
          some (Char.ofNat first :: s, rest)
        else match rest with
          | y :: c :: d :: rest => do
            let second ← Text.hexNumber? [c.char, d.char]
            let isPair := y.char == '%' && 0xc0 ≤ first && first < 0xd8 &&
              0x80 ≤ second && second < 0xc0
            if isPair then
              let (s, rest) ← escapedRow p rest
              some (Char.ofNat (first * 256 + second) :: s, rest)
            else none
          | _ => none
      | _ => none
    else do
      let (s, rest) ← escapedRow p rest
      some (x.char :: s, rest)

/-! ### Tags and names -/

/-- The handle in front of a text: an exclamation mark, a word and perhaps one more mark. -/
def handle (t : List Spot) : List Char × List Spot :=
  let (word, rest) := Spot.row isWordChar (t.drop 1)
  if Spot.frontChar rest == '!' then ('!' :: word ++ ['!'], rest.drop 1) else ('!' :: word, rest)

/-- The tag between angle brackets, behind the opening one. -/
def fullTag? (t : List Spot) : Option (Tag × List Spot) := do
  let (suffix, rest) ← escapedRow isUriChar t
  if Spot.frontChar rest == '>' then some (⟨"", String.ofList suffix⟩, rest.drop 1) else none

/-- The tag with a handle in front of a text.  What looks like a handle without its second mark
belongs to the suffix. -/
def shortTag? (t : List Spot) : Option (Tag × List Spot) := do
  let (written, rest) := handle t
  let (suffix, rest) ← escapedRow isSuffixChar rest
  if 2 ≤ written.length && written.getLast? == some '!' then
    if suffix.isEmpty then none
    else some (⟨String.ofList written, String.ofList suffix⟩, rest)
  else
    let suffix := written.drop 1 ++ suffix
    some (if suffix.isEmpty then ⟨"", "!"⟩ else ⟨"!", String.ofList suffix⟩, rest)

/-- The tag in front of a text. -/
def tag? (inFlow : Bool) (t : List Spot) : Option (Tag × List Spot) := do
  let (tag, rest) ← if Spot.frontChar (t.drop 1) == '<' then fullTag? (t.drop 2) else shortTag? t
  let next := Spot.frontChar rest
  if endsWord next || (inFlow && isFlowMark next) then some (tag, rest) else none

/-- The name behind the sign in front of a text. -/
def nodeName? (t : List Spot) : Option (String × List Spot) :=
  let (name, rest) := Spot.row isNameChar (t.drop 1)
  if name.isEmpty then none else some (String.ofList name, rest)

/-! ### Directives -/

/-- The digits of one part of a version number, and the rest. -/
def versionPart? (t : List Spot) : Option (List Spot) :=
  let (digits, rest) := Spot.row Char.isDigit t
  if digits.isEmpty || 9 < digits.length then none else some rest

/-- What lies behind a version number. -/
def version? (t : List Spot) : Option (List Spot) := do
  let rest ← versionPart? t
  if Spot.frontChar rest == '.' then versionPart? (rest.drop 1) else none

/-- What lies behind blanks. -/
def skipBlanks (t : List Spot) : List Spot := t.dropWhile fun x => isBlank x.char

/-- What a handle stands for, in front of a text. -/
def meaning? (t : List Spot) : Option (List Char × List Spot) :=
  let c := Spot.frontChar t
  if c == '!' then do
    let (s, rest) ← escapedRow isUriChar (t.drop 1)
    some ('!' :: s, rest)
  else if isSuffixChar c then escapedRow isUriChar t
  else none

/-- The handle of a directive and what it stands for, in front of a text. -/
def handleMeaning? (t : List Spot) : Option (Directive × List Spot) := do
  if Spot.frontChar t != '!' then none
  let (written, rest) := handle t
  if written != ['!'] && written.getLast? != some '!' then none
  let (full, rest) ← meaning? (skipBlanks rest)
  if endsWord (Spot.frontChar rest) then
    some (.meaning (String.ofList written) (String.ofList full), rest)
  else none

/-- The directive in front of a text, and what lies behind its line. -/
def directive? (t : List Spot) : Option (Directive × List Spot) := do
  let (name, rest) := Spot.row isWordChar (t.drop 1)
  if name.isEmpty || !endsWord (Spot.frontChar rest) then none
  let (directive, rest) ←
    if name == "YAML".toList then (version? (skipBlanks rest)).map (.version, ·)
    else if name == "TAG".toList then handleMeaning? (skipBlanks rest)
    else some (.meaning "" "", rest.dropWhile fun x => !endsLine x.char)
  let rest ← lineEnd? rest
  some (directive, if Spot.frontChar rest == '\n' then rest.drop 1 else rest)

end Yaml

end Settings

end ImageGateway
