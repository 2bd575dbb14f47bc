import ImageGateway.Text.Cut
import ImageGateway.Text.Utf8

/-!
# Methods and header fields

A method is any HTTP token; the ones that the gateway tells apart have names.  Methods are
case-sensitive, so a method is its text.

A message carries a list of header fields.  Names are kept in small letters, values are bytes, and
a name may occur more than once; the order of the fields of one name is part of the message, the
order between names is not.
-/

namespace ImageGateway

namespace Http

/-! ### Methods -/

/-- The characters of an HTTP token. -/
def isTokenChar (c : Char) : Bool :=
  c.isAlphanum || "!#$%&'*+-.^_`|~".toList.contains c

/-- A request method. -/
structure Method where
  text : String
deriving DecidableEq, Repr

namespace Method

/-- Asks for what a path names. -/
def get : Method := ⟨"GET"⟩

/-- Asks for the head of what `get` gives. -/
def head : Method := ⟨"HEAD"⟩

/-- Hands something in. -/
def post : Method := ⟨"POST"⟩

/-- Removes what a path names. -/
def delete : Method := ⟨"DELETE"⟩

/-- Asks for a connection to somewhere else. -/
def connect : Method := ⟨"CONNECT"⟩

/-- The method with this text, if it is a token. -/
def ofText? (s : String) : Option Method :=
  if !s.isEmpty && s.toList.all isTokenChar then some ⟨s⟩ else none

end Method

/-! ### Header fields -/

/-- A header field. -/
structure Header where
  name : String
  value : Bytes
deriving DecidableEq, Repr

/-- The header fields of a message. -/
abbrev Headers := List Header

/-- The bytes that a field value may hold: all but the control characters, tab excepted. -/
def isValueByte (b : UInt8) : Bool := b == 9 || (0x20 ≤ b && b != 0x7f)

/-- A visible ASCII character, a space or a tab. -/
def isTextByte (b : UInt8) : Bool := b == 9 || (0x20 ≤ b && b < 0x7f)

/-- The field with this name and value, if both are legal. -/
def Header.make? (name : String) (value : Bytes) : Option Header :=
  if !name.isEmpty && name.toList.all isTokenChar && value.all isValueByte then
    some ⟨Text.lowerAscii name, value⟩
  else none

/-- The field with a value that is given as text. -/
def Header.ofText (name value : String) : Header := ⟨name, Utf8.encode value⟩

/-- The text of a field value, if it consists of visible ASCII characters and blanks. -/
def valueText? (value : Bytes) : Option String :=
  if value.all isTextByte then some (String.ofList (value.map fun b => Char.ofNat b.toNat))
  else none

namespace Headers

/-- The values of a name, in order. -/
def values (h : Headers) (name : String) : List Bytes :=
  (h.filter (·.name == name)).map (·.value)

/-- The first value of a name. -/
def first? (h : Headers) (name : String) : Option Bytes := (h.values name).head?

/-- The first value of a name, if it is text. -/
def firstText? (h : Headers) (name : String) : Option String := (h.first? name).bind valueText?

/-- The values of a name that are text, in order. -/
def texts (h : Headers) (name : String) : List String := (h.values name).filterMap valueText?

/-- Some field has the name. -/
def has (h : Headers) (name : String) : Bool := h.any (·.name == name)

/-- The fields of all other names. -/
def without (h : Headers) (name : String) : Headers := h.filter (·.name != name)

end Headers

end Http

end ImageGateway
