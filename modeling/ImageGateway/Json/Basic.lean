import ImageGateway.Json.Text

/-!
# JSON values

A value is a tree that keeps all that a JSON text says apart from the blanks between its tokens:
strings and numbers are kept as they are written, and the entries of an object keep their order and
may repeat a key.  `Value.render` writes a value without blanks.
-/

namespace ImageGateway

namespace Json

/-- A JSON value. -/
inductive Value where
  | null
  | boolean (b : Bool)
  | number (written : Bytes)
  | string (raw : RawText)
  | array (items : List Value)
  | object (entries : List (RawText × Value))
deriving Repr

namespace Value

/-- A text as a value. -/
def text (s : String) : Value := .string (RawText.ofText s)

/-- An integer as a value. -/
def integer (n : Int) : Value := .number (Utf8.encode (toString n))

/-- Texts as a value. -/
def texts (l : List String) : Value := .array (l.map text)

/-- A record as a value. -/
def record (entries : List (String × Value)) : Value :=
  .object (entries.map fun (key, value) => (RawText.ofText key, value))

/-- A raw text between quotation marks. -/
def quoted (raw : RawText) : Bytes := 0x22 :: raw ++ [0x22]

mutual

/-- The JSON text of a value. -/
def render : Value → Bytes
  | .null => Utf8.encode "null"
  | .boolean true => Utf8.encode "true"
  | .boolean false => Utf8.encode "false"
  | .number written => written
  | .string raw => quoted raw
  | .array items => 0x5b :: renderItems items
  | .object entries => 0x7b :: renderEntries entries

/-- The items of an array up to its closing bracket. -/
def renderItems : List Value → Bytes
  | [] => [0x5d]
  | v :: rest => render v ++ renderMoreItems rest

/-- The items behind the first one. -/
def renderMoreItems : List Value → Bytes
  | [] => [0x5d]
  | v :: rest => 0x2c :: render v ++ renderMoreItems rest

/-- The entries of an object up to its closing brace. -/
def renderEntries : List (RawText × Value) → Bytes
  | [] => [0x7d]
  | (key, v) :: rest => quoted key ++ 0x3a :: render v ++ renderMoreEntries rest

/-- The entries behind the first one. -/
def renderMoreEntries : List (RawText × Value) → Bytes
  | [] => [0x7d]
  | (key, v) :: rest => 0x2c :: quoted key ++ 0x3a :: render v ++ renderMoreEntries rest

end

end Value

end Json

end ImageGateway
