import ImageGateway.Json.Basic
import ImageGateway.Json.Token

/-!
# Reading JSON texts

The value of a row of tokens is built by an automaton with a stack: `Reading` says what may come
next, and its stack holds the arrays and objects that are still open, the innermost first.  Values
may be nested to any depth.
-/

namespace ImageGateway

namespace Json

/-- An array or an object that is still open, its last item or entry first. -/
inductive Open where
  | array (items : List Value)
  | object (entries : List (RawText × Value)) (key : RawText)

/-- What may come next. -/
inductive Reading where
  /-- A value. -/
  | value (stack : List Open)
  /-- A value or the end of the array that was just opened. -/
  | firstItem (stack : List Open)
  /-- A comma or the end of the array. -/
  | nextItem (items : List Value) (stack : List Open)
  /-- A key or the end of the object that was just opened. -/
  | firstKey (stack : List Open)
  /-- A key. -/
  | nextKey (entries : List (RawText × Value)) (stack : List Open)
  /-- The colon behind a key. -/
  | colon (entries : List (RawText × Value)) (key : RawText) (stack : List Open)
  /-- A comma or the end of the object. -/
  | nextEntry (entries : List (RawText × Value)) (stack : List Open)
  /-- Nothing. -/
  | finished (v : Value)

namespace Reading

/-- A value is complete. -/
def close (v : Value) : List Open → Reading
  | [] => .finished v
  | .array items :: stack => .nextItem (v :: items) stack
  | .object entries key :: stack => .nextEntry ((key, v) :: entries) stack

/-- A token where a value must come. -/
def begin? (stack : List Open) : Token → Option Reading
  | .null => some (close .null stack)
  | .boolean b => some (close (.boolean b) stack)
  | .number written => some (close (.number written) stack)
  | .string raw => some (close (.string raw) stack)
  | .openBracket => some (.firstItem stack)
  | .openBrace => some (.firstKey stack)
  | _ => none

/-- One token further. -/
def step? : Reading → Token → Option Reading
  | .value stack, t => begin? stack t
  | .firstItem stack, .closeBracket => some (close (.array []) stack)
  | .firstItem stack, t => begin? (.array [] :: stack) t
  | .nextItem items stack, .closeBracket => some (close (.array items.reverse) stack)
  | .nextItem items stack, .comma => some (.value (.array items :: stack))
  | .firstKey stack, .closeBrace => some (close (.object []) stack)
  | .firstKey stack, .string raw => some (.colon [] raw stack)
  | .nextKey entries stack, .string raw => some (.colon entries raw stack)
  | .colon entries key stack, .colon => some (.value (.object entries key :: stack))
  | .nextEntry entries stack, .closeBrace => some (close (.object entries.reverse) stack)
  | .nextEntry entries stack, .comma => some (.nextKey entries stack)
  | _, _ => none

/-- The value, if nothing is left open. -/
def result? : Reading → Option Value
  | .finished v => some v
  | _ => none

end Reading

/-- The value of a row of tokens. -/
def ofTokens? (tokens : List Token) : Option Value :=
  (tokens.foldlM Reading.step? (.value [])).bind Reading.result?

/-- The value that a JSON text writes. -/
def parse? (bytes : Bytes) : Option Value := (tokens? bytes).bind ofTokens?

end Json

end ImageGateway
