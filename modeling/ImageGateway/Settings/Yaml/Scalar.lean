import ImageGateway.Settings.Toml.Scalar
import ImageGateway.Settings.Value

/-!
# Scalars of YAML files

A plain scalar is a number, a truth value, `null` or else a text.  A tag may ask for one of these; a
text that is not one then counts as `misfit`.

* `Scalar.ofPlain` : what a plain scalar without a tag is.
* `Scalar.ofKind` : what a plain scalar is when a tag names its kind.
* `Scalar.toValue?`, `Scalar.key?` : the scalar as a value and as a key.
-/

namespace ImageGateway

namespace Settings

namespace Yaml

/-- A scalar. -/
inductive Scalar where
  | null
  | boolean (b : Bool)
  | integer (n : Int)
  /-- A number that is not an integer, as it is written. -/
  | real (written : String)
  | text (s : String)
  /-- What a tag says of the scalar is not true. -/
  | misfit
deriving DecidableEq, Repr

/-- Digits of a base with a sign or without, as an integer of 64 bits. -/
def signedDigits? (base : Nat) (isDigit : Char → Bool) (s : List Char) : Option Int :=
  let (minus, digits) := Toml.cutSign s
  let n : Int := Toml.numberIn base digits
  let n := if minus then -n else n
  if !digits.isEmpty && digits.all isDigit && -9223372036854775808 ≤ n && n ≤ 9223372036854775807
  then some n else none

/-- A decimal integer. -/
def decimalInteger? (s : List Char) : Option Int := signedDigits? 10 Char.isDigit s

/-- An integer with a mark in front: of a base other than ten, or a plus. -/
def markedInteger? : List Char → Option Int
  | '0' :: 'x' :: s => signedDigits? 16 Toml.isHexDigit s
  | '0' :: 'o' :: s => signedDigits? 8 (fun c => '0' ≤ c && c ≤ '7') s
  | '+' :: s => decimalInteger? s
  | _ => none

/-- Digits, at least one. -/
def isDigits (s : List Char) : Bool := !s.isEmpty && s.all Char.isDigit

/-- An exponent, or nothing. -/
def isExponent : List Char → Bool
  | [] => true
  | e :: s => (e == 'e' || e == 'E') && isDigits (Toml.cutSign s).2

/-- A number with digits before or behind a full stop, perhaps with an exponent. -/
def isDecimal (s : List Char) : Bool :=
  let (_, s) := Toml.cutSign s
  let whole := s.takeWhile Char.isDigit
  match s.dropWhile Char.isDigit with
  | '.' :: s =>
    let fraction := s.takeWhile Char.isDigit
    (!whole.isEmpty || !fraction.isEmpty) && isExponent (s.dropWhile Char.isDigit)
  | s => !whole.isEmpty && isExponent s

/-- The spellings of infinity, and of what is not a number, which has no sign. -/
def isUnbounded (s : List Char) : Bool :=
  [".inf", ".Inf", ".INF"].contains (String.ofList (Toml.cutSign s).2) ||
    [".nan", ".NaN", ".NAN"].contains (String.ofList s)

/-- A number that may have a fraction. -/
def isReal (s : List Char) : Bool := isDecimal s || isUnbounded s

/-- A truth value. -/
def truth? (word : String) : Option Bool :=
  if ["true", "True", "TRUE"].contains word then some true
  else if ["false", "False", "FALSE"].contains word then some false
  else none

namespace Scalar

/-- The scalar that a plain text without a tag is. -/
def ofPlain (s : List Char) : Scalar :=
  let word := String.ofList s
  -- marked integers come before the words, and decimal integers behind them
  match markedInteger? s with
  | some n => .integer n
  | none =>
    if ["", "~", "null"].contains word then .null
    else match truth? word with
      | some b => .boolean b
      | none =>
        match decimalInteger? s with
        | some n => .integer n
        | none => if isReal s then .real word else .text word

/-- The scalar that a plain text is when it has the tag of a kind.  Kinds other than those of
numbers, truth values and `null` are texts. -/
def ofKind (kind : String) (s : List Char) : Scalar :=
  let word := String.ofList s
  match kind with
  | "bool" => ((truth? word).map boolean).getD misfit
  | "int" => ((decimalInteger? s).map integer).getD misfit
  | "float" => if isReal s then .real word else .misfit
  | "null" => if ["~", "null"].contains word then .null else .misfit
  | _ => .text word

/-- The value of a scalar, unless it is infinite or not a number. -/
def toValue? : Scalar → Option Value
  | null => some .null
  | boolean b => some (.boolean b)
  | integer n => some (.integer n)
  | real written => if isUnbounded written.toList then none else some (.decimal written)
  | text s => some (.text s)
  | misfit => some .null

/-- The key that a scalar is. -/
def key? : Scalar → Option String
  | boolean b => some (toString b)
  | integer n => some (toString n)
  | real written => some written
  | text s => some s
  | null => none
  | misfit => none

end Scalar

end Yaml

end Settings

end ImageGateway
