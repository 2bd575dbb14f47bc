import ImageGateway.Json.Parser

/-!
# Decoding JSON values

Decoders for the types of the documents that a registry serves.  A record may be given as an object
or as an array of its fields in the order of their declaration.

* In an object unknown keys are passed over, and a known key must not be given twice.
* In an array fields at the end may be missing, and there must be no more items than fields.
-/

namespace ImageGateway

namespace Json

namespace Value

/-- The text that a value is. -/
def text? : Value → Option String
  | .string raw => raw.decode?
  | _ => none

/-- The truth value that a value is. -/
def boolean? : Value → Option Bool
  | .boolean b => some b
  | _ => none

/-- The least 64-bit integer. -/
def least : Int := -9223372036854775808

/-- The greatest 64-bit integer. -/
def greatest : Int := 9223372036854775807

/-- The integer is a 64-bit integer. -/
def fits (n : Int) : Bool := decide (least ≤ n) && decide (n ≤ greatest)

/-- The value of a row of decimal digits. -/
def digitsValue (digits : Bytes) : Nat := digits.foldl (fun n d => n * 10 + (d.toNat - 0x30)) 0

/-- The integer that a number without fraction and exponent is; `-0` is none. -/
def integerWritten? : Bytes → Option Int
  | 0x2d :: digits =>
    if digits.all isDigitByte && digits != [0x30] then some (-(digitsValue digits : Int)) else none
  | digits => if digits.all isDigitByte then some (digitsValue digits) else none

/-- The 64-bit integer that a value is. -/
def integer? : Value → Option Int
  | .number written => (integerWritten? written).filter fits
  | _ => none

/-- The list that an array is. -/
def list? {α : Type} (item : Value → Option α) : Value → Option (List α)
  | .array items => items.mapM item
  | _ => none

/-- What a value is that may also be `null`. -/
def orNull? {α : Type} (value : Value → Option α) : Value → Option (Option α)
  | .null => some none
  | v => (value v).map some

/-- The entries of an object with their keys decoded. -/
def entries? (entries : List (RawText × Value)) : Option (List (String × Value)) :=
  entries.mapM fun (key, v) => key.decode?.map (·, v)

/-- The table that an object is; of several entries with one key the last one counts. -/
def table? {α : Type} (item : Value → Option α) : Value → Option (List (String × α))
  | .object raw => do
    let entries ← entries? raw
    let decoded ← entries.mapM fun (key, v) => (item v).map (key, ·)
    some (decoded.foldr (fun e later => if later.any (·.1 == e.1) then later else e :: later) [])
  | _ => none

/-- None of the names is the key of two entries. -/
def distinctKeys (names : List String) (entries : List (String × Value)) : Bool :=
  names.all fun name => (entries.filter (·.1 == name)).length ≤ 1

/-- The values of the fields of a record with these names, in their order; `none` for a field that
is not given. -/
def fields? (names : List String) : Value → Option (List (Option Value))
  | .object raw => do
    let entries ← entries? raw
    if distinctKeys names entries then some (names.map (List.lookup · entries)) else none
  | .array items =>
    if items.length ≤ names.length then
      some (items.map some ++ List.replicate (names.length - items.length) none)
    else none
  | _ => none

/-- What a field is, or the default of a field that is not given. -/
def field? {α : Type} (default : α) (value : Value → Option α) : Option Value → Option α
  | none => some default
  | some v => value v

end Value

end Json

end ImageGateway
