import ImageGateway.Json.Decode
import ImageGateway.Settings.Toml.Scalar
import ImageGateway.Settings.Value

/-!
# Reading JSON files

A configuration file in JSON.  All its strings are kept, so all of them must be texts; integers go
up to 2 ^ 64, and other numbers must be finite.  Of two entries with one key the later one counts.
-/

namespace ImageGateway

namespace Settings

open ImageGateway.Json (parse?)

/-- Values may be nested this deep. -/
def deepest : Nat := 127

/-- The integer is one of 64 bits, with or without a sign. -/
def isMachineInteger (n : Int) : Bool :=
  decide (-9223372036854775808 ≤ n) && decide (n ≤ 18446744073709551615)

/-- The digits of a number and the power of ten that they are to be multiplied with. -/
def numberParts (written : List Char) : List Char × Int :=
  let s := (Toml.cutSign written).2
  let whole := s.takeWhile Char.isDigit
  let rest := s.dropWhile Char.isDigit
  let fraction := match rest with
    | '.' :: digits => digits.takeWhile Char.isDigit
    | _ => []
  let mark := rest.dropWhile fun c => c == '.' || c.isDigit
  (whole ++ fraction, (Toml.exponent? mark).getD 0 - fraction.length)

/-- The value of a number. -/
def numberValue? (written : Bytes) : Option Value :=
  match (ImageGateway.Json.Value.integerWritten? written).filter isMachineInteger with
  | some n => some (.integer n)
  | none =>
    let chars := written.map fun b => Char.ofNat b.toNat
    let (digits, exponent) := numberParts chars
    if Toml.overflows digits exponent then none else some (.decimal (String.ofList chars))

mutual

/-- The value of a JSON value, nested at most `depth` deep. -/
def ofJson? (depth : Nat) : ImageGateway.Json.Value → Option Value
  | .null => some .null
  | .boolean b => some (.boolean b)
  | .number written => numberValue? written
  | .string raw => raw.decode?.map .text
  | .array items =>
    match depth with
    | 0 => none
    | depth + 1 => (itemsOfJson? depth items).map .list
  | .object entries =>
    match depth with
    | 0 => none
    | depth + 1 => (entriesOfJson? depth entries).map .table

/-- The values of the items of an array. -/
def itemsOfJson? (depth : Nat) : List ImageGateway.Json.Value → Option (List Value)
  | [] => some []
  | v :: rest => do some ((← ofJson? depth v) :: (← itemsOfJson? depth rest))

/-- The entries of an object, each key once. -/
def entriesOfJson? (depth : Nat) :
    List (ImageGateway.Json.RawText × ImageGateway.Json.Value) → Option Table
  | [] => some []
  | (key, v) :: rest => do
    let key ← key.decode?
    let v ← ofJson? depth v
    let later ← entriesOfJson? depth rest
    some (if (Table.get? later key).isSome then later else (key, v) :: later)

end

/-- The table that a JSON file is. -/
def jsonTable? (text : String) : Option Table :=
  match (parse? (Utf8.encode text)).bind (ofJson? deepest) with
  | some (.table entries) => some entries
  | _ => none

end Settings

end ImageGateway
