import ImageGateway.Text.Cut
import ImageGateway.Text.Hex

/-!
# Percent-encoding and forms

`Percent.encode` writes the characters outside a set as the bytes of their UTF-8 form, each as `%`
and two capital digits.  `Percent.decode` reads such triples, with digits of either case, and
leaves a `%` that does not begin one as it stands.

The pairs of a query or of a submitted form are pieces between `&`, each a name and a value around
the first `=`, with `+` for a space and percent-encoding.  Pieces without a character are skipped,
and bytes that are not UTF-8 are replaced.

* `Percent.encode_eq_self` : a text all of whose characters are kept is written as it stands.
* `Form.pairs` : the pairs of the data, in order.
-/

namespace ImageGateway

namespace Percent

/-- A byte as a triple. -/
def escapeByte (b : UInt8) : List Char := '%' :: Text.hexByteUpper b

/-- The triples of a character. -/
def escapeChar (c : Char) : List Char := (String.utf8EncodeChar c).flatMap escapeByte

/-- The text with the characters outside the class `keep` written as triples. -/
def encode (keep : Char → Bool) (s : List Char) : List Char :=
  s.flatMap fun c => if keep c then [c] else escapeChar c

@[simp] theorem encode_nil (keep : Char → Bool) : encode keep [] = [] := rfl

@[simp] theorem encode_cons (keep : Char → Bool) (c : Char) (s : List Char) :
    encode keep (c :: s) = (if keep c then [c] else escapeChar c) ++ encode keep s := rfl

@[simp] theorem encode_append (keep : Char → Bool) (s t : List Char) :
    encode keep (s ++ t) = encode keep s ++ encode keep t := by
  simp [encode]

theorem encode_eq_self {keep : Char → Bool} {s : List Char} (h : s.all keep = true) :
    encode keep s = s := by
  induction s with
  | nil => rfl
  | cons c s ih =>
    simp only [List.all_cons, Bool.and_eq_true] at h
    simp [h.1, ih h.2]

/-- The byte that two digits write. -/
def byte? (high low : UInt8) : Option UInt8 := do
  let x ← Text.hexValue? high.toNat
  let y ← Text.hexValue? low.toNat
  some (UInt8.ofNat (x * 16 + y))

/-- The byte that a triple writes whose `%` stands in front of the bytes. -/
def triple? : Bytes → Option UInt8
  | high :: low :: _ => byte? high low
  | _ => none

/-- The bytes with every triple replaced by the byte that it writes; `skip` bytes belong to a
triple already read. -/
def decodeFrom : Nat → Bytes → Bytes
  | _, [] => []
  | skip + 1, _ :: rest => decodeFrom skip rest
  | 0, b :: rest =>
    if b = 0x25 then
      match triple? rest with
      | some value => value :: decodeFrom 2 rest
      | none => b :: decodeFrom 0 rest
    else b :: decodeFrom 0 rest

/-- The bytes with every triple replaced by the byte that it writes. -/
def decode (bytes : Bytes) : Bytes := decodeFrom 0 bytes

end Percent

namespace Form

/-- The text that a name or a value writes. -/
def decodePart (bytes : Bytes) : String :=
  Utf8.decodeLossy (Percent.decode (bytes.map fun b => if b = 0x2b then 0x20 else b))

/-- The pair that one piece writes; the value is empty without a `=`. -/
def decodePair (piece : Bytes) : String × String :=
  match Text.cutWhere (· == 0x3d) piece with
  | some (name, value) => (decodePart name, decodePart value)
  | none => (decodePart piece, "")

/-- The pairs of the data, in order. -/
def pairs (bytes : Bytes) : List (String × String) :=
  ((bytes.splitOn 0x26).filter (!·.isEmpty)).map decodePair

/-- The first of the names that comes a second time; `seen` came before. -/
def repeatedAfter? (names seen : List String) : List (String × String) → Option String
  | [] => none
  | (name, _) :: rest =>
    if !names.contains name then repeatedAfter? names seen rest
    else if seen.contains name then some name
    else repeatedAfter? names (name :: seen) rest

/-- The first of the names that comes a second time. -/
def repeated? (names : List String) (data : List (String × String)) : Option String :=
  repeatedAfter? names [] data

/-- The first value of a name, or the empty text. -/
def value (data : List (String × String)) (name : String) : String := (data.lookup name).getD ""

end Form

end ImageGateway
