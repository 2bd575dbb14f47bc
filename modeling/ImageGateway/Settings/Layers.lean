import ImageGateway.Settings.Value
import ImageGateway.Text.Cut

/-!
# Layers of settings

Several files may say something about one setting.  A later file wins: tables are merged entry by
entry, and any other value takes the place of the one before it.

A key at the top of a file may name an entry of an inner table or list by the way to it: `a.b[0].c`.
A key that is not the spelling of a way is the name of an entry itself.

* `Value.merge` : one value on top of another.
* `wayOf` : the way that a key spells.
* `Value.changeAt` : the value with a part of it changed, which comes about if it is not there.
-/

namespace ImageGateway

namespace Settings

/-- Puts `new` on top of `old`. -/
def Value.merge (old : Value) : Value → Value
  | .table entries =>
    -- a table takes the place of anything but a table
    let base : Table := match old with
      | .table t => t
      | _ => []
    .table (entries.attach.foldl (fun t e =>
      Table.set t e.1.1 (((Table.get? t e.1.1).getD .null).merge e.1.2)) base)
  | new => new
termination_by new => sizeOf new
decreasing_by
  have h := List.sizeOf_lt_of_mem e.2
  have : sizeOf e.1 = 1 + sizeOf e.1.1 + sizeOf e.1.2 := by cases e.1; rfl
  simp only [Value.table.sizeOf_spec]
  omega

/-! ### Ways -/

/-- A step into a value. -/
inductive Step where
  /-- To the entry of a table. -/
  | entry (key : String)
  /-- To an item of a list, counted from the end if the number is negative. -/
  | item (index : Int)
deriving DecidableEq, Repr

/-- A character of the key of an entry on a way. -/
def isKeyChar (c : Char) : Bool := c.isAlphanum || c == '_' || c == '-'

/-- The step to an entry in front of a text, and the rest. -/
def entryStep? (s : List Char) : Option (Step × List Char) :=
  let key := s.takeWhile isKeyChar
  if key.isEmpty then none else some (.entry (String.ofList key), s.dropWhile isKeyChar)

/-- The digits in front of a text as an index, and the rest.  An index has 64 bits. -/
def index? (minus : Bool) (s : List Char) : Option (Int × List Char) :=
  let digits := s.takeWhile Char.isDigit
  let n := digits.foldl (fun n c => n * 10 + (c.toNat - '0'.toNat)) 0
  let limit := Nat.pow 2 63 - (if minus then 0 else 1)
  if digits.isEmpty || limit < n then none
  else some (if minus then -(n : Int) else n, s.dropWhile Char.isDigit)

/-- The step to an item in front of a text, behind its opening bracket, and the rest. -/
def itemStep? (s : List Char) : Option (Step × List Char) := do
  let isBlank (c : Char) := c == ' ' || c == '\t'
  let (n, s) ← match s.dropWhile isBlank with
    | '-' :: s => index? true s
    | s => index? false s
  match s.dropWhile isBlank with
  | ']' :: s => some (.item n, s)
  | _ => none

/-- The steps that a text spells, each behind its mark.  `fuel` bounds their number. -/
def steps? : Nat → List Char → Option (List Step)
  | _, [] => some []
  | 0, _ => none
  | fuel + 1, c :: s => do
    let (step, rest) ←
      if c == '.' then entryStep? s else if c == '[' then itemStep? s else none
    some (step :: (← steps? fuel rest))

/-- The way that a key at the top of a file spells. -/
def wayOf (key : String) : List Step :=
  let spelled : Option (List Step) := do
    let (first, rest) ← entryStep? key.toList
    some (first :: (← steps? rest.length rest))
  spelled.getD [.entry key]

/-! ### Changes -/

/-- The list in which an index stands for an item, with `null` for the items that were not there,
and the place of the item. -/
def reach (index : Int) (items : List Value) : List Value × Nat :=
  let place := if index < 0 then items.length + index else index
  if place < 0 then (List.replicate (-place).toNat .null ++ items, 0)
  else (items ++ List.replicate (place.toNat + 1 - items.length) .null, place.toNat)

/-- Changes the part of a value that a way leads to.  What is in the way of a table or a list
gives place to an empty one, and an entry that is not there counts as `null`. -/
def Value.changeAt (f : Value → Value) : List Step → Value → Value
  | [], v => f v
  | .entry key :: way, v =>
    let entries : Table := match v with
      | .table t => t
      | _ => []
    .table (entries.set key (((entries.get? key).getD .null).changeAt f way))
  | .item index :: way, v =>
    let (items, place) := reach index (match v with
      | .list items => items
      | _ => [])
    .list (items.modify place (Value.changeAt f way))

/-- Puts the entries of a file on top of the settings. -/
def addLayer (settings : Value) (file : Table) : Value :=
  file.foldl (fun s (key, v) => s.changeAt (·.merge v) (wayOf key)) settings

end Settings

end ImageGateway
