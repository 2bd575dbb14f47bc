/-!
# Values of configuration files

What a configuration file says, whatever its format.  A table has at most one entry for a key.
-/

namespace ImageGateway

namespace Settings

/-- A value of a configuration file. -/
inductive Value where
  | null
  | boolean (b : Bool)
  | integer (n : Int)
  /-- A finite number with a fraction or an exponent, as it is written.  No setting takes one. -/
  | decimal (written : String)
  | text (s : String)
  | list (items : List Value)
  | table (entries : List (String × Value))
deriving Repr

/-- The entries of a table. -/
abbrev Table := List (String × Value)

namespace Table

/-- The value of a key. -/
def get? (t : Table) (key : String) : Option Value := t.lookup key

/-- The table with a value in the place of the one that the key had, or at the end. -/
def set (t : Table) (key : String) (v : Value) : Table :=
  match t with
  | [] => [(key, v)]
  | (k, old) :: rest => if k == key then (k, v) :: rest else (k, old) :: set rest key v

end Table

end Settings

end ImageGateway
