import ImageGateway.Text.Cut

/-!
# Groups and grants

A directory names a group by a distinguished name or by a plain name, and the group gives rights on
one namespace through the suffix of its name.

| suffix | pull only | delete |
|--------|-----------|--------|
| `_rwd` | no        | yes    |
| `_rw`  | no        | no     |
| `_rd`  | yes       | yes    |
| `_r`   | yes       | no     |

* `groupName` : the value of the first component of an identifier if that component is a `cn` or an
  `ou`; every other identifier is left as it stands.
* `Grant.ofGroup?` : the grant of one group, if its name is a nonempty namespace and a suffix.
* `Grant.ofGroups` : the grants of a user's groups, in their order.
* `Principal.ofGrants?` : the most permissive grant, the first one where several tie.  The raw
  registry protocol is served under this grant alone.
-/

namespace ImageGateway

namespace Access

/-! ### Names of groups -/

/-- The text up to the first comma, without blanks at its ends. -/
def firstComponent (identifier : String) : String :=
  Text.trim (String.ofList (identifier.toList.takeWhile (· != ',')))

/-- What follows `cn=` or `ou=`, in letters of either case, at the front of a component. -/
def componentValue? : List Char → Option (List Char)
  | a :: b :: '=' :: value =>
    let key := [a.toLower, b.toLower]
    if key == ['c', 'n'] || key == ['o', 'u'] then some value else none
  | _ => none

/-- The name of the group that an identifier stands for. -/
def groupName (identifier : String) : String :=
  match componentValue? (firstComponent identifier).toList with
  | some value => String.ofList value
  | none => identifier

/-! ### Grants -/

/-- The end of a group name and the rights it stands for. -/
structure Suffix where
  text : String
  pullOnly : Bool
  deleteAllowed : Bool
deriving DecidableEq, Repr

/-- The four suffixes.  No one of them is an end of another, so their order is immaterial. -/
def suffixes : List Suffix :=
  [⟨"_rwd", false, true⟩, ⟨"_rw", false, false⟩, ⟨"_rd", true, true⟩, ⟨"_r", true, false⟩]

/-- A permission on one namespace, which one group gives. -/
structure Grant where
  group : String
  nameSpace : String
  pullOnly : Bool
  deleteAllowed : Bool
deriving DecidableEq, Repr

namespace Grant

/-- The grant that the suffix `e` gives to the holder of `group`. -/
def ofSuffix? (group : String) (e : Suffix) : Option Grant :=
  match Text.dropEnd? e.text group with
  | none => none
  | some ns => if ns.isEmpty then none else some ⟨group, ns, e.pullOnly, e.deleteAllowed⟩

/-- The grant of a group by the first suffix of the table that leaves a nonempty namespace. -/
def ofGroupIn? (table : List Suffix) (group : String) : Option Grant :=
  table.findSome? (ofSuffix? group)

/-- The grant of a group, or `none` if its name carries no permission. -/
def ofGroup? (group : String) : Option Grant := ofGroupIn? suffixes group

/-- The grant of a raw group identifier whose group name begins with `start`. -/
def ofIdentifier? (start identifier : String) : Option Grant :=
  let name := groupName identifier
  if start.isEmpty || Text.beginsWith start name then ofGroup? name else none

/-- The grants of a list of raw group identifiers, one for each that carries a permission. -/
def ofGroups (start : String) (identifiers : List String) : List Grant :=
  identifiers.filterMap (ofIdentifier? start)

/-- `a` permits strictly more than `b`: the right to delete counts first, then that to write. -/
def morePermissive (a b : Grant) : Bool :=
  if a.deleteAllowed != b.deleteAllowed then a.deleteAllowed
  else a.pullOnly != b.pullOnly && !a.pullOnly

/-- The most permissive of `best` and the grants that follow it; an earlier one wins a tie. -/
def mostPermissiveFrom (best : Grant) (rest : List Grant) : Grant :=
  rest.foldl (fun best g => if g.morePermissive best then g else best) best

/-- The first of the most permissive grants. -/
def mostPermissive? : List Grant → Option Grant
  | [] => none
  | g :: rest => some (mostPermissiveFrom g rest)

end Grant

/-- An actor on the raw registry protocol: a user under one grant. -/
structure Principal where
  name : String
  grant : Grant
deriving DecidableEq, Repr

/-- The actor that `user` is under the most permissive of the grants. -/
def Principal.ofGrants? (user : String) (grants : List Grant) : Option Principal :=
  (Grant.mostPermissive? grants).map (⟨user, ·⟩)

end Access

end ImageGateway
