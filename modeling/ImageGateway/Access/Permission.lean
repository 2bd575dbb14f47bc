import ImageGateway.Access.Grant

/-!
# Permissions by namespace

What a list of grants adds up to: the namespaces that it names, and for each of them whether it is
pull-only (every grant on it is), whether deleting is allowed (some grant on it allows that), and
the groups that it comes from.
-/

namespace ImageGateway

namespace Access

/-- The members of the list, each at its first occurrence. -/
def distinct : List String → List String
  | [] => []
  | s :: l => s :: (distinct l).filter (· != s)

/-- The text put in its place in a strictly increasing list, or the list if the text is in it. -/
def insertInOrder (s : String) : List String → List String
  | [] => [s]
  | t :: l => if s < t then s :: t :: l else if s = t then t :: l else t :: insertInOrder s l

/-- The members of the list in strictly increasing order of their code points. -/
def inOrder (l : List String) : List String := l.foldr insertInOrder []

/-- The namespaces of the grants, each at its first occurrence. -/
def namespacesOf (grants : List Grant) : List String := distinct (grants.map (·.nameSpace))

/-- The grants on one namespace. -/
def grantsOn (nameSpace : String) (grants : List Grant) : List Grant :=
  grants.filter (·.nameSpace == nameSpace)

/-- Some grant allows deleting in the namespace. -/
def deleteAllowedIn (grants : List Grant) (nameSpace : String) : Bool :=
  grants.any fun g => g.nameSpace == nameSpace && g.deleteAllowed

/-- What the grants on one namespace add up to. -/
structure Permission where
  nameSpace : String
  pullOnly : Bool
  deleteAllowed : Bool
  groups : List String
deriving DecidableEq, Repr

/-- The sum of the grants on a namespace; a namespace without grants has no groups and is neither
pull-only nor open to deletion. -/
def permissionOn (grants : List Grant) (nameSpace : String) : Permission :=
  let held := grantsOn nameSpace grants
  { nameSpace
    pullOnly := !held.isEmpty && held.all (·.pullOnly)
    deleteAllowed := held.any (·.deleteAllowed)
    groups := inOrder (held.map (·.group)) }

/-- One entry for each namespace asked for that has a name, in the order asked. -/
def permissions (grants : List Grant) (namespaces : List String) : List Permission :=
  (namespaces.filter (!·.isEmpty)).map (permissionOn grants)

end Access

end ImageGateway
