import ImageGateway.Access.Grant
import ImageGateway.Http.Header

/-!
# The gate of the raw protocol

Registry clients send credentials with every request, so every request is decided on its own:
`authorize` looks at the method and the path and at the one grant of the actor.  The two forms of
the ping path are open to every actor.

* `Denial` : why a request is refused, in the order in which the reasons are tried.
-/

namespace ImageGateway

namespace Access

/-- The root of the registry protocol. -/
def protocolRoot : String := "/v2"

/-- The path that registry clients ping. -/
def pingPath : String := "/v2/"

/-- Why the gate refuses a request. -/
inductive Denial where
  /-- A segment of the path is `.` or `..`, plain or percent-encoded. -/
  | dotSegment
  /-- The path lies outside the namespace of the actor. -/
  | wrongNamespace
  /-- A writing method under a pull-only grant. -/
  | pullOnly
  /-- A deletion that the grant does not allow. -/
  | deleteNotAllowed
deriving DecidableEq, Repr

/-- The wording of a refusal. -/
def Denial.message : Denial → String
  | .dotSegment => "path contains dot segments"
  | .wrongNamespace => "namespace not allowed"
  | .pullOnly => "pull-only access"
  | .deleteNotAllowed => "delete not allowed"

/-- The segment is `.` or `..` once `%2e` is read as a full stop, in letters of either case. -/
def isDotSegment (segment : List Char) : Bool :=
  let plain := Text.replaceFrom "%2e".toList ['.'] 0 (segment.map Char.toLower)
  plain == ['.'] || plain == ['.', '.']

/-- Some segment of the path is a dot segment. -/
def hasDotSegment (path : String) : Bool := (path.toList.splitOn '/').any isDotSegment

/-- The path below the protocol root; a path that does not start there is taken as it stands. -/
def scopedPath (path : String) : String := (Text.dropStart? protocolRoot path).getD path

/-- The path lies under the namespace. -/
def liesIn (nameSpace path : String) : Bool :=
  Text.beginsWith ("/" ++ nameSpace ++ "/") (scopedPath path)

/-- The path is one of the two forms of the ping path. -/
def isPing (path : String) : Bool := path == pingPath || path == protocolRoot

/-- The path belongs to the raw protocol. -/
def isProtocolPath (path : String) : Bool :=
  path == protocolRoot || Text.beginsWith pingPath path

/-- What a grant says about a method on its own namespace. -/
def allowsMethod (g : Grant) (m : Http.Method) : Except Denial Unit :=
  if g.pullOnly then
    if m == .get || m == .head then .ok () else .error .pullOnly
  else if m == .delete && !g.deleteAllowed then .error .deleteNotAllowed
  else .ok ()

/-- The decision on a request by an actor who holds `g`. -/
def authorize (g : Grant) (m : Http.Method) (path : String) : Except Denial Unit :=
  if isPing path then .ok ()
  else if hasDotSegment path then .error .dotSegment
  else if !liesIn g.nameSpace path then .error .wrongNamespace
  else allowsMethod g m

end Access

end ImageGateway
