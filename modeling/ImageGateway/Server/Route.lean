import ImageGateway.Access.Gate
import ImageGateway.Api.Action

/-!
# Routes

Paths are compared letter by letter.  Where a route takes `GET` it takes `HEAD` as well.
-/

namespace ImageGateway

namespace Server

open Http (Method)

/-- Where a request leads. -/
inductive Route where
  | health
  | version
  | login
  | logout
  | api (route : Api.ApiRoute)
  | proxy
deriving DecidableEq, Repr

namespace Route

/-- The paths that lead somewhere, those of the raw protocol apart. -/
def fixedPaths : List (String × Route) :=
  [("/health", .health), ("/version", .version), ("/login", .login), ("/logout", .logout),
    ("/api/dashboard", .api .dashboard), ("/api/catalog", .api .catalog),
    ("/api/repos", .api .repos), ("/api/tags", .api .tags), ("/api/taginfo", .api .tagInfo),
    ("/api/taglayers", .api .tagLayers), ("/api/tag", .api .tag)]

/-- The route of a path. -/
def ofPath? (path : String) : Option Route :=
  if Access.isProtocolPath path then some .proxy else fixedPaths.lookup path

/-- The methods that a route takes; none means any. -/
def methods? : Route → Option (List Method)
  | .login => some [.post]
  | .logout => some [.get, .head, .post]
  | .api .tag => some [.delete]
  | .proxy => none
  | _ => some [.get, .head]

/-- The route takes the method. -/
def takes (r : Route) (m : Method) : Bool :=
  match r.methods? with
  | none => true
  | some l => l.contains m

/-- The field that lists the methods that a route takes. -/
def allowHeader (r : Route) : Http.Headers :=
  match r.methods? with
  | none => []
  | some l => [.ofText "allow" (",".intercalate (l.map Method.text))]

end Route

end Server

end ImageGateway
