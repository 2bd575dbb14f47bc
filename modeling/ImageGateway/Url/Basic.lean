import ImageGateway.Url.Host

/-!
# URLs

A URL is kept in its normal form: the scheme in small letters, the host as a name or an address,
the port only where it differs from the scheme's own, the path as a list of segments none of which
is a dot segment, and every part percent-encoded where its place asks for that.

* `Url.render` : the text of a URL.
* `Url.pathText` : the path as it is sent, with a slash before every segment.
-/

namespace ImageGateway

/-- Who is asked for what a URL names. -/
structure Authority where
  username : List Char
  password : List Char
  host : Host
  port : Option Nat
deriving DecidableEq, Repr

/-- The path of a URL. -/
inductive UrlPath where
  | segments (parts : List (List Char))
  /-- The path of a scheme that has no hierarchy. -/
  | flat (text : List Char)
deriving DecidableEq, Repr

/-- A URL in normal form. -/
structure Url where
  scheme : List Char
  authority : Option Authority
  path : UrlPath
  query : Option (List Char)
  fragment : Option (List Char)
deriving DecidableEq, Repr

namespace Url

/-- The schemes whose URLs name a server and a path on it, with their ports. -/
def serverSchemes : List (List Char × Nat) :=
  [("http".toList, 80), ("https".toList, 443), ("ws".toList, 80), ("wss".toList, 443),
    ("ftp".toList, 21)]

/-- The scheme names a server and a path on it. -/
def isServerScheme (scheme : List Char) : Bool := (serverSchemes.lookup scheme).isSome

/-- The URL is fetched by HTTP, with or without a secure connection. -/
def isHttp (url : Url) : Bool := url.scheme == "http".toList || url.scheme == "https".toList

/-- The port that is not written. -/
def defaultPort? (scheme : List Char) : Option Nat := serverSchemes.lookup scheme

/-- The host that is asked. -/
def host? (url : Url) : Option Host := url.authority.map (·.host)

/-- The port that is asked, written or not. -/
def portOrDefault? (url : Url) : Option Nat :=
  (url.authority.bind (·.port)).or (defaultPort? url.scheme)

end Url

/-- The text of the path. -/
def UrlPath.render : UrlPath → List Char
  | .segments parts => parts.flatMap ('/' :: ·)
  | .flat text => text

/-- The user name and the password with their separators, or nothing if both are empty. -/
def Authority.userInfo (a : Authority) : List Char :=
  if a.username.isEmpty && a.password.isEmpty then []
  else a.username ++ (if a.password.isEmpty then [] else ':' :: a.password) ++ ['@']

/-- The host and the port, if one is given. -/
def Authority.hostAndPort (a : Authority) : List Char :=
  a.host.render ++ match a.port with
    | some port => ':' :: (toString port).toList
    | none => []

/-- The text of the authority. -/
def Authority.render (a : Authority) : List Char := a.userInfo ++ a.hostAndPort

namespace Url

/-- A part behind its mark, or nothing. -/
def marked (mark : Char) : Option (List Char) → List Char
  | some text => mark :: text
  | none => []

/-- The URL without query and fragment. -/
def renderFront (url : Url) : List Char :=
  url.scheme ++ ':' :: (match url.authority with
    | some a => '/' :: '/' :: a.render
    | none => []) ++ url.path.render

/-- The characters of the URL. -/
def renderChars (url : Url) : List Char :=
  url.renderFront ++ marked '?' url.query ++ marked '#' url.fragment

/-- The text of the URL. -/
def render (url : Url) : String := String.ofList url.renderChars

/-- The path as it is sent. -/
def pathText (url : Url) : String := String.ofList url.path.render

/-- The query as it is sent. -/
def queryText? (url : Url) : Option String := url.query.map String.ofList

end Url

end ImageGateway
