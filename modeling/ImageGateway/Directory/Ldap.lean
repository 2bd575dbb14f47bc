import ImageGateway.Directory.Basic
import ImageGateway.Directory.Filter

/-!
# LDAP directories

A user is authenticated by a simple bind under the user's own identity; a search under that bind
then gives the user's entry, one attribute of which lists the groups, and the connection is unbound.
What the server answers is a parameter, `LdapServer`, and what is sent to it is recorded, so that
statements about both can be made for every server.  The search is sent with a filter, not with its
text, and how a text is read is a parameter as well.

* `LdapServer.authenticate` : the groups or the error, and the operations sent, in order.
* `LdapServer.directory` : the same as a `Directory`.
-/

namespace ImageGateway

namespace Directory

/-- Where the directory is and how users are found in it. -/
structure LdapSettings where
  url : String := ""
  baseDn : String := ""
  /-- The search filter, with `%s` for the identity of the user. -/
  userFilter : String := "(uid=%s)"
  groupAttribute : String := "memberOf"
  /-- What the names of the gateway's groups begin with. -/
  groupStart : String := "team"
  /-- The domain that completes a user name without one. -/
  mailDomain : String := ""
  startTls : Bool := false
  skipTlsVerify : Bool := false
  timeoutSecs : Nat := 10
deriving DecidableEq, Repr

/-- The identity of a user in the bind: a user name without a domain gets the configured one. -/
def bindIdentity (username mailDomain : String) : String :=
  if username.toList.contains '@' || mailDomain.isEmpty then username
  else if Text.beginsWith "@" mailDomain then username ++ mailDomain
  else username ++ "@" ++ mailDomain

/-- An operation sent to the server. -/
inductive LdapOperation where
  | startTls
  | bind (name password : String)
  | search (base : String) (filter : Filter) (attributes : List String)
  | unbind
deriving Repr

/-- The result of an operation: a code, a name and a text. -/
structure LdapResult where
  code : Nat
  matched : String
  text : String
deriving DecidableEq, Repr

/-- The name of a result code. -/
def resultName : Nat → String
  | 0 => "success" | 1 => "operationsError" | 2 => "protocolError" | 3 => "timeLimitExceeded"
  | 4 => "sizeLimitExceeded" | 5 => "compareFalse" | 6 => "compareTrue"
  | 7 => "authMethodNotSupported" | 8 => "strongerAuthRequired" | 10 => "referral"
  | 11 => "adminLimitExceeded" | 12 => "unavailableCriticalExtension"
  | 13 => "confidentialityRequired" | 14 => "saslBindInProgress" | 16 => "noSuchAttribute"
  | 17 => "undefinedAttributeType" | 18 => "inappropriateMatching" | 19 => "constraintViolation"
  | 20 => "attributeOrValueExists" | 21 => "invalidAttributeSyntax" | 32 => "noSuchObject"
  | 33 => "aliasProblem" | 34 => "invalidDNSyntax" | 36 => "aliasDereferencingProblem"
  | 48 => "inappropriateAuthentication" | 49 => "invalidCredentials"
  | 50 => "insufficientAccessRights" | 51 => "busy" | 52 => "unavailable"
  | 53 => "unwillingToPerform" | 54 => "loopDetect" | 64 => "namingViolation"
  | 65 => "objectClassViolation" | 66 => "notAllowedOnNonLeaf" | 67 => "notAllowedOnRDN"
  | 68 => "entryAlreadyExists" | 69 => "objectClassModsProhibited" | 71 => "affectsMultipleDSAs"
  | 80 => "other" | 88 => "abandoned" | 122 => "assertionFailed" | _ => "unknown"

/-- The wording of a result that is not a success. -/
def LdapResult.message (r : LdapResult) : String :=
  "LDAP operation result: rc=" ++ toString r.code ++ " (" ++ resultName r.code ++ "), dn: \"" ++
    r.matched ++ "\", text: \"" ++ r.text ++ "\""

/-- An entry that a search finds: attributes with their values, as the server lists them. -/
structure LdapEntry where
  dn : String
  attributes : List (String × List Bytes)
deriving DecidableEq, Repr

/-- The values of an attribute as text: those of its last occurrence all of whose values are. -/
def LdapEntry.texts (entry : LdapEntry) (key : String) : List String :=
  ((entry.attributes.filterMap fun (name, values) =>
    if name == key then values.mapM Utf8.decode? else none).getLast?).getD []

/-- How a server behaves towards one client, and how that client reads filters. -/
structure LdapServer where
  /-- Opening a connection under these settings. -/
  connect : LdapSettings → Except String Unit
  /-- The request to secure an open connection. -/
  startTls : Except String Unit
  /-- A simple bind; an error is a broken conversation. -/
  bind : (name password : String) → Except String LdapResult
  /-- The filter that a text writes, which is read before the search is sent. -/
  readFilter : String → Option Filter := Filter.parse?
  /-- A subtree search; an error is a broken conversation. -/
  search : (base : String) → Filter → (attributes : List String) →
    Except String (LdapResult × List LdapEntry)

/-- The connection is to be secured before it is used. -/
def LdapSettings.securesConnection (s : LdapSettings) : Bool :=
  s.startTls && Text.beginsWith "ldap://" s.url

namespace LdapServer

/-- The search for the user behind a bind that succeeded. -/
def findGroups (server : LdapServer) (s : LdapSettings) (identity : String) :
    Except DirectoryError (List String) × List LdapOperation :=
  match server.readFilter (Directory.userFilter s.userFilter identity) with
  | none => (.error (.search "filter parse error"), [])
  | some filter =>
    let sent := [LdapOperation.search s.baseDn filter [s.groupAttribute]]
    match server.search s.baseDn filter [s.groupAttribute] with
    | .error reason => (.error (.search reason), sent)
    | .ok (result, entries) =>
      if result.code != 0 then (.error (.search result.message), sent)
      else match entries with
        | [] => (.error (.userNotFound identity), sent)
        -- of several entries the first one counts
        | entry :: _ => (.ok (entry.texts s.groupAttribute), sent)

/-- The bind and the search over a connection that is open and secured.  Whatever becomes of the
search, the connection is unbound behind it. -/
def bindAndSearch (server : LdapServer) (s : LdapSettings) (username password : String) :
    Except DirectoryError (List String) × List LdapOperation :=
  let identity := bindIdentity username s.mailDomain
  let sent := LdapOperation.bind identity password
  match server.bind identity password with
  | .error reason => (.error (.bindRejected reason), [sent])
  | .ok result =>
    if result.code != 0 then (.error (.bindRejected result.message), [sent])
    else
      let (groups, more) := server.findGroups s identity
      (groups, sent :: more ++ [.unbind])

/-- Authenticates a user.  Without a name or a password nothing is sent: a bind with an empty
password would succeed without proving anything. -/
def authenticate (server : LdapServer) (s : LdapSettings) (username password : String) :
    Except DirectoryError (List String) × List LdapOperation :=
  if username.isEmpty || password.isEmpty then (.error .missingCredentials, [])
  else match server.connect s with
    | .error reason => (.error (.connection reason), [])
    | .ok () =>
      if s.securesConnection then
        match server.startTls with
        | .error reason => (.error (.connection reason), [.startTls])
        | .ok () =>
          let (groups, sent) := server.bindAndSearch s username password
          (groups, .startTls :: sent)
      else server.bindAndSearch s username password

/-- The server as a directory. -/
def directory (server : LdapServer) (s : LdapSettings) : Directory :=
  fun username password => (server.authenticate s username password).1

end LdapServer

end Directory

end ImageGateway
