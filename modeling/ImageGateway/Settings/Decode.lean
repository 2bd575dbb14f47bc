import ImageGateway.Settings.Basic
import ImageGateway.Settings.Value

/-!
# Reading settings from values

The merged configuration is a table with one entry for each section.  Nothing is converted between
types: a text is never a number, and a number with a fraction never an integer.  A section may be
given as a list of its settings in the order of their declaration.

* `DecodeError` : the first setting that cannot be read.
* `unknownFields` : the keys that no setting has.
-/

namespace ImageGateway

namespace Settings

/-- Why a value is no setting. -/
inductive DecodeError where
  | wrongType (found : Value) (expected : String)
  | outOfRange (n : Int) (expected : String)
  | missing (field : String)
  | tooLong (length : Nat)

/-- What a value is, in the wording of an error. -/
def Value.kind : Value → String
  | .null => "null"
  | .boolean b => "boolean \x60" ++ toString b ++ "\x60"
  | .integer n => "integer \x60" ++ toString n ++ "\x60"
  | .decimal written => "floating point \x60" ++ written ++ "\x60"
  | .text s => "string " ++ s.quote
  | .list _ => "sequence"
  | .table _ => "map"

/-- The wording of an error. -/
def DecodeError.message : DecodeError → String
  | .wrongType found expected => "invalid type: " ++ found.kind ++ ", expected " ++ expected
  | .outOfRange n expected =>
    "invalid value: integer \x60" ++ toString n ++ "\x60, expected " ++ expected
  | .missing field => "missing field \x60" ++ field ++ "\x60"
  | .tooLong length =>
    "invalid length " ++ toString length ++ ", expected fewer elements in array"

/-- The result of reading a setting. -/
abbrev Decoded := Except DecodeError

/-- A text. -/
def textSetting : Value → Decoded String
  | .text s => .ok s
  | v => .error (.wrongType v "a string")

/-- A truth value. -/
def booleanSetting : Value → Decoded Bool
  | .boolean b => .ok b
  | v => .error (.wrongType v "a boolean")

/-- A natural number of so many bits. -/
def numberSetting (bits : Nat) (name : String) : Value → Decoded Nat
  | .integer n =>
    if 0 ≤ n ∧ n < Nat.pow 2 bits then .ok n.toNat else .error (.outOfRange n name)
  | v => .error (.wrongType v name)

/-- The settings of the section `server`, in the order of their declaration. -/
def serverFields : List String :=
  ["host", "port", "cookie_domain", "cookie_secure", "forwarded_proto"]

/-- The settings of the section `registry`. -/
def registryFields : List String := ["upstream_url", "timeout_secs", "catalog_concurrency"]

/-- The settings of the section `ldap`. -/
def ldapFields : List String :=
  ["url", "base_dn", "user_filter", "group_attribute", "group_name_prefix", "user_mail_domain",
    "start_tls", "skip_tls_verify", "timeout_secs"]

/-- The settings of the section `session`. -/
def sessionFields : List String := ["ttl_secs", "max_sessions"]

/-- The sections. -/
def sections : List (String × List String) :=
  [("server", serverFields), ("registry", registryFields), ("ldap", ldapFields),
    ("session", sessionFields)]

/-- The settings that a section gives. -/
def sectionTable (fields : List String) (name : String) : Value → Decoded Table
  | .table entries => .ok entries
  | .list items =>
    if items.length ≤ fields.length then .ok (fields.zip items) else .error (.tooLong items.length)
  | v => .error (.wrongType v ("struct " ++ name))

/-- A setting of a section, or its default. -/
def setting {α : Type} (t : Table) (key : String) (default : α) (read : Value → Decoded α) :
    Decoded α :=
  match Table.get? t key with
  | none => .ok default
  | some v => read v

/-- The settings of the server. -/
def readServer (v : Value) : Decoded ServerSettings := do
  let t ← sectionTable serverFields "ServerSettings" v
  let default : ServerSettings := {}
  let cookieDomain ← setting t "cookie_domain" default.cookieDomain textSetting
  let cookieSecure ← setting t "cookie_secure" default.cookieSecure booleanSetting
  let forwardedProto ← setting t "forwarded_proto" default.forwardedProto textSetting
  let host ← setting t "host" default.host textSetting
  let port ← setting t "port" default.port (numberSetting 16 "u16")
  .ok { host, port, cookieDomain, cookieSecure, forwardedProto }

/-- The settings of the registry. -/
def readRegistry (v : Value) : Decoded RegistrySettings := do
  let t ← sectionTable registryFields "RegistrySettings" v
  let default : RegistrySettings := {}
  let catalogConcurrency ←
    setting t "catalog_concurrency" default.catalogConcurrency (numberSetting 64 "usize")
  let timeoutSecs ← setting t "timeout_secs" default.timeoutSecs (numberSetting 64 "u64")
  let url ← setting t "upstream_url" default.url textSetting
  .ok { url, timeoutSecs, catalogConcurrency }

/-- The settings of the directory. -/
def readLdap (v : Value) : Decoded Directory.LdapSettings := do
  let t ← sectionTable ldapFields "LdapSettings" v
  let default : Directory.LdapSettings := {}
  let baseDn ← setting t "base_dn" default.baseDn textSetting
  let groupAttribute ← setting t "group_attribute" default.groupAttribute textSetting
  let groupStart ← setting t "group_name_prefix" default.groupStart textSetting
  let skipTlsVerify ← setting t "skip_tls_verify" default.skipTlsVerify booleanSetting
  let startTls ← setting t "start_tls" default.startTls booleanSetting
  let timeoutSecs ← setting t "timeout_secs" default.timeoutSecs (numberSetting 64 "u64")
  let url ← setting t "url" default.url textSetting
  let userFilter ← setting t "user_filter" default.userFilter textSetting
  let mailDomain ← setting t "user_mail_domain" default.mailDomain textSetting
  .ok { url, baseDn, userFilter, groupAttribute, groupStart, mailDomain, startTls, skipTlsVerify,
        timeoutSecs }

/-- The settings of the sessions. -/
def readSession (v : Value) : Decoded SessionSettings := do
  let t ← sectionTable sessionFields "SessionSettings" v
  let default : SessionSettings := {}
  let maxSessions ← setting t "max_sessions" default.maxSessions (numberSetting 64 "u64")
  let lifetimeSecs ← setting t "ttl_secs" default.lifetimeSecs (numberSetting 64 "u64")
  .ok { lifetimeSecs, maxSessions }

/-- A section that must be there. -/
def required {α : Type} (name : String) : Option α → Decoded α
  | some v => .ok v
  | none => .error (.missing name)

/-- The settings that a table gives. -/
def ofTable (t : Table) : Decoded Settings := do
  let ldap ← setting t "ldap" none fun v => (readLdap v).map some
  let registry ← setting t "registry" none fun v => (readRegistry v).map some
  let server ← setting t "server" none fun v => (readServer v).map some
  let session ← setting t "session" {} readSession
  let server ← required "server" server
  let registry ← required "registry" registry
  let ldap ← required "ldap" ldap
  .ok { server, registry, ldap, session }

/-- The keys of a section that no setting has, behind the name of the section. -/
def unknownIn (name : String) (fields : List String) : Value → List String
  | .table entries =>
    (entries.filter fun (key, _) => !fields.contains key).map fun (key, _) => name ++ "." ++ key
  | _ => []

/-- The keys that no setting has, with the keys of the tables that they lie in. -/
def unknownFields (t : Table) : List String :=
  t.flatMap fun (key, v) =>
    match sections.lookup key with
    | some fields => unknownIn key fields v
    | none => [key]

/-- The wording of a warning about a key that no setting has. -/
def unknownFieldMessage (field : String) : String := "Unknown configuration field: " ++ field

end Settings

end ImageGateway
