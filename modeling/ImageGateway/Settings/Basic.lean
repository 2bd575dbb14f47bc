import ImageGateway.Directory.Ldap
import ImageGateway.Session.Store
import ImageGateway.Url.Parser

/-!
# Settings of the gateway

* `Fault` : what is wrong with settings that could be read.
* `Settings.validate` : the first fault, in the order in which the settings are checked.
-/

namespace ImageGateway

/-- The server that clients talk to. -/
structure ServerSettings where
  host : String := "0.0.0.0"
  port : Nat := 8443
  /-- The domain of the session cookie, empty for the host that sets it. -/
  cookieDomain : String := ""
  /-- The session cookie is for secure connections alone. -/
  cookieSecure : Bool := true
  /-- The scheme that the registry is told clients use. -/
  forwardedProto : String := "https"
deriving DecidableEq, Repr

/-- The registry behind the gateway. -/
structure RegistrySettings where
  url : String := ""
  timeoutSecs : Nat := 10
  /-- The number of tag lists that are fetched at a time. -/
  catalogConcurrency : Nat := 4
deriving DecidableEq, Repr

/-- Browser sessions. -/
structure SessionSettings where
  /-- The time from login to the end of a session. -/
  lifetimeSecs : Nat := 1800
  maxSessions : Nat := 10000
deriving DecidableEq, Repr

/-- The settings of the gateway. -/
structure Settings where
  server : ServerSettings
  registry : RegistrySettings
  ldap : Directory.LdapSettings
  session : SessionSettings := {}
deriving DecidableEq, Repr

namespace Settings

/-- What is wrong with settings. -/
inductive Fault where
  | registryMissing
  | registryScheme (scheme : String)
  | registryUrl (url : String) (cause : UrlError)
  | directoryMissing
  | timeoutZero
  | concurrencyZero
  | lifetimeZero
deriving DecidableEq, Repr

/-- The wording of a fault. -/
def Fault.message : Fault → String
  | .registryMissing => "Upstream registry not configured. Set [registry] upstream_url in config"
  | .registryScheme scheme => "Upstream registry URL must use http or https, got '" ++ scheme ++ "'"
  | .registryUrl url cause => "Invalid upstream registry URL '" ++ url ++ "': " ++ cause.message
  | .directoryMissing => "Directory not configured. Set [ldap] url in config"
  | .timeoutZero => "[registry] timeout_secs must be greater than zero"
  | .concurrencyZero => "[registry] catalog_concurrency must be at least 1"
  | .lifetimeZero => "[session] ttl_secs must be greater than zero"

/-- The URL of the registry can be used. -/
def checkRegistryUrl (url : String) : Except Fault Unit :=
  if url.isEmpty then .error .registryMissing
  else match Url.parse url with
    | .error cause => .error (.registryUrl url cause)
    | .ok parsed =>
      if parsed.isHttp then .ok () else .error (.registryScheme (String.ofList parsed.scheme))

/-- The settings have no fault. -/
def validate (s : Settings) : Except Fault Unit := do
  checkRegistryUrl s.registry.url
  if s.ldap.url.isEmpty then .error .directoryMissing
  else if s.registry.timeoutSecs = 0 then .error .timeoutZero
  else if s.registry.catalogConcurrency = 0 then .error .concurrencyZero
  else if s.session.lifetimeSecs = 0 then .error .lifetimeZero
  else .ok ()

end Settings

end ImageGateway
