import ImageGateway.Proxy.Forward
import ImageGateway.Registry.Client
import ImageGateway.Session.Cookie
import ImageGateway.Settings.Basic

/-!
# The gateway

What the gateway is made of once its settings are read.

* `Gateway.ofSettings` : the gateway and its empty store of sessions, or why it cannot be built.
-/

namespace ImageGateway

namespace Server

/-- The fixed parts of the gateway. -/
structure Gateway where
  client : Registry.Client
  proxy : Proxy.ProxySettings
  cookies : Session.CookieSettings
  /-- The time from login to the end of a session, in seconds. -/
  lifetime : Nat
deriving DecidableEq, Repr

/-- Why the gateway cannot be built. -/
inductive BuildError where
  | invalidRegistryUrl (cause : UrlError)
  /-- The store takes no lifetime that long: the gateway stops. -/
  | lifetimeTooLong
deriving DecidableEq, Repr

/-- The wording of an error. -/
def BuildError.message : BuildError → String
  | .invalidRegistryUrl _ => "Invalid registry.upstream_url"
  | .lifetimeTooLong => "time_to_live is longer than 1000 years"

namespace Gateway

/-- The gateway in front of a registry with this URL. -/
def withRegistry (s : Settings) (url : Url) : Gateway where
  client := .ofText s.registry.url s.registry.catalogConcurrency
  proxy := ⟨.ofUrl url, s.server.forwardedProto, s.ldap.groupStart⟩
  cookies := ⟨s.server.cookieDomain, s.server.cookieSecure⟩
  lifetime := s.session.lifetimeSecs

/-- The gateway of the settings, and its store of sessions. -/
def ofSettings (s : Settings) : Except BuildError (Gateway × Session.Store) :=
  match Url.parse s.registry.url with
  | .error cause => .error (.invalidRegistryUrl cause)
  | .ok url =>
    match Session.Store.ofLifetime? s.session.lifetimeSecs with
    | none => .error .lifetimeTooLong
    | some store => .ok (withRegistry s url, store)

end Gateway

end Server

end ImageGateway
