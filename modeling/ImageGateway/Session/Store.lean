import ImageGateway.Access.Permission

/-!
# Sessions and their store

A login opens a session: the user, the grants and the time.  Sessions are kept by token in a store
with a lifetime.  The store is a timed map: a session is gone once it is older than the lifetime,
and the store forgets it once the lifetime has passed since it was put there.

The store is a cache, which may hide an entry late that it is to forget.  A reading is told for
either case; the gateway runs on a cache that hides all that is due.

* `hasExpired`, `hasExpiredWithin` : the check of the age, and the same with a bounded clock.
* `Store.ofLifetime?` : a store, unless the lifetime is longer than a store can be built with.
* `Store.read` : the live session of a token, and the store without it if it has run out.
* `Store.get`, `Store.check` : what the gateway reads, and what it reads of one namespace.
-/

namespace ImageGateway

/-- A reading of the clock, in nanoseconds. -/
abbrev Session.Instant := Int

/-- What a session token gives access to. -/
structure Session where
  user : String
  grants : List Access.Grant
  createdAt : Session.Instant
deriving DecidableEq, Repr

namespace Session

/-- A number of seconds, in nanoseconds. -/
def seconds (n : Nat) : Int := (n : Int) * 1000000000

/-- The namespaces of the grants, each at its first occurrence. -/
def namespaces (s : Session) : List String := Access.namespacesOf s.grants

/-- The session covers the namespace. -/
def covers (s : Session) (nameSpace : String) : Bool := s.namespaces.contains nameSpace

/-- The session may delete in the namespace. -/
def mayDelete (s : Session) (nameSpace : String) : Bool :=
  Access.deleteAllowedIn s.grants nameSpace

/-- The session is older than the lifetime. -/
def hasExpired (s : Session) (lifetime : Nat) (now : Instant) : Bool :=
  decide (s.createdAt + seconds lifetime < now)

/-- The check of the age with a bounded clock: a lifetime longer than the longest span counts as
that, and a session never ends whose end is behind the latest reading. -/
def hasExpiredWithin (s : Session) (span : Int) (latest : Instant) (lifetime : Nat)
    (now : Instant) : Bool :=
  let endsAt := s.createdAt + min (seconds lifetime) span
  if endsAt ≤ latest then decide (endsAt < now) else false

/-- A session and the time at which it was put into the store. -/
structure Entry where
  token : String
  session : Session
  storedAt : Instant
deriving DecidableEq, Repr

/-- The sessions by token, each token at most once, and their lifetime in seconds. -/
structure Store where
  lifetime : Nat
  entries : List Entry
deriving DecidableEq, Repr

namespace Store

/-- The longest lifetime that a store can be built with: a thousand years of 365 days. -/
def longestLifetime : Nat := 1000 * 365 * 24 * 60 * 60

/-- The empty store. -/
def empty (lifetime : Nat) : Store := ⟨lifetime, []⟩

/-- The empty store, if the lifetime is not too long. -/
def ofLifetime? (lifetime : Nat) : Option Store :=
  if lifetime ≤ longestLifetime then some (empty lifetime) else none

/-- The store without the session of the token. -/
def delete (store : Store) (token : String) : Store :=
  { store with entries := store.entries.filter (·.token != token) }

/-- The store with the session under the token, in the place of any other. -/
def put (store : Store) (token : String) (session : Session) (now : Instant) : Store :=
  { store with entries := ⟨token, session, now⟩ :: (store.delete token).entries }

/-- The entry of the token, whatever its age. -/
def find? (store : Store) (token : String) : Option Entry :=
  store.entries.find? (·.token == token)

/-- The lifetime has passed since the entry was stored. -/
def isForgotten (store : Store) (entry : Entry) (now : Instant) : Bool :=
  decide (entry.storedAt + seconds store.lifetime ≤ now)

/-- The entry is hidden by the cache, or its session is over. -/
def isGone (store : Store) (hides : Bool) (e : Entry) (now : Instant) : Bool :=
  (hides && store.isForgotten e now) || e.session.hasExpired store.lifetime now

/-- The live session of the token, in front of a cache that may hide an entry late.  A session that
has run out leaves the store. -/
def read (store : Store) (hides : Bool) (token : String) (now : Instant) : Option Session × Store :=
  match store.find? token with
  | none => (none, store)
  | some e =>
    if store.isGone hides e now then (none, store.delete token) else (some e.session, store)

/-- The live session of the token, in front of a cache that hides all that is due. -/
def get (store : Store) (token : String) (now : Instant) : Option Session × Store :=
  store.read true token now

/-- What the live session of the token may do in a namespace. -/
def check (store : Store) (hides : Bool) (token nameSpace : String) (now : Instant) :
    Option (Bool × Bool) × Store :=
  let (found, rest) := store.read hides token now
  (found.map fun session => (session.covers nameSpace, session.mayDelete nameSpace), rest)

end Store

end Session

end ImageGateway
