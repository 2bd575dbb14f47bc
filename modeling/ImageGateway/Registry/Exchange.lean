import ImageGateway.Codec.Base64
import ImageGateway.Http.Message
import ImageGateway.Url.Parser

/-!
# Exchanges with the registry

What the gateway asks of the registry depends on what it is answered, so a piece of work is a tree:
`Exchange α` is a result, or a call and what to do with each answer to it.  An answer is a response,
or nothing if none was obtained.

A registry is a function too: from its state and a request to its answer and its next state.
`Exchange.run` lets an exchange and a registry play against each other and records what was sent.
Statements about every registry are statements about every such function.

* `Call` : one call of the HTTP client, which may follow redirects.
* `send` : what the HTTP client sends when it is handed a URL, fields and a body.
* `Exchange.run` : the result, one record for each call in order, and the state of the registry.
-/

namespace ImageGateway

namespace Registry

/-- A request to the registry. -/
structure WireRequest where
  method : Http.Method
  url : Url
  headers : Http.Headers
  body : Bytes
deriving DecidableEq, Repr

/-- What the client does with a response that redirects. -/
inductive Redirects where
  /-- It is the answer. -/
  | passOn
  /-- The client goes where it points, ten times at most. -/
  | follow
deriving DecidableEq, Repr

/-- One call of the HTTP client. -/
structure Call where
  redirects : Redirects
  request : WireRequest
deriving DecidableEq, Repr

/-- Work that may call the registry. -/
inductive Exchange (α : Type) where
  | done (result : α)
  | call (c : Call) (next : Option Http.Response → Exchange α)

namespace Exchange

/-- Goes on with the result. -/
def bind {α β : Type} : Exchange α → (α → Exchange β) → Exchange β
  | .done a, f => f a
  | .call c next, f => .call c fun answer => (next answer).bind f

instance : Monad Exchange where
  pure := .done
  bind := Exchange.bind

@[simp] theorem pure_eq {α : Type} (a : α) : (pure a : Exchange α) = .done a := rfl

@[simp] theorem done_bind {α β : Type} (a : α) (f : α → Exchange β) : (.done a >>= f) = f a := rfl

@[simp] theorem call_bind {α β : Type} (c : Call) (next : Option Http.Response → Exchange α)
    (f : α → Exchange β) : (.call c next >>= f) = .call c fun answer => next answer >>= f := rfl

end Exchange

/-- The user name and password of a URL in the form of a header field, if there are any. -/
def urlCredentials (url : Url) : Http.Headers :=
  match url.authority with
  | none => []
  | some a =>
    if a.username.isEmpty && a.password.isEmpty then []
    else
      let decoded (s : List Char) := Percent.decode (Utf8.encode (String.ofList s))
      let pair := decoded a.username ++ 0x3a :: decoded a.password
      [.ofText "authorization" (String.ofList ("Basic ".toList ++ Base64.encode pair))]

/-- The URL without user name and password. -/
def withoutCredentials (url : Url) : Url :=
  { url with authority := url.authority.map fun a => { a with username := [], password := [] } }

/-- The request that the HTTP client makes with this body: credentials leave the URL for a header
field, and any type is accepted unless the headers say otherwise. -/
def WireRequest.make (method : Http.Method) (url : Url) (headers : Http.Headers) (body : Bytes) :
    WireRequest where
  method
  url := withoutCredentials url
  headers :=
    (if headers.has "accept" then headers else .ofText "accept" "*/*" :: headers) ++
      (if headers.has "authorization" then [] else urlCredentials url)
  body

/-- The methods whose requests hardly ever have a body. -/
def isBodiless (method : Http.Method) : Bool :=
  method == .get || method == .head || method == .connect

/-- The body that the HTTP client sends with these fields, if it is handed a stream, whose length it
does not know.  A length that the fields state is kept to, and without one some methods are sent
with no body at all.  `none` if the stream ends too early, which breaks the request off. -/
def sentBody? (method : Http.Method) (headers : Http.Headers) : Option Bytes → Option Bytes
  | none => some []
  | some stream =>
    match headers.contentLength? with
    | some length => if length ≤ stream.length then some (stream.take length) else none
    | none => some (if isBodiless method then [] else stream)

/-- The longest URL that the HTTP client takes, in bytes. -/
def longestUrl : Nat := 65534

/-- A character that the HTTP client takes in a host. -/
def isHostChar (c : Char) : Bool :=
  0x20 < c.toNat && c.toNat < 0x7f && !"\"%<>\\^`\x7b|\x7d".toList.contains c

/-- The HTTP client takes the URL.  There are URLs for HTTP that it does not: it keeps them in a
form that limits their length, and the characters of a host to fewer than a domain may have. -/
def takesUrl (url : Url) : Bool :=
  url.isHttp && (withoutCredentials url).render.utf8ByteSize ≤ longestUrl &&
    url.authority.all fun a => a.host.render.all isHostChar

/-- The call to a URL with a body that is handed over as a stream, if there is one.  Without a call
if the client does not take the URL or cannot send the body to its end. -/
def send (redirects : Redirects) (method : Http.Method) (url : Url) (headers : Http.Headers)
    (stream : Option Bytes) : Exchange (Option Http.Response) :=
  match sentBody? method headers stream with
  | some body =>
    if takesUrl url then .call ⟨redirects, .make method url headers body⟩ .done else .done none
  | none => .done none

/-! ### Redirects -/

/-- The status of a response that redirects. -/
def isRedirect (status : Http.Status) : Bool := [301, 302, 303, 307, 308].contains status

/-- The method of the request that follows a redirect. -/
def redirectedMethod (status : Http.Status) (method : Http.Method) : Http.Method :=
  if status = 303 && method != .head then .get
  else if (status = 301 || status = 302) && method == .post then .get
  else method

/-- Where a response redirects to; a place that cannot be read is none. -/
def redirectTarget? (request : WireRequest) (response : Http.Response) : Option Url :=
  if isRedirect response.status then do
    let location ← Utf8.decode? (← response.headers.first? "location")
    (request.url.join location).toOption
  else none

/-- The field that names the page a request comes from. -/
def referer (source target : Url) : Http.Headers :=
  if source.scheme == "https".toList && target.scheme == "http".toList then []
  else [.ofText "referer" ({ source with fragment := none }).render]

/-- The fields that only the server gets to see which they are meant for. -/
def confidential : List String :=
  ["authorization", "cookie", "cookie2", "proxy-authorization", "www-authenticate"]

/-- The two URLs name one host and one port on it. -/
def sameServer (a b : Url) : Bool := a.host? == b.host? && a.portOrDefault? == b.portOrDefault?

/-- The request that follows a redirect to `target`. -/
def redirected (request : WireRequest) (status : Http.Status) (target : Url) : WireRequest where
  method := redirectedMethod status request.method
  url := withoutCredentials target
  headers :=
    (if sameServer request.url target then request.headers
      else request.headers.filter fun h => !confidential.contains h.name).without "referer" ++
      referer request.url target
  body := if status = 307 || status = 308 then request.body else []

/-! ### Running an exchange -/

/-- A registry with states of type `σ`. -/
abbrev Behaviour (σ : Type) := σ → WireRequest → Option Http.Response × σ

/-- A request and the answer to it. -/
structure Hop where
  request : WireRequest
  answer : Option Http.Response
deriving DecidableEq, Repr

/-- The record of one call: the first request and those that followed redirects. -/
structure CallRecord where
  first : Hop
  redirects : List Hop
deriving DecidableEq, Repr

/-- The requests of a call with their answers, in order. -/
def CallRecord.hops (r : CallRecord) : List Hop := r.first :: r.redirects

/-- How a call ends: with an answer, the requests behind the first one, and the next state. -/
structure Ending (σ : Type) where
  answer : Option Http.Response
  redirects : List Hop
  state : σ

/-- What becomes of the answer to `request` when `left` redirects may still be followed. -/
def followFrom {σ : Type} (registry : Behaviour σ) (request : WireRequest) :
    Nat → Option Http.Response → σ → Ending σ
  | _, none, state => ⟨none, [], state⟩
  | left, some response, state =>
    match redirectTarget? request response with
    | none => ⟨some response, [], state⟩
    | some target =>
      -- a redirect that cannot be followed ends the call without an answer
      if !target.isHttp then ⟨none, [], state⟩
      else match left with
        | 0 => ⟨none, [], state⟩
        | left + 1 =>
          let next := redirected request response.status target
          let (answer, state) := registry state next
          let ending := followFrom registry next left answer state
          { ending with redirects := ⟨next, answer⟩ :: ending.redirects }

/-- The most redirects that one call follows. -/
def maxRedirects : Nat := 10

/-- Makes a call. -/
def Call.perform {σ : Type} (registry : Behaviour σ) (c : Call) (state : σ) :
    Option Http.Response × CallRecord × σ :=
  let (answer, state) := registry state c.request
  match c.redirects with
  | .passOn => (answer, ⟨⟨c.request, answer⟩, []⟩, state)
  | .follow =>
    let ending := followFrom registry c.request maxRedirects answer state
    (ending.answer, ⟨⟨c.request, answer⟩, ending.redirects⟩, ending.state)

/-- The outcome of an exchange with a registry. -/
structure Run (σ α : Type) where
  result : α
  calls : List CallRecord
  state : σ

/-- Makes the calls of an exchange one after the other. -/
def Exchange.run {σ α : Type} (registry : Behaviour σ) : Exchange α → σ → Run σ α
  | .done result, state => ⟨result, [], state⟩
  | .call c next, state =>
    let (answer, made, state) := c.perform registry state
    let rest := (next answer).run registry state
    { rest with calls := made :: rest.calls }

end Registry

end ImageGateway
