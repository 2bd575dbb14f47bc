import ImageGateway.Http.Message
import ImageGateway.Text.Cut

/-!
# Messages on a connection

A request begins with a head: a line with the method, the target and the version, and one line for
each header field.  How many bytes of a body follow is said by the field `content-length`; a body of
another kind is not read.  A response is written the same way.

* `Head.ofLines?` : the head that lines write.
* `Response.onWire` : the bytes of a response.
-/

namespace ImageGateway

namespace Http

/-- What comes before the body of a request. -/
structure Head where
  method : Method
  target : Target
  headers : Headers
deriving DecidableEq, Repr

namespace Head

/-- The method and the target that the first line names. -/
def firstLine? (line : String) : Option (Method × Target) :=
  match Text.splitAt ' ' line with
  | [method, target, version] =>
    if Text.beginsWith "HTTP/1." version then do
      return (← Method.ofText? method, ← Target.ofText? target)
    else none
  | _ => none

/-- The header field of a line. -/
def field? (line : String) : Option Header := do
  let (name, value) ← Text.cutAt ':' line
  Header.make? name (Utf8.encode (Text.trim value))

/-- The head that lines write. -/
def ofLines? : List String → Option Head
  | [] => none
  | line :: fields => do
    let (method, target) ← firstLine? line
    return ⟨method, target, ← fields.mapM field?⟩

/-- The number of bytes that follow the head, if it can be told in advance. -/
def bodyLength? (head : Head) : Option Nat :=
  if head.headers.has "transfer-encoding" then none
  else match head.headers.first? "content-length" with
    | none => some 0
    | some value => (valueText? value).bind String.toNat?

/-- The request with this head and body. -/
def request (head : Head) (body : Bytes) (clientIp : Option Net.Address) : Request :=
  ⟨head.method, head.target, head.headers, .sized body, clientIp⟩

end Head

/-- The bytes of a line. -/
def lineBytes (line : Bytes) : Bytes := line ++ [0x0d, 0x0a]

/-- The bytes of a header field. -/
def Header.onWire (h : Header) : Bytes := lineBytes (Utf8.encode (h.name ++ ": ") ++ h.value)

/-- The bytes of a response; it says itself how long its body is. -/
def Response.onWire (r : Response) : Bytes :=
  let length := Header.ofText "content-length" (toString r.body.length)
  let fields := r.headers.without "content-length" ++ [length]
  lineBytes (Utf8.encode ("HTTP/1.1 " ++ Status.render r.status)) ++
    fields.flatMap Header.onWire ++ lineBytes [] ++ r.body

end Http

end ImageGateway
