import ImageGateway.Http.Header
import ImageGateway.Net.Address
import ImageGateway.Text.Cut

/-!
# Header fields on both sides of the proxy

Fields that belong to one connection are not passed on in either direction.  Towards the registry
the fields that tell who the client is, or that claim to, are dropped as well, and the gateway
states the client in forwarding fields of its own.
-/

namespace ImageGateway

namespace Proxy

open Http

/-- The fields that belong to one connection. -/
def hopByHop : List String :=
  ["connection", "keep-alive", "proxy-authenticate", "proxy-authorization", "te", "trailer",
    "transfer-encoding", "upgrade"]

/-- The names that the `connection` fields list, which belong to the connection as well. -/
def connectionNames (headers : Headers) : List String :=
  ((headers.texts "connection").flatMap (Text.splitAt ',')).map
    (fun name => Text.lowerAscii (Text.trim name)) |>.filter (!·.isEmpty)

/-- The field belongs to the connection, given the names that the message lists. -/
def isHopByHop (listed : List String) (name : String) : Bool :=
  hopByHop.contains name || listed.contains name

/-- The field states who the client is or by which way it came. -/
def isClientIdentity (name : String) : Bool :=
  name == "host" || name == "authorization" || name == "forwarded" ||
    Text.beginsWith "x-forwarded-" name

/-- The fields of a client's message that are passed on. -/
def passedOn (incoming : Headers) : Headers :=
  let listed := connectionNames incoming
  incoming.filter fun h => !isHopByHop listed h.name && !isClientIdentity h.name

/-- The fields in which the gateway states the client. -/
def forwardingHeaders (incoming : Headers) (clientIp : Option Net.Address) (proto : String) :
    Headers :=
  let value := Utf8.encode proto
  (clientIp.toList.map fun ip => Header.ofText "x-forwarded-for" ip.render) ++
  ((incoming.first? "host").toList.map fun host => ⟨"x-forwarded-host", host⟩) ++
  (if value.all isValueByte then [⟨"x-forwarded-proto", value⟩] else [])

/-- The fields of the message to the registry. -/
def registryHeaders (incoming : Headers) (clientIp : Option Net.Address) (proto : String) :
    Headers :=
  passedOn incoming ++ forwardingHeaders incoming clientIp proto

/-- The fields of the registry's message that the client gets. -/
def downstreamHeaders (incoming : Headers) : Headers :=
  let listed := connectionNames incoming
  incoming.filter fun h => !isHopByHop listed h.name

end Proxy

end ImageGateway
