import ImageGateway.Access.Gate
import ImageGateway.Access.Grant
import ImageGateway.Access.Permission
import ImageGateway.Api.Action
import ImageGateway.Api.Name
import ImageGateway.Api.Payload
import ImageGateway.Codec.Base64
import ImageGateway.Codec.Percent
import ImageGateway.Directory.Basic
import ImageGateway.Directory.Filter
import ImageGateway.Directory.Ldap
import ImageGateway.Http.Header
import ImageGateway.Http.Message
import ImageGateway.Http.Target
import ImageGateway.Http.Wire
import ImageGateway.Json.Basic
import ImageGateway.Json.Decode
import ImageGateway.Json.Parser
import ImageGateway.Json.Text
import ImageGateway.Json.Token
import ImageGateway.Login.Credentials
import ImageGateway.Main
import ImageGateway.Net.Address
import ImageGateway.Proofs.Access.Decoding
import ImageGateway.Proofs.Access.Gate
import ImageGateway.Proofs.Access.Grant
import ImageGateway.Proofs.Access.GroupName
import ImageGateway.Proofs.Access.Naming
import ImageGateway.Proofs.Access.Permission
import ImageGateway.Proofs.Access.Precedence
import ImageGateway.Proofs.Access.Selection
import ImageGateway.Proofs.Api.Dashboard
import ImageGateway.Proofs.Api.Decision
import ImageGateway.Proofs.Api.Grammar
import ImageGateway.Proofs.Api.Surfaces
import ImageGateway.Proofs.Api.Work
import ImageGateway.Proofs.Codec.Base64
import ImageGateway.Proofs.Codec.Percent
import ImageGateway.Proofs.Directory.Ldap
import ImageGateway.Proofs.Directory.UserFilter
import ImageGateway.Proofs.Http.Header
import ImageGateway.Proofs.Http.Target
import ImageGateway.Proofs.Json.Grammar
import ImageGateway.Proofs.Json.Parser
import ImageGateway.Proofs.Json.Record
import ImageGateway.Proofs.Json.Text
import ImageGateway.Proofs.Json.Token
import ImageGateway.Proofs.Login.Credentials
import ImageGateway.Proofs.Net.Address
import ImageGateway.Proofs.Proxy.Credentials
import ImageGateway.Proofs.Proxy.Headers
import ImageGateway.Proofs.Proxy.Passage
import ImageGateway.Proofs.Proxy.Target
import ImageGateway.Proofs.Proxy.Transparency
import ImageGateway.Proofs.Registry.Catalog
import ImageGateway.Proofs.Registry.Confinement
import ImageGateway.Proofs.Registry.Deletion
import ImageGateway.Proofs.Registry.Document
import ImageGateway.Proofs.Registry.Exchange
import ImageGateway.Proofs.Registry.Nesting
import ImageGateway.Proofs.Registry.Resolution
import ImageGateway.Proofs.Registry.Size
import ImageGateway.Proofs.Registry.Steps
import ImageGateway.Proofs.Registry.Summary
import ImageGateway.Proofs.Server.Agreement
import ImageGateway.Proofs.Server.Authority
import ImageGateway.Proofs.Server.Confinement
import ImageGateway.Proofs.Server.History
import ImageGateway.Proofs.Server.Lifecycle
import ImageGateway.Proofs.Server.Login
import ImageGateway.Proofs.Server.Opacity
import ImageGateway.Proofs.Server.Refused
import ImageGateway.Proofs.Server.Serve
import ImageGateway.Proofs.Server.Startup
import ImageGateway.Proofs.Session.Cookie
import ImageGateway.Proofs.Session.Store
import ImageGateway.Proofs.Session.TimedMap
import ImageGateway.Proofs.Settings.Substitution
import ImageGateway.Proofs.Text.Character
import ImageGateway.Proofs.Text.Cut
import ImageGateway.Proofs.Text.Utf8
import ImageGateway.Proofs.Url.Authority
import ImageGateway.Proofs.Url.Base
import ImageGateway.Proofs.Url.Host
import ImageGateway.Proofs.Url.Reading
import ImageGateway.Proofs.Url.Resolve
import ImageGateway.Proofs.Url.Seam
import ImageGateway.Proofs.Url.Segments
import ImageGateway.Proxy.Forward
import ImageGateway.Proxy.Headers
import ImageGateway.Registry.Catalog
import ImageGateway.Registry.Client
import ImageGateway.Registry.Deletion
import ImageGateway.Registry.Document
import ImageGateway.Registry.Error
import ImageGateway.Registry.Exchange
import ImageGateway.Registry.Manifest
import ImageGateway.Server.Command
import ImageGateway.Server.Gateway
import ImageGateway.Server.Handle
import ImageGateway.Server.Refusal
import ImageGateway.Server.RequestId
import ImageGateway.Server.Route
import ImageGateway.Session.Cookie
import ImageGateway.Session.Store
import ImageGateway.Settings.Basic
import ImageGateway.Settings.Decode
import ImageGateway.Settings.Json
import ImageGateway.Settings.Layers
import ImageGateway.Settings.Load
import ImageGateway.Settings.Substitution
import ImageGateway.Settings.Toml.Parser
import ImageGateway.Settings.Toml.Scalar
import ImageGateway.Settings.Toml.Text
import ImageGateway.Settings.Toml.Tree
import ImageGateway.Settings.Value
import ImageGateway.Settings.Yaml.Block
import ImageGateway.Settings.Yaml.Document
import ImageGateway.Settings.Yaml.Flow
import ImageGateway.Settings.Yaml.Layout
import ImageGateway.Settings.Yaml.Lexeme
import ImageGateway.Settings.Yaml.Node
import ImageGateway.Settings.Yaml.Property
import ImageGateway.Settings.Yaml.Scalar
import ImageGateway.Settings.Yaml.Spot
import ImageGateway.Text.Cut
import ImageGateway.Text.Hex
import ImageGateway.Text.Utf8
import ImageGateway.Url.Basic
import ImageGateway.Url.Domain
import ImageGateway.Url.Host
import ImageGateway.Url.Parser
import ImageGateway.Url.Path
import ImageGateway.Url.Punycode
