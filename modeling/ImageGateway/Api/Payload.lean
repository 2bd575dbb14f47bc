import ImageGateway.Access.Permission
import ImageGateway.Json.Basic
import ImageGateway.Registry.Catalog
import ImageGateway.Registry.Manifest
import ImageGateway.Session.Store

/-!
# What the introspection API answers

The JSON documents of the API.
-/

namespace ImageGateway

namespace Api

open Json (Value)
open Registry (Repository TagInfo TagDetails PlatformInfo ConfigInfo Descriptor HistoryEntry)

/-- An entry for something that may be missing. -/
def optional (key : String) (v : Option Value) : List (String × Value) :=
  match v with
  | some v => [(key, v)]
  | none => []

/-- What the session may do in a namespace. -/
def permissionValue (p : Access.Permission) : Value :=
  .record ([("namespace", .text p.nameSpace), ("pull_only", .boolean p.pullOnly),
    ("delete_allowed", .boolean p.deleteAllowed)] ++
    optional "groups" (if p.groups.isEmpty then none else some (.texts p.groups)))

/-- What a signed-in user sees first: who the user is, and what the user may do where. -/
structure Dashboard where
  username : String
  namespaces : List String
  permissions : List Access.Permission
deriving DecidableEq, Repr

/-- The dashboard of a session. -/
def Dashboard.ofSession (s : Session) : Dashboard :=
  ⟨s.user, s.namespaces, Access.permissions s.grants s.namespaces⟩

/-- The dashboard as JSON. -/
def Dashboard.value (d : Dashboard) : Value :=
  .record [("username", .text d.username), ("namespaces", .texts d.namespaces),
    ("permissions", .array (d.permissions.map permissionValue))]

/-- A repository with its tags. -/
def repositoryValue (r : Repository) : Value :=
  .record [("name", .text r.name), ("tags", .texts r.tags)]

/-- The catalog of a namespace. -/
def catalogValue (username nameSpace : String) (repositories : List Repository) : Value :=
  .record [("username", .text username), ("namespace", .text nameSpace),
    ("repositories", .array (repositories.map repositoryValue))]

/-- The repositories of a namespace. -/
def repositoriesValue (nameSpace : String) (repositories : List String) : Value :=
  .record [("namespace", .text nameSpace), ("repositories", .texts repositories)]

/-- The tags of a repository. -/
def tagsValue (repo : String) (tags : List String) : Value :=
  .record [("repo", .text repo), ("tags", .texts tags)]

/-- A tag in short. -/
def tagInfoValue (t : TagInfo) : Value :=
  .record [("tag", .text t.tag), ("digest", .text t.digest),
    ("compressedSize", .integer t.compressedSize)]

/-- A tag that was deleted. -/
def deletedValue (repo tag : String) : Value := .record [("repo", .text repo), ("tag", .text tag)]

/-- A reference to a blob. -/
def layerValue (d : Descriptor) : Value :=
  .record [("digest", .text d.digest), ("size", .integer d.size), ("mediaType", .text d.mediaType)]

/-- A step of a history. -/
def historyValue (h : HistoryEntry) : Value :=
  .record [("createdBy", .text h.createdBy), ("emptyLayer", .boolean h.emptyLayer)]

/-- A platform. -/
def platformValue (p : PlatformInfo) : Value :=
  .record ([("os", .text p.os), ("architecture", .text p.architecture)] ++
    optional "variant" (p.variant.map .text))

/-- The configuration of an image. -/
def configValue (c : ConfigInfo) : Value :=
  .record [("digest", .text c.descriptor.digest), ("size", .integer c.descriptor.size),
    ("mediaType", .text c.descriptor.mediaType), ("created", .text c.created), ("os", .text c.os),
    ("architecture", .text c.architecture), ("entrypoint", .texts c.entrypoint),
    ("cmd", .texts c.cmd), ("env", .texts c.env),
    ("labels", .record (c.labels.map fun (key, v) => (key, .text v))),
    ("historyCount", .integer c.history.length), ("history", .array (c.history.map historyValue))]

/-- A tag in full. -/
def tagDetailsValue (t : TagDetails) : Value :=
  .record ([("repo", .text t.repo), ("tag", .text t.tag), ("digest", .text t.digest),
    ("mediaType", .text t.mediaType), ("schemaVersion", .integer t.schemaVersion),
    ("config", configValue t.config)] ++
    optional "platforms" (t.platforms.map fun l => .array (l.map platformValue)) ++
    [("layers", .array (t.layers.map layerValue))])

end Api

end ImageGateway
