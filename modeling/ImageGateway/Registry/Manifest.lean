import ImageGateway.Registry.Client

/-!
# Manifests of tags

A tag stands for a manifest, or for a list of manifests for several platforms; a list is resolved
to the manifest for `linux/amd64`, or to its first one.

* `Client.fetchTagInfo` : the digest of a tag and the compressed size of its image.
* `Client.fetchTagDetails` : all that a tag's manifest and image configuration say.
-/

namespace ImageGateway

namespace Registry

/-- The content type is that of a list of manifests. -/
def isManifestList (contentType : String) : Bool :=
  Text.containsText "manifest.list" contentType || Text.containsText "image.index" contentType

/-- A platform as the gateway shows it. -/
structure PlatformInfo where
  os : String
  architecture : String
  variant : Option String
deriving DecidableEq, Repr

namespace ManifestList

/-- The entry is for the platform that is preferred. -/
def isPreferred (entry : ListEntry) : Bool :=
  entry.platform.os == "linux" && entry.platform.architecture == "amd64"

/-- The entry that a list is resolved to. -/
def selected? (list : ManifestList) : Option ListEntry :=
  match list.manifests.find? isPreferred with
  | some entry => some entry
  | none => list.manifests.head?

/-- The digest that a list is resolved to. -/
def selectedDigest (list : ManifestList) : Except RegistryError String :=
  match list.selected? with
  | some entry => .ok entry.digest
  | none => .error .manifestListEmpty

/-- The platforms of the entries, in order; an empty variant is none. -/
def platforms (list : ManifestList) : List PlatformInfo :=
  list.manifests.map fun entry => {
    os := entry.platform.os
    architecture := entry.platform.architecture
    variant := if entry.platform.variant.isEmpty then none else some entry.platform.variant }

end ManifestList

/-- The sum of two sizes, if it is a 64-bit integer. -/
def addSizes? (a b : Int) : Option Int := (some (a + b)).filter Json.Value.fits

namespace ImageManifest

/-- The size of the configuration and of the layers together.  Every partial sum must be a 64-bit
integer. -/
def compressedSize (m : ImageManifest) : Except RegistryError Int :=
  match (m.layers.map (·.size)).foldlM addSizes? m.config.size with
  | some total => .ok total
  | none => .error (.invalidResponse .sizesOverflow)

end ImageManifest

/-- What a tag is resolved to. -/
structure Resolved where
  manifest : ImageManifest
  /-- The platforms of the list, if the tag stands for one. -/
  platforms : Option (List PlatformInfo)
deriving DecidableEq, Repr

/-- A tag in short. -/
structure TagInfo where
  tag : String
  digest : String
  compressedSize : Int
deriving DecidableEq, Repr

/-- The configuration of an image: its descriptor and what the configuration blob says. -/
structure ConfigInfo where
  descriptor : Descriptor
  created : String := ""
  os : String := ""
  architecture : String := ""
  entrypoint : List String := []
  cmd : List String := []
  env : List String := []
  labels : List (String × String) := []
  history : List HistoryEntry := []
deriving DecidableEq, Repr

/-- A tag in full. -/
structure TagDetails where
  repo : String
  tag : String
  digest : String
  mediaType : String
  schemaVersion : Int
  config : ConfigInfo
  platforms : Option (List PlatformInfo)
  layers : List Descriptor
deriving DecidableEq, Repr

/-- What a configuration blob adds to its descriptor. -/
def ConfigInfo.ofBlob (descriptor : Descriptor) (config : ImageConfig) : ConfigInfo :=
  let runtime := config.config.getD {}
  { descriptor
    created := config.created
    os := config.os
    architecture := config.architecture
    entrypoint := runtime.entrypoint.getD []
    cmd := runtime.cmd.getD []
    env := runtime.env.getD []
    labels := runtime.labels.getD []
    history := config.history }

/-- The outcome of reading a document, as a lookup without calls. -/
def Lookup.ofExcept {α : Type} (e : Except RegistryError α) : Lookup α := ExceptT.mk (.done e)

namespace Client

/-- The manifest of a list that it is resolved to. -/
def resolveList (c : Client) (repo : String) (list : ManifestList) : Lookup Resolved := do
  let digest ← Lookup.ofExcept list.selectedDigest
  let payload ← c.fetchManifest repo digest singleManifestTypes
  let manifest ← Lookup.ofExcept (decodeBody ImageManifest.ofJson? payload.body)
  pure ⟨manifest, some list.platforms⟩

/-- What a manifest payload is resolved to. -/
def resolve (c : Client) (repo : String) (payload : ManifestPayload) : Lookup Resolved := do
  if isManifestList payload.contentType then
    c.resolveList repo (← Lookup.ofExcept (decodeBody ManifestList.ofJson? payload.body))
  else
    pure ⟨← Lookup.ofExcept (decodeBody ImageManifest.ofJson? payload.body), none⟩

/-- A tag in short. -/
def fetchTagInfo (c : Client) (repo tag : String) : Lookup TagInfo := do
  let payload ← c.fetchManifest repo tag manifestTypes
  let resolved ← c.resolve repo payload
  let compressedSize ← Lookup.ofExcept resolved.manifest.compressedSize
  pure ⟨tag, payload.digest, compressedSize⟩

/-- The configuration that a descriptor refers to; without a digest there is no blob to fetch. -/
def fetchConfig (c : Client) (repo : String) (descriptor : Descriptor) : Lookup ConfigInfo := do
  if descriptor.digest.isEmpty then pure { descriptor }
  else
    let blob ← c.fetchBlob repo descriptor.digest
    let config ← Lookup.ofExcept (decodeBody ImageConfig.ofJson? blob)
    pure (.ofBlob descriptor config)

/-- A tag in full. -/
def fetchTagDetails (c : Client) (repo tag : String) : Lookup TagDetails := do
  let payload ← c.fetchManifest repo tag manifestTypes
  let resolved ← c.resolve repo payload
  let manifest := resolved.manifest
  let config ← c.fetchConfig repo manifest.config
  pure {
    repo, tag, config
    digest := payload.digest
    mediaType := if manifest.mediaType.isEmpty then payload.contentType else manifest.mediaType
    schemaVersion := manifest.schemaVersion
    platforms := resolved.platforms.filter (!·.isEmpty)
    layers := manifest.layers }

end Client

end Registry

end ImageGateway
