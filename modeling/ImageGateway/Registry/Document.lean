import ImageGateway.Json.Decode

/-!
# Documents of the registry

The JSON documents that a registry serves, reduced to the fields that the gateway looks at.  Every
field may be missing and then has its default, so an empty object is a document of each type.
-/

namespace ImageGateway

namespace Registry

open Json (Value)

/-- The names of the repositories. -/
structure CatalogDocument where
  repositories : List String := []
deriving DecidableEq, Repr

/-- The tags of a repository; `null` stands for none. -/
structure TagsDocument where
  tags : Option (List String) := none
deriving DecidableEq, Repr

/-- A reference to a blob. -/
structure Descriptor where
  mediaType : String := ""
  digest : String := ""
  size : Int := 0
deriving DecidableEq, Repr

/-- A manifest for one platform. -/
structure ImageManifest where
  schemaVersion : Int := 0
  mediaType : String := ""
  config : Descriptor := {}
  layers : List Descriptor := []
deriving DecidableEq, Repr

/-- The platform of an entry of a manifest list. -/
structure Platform where
  architecture : String := ""
  os : String := ""
  variant : String := ""
deriving DecidableEq, Repr

/-- An entry of a manifest list. -/
structure ListEntry where
  digest : String := ""
  platform : Platform := {}
deriving DecidableEq, Repr

/-- A manifest for several platforms: a list of manifests. -/
structure ManifestList where
  manifests : List ListEntry := []
deriving DecidableEq, Repr

/-- How a container of an image is run. -/
structure RuntimeConfig where
  entrypoint : Option (List String) := none
  cmd : Option (List String) := none
  env : Option (List String) := none
  labels : Option (List (String × String)) := none
deriving DecidableEq, Repr

/-- One step of the history of an image. -/
structure HistoryEntry where
  createdBy : String := ""
  emptyLayer : Bool := false
deriving DecidableEq, Repr

/-- The configuration of an image. -/
structure ImageConfig where
  created : String := ""
  os : String := ""
  architecture : String := ""
  config : Option RuntimeConfig := none
  history : List HistoryEntry := []
deriving DecidableEq, Repr

/-- A list of texts. -/
def textList? : Value → Option (List String) := Value.list? Value.text?

/-- The catalog that a value is. -/
def CatalogDocument.ofJson? (v : Value) : Option CatalogDocument := do
  match ← v.fields? ["repositories"] with
  | [repositories] => some { repositories := ← Value.field? [] textList? repositories }
  | _ => none

/-- The list of tags that a value is. -/
def TagsDocument.ofJson? (v : Value) : Option TagsDocument := do
  match ← v.fields? ["tags"] with
  | [tags] => some { tags := ← Value.field? none (Value.orNull? textList?) tags }
  | _ => none

/-- The descriptor that a value is. -/
def Descriptor.ofJson? (v : Value) : Option Descriptor := do
  match ← v.fields? ["mediaType", "digest", "size"] with
  | [mediaType, digest, size] =>
    some {
      mediaType := ← Value.field? "" Value.text? mediaType
      digest := ← Value.field? "" Value.text? digest
      size := ← Value.field? 0 Value.integer? size }
  | _ => none

/-- The manifest that a value is. -/
def ImageManifest.ofJson? (v : Value) : Option ImageManifest := do
  match ← v.fields? ["schemaVersion", "mediaType", "config", "layers"] with
  | [schemaVersion, mediaType, config, layers] =>
    some {
      schemaVersion := ← Value.field? 0 Value.integer? schemaVersion
      mediaType := ← Value.field? "" Value.text? mediaType
      config := ← Value.field? {} Descriptor.ofJson? config
      layers := ← Value.field? [] (Value.list? Descriptor.ofJson?) layers }
  | _ => none

/-- The platform that a value is. -/
def Platform.ofJson? (v : Value) : Option Platform := do
  match ← v.fields? ["architecture", "os", "variant"] with
  | [architecture, os, variant] =>
    some {
      architecture := ← Value.field? "" Value.text? architecture
      os := ← Value.field? "" Value.text? os
      variant := ← Value.field? "" Value.text? variant }
  | _ => none

/-- The list entry that a value is. -/
def ListEntry.ofJson? (v : Value) : Option ListEntry := do
  match ← v.fields? ["digest", "platform"] with
  | [digest, platform] =>
    some {
      digest := ← Value.field? "" Value.text? digest
      platform := ← Value.field? {} Platform.ofJson? platform }
  | _ => none

/-- The manifest list that a value is. -/
def ManifestList.ofJson? (v : Value) : Option ManifestList := do
  match ← v.fields? ["manifests"] with
  | [manifests] => some { manifests := ← Value.field? [] (Value.list? ListEntry.ofJson?) manifests }
  | _ => none

/-- The run configuration that a value is. -/
def RuntimeConfig.ofJson? (v : Value) : Option RuntimeConfig := do
  match ← v.fields? ["Entrypoint", "Cmd", "Env", "Labels"] with
  | [entrypoint, cmd, env, labels] =>
    some {
      entrypoint := ← Value.field? none (Value.orNull? textList?) entrypoint
      cmd := ← Value.field? none (Value.orNull? textList?) cmd
      env := ← Value.field? none (Value.orNull? textList?) env
      labels := ← Value.field? none (Value.orNull? (Value.table? Value.text?)) labels }
  | _ => none

/-- The history entry that a value is. -/
def HistoryEntry.ofJson? (v : Value) : Option HistoryEntry := do
  match ← v.fields? ["created_by", "empty_layer"] with
  | [createdBy, emptyLayer] =>
    some {
      createdBy := ← Value.field? "" Value.text? createdBy
      emptyLayer := ← Value.field? false Value.boolean? emptyLayer }
  | _ => none

/-- The image configuration that a value is. -/
def ImageConfig.ofJson? (v : Value) : Option ImageConfig := do
  match ← v.fields? ["created", "os", "architecture", "config", "history"] with
  | [created, os, architecture, config, history] =>
    some {
      created := ← Value.field? "" Value.text? created
      os := ← Value.field? "" Value.text? os
      architecture := ← Value.field? "" Value.text? architecture
      config := ← Value.field? none (Value.orNull? RuntimeConfig.ofJson?) config
      history := ← Value.field? [] (Value.list? HistoryEntry.ofJson?) history }
  | _ => none

end Registry

end ImageGateway
