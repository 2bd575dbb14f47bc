import ImageGateway.Proofs.Json.Field
import ImageGateway.Proofs.Json.Parser
import ImageGateway.Proofs.Registry.Size
import Mathlib

/-!
# Documents as they are written

A registry may write a manifest as an object or as an array, with its fields in any order, with
fields of others between them and with any blanks and escapes.  What it means is told here by the
grammar, and compared with what is decoded.

* `ImageManifest.WrittenAs`, `ManifestList.WrittenAs` : the value of a text writes the manifest.
* `ImageManifest.Repeats`, `ManifestList.Repeats` : one of the records in the value names a field
  twice.
* `ImageManifest.exists_writtenAs`, `ManifestList.exists_writtenAs` : every manifest has a text.
* `decodeBody_knownFields` : **a text is decoded to the manifest that it writes**, whatever else it
  holds, and to none if it names a field twice.
-/

namespace ImageGateway

namespace Registry

open Json (Value JsonText RawText)
open Json.Value (Field IsText IsInteger IsList RepeatsKey StandsAt)

variable {v : Value}

namespace Descriptor

/-- The fields of a descriptor. -/
def names : List String := ["mediaType", "digest", "size"]

/-- The value writes the descriptor. -/
def WrittenAs (d : Descriptor) (v : Value) : Prop :=
  ∃ mediaType digest size, v.Gives names [mediaType, digest, size] ∧
    Field "" IsText d.mediaType mediaType ∧ Field "" IsText d.digest digest ∧
    Field 0 IsInteger d.size size

theorem ofJson?_of_writtenAs {d : Descriptor} (h : d.WrittenAs v) : ofJson? v = some d := by
  obtain ⟨mediaType, digest, size, hgives, hmediaType, hdigest, hsize⟩ := h
  have hfields : v.fields? ["mediaType", "digest", "size"] = _ := Value.fields?_of_gives hgives
  simp only [ofJson?, hfields, Option.bind_eq_bind, Option.bind_some,
    Value.field?_of_field hmediaType Value.text?_of_isText,
    Value.field?_of_field hdigest Value.text?_of_isText,
    Value.field?_of_field hsize Value.integer?_of_isInteger]

/-- Every descriptor with a 64-bit integer for its size is written by something. -/
theorem exists_writtenAs {d : Descriptor} (h : Value.fits d.size = true) :
    ∃ v, d.WrittenAs v ∧ v.Writable := by
  refine ⟨.array [.text d.mediaType, .text d.digest, .integer d.size], ?_,
    Value.writable_array ?_⟩
  · exact ⟨some _, some _, some _, Value.gives_array rfl, Value.isText_text _, Value.isText_text _,
      h, rfl⟩
  · simp [Value.writable_text, Value.writable_integer]

theorem ofJson?_of_repeatsKey (h : RepeatsKey names v) : ofJson? v = none := by
  have hfields : v.fields? ["mediaType", "digest", "size"] = none := Value.fields?_of_repeatsKey h
  rw [ofJson?, hfields]
  rfl

end Descriptor

namespace ImageManifest

/-- The fields of an image manifest. -/
def names : List String := ["schemaVersion", "mediaType", "config", "layers"]

/-- The value writes the manifest. -/
def WrittenAs (m : ImageManifest) (v : Value) : Prop :=
  ∃ schemaVersion mediaType config layers,
    v.Gives names [schemaVersion, mediaType, config, layers] ∧
    Field 0 IsInteger m.schemaVersion schemaVersion ∧ Field "" IsText m.mediaType mediaType ∧
    Field {} Descriptor.WrittenAs m.config config ∧
    Field [] (IsList Descriptor.WrittenAs) m.layers layers

/-- The manifest or one of its descriptors names a field twice. -/
def Repeats (v : Value) : Prop :=
  RepeatsKey names v ∨
    (∃ config, StandsAt names "config" v config ∧ RepeatsKey Descriptor.names config) ∨
    ∃ layers layer, StandsAt names "layers" v (.array layers) ∧ layer ∈ layers ∧
      RepeatsKey Descriptor.names layer

theorem ofJson?_of_writtenAs {m : ImageManifest} (h : m.WrittenAs v) : ofJson? v = some m := by
  obtain ⟨schemaVersion, mediaType, config, layers, hgives, hversion, hmediaType, hconfig,
    hlayers⟩ := h
  have hfields : v.fields? ["schemaVersion", "mediaType", "config", "layers"] = _ :=
    Value.fields?_of_gives hgives
  simp only [ofJson?, hfields, Option.bind_eq_bind, Option.bind_some,
    Value.field?_of_field hversion Value.integer?_of_isInteger,
    Value.field?_of_field hmediaType Value.text?_of_isText,
    Value.field?_of_field hconfig Descriptor.ofJson?_of_writtenAs,
    Value.field?_of_field hlayers fun h => Value.list?_of_isList h Descriptor.ofJson?_of_writtenAs]

theorem ofJson?_of_repeatsKey (h : RepeatsKey names v) : ofJson? v = none := by
  have hfields : v.fields? ["schemaVersion", "mediaType", "config", "layers"] = none :=
    Value.fields?_of_repeatsKey h
  rw [ofJson?, hfields]
  rfl

theorem ofJson?_of_repeats (h : Repeats v) : ofJson? v = none := by
  rcases h with h | h
  · exact ofJson?_of_repeatsKey h
  by_contra hsome
  obtain ⟨m, hm⟩ := Option.ne_none_iff_exists'.1 hsome
  simp only [ofJson?, Option.bind_eq_bind, Option.bind_eq_some_iff] at hm
  obtain ⟨slots, hfields, hm⟩ := hm
  split at hm
  · next schemaVersion mediaType config layers =>
    simp only [Option.bind_eq_some_iff, Option.some.injEq] at hm
    obtain ⟨_, -, _, -, _, hconfig, _, hlayers, rfl⟩ := hm
    rcases h with ⟨w, hplace, h⟩ | ⟨items, w, hplace, hw, h⟩
    · have hzip := Value.mem_zip_of_standsAt hplace (by decide) hfields
      obtain rfl : some w = config := by simpa [names] using hzip
      rw [Value.field?, Descriptor.ofJson?_of_repeatsKey h] at hconfig
      cases hconfig
    · have hzip := Value.mem_zip_of_standsAt hplace (by decide) hfields
      obtain rfl : some (.array items) = layers := by simpa [names] using hzip
      rw [Value.field?, Value.list?_eq_none hw (Descriptor.ofJson?_of_repeatsKey h)] at hlayers
      cases hlayers
  · cases hm

/-- **Every image manifest with 64-bit integers for its version and sizes has a text.** -/
theorem exists_writtenAs {m : ImageManifest} (hversion : Value.fits m.schemaVersion = true)
    (hconfig : Value.fits m.config.size = true)
    (hlayers : ∀ d ∈ m.layers, Value.fits d.size = true) : ∃ v s, JsonText v s ∧ m.WrittenAs v := by
  obtain ⟨config, hwrites, hwritable⟩ := Descriptor.exists_writtenAs hconfig
  obtain ⟨layers, hlist, hitems⟩ :=
    Value.exists_isList fun d hd => Descriptor.exists_writtenAs (hlayers d hd)
  have htext : (Value.array
      [.integer m.schemaVersion, .text m.mediaType, config, layers]).Writable := by
    refine Value.writable_array ?_
    simp [Value.writable_text, Value.writable_integer, hwritable, hitems]
  obtain ⟨s, hs⟩ := Json.exists_jsonText htext
  exact ⟨_, s, hs, some _, some _, some _, some _, Value.gives_array rfl, ⟨hversion, rfl⟩,
    Value.isText_text _, hwrites, hlist⟩

end ImageManifest

namespace Platform

/-- The fields of a platform. -/
def names : List String := ["architecture", "os", "variant"]

/-- The value writes the platform. -/
def WrittenAs (p : Platform) (v : Value) : Prop :=
  ∃ architecture os variant, v.Gives names [architecture, os, variant] ∧
    Field "" IsText p.architecture architecture ∧ Field "" IsText p.os os ∧
    Field "" IsText p.variant variant

theorem ofJson?_of_writtenAs {p : Platform} (h : p.WrittenAs v) : ofJson? v = some p := by
  obtain ⟨architecture, os, variant, hgives, harchitecture, hos, hvariant⟩ := h
  have hfields : v.fields? ["architecture", "os", "variant"] = _ := Value.fields?_of_gives hgives
  simp only [ofJson?, hfields, Option.bind_eq_bind, Option.bind_some,
    Value.field?_of_field harchitecture Value.text?_of_isText,
    Value.field?_of_field hos Value.text?_of_isText,
    Value.field?_of_field hvariant Value.text?_of_isText]

theorem ofJson?_of_repeatsKey (h : RepeatsKey names v) : ofJson? v = none := by
  have hfields : v.fields? ["architecture", "os", "variant"] = none :=
    Value.fields?_of_repeatsKey h
  rw [ofJson?, hfields]
  rfl

theorem exists_writtenAs (p : Platform) : ∃ v, p.WrittenAs v ∧ v.Writable := by
  refine ⟨.array [.text p.architecture, .text p.os, .text p.variant], ?_, Value.writable_array ?_⟩
  · exact ⟨some _, some _, some _, Value.gives_array rfl, Value.isText_text _, Value.isText_text _,
      Value.isText_text _⟩
  · simp [Value.writable_text]

end Platform

namespace ListEntry

/-- The fields of an entry of a manifest list. -/
def names : List String := ["digest", "platform"]

/-- The value writes the entry. -/
def WrittenAs (e : ListEntry) (v : Value) : Prop :=
  ∃ digest platform, v.Gives names [digest, platform] ∧ Field "" IsText e.digest digest ∧
    Field {} Platform.WrittenAs e.platform platform

/-- The entry or its platform names a field twice. -/
def Repeats (v : Value) : Prop :=
  RepeatsKey names v ∨
    ∃ platform, StandsAt names "platform" v platform ∧ RepeatsKey Platform.names platform

theorem ofJson?_of_writtenAs {e : ListEntry} (h : e.WrittenAs v) : ofJson? v = some e := by
  obtain ⟨digest, platform, hgives, hdigest, hplatform⟩ := h
  have hfields : v.fields? ["digest", "platform"] = _ := Value.fields?_of_gives hgives
  simp only [ofJson?, hfields, Option.bind_eq_bind, Option.bind_some,
    Value.field?_of_field hdigest Value.text?_of_isText,
    Value.field?_of_field hplatform Platform.ofJson?_of_writtenAs]

theorem ofJson?_of_repeatsKey (h : RepeatsKey names v) : ofJson? v = none := by
  have hfields : v.fields? ["digest", "platform"] = none := Value.fields?_of_repeatsKey h
  rw [ofJson?, hfields]
  rfl

theorem ofJson?_of_repeats (h : Repeats v) : ofJson? v = none := by
  rcases h with h | ⟨w, hplace, h⟩
  · exact ofJson?_of_repeatsKey h
  by_contra hsome
  obtain ⟨e, he⟩ := Option.ne_none_iff_exists'.1 hsome
  simp only [ofJson?, Option.bind_eq_bind, Option.bind_eq_some_iff] at he
  obtain ⟨slots, hfields, he⟩ := he
  split at he
  · next digest platform =>
    simp only [Option.bind_eq_some_iff, Option.some.injEq] at he
    obtain ⟨_, -, _, hplatform, rfl⟩ := he
    have hzip := Value.mem_zip_of_standsAt hplace (by decide) hfields
    obtain rfl : some w = platform := by simpa [names] using hzip
    rw [Value.field?, Platform.ofJson?_of_repeatsKey h] at hplatform
    cases hplatform
  · cases he

theorem exists_writtenAs (e : ListEntry) : ∃ v, e.WrittenAs v ∧ v.Writable := by
  obtain ⟨platform, hwrites, hwritable⟩ := e.platform.exists_writtenAs
  refine ⟨.array [.text e.digest, platform], ?_, Value.writable_array ?_⟩
  · exact ⟨some _, some _, Value.gives_array rfl, Value.isText_text _, hwrites⟩
  · simp [Value.writable_text, hwritable]

end ListEntry

namespace ManifestList

/-- The field of a manifest list. -/
def names : List String := ["manifests"]

/-- The value writes the manifest list. -/
def WrittenAs (l : ManifestList) (v : Value) : Prop :=
  ∃ manifests, v.Gives names [manifests] ∧
    Field [] (IsList ListEntry.WrittenAs) l.manifests manifests

/-- The list, one of its entries or the platform of one names a field twice. -/
def Repeats (v : Value) : Prop :=
  RepeatsKey names v ∨
    ∃ entries entry, StandsAt names "manifests" v (.array entries) ∧ entry ∈ entries ∧
      ListEntry.Repeats entry

theorem ofJson?_of_writtenAs {l : ManifestList} (h : l.WrittenAs v) : ofJson? v = some l := by
  obtain ⟨manifests, hgives, hmanifests⟩ := h
  have hfields : v.fields? ["manifests"] = _ := Value.fields?_of_gives hgives
  simp only [ofJson?, hfields, Option.bind_eq_bind, Option.bind_some,
    Value.field?_of_field hmanifests fun h =>
      Value.list?_of_isList h ListEntry.ofJson?_of_writtenAs]

theorem ofJson?_of_repeatsKey (h : RepeatsKey names v) : ofJson? v = none := by
  have hfields : v.fields? ["manifests"] = none := Value.fields?_of_repeatsKey h
  rw [ofJson?, hfields]
  rfl

theorem ofJson?_of_repeats (h : Repeats v) : ofJson? v = none := by
  rcases h with h | ⟨items, w, hplace, hw, h⟩
  · exact ofJson?_of_repeatsKey h
  by_contra hsome
  obtain ⟨l, hl⟩ := Option.ne_none_iff_exists'.1 hsome
  simp only [ofJson?, Option.bind_eq_bind, Option.bind_eq_some_iff] at hl
  obtain ⟨slots, hfields, hl⟩ := hl
  split at hl
  · next manifests =>
    simp only [Option.bind_eq_some_iff, Option.some.injEq] at hl
    obtain ⟨_, hmanifests, rfl⟩ := hl
    have hzip := Value.mem_zip_of_standsAt hplace (by decide) hfields
    obtain rfl : some (.array items) = manifests := by simpa [names] using hzip
    rw [Value.field?, Value.list?_eq_none hw (ListEntry.ofJson?_of_repeats h)] at hmanifests
    cases hmanifests
  · cases hl

/-- **Every manifest list has a text.** -/
theorem exists_writtenAs (l : ManifestList) : ∃ v s, JsonText v s ∧ l.WrittenAs v := by
  obtain ⟨manifests, hlist, hitems⟩ :=
    Value.exists_isList (l := l.manifests) fun e _ => e.exists_writtenAs
  have htext : (Value.array [manifests]).Writable := by
    refine Value.writable_array ?_
    simpa using hitems
  obtain ⟨s, hs⟩ := Json.exists_jsonText htext
  exact ⟨_, s, hs, some _, Value.gives_array rfl, hlist⟩

end ManifestList

/-- A text is decoded by what it writes. -/
theorem decodeBody_of_jsonText {α : Type} {decode : Value → Option α} {s : Bytes}
    (h : JsonText v s) : decodeBody decode s = match decode v with
      | some document => .ok document
      | none => .error (.invalidResponse .undecodable) := by
  rw [decodeBody, Json.parse?_eq_some_iff.2 h]
  rfl

/-- **Manifests are decoded by their fields alone.**  A text that writes a manifest is decoded to
it, in whatever order and notation the fields stand, whatever stands between them, and though fields
are left out that have their defaults.  A text with a record that names a field twice is not
decoded.  Both hold of image manifests and of manifest lists. -/
theorem decodeBody_knownFields :
    (∀ s v, JsonText v s →
      (∀ m : ImageManifest, m.WrittenAs v → decodeBody ImageManifest.ofJson? s = .ok m) ∧
      (ImageManifest.Repeats v →
        decodeBody ImageManifest.ofJson? s = .error (.invalidResponse .undecodable))) ∧
    ∀ s v, JsonText v s →
      (∀ l : ManifestList, l.WrittenAs v → decodeBody ManifestList.ofJson? s = .ok l) ∧
      (ManifestList.Repeats v →
        decodeBody ManifestList.ofJson? s = .error (.invalidResponse .undecodable)) := by
  refine ⟨fun s v hs => ⟨fun m hm => ?_, fun h => ?_⟩, fun s v hs => ⟨fun l hl => ?_, fun h => ?_⟩⟩
  · rw [decodeBody_of_jsonText hs, ImageManifest.ofJson?_of_writtenAs hm]
  · rw [decodeBody_of_jsonText hs, ImageManifest.ofJson?_of_repeats h]
  · rw [decodeBody_of_jsonText hs, ManifestList.ofJson?_of_writtenAs hl]
  · rw [decodeBody_of_jsonText hs, ManifestList.ofJson?_of_repeats h]

namespace Sample

/-- A manifest with two layers and most fields left out. -/
def sparse : ImageManifest where
  config := { size := 7 }
  layers := [{ digest := "é", size := -9223372036854775808 }, {}]

/-- A text that writes it, with an escaped key, records of both kinds and a field of others. -/
def sparseText : Bytes :=
  Utf8.encode ("\n\x7b\"layers\":[[\"\",\"\\u00e9\",-9223372036854775808],\x7b\x7d] ," ++
    "\"x\":[null,\x7b\"size\":1e400\x7d],\"\\u0063onfig\":\x7b\"size\":7\x7d\x7d")

/-- The layers in the text, one as an array and one as an object. -/
def sparseLayers : List Value := [
  .array [.text "", .string (Utf8.encode "\\u00e9"), .integer (-9223372036854775808)],
  .object []]

/-- The configuration in the text. -/
def sparseConfig : Value := .object [(RawText.ofText "size", .integer 7)]

/-- What the field of others holds. -/
def foreign : Value :=
  .array [.null, .object [(RawText.ofText "size", .number (Utf8.encode "1e400"))]]

/-- The value of the text. -/
def sparseValue : Value := .object [
  (RawText.ofText "layers", .array sparseLayers),
  (RawText.ofText "x", foreign),
  (Utf8.encode "\\u0063onfig", sparseConfig)]

set_option maxRecDepth 8000 in
theorem jsonText_sparse : JsonText sparseValue sparseText := Json.parse?_eq_some_iff.1 (by cbv)

theorem sparse_writtenAs : sparse.WrittenAs sparseValue := by
  have hkeys : Value.Spelled [(RawText.ofText "layers", .array sparseLayers),
      (RawText.ofText "x", foreign), (Utf8.encode "\\u0063onfig", sparseConfig)]
      [("layers", .array sparseLayers), ("x", foreign), ("config", sparseConfig)] :=
    .cons ⟨RawText.spells_ofText "layers", rfl⟩ (.cons ⟨RawText.spells_ofText "x", rfl⟩
      (.cons ⟨.code (by decide) (RawText.spells_ofText "onfig"), rfl⟩ .nil))
  have hsize : Value.Spelled [(RawText.ofText "size", .integer 7)] [("size", .integer 7)] :=
    .cons ⟨RawText.spells_ofText "size", rfl⟩ .nil
  refine ⟨none, none, some sparseConfig, some (.array sparseLayers),
    .object hkeys (.cons rfl (.cons rfl (.cons rfl (.cons rfl .nil)))), rfl, rfl, ?_,
    _, rfl, .cons ?_ (.cons ?_ .nil)⟩
  · exact ⟨none, none, some _, .object hsize (.cons rfl (.cons rfl (.cons rfl .nil))), rfl, rfl,
      by decide, rfl⟩
  · exact ⟨some _, some _, some _, Value.gives_array rfl, Value.isText_text "",
      ⟨_, rfl, .code (by decide) .nil⟩, by decide, rfl⟩
  · exact ⟨none, none, none, .object .nil (.cons rfl (.cons rfl (.cons rfl .nil))), rfl, rfl, rfl⟩

/-- A text with a field of the configuration given twice. -/
def twiceText : Bytes :=
  Utf8.encode "\x7b\"config\":\x7b\"size\":1,\"x\":\x7b\x7d,\"size\":1\x7d\x7d"

/-- The value of the text. -/
def twiceValue : Value := .object [(RawText.ofText "config", .object [
  (RawText.ofText "size", .integer 1), (RawText.ofText "x", .object []),
  (RawText.ofText "size", .integer 1)])]

/-- A list with one entry. -/
def single : ManifestList := ⟨[{ digest := "d", platform := { os := "linux" } }]⟩

/-- A text that writes it with arrays for records. -/
def singleText : Bytes := Utf8.encode "[[[\"d\",\x7b\"os\":\"linux\"\x7d]]] "

/-- The value of the text. -/
def singleValue : Value :=
  .array [.array [.array [.text "d", .object [(RawText.ofText "os", .text "linux")]]]]

/-- A text of a list with an entry that has two platforms. -/
def twofoldText : Bytes :=
  Utf8.encode "[[\x7b\"platform\":[\"a\"],\"digest\":\"\",\"platform\":\x7b\x7d\x7d]]"

/-- The value of the text. -/
def twofoldValue : Value := .array [.array [.object [
  (RawText.ofText "platform", .array [.text "a"]), (RawText.ofText "digest", .text ""),
  (RawText.ofText "platform", .object [])]]]

theorem twice_repeats : ImageManifest.Repeats twiceValue :=
  .inr (.inl ⟨_, .object List.mem_cons_self (RawText.spells_ofText "config"), "size", by decide, _,
    _, _, rfl, .cons_cons _ (.cons _ (.cons_cons _ .slnil)), RawText.spells_ofText "size",
    RawText.spells_ofText "size"⟩)

theorem single_writtenAs : single.WrittenAs singleValue := by
  have hos : Value.Spelled [(RawText.ofText "os", .text "linux")] [("os", .text "linux")] :=
    .cons ⟨RawText.spells_ofText "os", rfl⟩ .nil
  refine ⟨some _, Value.gives_array rfl, _, rfl, .cons ?_ .nil⟩
  refine ⟨some _, some _, Value.gives_array rfl, Value.isText_text "d", ?_⟩
  exact ⟨none, some _, none, .object hos (.cons rfl (.cons rfl (.cons rfl .nil))), rfl,
    Value.isText_text "linux", rfl⟩

theorem twofold_repeats : ManifestList.Repeats twofoldValue :=
  .inr ⟨_, _, .array (i := 0) rfl rfl, List.mem_cons_self, .inl ⟨"platform", by decide, _, _, _,
    rfl, .cons_cons _ (.cons _ (.cons_cons _ .slnil)), RawText.spells_ofText "platform",
    RawText.spells_ofText "platform"⟩⟩

end Sample

/-- Texts of both kinds of manifests, and one of each that names a field twice. -/
theorem decodeBody_knownFields_of_samples :
    (JsonText Sample.sparseValue Sample.sparseText ∧ Sample.sparse.WrittenAs Sample.sparseValue ∧
      decodeBody ImageManifest.ofJson? Sample.sparseText = .ok Sample.sparse) ∧
    (JsonText Sample.twiceValue Sample.twiceText ∧ ImageManifest.Repeats Sample.twiceValue ∧
      decodeBody ImageManifest.ofJson? Sample.twiceText =
        .error (.invalidResponse .undecodable)) ∧
    (JsonText Sample.singleValue Sample.singleText ∧ Sample.single.WrittenAs Sample.singleValue ∧
      decodeBody ManifestList.ofJson? Sample.singleText = .ok Sample.single) ∧
    (JsonText Sample.twofoldValue Sample.twofoldText ∧ ManifestList.Repeats Sample.twofoldValue ∧
      decodeBody ManifestList.ofJson? Sample.twofoldText =
        .error (.invalidResponse .undecodable)) := by
  have htwice : JsonText Sample.twiceValue Sample.twiceText :=
    Json.parse?_eq_some_iff.1 (by cbv)
  have hsingle : JsonText Sample.singleValue Sample.singleText :=
    Json.parse?_eq_some_iff.1 (by cbv)
  have htwofold : JsonText Sample.twofoldValue Sample.twofoldText :=
    Json.parse?_eq_some_iff.1 (by cbv)
  obtain ⟨hmanifest, hlist⟩ := decodeBody_knownFields
  exact ⟨⟨Sample.jsonText_sparse, Sample.sparse_writtenAs,
      (hmanifest _ _ Sample.jsonText_sparse).1 _ Sample.sparse_writtenAs⟩,
    ⟨htwice, Sample.twice_repeats, (hmanifest _ _ htwice).2 Sample.twice_repeats⟩,
    ⟨hsingle, Sample.single_writtenAs, (hlist _ _ hsingle).1 _ Sample.single_writtenAs⟩,
    ⟨htwofold, Sample.twofold_repeats, (hlist _ _ htwofold).2 Sample.twofold_repeats⟩⟩

end Registry

end ImageGateway
