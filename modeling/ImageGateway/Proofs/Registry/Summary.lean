import ImageGateway.Proofs.Except
import ImageGateway.Proofs.Registry.Catalog
import ImageGateway.Proofs.Registry.Size

/-!
# A tag in short and in full

A tag is asked for in two ways, in short and in full.  Both begin with the same steps, the manifest
of the tag and what it is resolved to, and part behind them: the one adds sizes up, the other
fetches the configuration.  In front of a registry that answers each request by the request alone
the common steps come to the same, so that either answer tells about the other one.

* `Exchange.outcome` : what an exchange comes to in front of such a registry, in whatever state.
* `Client.described` : what the common steps come to.
* `summary_of_details` : **the summary states the digest and the sum of the sizes that the details
  list, unless the sum overflows**, and it fails in no other way than the details.
-/

namespace ImageGateway

namespace Registry

variable {σ ε α β : Type} {registry : Behaviour σ} {answer : WireRequest → Option Http.Response}

/-! ### Exchanges with registries whose answers depend on the request alone -/

namespace Exchange

/-- What the exchange comes to. -/
def outcome (answer : WireRequest → Option Http.Response) : Exchange α → α
  | .done a => a
  | .call c next => (next (c.answered answer)).outcome answer

/-- **An exchange comes to the same in every state.** -/
theorem result_of_answers (h : Answers registry answer) (e : Exchange α) (st : σ) :
    (e.run registry st).result = e.outcome answer := by
  induction e generalizing st with
  | done a => rfl
  | call c next ih =>
    rw [run_call, outcome, ← perform_of_answers h c st]
    exact ih _ _

theorem outcome_bind (e : Exchange α) (f : α → Exchange β) :
    (e >>= f).outcome answer = (f (e.outcome answer)).outcome answer := by
  induction e with
  | done a => rfl
  | call c next ih => exact ih _

/-- What lookups come to one after the other is what the single ones come to. -/
theorem outcome_bind_except (x : ExceptT ε Exchange α) (f : α → ExceptT ε Exchange β) :
    (x >>= f).run.outcome answer = x.run.outcome answer >>= fun a => (f a).run.outcome answer := by
  rw [ExceptT.run_bind, outcome_bind]
  cases x.run.outcome answer <;> rfl

end Exchange

namespace Client

variable {c : Client} {repo tag : String}

/-- What a tag in short and a tag in full have in common: its manifest as it is served, and what
that is resolved to. -/
def described (c : Client) (answer : WireRequest → Option Http.Response) (repo tag : String) :
    Except RegistryError (ManifestPayload × Resolved) := do
  let payload ← (c.fetchManifest repo tag manifestTypes).run.outcome answer
  let resolved ← (c.resolve repo payload).run.outcome answer
  .ok (payload, resolved)

theorem outcome_fetchTagInfo : (c.fetchTagInfo repo tag).run.outcome answer =
    c.described answer repo tag >>= fun (payload, resolved) =>
      resolved.manifest.compressedSize.map fun size => ⟨tag, payload.digest, size⟩ := by
  simp only [fetchTagInfo, described, Exchange.outcome_bind_except, bind_assoc]
  rfl

theorem outcome_fetchTagDetails : (c.fetchTagDetails repo tag).run.outcome answer =
    c.described answer repo tag >>= fun (payload, resolved) =>
      ((c.fetchConfig repo resolved.manifest.config).run.outcome answer).map fun config =>
        { repo, tag, config
          digest := payload.digest
          mediaType :=
            if resolved.manifest.mediaType.isEmpty then payload.contentType
            else resolved.manifest.mediaType
          schemaVersion := resolved.manifest.schemaVersion
          platforms := resolved.platforms.filter (!·.isEmpty)
          layers := resolved.manifest.layers } := by
  simp only [fetchTagDetails, described, Exchange.outcome_bind_except, bind_assoc]
  rfl

/-- The configuration that is fetched is that of the descriptor. -/
theorem descriptor_of_fetchConfig {descriptor : Descriptor} {config : ConfigInfo}
    (h : (c.fetchConfig repo descriptor).run.outcome answer = .ok config) :
    config.descriptor = descriptor := by
  unfold fetchConfig at h
  split_ifs at h
  · cases h
    rfl
  · simp only [Exchange.outcome_bind_except] at h
    obtain ⟨blob, -, h⟩ := bind_eq_ok_iff.1 h
    obtain ⟨document, -, h⟩ := bind_eq_ok_iff.1 h
    cases h
    rfl

/-- The manifest that a tag is resolved to has been read from a body. -/
theorem decoded_of_resolve {payload : ManifestPayload} {resolved : Resolved}
    (h : (c.resolve repo payload).run.outcome answer = .ok resolved) :
    ∃ body, decodeBody ImageManifest.ofJson? body = .ok resolved.manifest := by
  unfold resolve at h
  split_ifs at h
  · simp only [resolveList, Exchange.outcome_bind_except] at h
    obtain ⟨list, -, h⟩ := bind_eq_ok_iff.1 h
    obtain ⟨digest, -, h⟩ := bind_eq_ok_iff.1 h
    obtain ⟨single, -, h⟩ := bind_eq_ok_iff.1 h
    obtain ⟨manifest, hmanifest, h⟩ := bind_eq_ok_iff.1 h
    cases h
    exact ⟨single.body, hmanifest⟩
  · simp only [Exchange.outcome_bind_except] at h
    obtain ⟨manifest, hmanifest, h⟩ := bind_eq_ok_iff.1 h
    cases h
    exact ⟨payload.body, hmanifest⟩

theorem fits_of_described {payload : ManifestPayload} {resolved : Resolved}
    (h : c.described answer repo tag = .ok (payload, resolved)) :
    Json.Value.fits resolved.manifest.config.size = true := by
  obtain ⟨_, -, h⟩ := bind_eq_ok_iff.1 h
  obtain ⟨_, hresolved, h⟩ := bind_eq_ok_iff.1 h
  cases h
  obtain ⟨body, hbody⟩ := decoded_of_resolve hresolved
  exact ImageManifest.fits_of_decodeBody hbody

/-- The details come from what the tag is resolved to, and state its digest, its layers and the
descriptor of its configuration. -/
theorem described_of_details {d : TagDetails}
    (h : (c.fetchTagDetails repo tag).run.outcome answer = .ok d) :
    ∃ payload resolved, c.described answer repo tag = .ok (payload, resolved) ∧
      d.digest = payload.digest ∧ d.config.descriptor = resolved.manifest.config ∧
      d.layers = resolved.manifest.layers := by
  rw [outcome_fetchTagDetails] at h
  obtain ⟨⟨payload, resolved⟩, hdescribed, h⟩ := bind_eq_ok_iff.1 h
  obtain ⟨config, hconfig, rfl⟩ := map_eq_ok_iff.1 h
  exact ⟨payload, resolved, hdescribed, rfl, descriptor_of_fetchConfig hconfig, rfl⟩

/-- The summary of a tag whose manifest could be read. -/
theorem outcome_fetchTagInfo_of_described {payload : ManifestPayload} {resolved : Resolved}
    (h : c.described answer repo tag = .ok (payload, resolved)) :
    (c.fetchTagInfo repo tag).run.outcome answer =
      resolved.manifest.compressedSize.map fun size => ⟨tag, payload.digest, size⟩ := by
  rw [outcome_fetchTagInfo, h]
  rfl

/-- A summary that fails without an overflow fails in what it has in common with the details. -/
theorem described_eq_error_of_info {e : RegistryError}
    (h : (c.fetchTagInfo repo tag).run.outcome answer = .error e)
    (hoverflow : e ≠ .invalidResponse .sizesOverflow) :
    c.described answer repo tag = .error e := by
  rw [outcome_fetchTagInfo] at h
  obtain h | ⟨⟨payload, resolved⟩, -, h⟩ := bind_eq_error_iff.1 h
  · exact h
  · exact absurd (ImageManifest.compressedSize_eq_error (map_eq_error_iff.1 h)) hoverflow

end Client

/-- **The summary and the details of a tag agree.**  In front of a registry that answers each
request by the request alone, in any two states: if there are details, then the summary states their
digest and the size of their configuration and of their layers together; only if a sum on the way,
the size of the configuration first and then the layers in order, is no 64-bit integer, it fails
with that.  If the summary fails with anything else, the details fail with the same. -/
theorem summary_of_details (h : Answers registry answer) (c : Client) (repo tag : String)
    (st st' : σ) :
    let info := ((c.fetchTagInfo repo tag).run.run registry st).result
    let details := ((c.fetchTagDetails repo tag).run.run registry st').result
    (∀ d, details = .ok d →
      let size := d.config.descriptor.size
      (¬ Overflows size d.layers → info = .ok ⟨tag, d.digest, totalSize size d.layers⟩) ∧
      (Overflows size d.layers → info = .error (.invalidResponse .sizesOverflow))) ∧
    ∀ e, info = .error e → e ≠ .invalidResponse .sizesOverflow → details = .error e := by
  intro info details
  have hinfo : info = (c.fetchTagInfo repo tag).run.outcome answer :=
    Exchange.result_of_answers h _ st
  have hdetails : details = (c.fetchTagDetails repo tag).run.outcome answer :=
    Exchange.result_of_answers h _ st'
  rw [hinfo, hdetails]
  refine ⟨fun d hd => ?_, fun e he hoverflow => ?_⟩
  · obtain ⟨payload, resolved, hdescribed, hdigest, hconfig, hlayers⟩ :=
      Client.described_of_details hd
    rw [hdigest, hconfig, hlayers, Client.outcome_fetchTagInfo_of_described hdescribed]
    refine ⟨fun hfits => ?_, fun hoverflow => ?_⟩
    · rw [ImageManifest.compressedSize_of_fits hfits]
      rfl
    · rw [ImageManifest.compressedSize_of_overflows (Client.fits_of_described hdescribed) hoverflow]
      rfl
  · rw [Client.outcome_fetchTagDetails, Client.described_eq_error_of_info he hoverflow]
    rfl

namespace Sample

/-- The answer of a registry with a tag for several platforms and one whose sizes overflow, although
their sum would not. -/
def images (request : WireRequest) : Option Http.Response :=
  let document (contentType text : String) : Http.Response :=
    { status := 200
      headers := [.ofText "content-type" contentType, .ofText digestHeader "sha256:1"]
      body := Utf8.encode text }
  if request.url.pathText = "/v2/team1/a/manifests/v1" then
    some (document "application/vnd.oci.image.index.v1+json"
      "[[[\"sha256:2\",[\"amd64\",\"linux\"]]]]")
  else if request.url.pathText = "/v2/team1/a/manifests/sha256:2" then
    some (document "" "[2,\"\",[\"\",\"sha256:3\",11],[[\"\",\"\",5],[\"\",\"\",7]]]")
  else if request.url.pathText = "/v2/team1/a/manifests/huge" then
    some (document "" "[2,\"\",[\"\",\"\",9223372036854775807],[[\"\",\"\",1],[\"\",\"\",-1]]]")
  else if request.url.pathText = "/v2/team1/a/blobs/sha256:3" then some (document "" "[]")
  else none

/-- The client of that registry. -/
def tagClient : Client := .ofText "http://registry:5000" 1

end Sample

/-- A sum, an overflow and a tag that is not there. -/
theorem summary_of_images : Answers (answering Sample.images) Sample.images ∧
    ((Sample.tagClient.fetchTagInfo "team1/a" "v1").run.run (answering Sample.images) ()).result =
      .ok ⟨"v1", "sha256:1", 23⟩ ∧
    ((Sample.tagClient.fetchTagInfo "team1/a" "huge").run.run (answering Sample.images) ()).result =
      .error (.invalidResponse .sizesOverflow) ∧
    ((Sample.tagClient.fetchTagDetails "team1/a" "v2").run.run
      (answering Sample.images) ()).result = .error .network := by
  have hanswers : Answers (answering Sample.images) Sample.images := fun _ _ => rfl
  have hagree (tag : String) := summary_of_details hanswers Sample.tagClient "team1/a" tag () ()
  have hlist : ((Sample.tagClient.fetchTagDetails "team1/a" "v1").run.run
      (answering Sample.images) ()).result = .ok {
        repo := "team1/a", tag := "v1", digest := "sha256:1", schemaVersion := 2
        mediaType := "application/vnd.oci.image.index.v1+json"
        config := { descriptor := ⟨"", "sha256:3", 11⟩ }
        platforms := some [⟨"linux", "amd64", none⟩]
        layers := [⟨"", "", 5⟩, ⟨"", "", 7⟩] } := by decide +kernel
  have hhuge : ((Sample.tagClient.fetchTagDetails "team1/a" "huge").run.run
      (answering Sample.images) ()).result = .ok {
        repo := "team1/a", tag := "huge", digest := "sha256:1", schemaVersion := 2
        mediaType := ""
        config := { descriptor := ⟨"", "", 9223372036854775807⟩ }
        platforms := none
        layers := [⟨"", "", 1⟩, ⟨"", "", -1⟩] } := by decide +kernel
  refine ⟨hanswers, ?_, ?_, ?_⟩
  · exact ((hagree "v1").1 _ hlist).1 (by decide +kernel)
  · exact ((hagree "huge").1 _ hhuge).2 (by decide +kernel)
  · exact (hagree "v2").2 .network (by decide +kernel) nofun

end Registry

end ImageGateway
