import ImageGateway.Proofs.Registry.Steps
import ImageGateway.Proofs.Registry.Summary
import Mathlib.Data.List.Forall2

/-!
# What a tag is resolved to

The details of a tag are put together from up to three responses: that for the tag itself, that for
an entry if the tag stands for a list, and the blob of the configuration.  Which part comes from
which of them is said here by relations that know of no run: each case of `Client.Resolves` and
`Client.Configures` names the calls that were made, what they asked for, the response that each of
them found, and what is read in it.  A run that succeeds is inverted at its binds, so that it goes
through one case of either relation.

* `CallRecord.AsksFor`, `CallRecord.Finds` : what a call asks for, and the response that it found.
* `Client.run_get` : the call of a `GET` and what it comes to.
* `ManifestList.Selects`, `PlatformInfo.Shows` : the entry that stands for a list, and what is shown
  of an entry.
* `Client.Resolves`, `Client.Configures` : the manifest that stands for a tag, and the configuration
  that goes with it.
* `details_of_resolution` : **the details of a tag are those of the manifest that it is resolved to,
  with the digest that the tag itself is served with**, and no other calls are made for them.
-/

namespace ImageGateway

namespace Registry

open Client (manifestPath blobPath manifestTypes singleManifestTypes)

variable {σ α : Type} {registry : Behaviour σ} {st st' : σ} {response : Http.Response}
  {c : Client} {repo tag reference accept : String} {top : CallRecord} {calls : List CallRecord}

/-! ### Calls and what they find -/

/-- The answer is a response of status 200 that arrived whole. -/
structure Delivers (answer : Option Http.Response) (response : Http.Response) : Prop where
  answered : answer = some response
  status : response.status = 200
  whole : response.broken = false

/-- The call found the response: it is the answer to its last request, has status 200 and arrived
whole. -/
def CallRecord.Finds (r : CallRecord) (response : Http.Response) : Prop :=
  Delivers r.last.answer response

/-- The call asks for a path: its first request is a `GET` for it with these headers, and what comes
behind that are redirects, which are `GET`s as well. -/
structure CallRecord.AsksFor (r : CallRecord) (c : Client) (path : String)
    (headers : Http.Headers) : Prop where
  first : ∃ url, Url.parse (c.url path) = .ok url ∧
    r.first.request = .make .get url headers []
  method : ∀ hop ∈ r.hops, hop.request.method = .get

theorem CallRecord.Finds.unique {r : CallRecord} {other : Http.Response} (h : r.Finds response)
    (h' : r.Finds other) : response = other :=
  Option.some.inj (h.answered.symm.trans h'.answered)

theorem finds_perform {call : Call} : (call.perform registry st).2.1.Finds response ↔
    Delivers (call.perform registry st).1 response := by
  constructor
  · intro ⟨hanswered, hstatus, hwhole⟩
    exact ⟨(perform_eq_some_iff (by rw [hstatus]; rfl)).2 hanswered, hstatus, hwhole⟩
  · intro ⟨hanswered, hstatus, hwhole⟩
    exact ⟨(perform_eq_some_iff (by rw [hstatus]; rfl)).1 hanswered, hstatus, hwhole⟩

theorem bodyOf_eq_ok_iff {body : Bytes} :
    bodyOf response = .ok body ↔ response.broken = false ∧ response.body = body := by
  cases h : response.broken <;> simp [bodyOf, h]

/-- The manifest that a response serves. -/
def ManifestPayload.ofResponse (response : Http.Response) : ManifestPayload where
  body := response.body
  contentType := (response.headers.firstText? "content-type").getD ""
  digest := (response.headers.firstText? digestHeader).getD ""

theorem manifestOf_eq_ok_iff {answer : Option Http.Response} {payload : ManifestPayload} :
    Client.manifestOf answer = .ok payload ↔
      ∃ response, Delivers answer response ∧ .ofResponse response = payload := by
  simp only [Client.manifestOf, bind_eq_ok_iff, successOf_eq_ok_iff, bodyOf_eq_ok_iff]
  constructor
  · rintro ⟨response, ⟨hanswered, hstatus⟩, _, ⟨hwhole, rfl⟩, hpayload⟩
    exact ⟨response, ⟨hanswered, hstatus, hwhole⟩, Except.ok.inj hpayload⟩
  · rintro ⟨response, ⟨hanswered, hstatus, hwhole⟩, rfl⟩
    exact ⟨response, ⟨hanswered, hstatus⟩, _, ⟨hwhole, rfl⟩, rfl⟩

theorem blobOf_eq_ok_iff {answer : Option Http.Response} {body : Bytes} :
    (successOf answer >>= bodyOf) = .ok body ↔
      ∃ response, Delivers answer response ∧ response.body = body := by
  simp only [bind_eq_ok_iff, successOf_eq_ok_iff, bodyOf_eq_ok_iff]
  constructor
  · rintro ⟨response, ⟨hanswered, hstatus⟩, hwhole, hbody⟩
    exact ⟨response, ⟨hanswered, hstatus, hwhole⟩, hbody⟩
  · rintro ⟨response, ⟨hanswered, hstatus, hwhole⟩, hbody⟩
    exact ⟨response, ⟨hanswered, hstatus⟩, hwhole, hbody⟩

namespace Client

/-- A `GET` without a URL to ask has no result; any other is one call, and succeeds with what is to
be seen in the response that the call found. -/
theorem run_get (c : Client) (registry : Behaviour σ) (st : σ) (path : String)
    (headers : Http.Headers) {view : Http.Response → α}
    {read : Option Http.Response → Except RegistryError α}
    (hread : ∀ {answer a}, read answer = .ok a ↔
      ∃ response, Delivers answer response ∧ view response = a) :
    let run := (c.fetch .get path headers read).run.run registry st
    (run.calls = [] ∧ ∀ a, run.result ≠ .ok a) ∨
      ∃ r, run.calls = [r] ∧ r.AsksFor c path headers ∧
        ∀ a, run.result = .ok a ↔ ∃ response, r.Finds response ∧ view response = a := by
  intro run
  have hrun : run = _ := c.run_fetch registry st .get path headers read
  cases hcall : c.call? .get path headers with
  | none =>
    rw [hcall] at hrun
    refine .inl ⟨by rw [hrun], fun a ha => ?_⟩
    rw [hrun, hread] at ha
    obtain ⟨_, ⟨hanswered, -, -⟩, -⟩ := ha
    cases hanswered
  | some call =>
    rw [hcall] at hrun
    obtain ⟨url, hurl, -, rfl⟩ := call?_eq_some hcall
    refine .inr ⟨_, congrArg Run.calls hrun, ⟨⟨url, hurl, perform_first _ _ _⟩, ?_⟩, fun a => ?_⟩
    · exact perform_hops (I := fun request => request.method = .get)
        (fun _ _ _ => redirected_get) rfl
    · rw [hrun, hread]
      simp only [finds_perform]

/-- A `GET` that succeeds is a call that found a response. -/
theorem run_get_eq_ok {path : String} {headers : Http.Headers} {view : Http.Response → α}
    {read : Option Http.Response → Except RegistryError α} {a : α}
    (hread : ∀ {answer a}, read answer = .ok a ↔
      ∃ response, Delivers answer response ∧ view response = a)
    (h : (c.fetch .get path headers read).run.run registry st = ⟨.ok a, calls, st'⟩) :
    ∃ r response, calls = [r] ∧ r.AsksFor c path headers ∧ r.Finds response ∧
      a = view response := by
  have hget := c.run_get registry st path headers hread
  rw [h] at hget
  obtain ⟨-, hresult⟩ | ⟨r, hcalls, hasks, hresult⟩ := hget
  · exact absurd rfl (hresult a)
  · obtain ⟨response, hfinds, ha⟩ := (hresult a).1 rfl
    exact ⟨r, response, hcalls, hasks, hfinds, ha.symm⟩

theorem run_fetchManifest_eq_ok {payload : ManifestPayload}
    (h : (c.fetchManifest repo reference accept).run.run registry st = ⟨.ok payload, calls, st'⟩) :
    ∃ r response, calls = [r] ∧ r.AsksFor c (manifestPath repo reference) (acceptHeader accept) ∧
      r.Finds response ∧ payload = .ofResponse response :=
  run_get_eq_ok manifestOf_eq_ok_iff h

theorem run_fetchBlob_eq_ok {digest : String} {body : Bytes}
    (h : (c.fetchBlob repo digest).run.run registry st = ⟨.ok body, calls, st'⟩) :
    ∃ r response, calls = [r] ∧ r.AsksFor c (blobPath repo digest) [] ∧
      r.Finds response ∧ body = response.body :=
  run_get_eq_ok blobOf_eq_ok_iff h

/-- What comes behind the call for a manifest: nothing if there was no call or if it found none, and
otherwise what is done with the manifest that it found. -/
theorem run_fetchManifest_bind (c : Client) (repo reference accept : String)
    (registry : Behaviour σ) (st : σ) (f : ManifestPayload → Lookup α) :
    let run := (c.fetchManifest repo reference accept >>= f).run.run registry st
    run.calls = [] ∨ (∃ r, run.calls = [r] ∧ ∀ response, ¬ r.Finds response) ∨
      ∃ r response middle, r.Finds response ∧
        let going := (f (.ofResponse response)).run.run registry middle
        run = ⟨going.result, r :: going.calls, going.state⟩ := by
  have hget := c.run_get registry st (manifestPath repo reference) (acceptHeader accept)
    manifestOf_eq_ok_iff
  rw [← fetchManifest] at hget
  rw [Exchange.run_bind_except]
  generalize (c.fetchManifest repo reference accept).run.run registry st = fetched at hget ⊢
  obtain ⟨found, first, middle⟩ := fetched
  obtain ⟨rfl, hresult⟩ | ⟨r, rfl, -, hresult⟩ := hget
  · cases found with
    | error e => exact .inl rfl
    | ok payload => exact absurd rfl (hresult payload)
  · cases found with
    | error e =>
      refine .inr (.inl ⟨r, rfl, fun response hfinds => ?_⟩)
      cases (hresult _).2 ⟨response, hfinds, rfl⟩
    | ok payload =>
      obtain ⟨response, hfinds, rfl⟩ := (hresult payload).1 rfl
      exact .inr (.inr ⟨r, response, middle, hfinds, rfl⟩)

/-- Behind a manifest that was found, a lookup goes on with it. -/
theorem run_bind_of_finds {f : ManifestPayload → Lookup α} {rest : List CallRecord}
    (hcalls : ((c.fetchManifest repo reference accept >>= f).run.run registry st).calls =
      top :: rest) (hfinds : top.Finds response) :
    ∃ middle, let going := (f (.ofResponse response)).run.run registry middle
      (c.fetchManifest repo reference accept >>= f).run.run registry st =
        ⟨going.result, top :: going.calls, going.state⟩ ∧ rest = going.calls := by
  obtain hnone | ⟨r, hmissed, hnot⟩ | ⟨r, found, middle, hfound, hrun⟩ :=
    c.run_fetchManifest_bind repo reference accept registry st f
  · cases hnone.symm.trans hcalls
  · obtain ⟨rfl, -⟩ := List.cons.inj (hmissed.symm.trans hcalls)
    exact absurd hfinds (hnot response)
  · rw [hrun] at hcalls
    obtain ⟨rfl, rfl⟩ := List.cons.inj hcalls
    obtain rfl := hfinds.unique hfound
    exact ⟨middle, hrun, rfl⟩

end Client

/-! ### Lookups without calls -/

namespace Lookup

variable {β : Type} {e : Except RegistryError α}

@[simp] theorem ofExcept_ok_bind (a : α) (f : α → Lookup β) : ofExcept (.ok a) >>= f = f a := rfl

@[simp] theorem ofExcept_error_bind (e : RegistryError) (f : α → Lookup β) :
    ofExcept (.error e) >>= f = ofExcept (.error e) := rfl

theorem ofExcept_bind_pure (f : α → β) :
    (ofExcept e >>= fun a => pure (f a)) = ofExcept (e.map f) := by
  cases e <;> rfl

theorem run_ofExcept (e : Except RegistryError α) (registry : Behaviour σ) (st : σ) :
    (ofExcept e).run.run registry st = ⟨e, [], st⟩ := rfl

/-- Reading a document behind a lookup makes no calls. -/
theorem run_bind_ofExcept (x : Lookup α) (g : α → Except RegistryError β) (registry : Behaviour σ)
    (st : σ) : (x >>= fun a => ofExcept (g a)).run.run registry st =
      let first := x.run.run registry st
      ⟨first.result >>= g, first.calls, first.state⟩ := by
  rw [Exchange.run_bind_except]
  dsimp only
  cases (x.run.run registry st).result with
  | error e => rfl
  | ok a => simp only [run_ofExcept, List.append_nil]; rfl

theorem run_ofExcept_eq_ok_iff {a : α} :
    (ofExcept e).run.run registry st = ⟨.ok a, calls, st'⟩ ↔ e = .ok a ∧ [] = calls ∧ st = st' := by
  rw [run_ofExcept, Run.mk.injEq]

theorem run_pure_eq_ok_iff {a b : α} :
    (pure a : Lookup α).run.run registry st = ⟨.ok b, calls, st'⟩ ↔
      a = b ∧ [] = calls ∧ st = st' := by
  rw [show (pure a : Lookup α) = ofExcept (.ok a) from rfl, run_ofExcept_eq_ok_iff,
    Except.ok.injEq]

end Lookup

/-! ### The entry that stands for a list -/

/-- The platform that is preferred. -/
def Platform.IsLinuxAmd64 (p : Platform) : Prop := p.os = "linux" ∧ p.architecture = "amd64"

/-- The entry that stands for a list of entries: the first one for `linux/amd64`, and the first one
of all if there is none for that. -/
inductive ManifestList.Selects : List ListEntry → ListEntry → Prop
  | preferred {before after : List ListEntry} {entry : ListEntry}
      (earlier : ∀ other ∈ before, ¬ other.platform.IsLinuxAmd64)
      (this : entry.platform.IsLinuxAmd64) : Selects (before ++ entry :: after) entry
  | first {entry : ListEntry} {after : List ListEntry}
      (all : ∀ other ∈ entry :: after, ¬ other.platform.IsLinuxAmd64) :
      Selects (entry :: after) entry

/-- What is shown of the platform of an entry; a variant if and only if it is not empty. -/
structure PlatformInfo.Shows (info : PlatformInfo) (entry : ListEntry) : Prop where
  os : info.os = entry.platform.os
  architecture : info.architecture = entry.platform.architecture
  variant : ∀ v, info.variant = some v ↔ entry.platform.variant = v ∧ v ≠ ""

namespace ManifestList

variable {list : ManifestList} {entry : ListEntry}

theorem isPreferred_iff : isPreferred entry = true ↔ entry.platform.IsLinuxAmd64 := by
  simp [isPreferred, Platform.IsLinuxAmd64]

theorem Selects.ne_nil {entries : List ListEntry} (h : Selects entries entry) : entries ≠ [] := by
  cases h <;> simp

theorem selects_of_selected? (h : list.selected? = some entry) : Selects list.manifests entry := by
  unfold selected? at h
  split at h
  · rename_i found hfound
    obtain rfl := Option.some.inj h
    obtain ⟨hthis, before, after, hlist, hearlier⟩ := List.find?_eq_some_iff_append.1 hfound
    rw [hlist]
    refine .preferred (fun other hother hpreferred => ?_) (isPreferred_iff.1 hthis)
    have hnot := hearlier other hother
    rw [isPreferred_iff.2 hpreferred] at hnot
    cases hnot
  · rename_i hnone
    obtain ⟨after, hlist⟩ := List.head?_eq_some_iff.1 h
    rw [hlist] at hnone ⊢
    exact .first fun other hother hpreferred =>
      List.find?_eq_none.1 hnone other hother (isPreferred_iff.2 hpreferred)

theorem selectedDigest_eq_ok {digest : String} (h : list.selectedDigest = .ok digest) :
    ∃ entry, Selects list.manifests entry ∧ entry.digest = digest := by
  unfold selectedDigest at h
  split at h
  · rename_i entry hentry
    exact ⟨entry, selects_of_selected? hentry, Except.ok.inj h⟩
  · cases h

theorem selectedDigest_of_nil (h : list.manifests = []) :
    list.selectedDigest = .error .manifestListEmpty := by
  simp only [selectedDigest, selected?, h, List.find?_nil, List.head?_nil]

theorem shows_platforms : List.Forall₂ PlatformInfo.Shows list.platforms list.manifests := by
  rw [platforms, List.forall₂_map_left_iff, List.forall₂_same]
  refine fun entry _ => ⟨rfl, rfl, fun v => ?_⟩
  dsimp only
  by_cases hempty : entry.platform.variant = ""
  · rw [hempty, if_pos (show "".isEmpty = true from rfl)]
    exact ⟨nofun, fun ⟨hv, hne⟩ => absurd hv.symm hne⟩
  · rw [if_neg (by simpa using hempty), Option.some.injEq, iff_self_and]
    rintro rfl
    exact hempty

end ManifestList

/-! ### Manifest and configuration -/

namespace Client

/-- What the manifest of a tag is resolved to, and the calls for that: none if it is a manifest for
one platform; the call for one of its entries if it is a list, which is then shown with the
platforms of all its entries in order. -/
inductive Resolves (c : Client) (repo : String) (payload : ManifestPayload) :
    List CallRecord → Resolved → Prop
  | single {manifest : ImageManifest} (type : isManifestList payload.contentType = false)
      (body : decodeBody ImageManifest.ofJson? payload.body = .ok manifest) :
      Resolves c repo payload [] ⟨manifest, none⟩
  | list {list : ManifestList} {entry : ListEntry} {r : CallRecord} {response : Http.Response}
      {manifest : ImageManifest} {platforms : List PlatformInfo}
      (type : isManifestList payload.contentType = true)
      (body : decodeBody ManifestList.ofJson? payload.body = .ok list)
      (selects : ManifestList.Selects list.manifests entry)
      (asks : r.AsksFor c (manifestPath repo entry.digest) (acceptHeader singleManifestTypes))
      (finds : r.Finds response)
      (single : decodeBody ImageManifest.ofJson? response.body = .ok manifest)
      (shows : List.Forall₂ PlatformInfo.Shows platforms list.manifests) :
      Resolves c repo payload [r] ⟨manifest, some platforms⟩

/-- The configuration that goes with a descriptor, and the calls for it: none without a digest,
otherwise one for the blob with this digest. -/
inductive Configures (c : Client) (repo : String) (descriptor : Descriptor) :
    List CallRecord → ConfigInfo → Prop
  | bare (digest : descriptor.digest = "") : Configures c repo descriptor [] { descriptor }
  | blob {r : CallRecord} {response : Http.Response} {config : ImageConfig}
      (digest : descriptor.digest ≠ "") (asks : r.AsksFor c (blobPath repo descriptor.digest) [])
      (finds : r.Finds response)
      (body : decodeBody ImageConfig.ofJson? response.body = .ok config) :
      Configures c repo descriptor [r] (.ofBlob descriptor config)

theorem resolve_of_single {payload : ManifestPayload}
    (h : isManifestList payload.contentType = false) : c.resolve repo payload =
      Lookup.ofExcept (decodeBody ImageManifest.ofJson? payload.body) >>= fun manifest =>
        pure ⟨manifest, none⟩ := by
  rw [resolve, if_neg (by simp [h])]

theorem resolve_of_list {payload : ManifestPayload}
    (h : isManifestList payload.contentType = true) : c.resolve repo payload =
      Lookup.ofExcept (decodeBody ManifestList.ofJson? payload.body) >>= c.resolveList repo := by
  rw [resolve, if_pos h]

theorem resolves_of_run {payload : ManifestPayload} {resolved : Resolved}
    (h : (c.resolve repo payload).run.run registry st = ⟨.ok resolved, calls, st'⟩) :
    c.Resolves repo payload calls resolved := by
  cases htype : isManifestList payload.contentType with
  | false =>
    simp only [resolve_of_single htype, Exchange.run_bind_eq_ok_iff, Lookup.run_ofExcept_eq_ok_iff,
      Lookup.run_pure_eq_ok_iff] at h
    obtain ⟨manifest, _, _, _, ⟨hbody, rfl, -⟩, ⟨rfl, rfl, -⟩, rfl⟩ := h
    exact .single htype hbody
  | true =>
    simp only [resolve_of_list htype, resolveList, Exchange.run_bind_eq_ok_iff,
      Lookup.run_ofExcept_eq_ok_iff, Lookup.run_pure_eq_ok_iff] at h
    -- one layer for each bind: the list, the digest that it selects, the call, the manifest in it
    obtain ⟨list, _, _, _, ⟨hbody, rfl, -⟩, ⟨digest, _, _, _, ⟨hdigest, rfl, -⟩,
      ⟨payload', _, _, _, hfetch, ⟨manifest, _, _, _, ⟨hmanifest, rfl, -⟩, ⟨rfl, rfl, -⟩, rfl⟩,
        rfl⟩, rfl⟩, rfl⟩ := h
    obtain ⟨entry, hselects, rfl⟩ := ManifestList.selectedDigest_eq_ok hdigest
    obtain ⟨r, response, rfl, hasks, hfinds, rfl⟩ := run_fetchManifest_eq_ok hfetch
    exact .list htype hbody hselects hasks hfinds hmanifest ManifestList.shows_platforms

theorem configures_of_run {descriptor : Descriptor} {config : ConfigInfo}
    (h : (c.fetchConfig repo descriptor).run.run registry st = ⟨.ok config, calls, st'⟩) :
    c.Configures repo descriptor calls config := by
  by_cases hdigest : descriptor.digest = ""
  · rw [fetchConfig, if_pos (by simp [hdigest]), Lookup.run_pure_eq_ok_iff] at h
    obtain ⟨rfl, rfl, -⟩ := h
    exact .bare hdigest
  · rw [fetchConfig, if_neg (by simpa using hdigest)] at h
    simp only [Exchange.run_bind_eq_ok_iff, Lookup.run_ofExcept_eq_ok_iff,
      Lookup.run_pure_eq_ok_iff] at h
    obtain ⟨body, _, _, _, hfetch, ⟨blob, _, _, _, ⟨hblob, rfl, -⟩, ⟨rfl, rfl, -⟩, rfl⟩, rfl⟩ := h
    obtain ⟨r, response, rfl, hasks, hfinds, rfl⟩ := run_fetchBlob_eq_ok hfetch
    exact .blob hdigest hasks hfinds hblob

/-- A list that stands for a tag has entries, so its platforms are shown. -/
theorem Resolves.filter_platforms {payload : ManifestPayload} {resolved : Resolved}
    (h : c.Resolves repo payload calls resolved) :
    resolved.platforms.filter (!·.isEmpty) = resolved.platforms := by
  cases h with
  | single => rfl
  | @list list _ _ _ _ platforms _ _ selects _ _ _ shows =>
    -- no platforms would mean no entries, and then none could have been selected
    have hne : platforms ≠ [] := by
      rintro rfl
      rw [List.forall₂_nil_left_iff] at shows
      exact selects.ne_nil shows
    simp [hne]

/-- An empty list has nothing to be resolved to. -/
theorem resolve_of_nil {payload : ManifestPayload} {list : ManifestList}
    (htype : isManifestList payload.contentType = true)
    (hbody : decodeBody ManifestList.ofJson? payload.body = .ok list)
    (hlist : list.manifests = []) :
    c.resolve repo payload = Lookup.ofExcept (.error .manifestListEmpty) := by
  rw [resolve_of_list htype, hbody, Lookup.ofExcept_ok_bind, resolveList,
    ManifestList.selectedDigest_of_nil hlist, Lookup.ofExcept_error_bind]

/-- What the details of a tag have been put together from. -/
theorem run_fetchTagDetails_eq_ok {d : TagDetails}
    (h : (c.fetchTagDetails repo tag).run.run registry st = ⟨.ok d, calls, st'⟩) :
    ∃ top response entries blobs manifest platforms config,
      let payload := ManifestPayload.ofResponse response
      calls = top :: (entries ++ blobs) ∧
      top.AsksFor c (manifestPath repo tag) (acceptHeader manifestTypes) ∧ top.Finds response ∧
      c.Resolves repo payload entries ⟨manifest, platforms⟩ ∧
      c.Configures repo manifest.config blobs config ∧
      d = {
        repo, tag, config, platforms
        digest := payload.digest
        mediaType := if manifest.mediaType = "" then payload.contentType else manifest.mediaType
        schemaVersion := manifest.schemaVersion
        layers := manifest.layers } := by
  simp only [fetchTagDetails, Exchange.run_bind_eq_ok_iff, Lookup.run_pure_eq_ok_iff] at h
  obtain ⟨payload, _, _, _, hfetch, ⟨⟨manifest, platforms⟩, entries, _, _, hresolve,
    ⟨config, blobs, _, _, hconfig, ⟨rfl, rfl, -⟩, rfl⟩, rfl⟩, rfl⟩ := h
  obtain ⟨top, response, rfl, hasks, hfinds, rfl⟩ := run_fetchManifest_eq_ok hfetch
  have hresolves := resolves_of_run hresolve
  refine ⟨top, response, entries, blobs, manifest, platforms, config, by simp, hasks, hfinds,
    hresolves, configures_of_run hconfig, ?_⟩
  simp only [TagDetails.mk.injEq, true_and, and_true, String.isEmpty_iff]
  exact hresolves.filter_platforms

end Client

/-- **The details of a tag are those of the manifest that it is resolved to.**  In front of every
registry, whatever it answers and remembers: if there are details, then the first call has asked for
the tag and found a response.  From that come the digest and, if it is a list, the platforms and the
entry whose manifest is asked for next; schema version, layers and the descriptor of the
configuration are those of the one manifest for one platform, and the rest of the configuration is
that of the blob that its digest names.  No other calls are made.  A list without entries is a
failure, and nothing is asked behind it. -/
theorem details_of_resolution (c : Client) (repo tag : String) (registry : Behaviour σ) (st : σ) :
    let run := (c.fetchTagDetails repo tag).run.run registry st
    (∀ d, run.result = .ok d → ∃ top response entries blobs manifest platforms config,
      let payload := ManifestPayload.ofResponse response
      run.calls = top :: (entries ++ blobs) ∧
      top.AsksFor c (manifestPath repo tag) (acceptHeader manifestTypes) ∧ top.Finds response ∧
      c.Resolves repo payload entries ⟨manifest, platforms⟩ ∧
      c.Configures repo manifest.config blobs config ∧
      d = {
        repo, tag, config, platforms
        digest := payload.digest
        mediaType := if manifest.mediaType = "" then payload.contentType else manifest.mediaType
        schemaVersion := manifest.schemaVersion
        layers := manifest.layers }) ∧
    ∀ top rest response list, run.calls = top :: rest → top.Finds response →
      isManifestList (ManifestPayload.ofResponse response).contentType = true →
      decodeBody ManifestList.ofJson? response.body = .ok list → list.manifests = [] →
        rest = [] ∧ run.result = .error .manifestListEmpty := by
  intro run
  refine ⟨fun d hd => ?_, fun top rest response list hcalls hfinds htype hbody hlist => ?_⟩
  · have hrun : run = ⟨.ok d, run.calls, run.state⟩ := by rw [← hd]
    exact Client.run_fetchTagDetails_eq_ok hrun
  · obtain ⟨middle, hrun, hrest⟩ := Client.run_bind_of_finds hcalls hfinds
    rw [Client.resolve_of_nil htype hbody hlist, Lookup.ofExcept_error_bind,
      Lookup.run_ofExcept] at hrun hrest
    exact ⟨hrest, congrArg Run.result hrun⟩

namespace Sample

/-- A manifest for several platforms. -/
def index (entries : String) : Http.Response where
  status := 200
  headers := [.ofText "content-type" "application/vnd.oci.image.index.v1+json",
    .ofText digestHeader "sha256:0"]
  body := Utf8.encode entries

/-- The answer of that registry, which has a tag for two platforms and one for none besides. -/
def editions (request : WireRequest) : Option Http.Response :=
  if request.url.pathText = "/v2/team1/a/manifests/both" then
    some (index "[[[\"sha256:9\",[\"arm64\",\"linux\",\"v8\"]],[\"sha256:2\",[\"amd64\",\"linux\"]]]]")
  else if request.url.pathText = "/v2/team1/a/manifests/none" then some (index "[]")
  else images request

/-- The request for the tag for no platform. -/
def emptyTagRequest : WireRequest :=
  .make .get ⟨"http".toList, some ⟨[], [], .name "registry".toList, some 5000⟩,
      .segments ["v2".toList, "team1".toList, "a".toList, "manifests".toList, "none".toList],
      none, none⟩
    (acceptHeader manifestTypes) []

end Sample

/-- A tag whose second entry is asked for, with its configuration, and a tag for no platform. -/
theorem details_of_editions :
    (∃ top entry blob, ((Sample.tagClient.fetchTagDetails "team1/a" "both").run.run
        (answering Sample.editions) ()).calls = [top, entry, blob] ∧
      top.AsksFor Sample.tagClient "team1/a/manifests/both" (acceptHeader manifestTypes) ∧
      blob.AsksFor Sample.tagClient "team1/a/blobs/sha256:3" []) ∧
    ((Sample.tagClient.fetchTagDetails "team1/a" "none").run.run
      (answering Sample.editions) ()).result = .error .manifestListEmpty := by
  have hboth : ((Sample.tagClient.fetchTagDetails "team1/a" "both").run.run
      (answering Sample.editions) ()).result = .ok {
        repo := "team1/a", tag := "both", digest := "sha256:0", schemaVersion := 2
        mediaType := "application/vnd.oci.image.index.v1+json"
        config := { descriptor := ⟨"", "sha256:3", 11⟩ }
        platforms := some [⟨"linux", "arm64", some "v8"⟩, ⟨"linux", "amd64", none⟩]
        layers := [⟨"", "", 5⟩, ⟨"", "", 7⟩] } := by decide +kernel
  refine ⟨?_, ?_⟩
  · obtain ⟨top, response, entries, blobs, manifest, platforms, config, hcalls, hasks, -,
      hresolves, hconfigures, hd⟩ := (details_of_resolution Sample.tagClient "team1/a" "both"
        (answering Sample.editions) ()).1 _ hboth
    cases hresolves with
    | single => cases congrArg TagDetails.platforms hd
    | list =>
      have hdigest := congrArg (·.config.descriptor.digest) hd
      cases hconfigures with
      | bare digest => exact absurd (hdigest.trans digest) (by decide)
      | blob _ asks =>
        dsimp only [ConfigInfo.ofBlob] at hdigest
        rw [← hdigest] at asks
        exact ⟨_, _, _, hcalls, hasks, asks⟩
  · have hcalls : ((Sample.tagClient.fetchTagDetails "team1/a" "none").run.run
        (answering Sample.editions) ()).calls =
        [⟨⟨Sample.emptyTagRequest, some (Sample.index "[]")⟩, []⟩] := by decide +kernel
    exact ((details_of_resolution Sample.tagClient "team1/a" "none" (answering Sample.editions)
      ()).2 _ _ _ {} hcalls ⟨rfl, rfl, rfl⟩ (by decide +kernel) (by decide +kernel) rfl).2

end Registry

end ImageGateway
