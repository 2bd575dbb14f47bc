import ImageGateway.Proofs.Registry.Resolution

/-!
# Lists behind lists

A tag that stands for a list is resolved to the manifest of one entry.  Only the content type of the
tag is looked at for that: the entry is asked for with the types of manifests for one platform
alone, but it is read as such a manifest whatever it is served as.  Unknown keys are passed over and
all fields have defaults, so that another list in this place is a manifest without configuration and
layers, and the tag has the size 0.

* `Nested` : behind a list another one was found.
* `Client.run_resolve_of_finds` : an entry is read without a look at its type.
* `ImageManifest.empty_of_lacks` : what is read in a document without configuration and layers.
* `single_iff_not_nested` : **the size of a tag is that of a manifest for one platform, unless a
  list was found behind a list.**
-/

namespace ImageGateway

namespace Json

/-- The value is an object that has none of these keys. -/
def Value.lacks (names : List String) : Value → Bool
  | .object raw => (entries? raw).any fun entries => entries.all (!names.contains ·.1)
  | _ => false

theorem Value.exists_entries_of_lacks {names : List String} {v : Value} (h : v.lacks names = true) :
    ∃ raw entries, v = .object raw ∧ entries? raw = some entries ∧
      ∀ name ∈ names, List.lookup name entries = none := by
  unfold lacks at h
  split at h
  · rename_i raw
    obtain ⟨entries, hentries, hlacks⟩ := (Option.any_eq_true _ _).1 h
    refine ⟨raw, entries, rfl, hentries, fun name hname => ?_⟩
    rw [List.lookup_eq_none_iff]
    intro entry hentry
    have hnot := List.all_eq_true.1 hlacks entry hentry
    by_contra hkey
    obtain rfl : name = entry.1 := by simpa using hkey
    simp [hname] at hnot
  · cases h

end Json

namespace Registry

open Client (manifestPath manifestTypes)

variable {σ : Type} {registry : Behaviour σ} {st st' : σ} {response : Http.Response}
  {c : Client} {repo tag : String} {top entry : CallRecord} {calls : List CallRecord}

/-- The call found a response that is served as a list. -/
def CallRecord.FindsList (r : CallRecord) : Prop :=
  ∃ response, r.Finds response ∧
    isManifestList (ManifestPayload.ofResponse response).contentType = true

/-- Behind a list another one was found. -/
def Nested (calls : List CallRecord) : Prop :=
  ∃ top entry, calls = [top, entry] ∧ top.FindsList ∧ entry.FindsList

theorem not_nested_singleton : ¬ Nested [top] := by
  rintro ⟨_, _, hcalls, -, -⟩
  cases hcalls

/-- Behind a list, what is found is served as a list if and only if the calls are nested. -/
theorem nested_pair_iff (htop : top.FindsList) (h : entry.Finds response) :
    Nested [top, entry] ↔
      isManifestList (ManifestPayload.ofResponse response).contentType = true := by
  constructor
  · rintro ⟨_, _, hcalls, -, found, hfound, htype⟩
    cases hcalls
    rw [h.unique hfound]
    exact htype
  · intro htype
    exact ⟨top, entry, rfl, htop, response, h, htype⟩

namespace ImageManifest

variable {m : ImageManifest}

/-- A document without configuration and layers is at best a manifest without configuration and
layers. -/
theorem empty_of_lacks {v : Json.Value} (h : v.lacks ["config", "layers"] = true)
    (hm : ofJson? v = some m) : m.config = {} ∧ m.layers = [] := by
  obtain ⟨raw, entries, rfl, hentries, hlookup⟩ := Json.Value.exists_entries_of_lacks h
  have hconfig := hlookup "config" (by simp)
  have hlayers := hlookup "layers" (by simp)
  simp only [ofJson?, Json.Value.fields?, hentries, Option.bind_eq_bind, Option.bind_some] at hm
  split_ifs at hm
  · simp only [List.map_cons, List.map_nil, Option.bind_some, hconfig, hlayers,
      Json.Value.field?, Option.bind_eq_some_iff, Option.some.injEq] at hm
    obtain ⟨_, -, _, -, rfl⟩ := hm
    exact ⟨rfl, rfl⟩
  · cases hm

theorem compressedSize_of_empty (hconfig : m.config = {}) (hlayers : m.layers = []) :
    m.compressedSize = .ok 0 := by
  rw [compressedSize, hconfig, hlayers]
  rfl

end ImageManifest

namespace Client

/-- What the summary of a tag has been put together from. -/
theorem run_fetchTagInfo_eq_ok {info : TagInfo}
    (h : (c.fetchTagInfo repo tag).run.run registry st = ⟨.ok info, calls, st'⟩) :
    ∃ top response entries manifest platforms, calls = top :: entries ∧ top.Finds response ∧
      c.Resolves repo (.ofResponse response) entries ⟨manifest, platforms⟩ ∧
      manifest.compressedSize = .ok info.compressedSize := by
  simp only [fetchTagInfo, Exchange.run_bind_eq_ok_iff, Lookup.run_ofExcept_eq_ok_iff,
    Lookup.run_pure_eq_ok_iff] at h
  obtain ⟨payload, _, _, _, hfetch, ⟨⟨manifest, platforms⟩, entries, _, _, hresolve,
    ⟨size, _, _, _, ⟨hsize, rfl, -⟩, ⟨rfl, rfl, -⟩, rfl⟩, rfl⟩, rfl⟩ := h
  obtain ⟨top, response, rfl, -, hfinds, rfl⟩ := run_fetchManifest_eq_ok hfetch
  exact ⟨top, response, entries, manifest, platforms, by simp, hfinds, resolves_of_run hresolve,
    hsize⟩

/-- A lookup that goes on behind the call for a manifest has found one. -/
theorem exists_finds_of_calls {α : Type} {reference accept : String}
    {f : ManifestPayload → Lookup α} {rest : List CallRecord}
    (h : ((c.fetchManifest repo reference accept >>= f).run.run registry st).calls =
      top :: entry :: rest) : ∃ response, top.Finds response := by
  obtain hnone | ⟨r, hmissed, -⟩ | ⟨r, response, middle, hfinds, hrun⟩ :=
    c.run_fetchManifest_bind repo reference accept registry st f
  · cases hnone.symm.trans h
  · cases hmissed.symm.trans h
  · rw [hrun] at h
    obtain ⟨rfl, -⟩ := List.cons.inj h
    exact ⟨response, hfinds⟩

/-- **An entry is read as a manifest for one platform, whatever it is served as.** -/
theorem run_resolve_of_finds {payload : ManifestPayload} {rest : List CallRecord}
    (hcalls : ((c.resolve repo payload).run.run registry st).calls = entry :: rest)
    (hfinds : entry.Finds response) : ∃ platforms,
    ((c.resolve repo payload).run.run registry st).result =
      (decodeBody ImageManifest.ofJson? response.body).map (⟨·, some platforms⟩) := by
  cases htype : isManifestList payload.contentType with
  | false =>
    -- a manifest for one platform needs no call, nor does a list that selects nothing
    rw [resolve_of_single htype, Lookup.ofExcept_bind_pure, Lookup.run_ofExcept] at hcalls
    cases hcalls
  | true =>
    rw [resolve_of_list htype] at hcalls ⊢
    cases hlist : decodeBody ManifestList.ofJson? payload.body with
    | error e =>
      rw [hlist] at hcalls
      cases hcalls
    | ok list =>
      rw [hlist] at hcalls
      rw [Lookup.ofExcept_ok_bind, resolveList] at hcalls ⊢
      cases hdigest : list.selectedDigest with
      | error e =>
        rw [hdigest] at hcalls
        cases hcalls
      | ok digest =>
        rw [hdigest] at hcalls
        rw [Lookup.ofExcept_ok_bind] at hcalls ⊢
        obtain ⟨middle, hrun, -⟩ := run_bind_of_finds hcalls hfinds
        refine ⟨list.platforms, ?_⟩
        rw [hrun, Lookup.ofExcept_bind_pure, Lookup.run_ofExcept]
        rfl

theorem fetchTagInfo_eq : c.fetchTagInfo repo tag =
    c.fetchManifest repo tag manifestTypes >>= fun payload =>
      c.resolve repo payload >>= fun resolved =>
        Lookup.ofExcept (resolved.manifest.compressedSize.map (⟨tag, payload.digest, ·⟩)) := by
  simp only [fetchTagInfo, Lookup.ofExcept_bind_pure]

/-- The size of a tag for which an entry was found is what the body of the entry says. -/
theorem size_of_finds
    (hcalls : ((c.fetchTagInfo repo tag).run.run registry st).calls = [top, entry])
    (hfinds : entry.Finds response) :
    ((c.fetchTagInfo repo tag).run.run registry st).result.map (·.compressedSize) =
      decodeBody ImageManifest.ofJson? response.body >>= ImageManifest.compressedSize := by
  rw [fetchTagInfo_eq] at hcalls ⊢
  obtain ⟨found, hfound⟩ := exists_finds_of_calls hcalls
  obtain ⟨middle, hrun, hrest⟩ := run_bind_of_finds hcalls hfound
  rw [Lookup.run_bind_ofExcept] at hrun hrest
  obtain ⟨platforms, hresolved⟩ := run_resolve_of_finds hrest.symm hfinds
  rw [hrun]
  dsimp only
  rw [hresolved]
  cases decodeBody ImageManifest.ofJson? response.body with
  | error e => rfl
  | ok manifest =>
    show (manifest.compressedSize.map _).map _ = manifest.compressedSize
    cases manifest.compressedSize <;> rfl

end Client

/-- **The size of a tag is that of a manifest for one platform, unless a list was found behind a
list.**  In front of every registry, whatever it answers and remembers: a size that is stated is the
sum of the sizes in the manifest that was read in the response to the last call, and that response
was served as a list if and only if the calls are nested.  How an entry is served decides nothing:
behind a list the outcome is what the body of the entry comes to as a manifest, and the size is 0
for every body without configuration and layers. -/
theorem single_iff_not_nested (c : Client) (repo tag : String) (registry : Behaviour σ) (st : σ) :
    let run := (c.fetchTagInfo repo tag).run.run registry st
    (∀ info, run.result = .ok info → ∃ summed response manifest,
      run.calls.getLast? = some summed ∧ summed.Finds response ∧
      decodeBody ImageManifest.ofJson? response.body = .ok manifest ∧
      totalSize manifest.config.size manifest.layers = info.compressedSize ∧
      (isManifestList (ManifestPayload.ofResponse response).contentType = false ↔
        ¬ Nested run.calls)) ∧
    ∀ top entry response, run.calls = [top, entry] → entry.Finds response →
      run.result.map (·.compressedSize) =
        decodeBody ImageManifest.ofJson? response.body >>= ImageManifest.compressedSize ∧
      ∀ v manifest, Json.parse? response.body = some v → v.lacks ["config", "layers"] = true →
        ImageManifest.ofJson? v = some manifest →
          ∃ info, run.result = .ok info ∧ info.compressedSize = 0 := by
  intro run
  refine ⟨fun info hinfo => ?_, fun top entry response hcalls hfinds => ?_⟩
  · have hrun : run = ⟨.ok info, run.calls, run.state⟩ := by rw [← hinfo]
    obtain ⟨top, found, entries, manifest, platforms, hcalls, hfound, hresolves, hsize⟩ :=
      Client.run_fetchTagInfo_eq_ok hrun
    rw [hcalls]
    cases hresolves with
    | single type body =>
      have htotal := (ImageManifest.compressedSize_eq_ok_iff
        (ImageManifest.fits_of_decodeBody body)).1 hsize
      exact ⟨top, found, manifest, rfl, hfound, body, htotal.2,
        iff_of_true type not_nested_singleton⟩
    | @list _ _ entry response _ _ type _ _ _ finds body _ =>
      have htotal := (ImageManifest.compressedSize_eq_ok_iff
        (ImageManifest.fits_of_decodeBody body)).1 hsize
      refine ⟨entry, response, manifest, rfl, finds, body, htotal.2, ?_⟩
      rw [nested_pair_iff ⟨found, hfound, type⟩ finds, Bool.not_eq_true]
  · have hsize := Client.size_of_finds hcalls hfinds
    refine ⟨hsize, fun v manifest hv hlacks hmanifest => ?_⟩
    obtain ⟨hconfig, hlayers⟩ := ImageManifest.empty_of_lacks hlacks hmanifest
    rw [decodeBody_eq_ok_iff.2 ⟨v, hv, hmanifest⟩] at hsize
    exact map_eq_ok_iff.1 (hsize.trans (ImageManifest.compressedSize_of_empty hconfig hlayers))

namespace Sample

/-- A list with one entry, without configuration and layers. -/
def bareIndex : Http.Response := index "\x7b\"manifests\":[\x7b\"digest\":\"sha256:0\"\x7d]\x7d"

/-- The answer of a registry with a list that has itself for an entry. -/
def coil (_ : WireRequest) : Option Http.Response := some bareIndex

end Sample

/-- A size of 0 behind a list that has itself for an entry, whose calls are nested. -/
theorem single_iff_of_coil :
    let run := (Sample.tagClient.fetchTagInfo "team1/a" "v1").run.run (answering Sample.coil) ()
    (∃ info, run.result = .ok info ∧ info.compressedSize = 0) ∧ Nested run.calls := by
  intro run
  have hlength : run.calls.length = 2 := by decide +kernel
  have hanswers : run.calls.all (·.last.answer = some Sample.bareIndex) = true := by decide +kernel
  obtain ⟨top, entry, hcalls⟩ := List.length_eq_two.1 hlength
  rw [hcalls] at hanswers
  simp only [List.all_cons, List.all_nil, Bool.and_true, Bool.and_eq_true,
    decide_eq_true_eq] at hanswers
  have hbare : isManifestList (ManifestPayload.ofResponse Sample.bareIndex).contentType = true := by
    decide +kernel
  have hread : decodeBody ImageManifest.ofJson? Sample.bareIndex.body = .ok {} := by decide +kernel
  have hlacks : (Json.parse? Sample.bareIndex.body).any (·.lacks ["config", "layers"]) = true := by
    decide +kernel
  obtain ⟨v, hv, hmanifest⟩ := decodeBody_eq_ok_iff.1 hread
  rw [hv] at hlacks
  obtain ⟨hfirst, hsecond⟩ := single_iff_not_nested Sample.tagClient "team1/a" "v1"
    (answering Sample.coil) ()
  obtain ⟨info, hinfo, hsize⟩ :=
    (hsecond top entry _ hcalls ⟨hanswers.2, rfl, rfl⟩).2 v _ hv hlacks hmanifest
  obtain ⟨summed, response, -, hlast, hfinds, -, -, hsingle⟩ := hfirst info hinfo
  refine ⟨⟨info, hinfo, hsize⟩, Classical.byContradiction fun hnested => ?_⟩
  have htype := hsingle.2 hnested
  rw [hcalls] at hlast
  cases hlast
  rw [hfinds.unique ⟨hanswers.2, rfl, rfl⟩, hbare] at htype
  cases htype

/-- A size that was summed up in a list, which has neither a configuration nor layers. -/
theorem not_single_of_coil :
    let run := (Sample.tagClient.fetchTagInfo "team1/a" "v1").run.run (answering Sample.coil) ()
    run.result = .ok ⟨"v1", "sha256:0", 0⟩ ∧ run.calls.length = 2 ∧
    run.calls.getLast?.bind (·.last.answer) = some Sample.bareIndex ∧
    isManifestList (ManifestPayload.ofResponse Sample.bareIndex).contentType = true ∧
    decodeBody ImageManifest.ofJson? Sample.bareIndex.body = .ok {} := by
  decide +kernel

end Registry

end ImageGateway
