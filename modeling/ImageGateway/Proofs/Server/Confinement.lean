import ImageGateway.Proofs.Api.Work
import ImageGateway.Proofs.Registry.Confinement
import ImageGateway.Proofs.Server.Serve

/-!
# Where the introspection API goes

What the API asks of the registry for a namespace begins with the name of the namespace, or asks for
the catalog.  Names that a client gives are checked, and they are sent as they are written.  Names
from a catalog and digests from a manifest or a header field are not: they are put into the text of
a URL as the registry wrote them.

* `Client.confined_of_named` : what a client names stays in its namespace.
* `confined_iff_stays` : **a request to the registry stays in the namespace exactly if its path
  does**, whatever the registry answers.
-/

namespace ImageGateway

namespace Api

/-! ### Names that a client gives -/

theorem isBlank_eq_false_of_isNameChar {c : Char} (h : isNameChar c = true) :
    Url.isBlank c = false := by
  have hblanks : ∀ n < 0x21, isNameChar (Char.ofNat n) = false := by decide
  rw [Url.isBlank, decide_eq_false_iff_not]
  intro hle
  have hc := hblanks c.toNat (Nat.lt_succ_of_le hle)
  rw [Char.ofNat_toNat, h] at hc
  cases hc

theorem isNameChar_imp_ne {c : Char} (h : isNameChar c = true) :
    Url.isFront c = true ∧ c ≠ '\\' ∧ c ≠ '%' ∧ c ≠ '/' := by
  refine ⟨?_, ?_, ?_, ?_⟩
  · by_contra hmark
    simp only [Url.isFront, Bool.and_eq_true, bne_iff_ne, not_and_or, not_not] at hmark
    rcases hmark with rfl | rfl <;> cases h
  all_goals
    rintro rfl
    cases h

theorem isRepository_append (front rest : String) :
    isRepository (front ++ "/" ++ rest) = (isRepository front && isRepository rest) := by
  rw [isRepository, Text.toList_slash, List.splitOn_append_cons_self, List.all_append]
  rfl

/-- A tag is named like a segment of a repository. -/
theorem isRepository_of_isTag {tag : String} (h : isTag tag = true) : isRepository tag = true := by
  unfold isTag at h
  split at h
  · cases h
  · rename_i c rest htag
    simp only [Bool.and_eq_true, List.all_eq_true] at h
    obtain ⟨⟨hc, -⟩, hrest⟩ := h
    have hname : isNameChar c = true := by
      rcases Bool.or_eq_true_iff.1 hc with hc | hc <;> simp [isNameChar, hc]
    have hall : ∀ d ∈ c :: rest, isNameChar d = true := List.forall_mem_cons.2 ⟨hname, hrest⟩
    have hslash : '/' ∉ c :: rest := fun hmem => (isNameChar_imp_ne (hall _ hmem)).2.2.2 rfl
    have hdot : c ≠ '.' := by
      rintro rfl
      cases hc
    rw [isRepository, htag, List.splitOn_eq_singleton hslash]
    simpa [isSegment, hdot, hname] using hrest

theorem isPlain_of_isSegment {s : List Char} (h : isSegment s = true) :
    UrlPath.isPlain s = true := by
  simp only [isSegment, Bool.and_eq_true, bne_iff_ne, List.all_eq_true] at h
  obtain ⟨⟨⟨-, hsingle⟩, hdouble⟩, hall⟩ := h
  -- every form of a dot segment but the plain one has a `%` in it
  have hescape : '%' ∉ s := fun hmem => (isNameChar_imp_ne (hall _ hmem)).2.2.1 rfl
  have hforms : (∀ f ∈ UrlPath.singleDots, f = ['.'] ∨ '%' ∈ f) ∧
      ∀ f ∈ UrlPath.doubleDots, f = ['.', '.'] ∨ '%' ∈ f := by decide
  rw [UrlPath.isPlain_iff, UrlPath.isSingleDot, UrlPath.isDoubleDot, ← Bool.not_eq_true,
    ← Bool.not_eq_true, List.contains_iff_mem, List.contains_iff_mem]
  exact ⟨fun hmem => (hforms.1 s hmem).elim hsingle hescape,
    fun hmem => (hforms.2 s hmem).elim hdouble hescape⟩

/-- **The reader takes a well-formed name as it is written.** -/
theorem plainText_of_isRepository {repo : String} (h : isRepository repo = true) :
    Url.PlainText repo.toList := by
  rw [isRepository, List.all_eq_true] at h
  refine ⟨fun c hc => ?_, fun s hs => isPlain_of_isSegment (h s hs)⟩
  rcases UrlPath.eq_or_mem_of_mem hc with rfl | ⟨s, hs, hcs⟩
  · decide
  · have hsegment := h s hs
    simp only [isSegment, Bool.and_eq_true, List.all_eq_true] at hsegment
    have hname := hsegment.2 c hcs
    have hne := isNameChar_imp_ne hname
    exact ⟨isBlank_eq_false_of_isNameChar hname, hne.1, hne.2.1⟩

/-- What is asked for behind the name of a repository is named like segments of one. -/
theorem exists_eq_append_of_named {repo tag path : String} (htag : isTag tag = true)
    (hpath : path ∈ [Registry.Client.tagsPath repo, Registry.Client.manifestPath repo tag]) :
    ∃ rest, path = repo ++ "/" ++ rest ∧ isRepository rest = true := by
  simp only [List.mem_cons, List.not_mem_nil, or_false] at hpath
  rcases hpath with rfl | rfl
  · refine ⟨"tags/list", ?_, by decide⟩
    rw [Registry.Client.tagsPath, String.append_assoc]
    rfl
  · refine ⟨"manifests" ++ "/" ++ tag, ?_, ?_⟩
    · rw [Registry.Client.manifestPath, show "/manifests/" = "/" ++ "manifests" ++ "/" from rfl]
      simp only [String.append_assoc]
    · rw [isRepository_append, isRepository_of_isTag htag]
      decide

example : isRepository (Registry.Client.manifestPath "team1/app" "v1.2-rc_1") = true := by
  decide +kernel

theorem RepositoryIn.beginsWith {nameSpace repo : String} (h : RepositoryIn nameSpace repo)
    (rest : String) : Text.beginsWith (nameSpace ++ "/") (repo ++ rest) = true := by
  obtain ⟨-, name, hcut⟩ := h
  obtain ⟨hname, -⟩ := Text.cutAt_eq_some_iff.1 hcut
  refine Text.beginsWith_iff.2 ⟨name ++ rest, ?_⟩
  rw [Text.eq_append_iff_toList, String.toList_append, hname]
  simp

/-- What an action in a namespace asks for is named after the namespace, or is the catalog. -/
theorem Action.Asks.path_eq {action : Action} {nameSpace path : String} {method : Http.Method}
    (h : action.Asks method path) (hin : action.LiesIn nameSpace) :
    path = "_catalog" ∨ Text.beginsWith (nameSpace ++ "/") path = true := by
  cases h with
  | catalog | repositories => exact .inl rfl
  | catalogTags other repo hrepo =>
    obtain rfl : other = nameSpace := hin
    obtain ⟨rest, rfl⟩ := Text.beginsWith_iff.1 hrepo
    exact .inr (Text.beginsWith_iff.2 ⟨rest ++ "/tags/list", String.append_assoc ..⟩)
  | tags repo => exact .inr (RepositoryIn.beginsWith hin "/tags/list")
  | infoManifest | detailsManifest | lookup | delete =>
    rw [Registry.Client.manifestPath, String.append_assoc]
    exact .inr (hin.1.beginsWith _)
  | detailsBlob =>
    rw [Registry.Client.blobPath, String.append_assoc]
    exact .inr (hin.1.beginsWith _)

end Api

namespace Registry

variable {text path nameSpace repo tag : String} {window : Nat} {root url : Url}

/-- **Where a client names repository and tag, the request stays in the namespace of the
repository**, if the base is plain. -/
theorem Client.confined_of_named (hroot : Url.parse text = .ok root)
    (htext : Url.PlainText (Text.trimEnd '/' text).toList)
    (hrepo : Api.RepositoryIn nameSpace repo) (htag : Api.isTag tag = true)
    (hpath : path ∈ [tagsPath repo, manifestPath repo tag])
    (hurl : Url.parse ((Client.ofText text window).url path) = .ok url)
    (hhttp : url.isHttp = true) :
    Confined (Text.trimEnd '/' root.pathText) nameSpace url.pathText := by
  obtain ⟨rest, rfl, hrest⟩ := Api.exists_eq_append_of_named htag hpath
  have hplain : Url.PlainText (repo ++ "/" ++ rest).toList := by
    refine Api.plainText_of_isRepository ?_
    rw [Api.isRepository_append, hrepo.1, hrest]
    rfl
  have hbegins : Text.beginsWith (nameSpace ++ "/") (repo ++ "/" ++ rest) = true := by
    rw [String.append_assoc]
    exact hrepo.beginsWith _
  exact (confined_iff hroot hurl hhttp nameSpace).2 (stays_of_plain hroot
    (isHttp_of_url hroot hurl hhttp) htext hplain (.inr hbegins))

end Registry

namespace Server

open Http (Request)

/-- An API request calls for what its session may ask, and a request that may ask for something is
answered with what the registry did. -/
theorem always_api (g : Gateway) (sessions : Session.Store) (o : Occasion) (request : Request)
    (route : Api.ApiRoute) : (api g sessions o request route).reply.Always
      (fun call => ∃ session action, (liveSession sessions o.now request).1 = some session ∧
        Api.Action.decide session (queryOf request) route = .ok action ∧
        g.client.CallsFor action.Asks call)
      fun r => ∀ session action, (liveSession sessions o.now request).1 = some session →
        Api.Action.decide session (queryOf request) route = .ok action →
        Api.Action.Reports r.status := by
  unfold api
  rcases liveSession sessions o.now request with ⟨_ | session, sessions'⟩
  · exact .done nofun
  · dsimp only
    split_ifs
    · refine (Api.always_respond g.client o.schedule session (queryOf request) route).mono ?_ ?_
      · rintro call ⟨action, hdecide, hcalls⟩
        exact ⟨session, action, rfl, hdecide, hcalls⟩
      · rintro r (⟨-, -, hr⟩ | ⟨refusal, hrefused, -⟩) session' action hsession hdecide
        · exact hr
        · obtain rfl := Option.some.inj hsession
          rw [hrefused] at hdecide
          cases hdecide
    · exact .done fun _ _ _ _ => .inr (.inr (.inl rfl))

/-- **A request to the registry stays in the namespace exactly if its path does.**  Every request
that the API makes of the registry is one that the action asks for, the path of which is named after
a namespace that the session covers; and whether what is sent is confined to that namespace is
decided by the pieces of the path, whatever registry and base URL there are. -/
theorem confined_iff_stays {σ : Type} (s : Settings) (root : Url)
    (hroot : Url.parse s.registry.url = .ok root) (registry : Registry.Behaviour σ) (w : World σ)
    (o : Occasion) (request : Request) (route : Api.ApiRoute)
    (hroute : Route.ofPath? request.target.path = some (.api route)) :
    ∀ record ∈ (serveOne (Gateway.withRegistry s root) registry w o request).1.calls,
      ∃ session action nameSpace path url,
        (liveSession w.sessions o.now request).1 = some session ∧
        Api.Action.decide session (queryOf request) route = .ok action ∧
        Api.namedNamespace? (queryOf request) route = some nameSpace ∧
        session.covers nameSpace = true ∧
        action.Asks record.first.request.method path ∧
        (path = "_catalog" ∨ Text.beginsWith (nameSpace ++ "/") path = true) ∧
        Url.parse ((Gateway.withRegistry s root).client.url path) = .ok url ∧
        record.first.request.url = Registry.withoutCredentials url ∧
        (Registry.Confined (Text.trimEnd '/' root.pathText) nameSpace
            record.first.request.url.pathText ↔
          (Gateway.withRegistry s root).client.Stays (Text.trimEnd '/' root.pathText) nameSpace
            path) := by
  intro record hrecord
  rw [serveOne_calls hroute] at hrecord
  obtain ⟨c, st, ⟨session, action, hsession, hdecide, method, path, headers, hasks, hcall⟩, rfl⟩ :=
    (always_api _ w.sessions o request route).calls registry w.registry record hrecord
  obtain ⟨url, hurl, hhttp, rfl⟩ := Registry.Client.call?_eq_some hcall
  rcases Api.Action.decide_eq_ok hdecide with ⟨-, rfl⟩ | ⟨nameSpace, hnamed, hcovers, hin, -⟩
  · exact absurd hasks Api.Action.Asks.ne_showDashboard
  · -- credentials are taken out of the URL before it is sent, and the path stays
    rw [Registry.perform_first]
    have hconfined := Registry.Client.confined_iff hroot hurl hhttp nameSpace
    exact ⟨session, action, nameSpace, path, url, hsession, hdecide, hnamed, hcovers, hasks,
      hasks.path_eq hin, hurl, rfl, hconfined⟩

namespace Sample

/-- A registry that gives a digest with dot segments to every tag. -/
def crossing : Registry.Behaviour Unit := fun st request =>
  if request.method = .head then
    (some { status := 200
            headers := [.ofText "docker-content-digest" "../../../team2/app/manifests/v1"]
            body := [] }, ())
  else registry st request

/-- The sessions with that of the user, who has rights in one namespace. -/
def sessions : Session.Store :=
  (Session.Store.empty 1800).put "t"
    ⟨"alice", Access.Grant.ofGroups "team" ["cn=team1_rwd,ou=groups"], 0⟩ 0

end Sample

/-- What is deleted may lie in a namespace in which the session has no rights at all. -/
theorem not_confined_of_crossing :
    ∃ record ∈ (serveOne Sample.gateway Sample.crossing ⟨Sample.sessions, ()⟩ (Sample.occasion 5 "")
        (Sample.deleteTag "t")).1.calls,
      Api.namedNamespace? (queryOf (Sample.deleteTag "t")) .tag = some "team1" ∧
        record.first.request.method = .delete ∧
        record.first.request.url.pathText = "/mirror/v2/team2/app/manifests/v1" ∧
        ¬ Registry.Confined (Text.trimEnd '/' Sample.url.pathText) "team1"
          record.first.request.url.pathText := by
  decide +kernel

theorem stays_of_deletion :
    let calls := (serveOne Sample.gateway Sample.registry ⟨Sample.sessions, ()⟩
      (Sample.occasion 5 "") (Sample.deleteTag "t")).1.calls
    calls.length = 2 ∧ ∀ record ∈ calls, ∃ path url,
      Url.parse (Sample.gateway.client.url path) = .ok url ∧
        record.first.request.url = Registry.withoutCredentials url ∧
        Sample.gateway.client.Stays (Text.trimEnd '/' Sample.url.pathText) "team1" path := by
  intro calls
  have hcalls : calls.length = 2 ∧ ∀ record ∈ calls, Registry.Confined
      (Text.trimEnd '/' Sample.url.pathText) "team1" record.first.request.url.pathText := by
    decide +kernel
  have hteam : Api.namedNamespace? (queryOf (Sample.deleteTag "t")) .tag = some "team1" := by
    decide +kernel
  refine ⟨hcalls.1, fun record hrecord => ?_⟩
  obtain ⟨session, action, nameSpace, path, url, -, -, hnamed, -, -, -, hurl, hsent, hconfined⟩ :=
    confined_iff_stays Sample.settings Sample.url (by rfl) Sample.registry ⟨Sample.sessions, ()⟩
      (Sample.occasion 5 "") (Sample.deleteTag "t") .tag (by decide +kernel) record hrecord
  obtain rfl := Option.some.inj (hteam.symm.trans hnamed)
  exact ⟨path, url, hurl, hsent, hconfined.1 (hcalls.2 record hrecord)⟩

end Server

end ImageGateway
