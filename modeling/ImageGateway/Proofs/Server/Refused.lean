import ImageGateway.Proofs.Proxy.Passage
import ImageGateway.Proofs.Server.Authority
import ImageGateway.Proofs.Server.Confinement

/-!
# Requests that are refused

A request that the gateway turns away is turned away before anything happens: nothing is sent to the
registry, and the store of sessions loses at most an entry that no longer counted.  For the
introspection API that is read off the status of the answer, since what an action reports is never
one of the statuses of a refusal; for the proxy it is read off the reasons for which a request is
rejected, since the registry may answer with any status itself.

With logins there is an exception.  The session is put into the store before its cookie is written,
so that a login is answered with an error and has opened a session where the cookie cannot stand in
a header field.

* `Proxy.Rejects` : the reasons for which the proxy turns a request away.
* `calls_of_turnedAway` : the API answers with the status of a refusal before it calls the registry.
* `sessions_of_failed_login` : what a login leaves behind that is not answered with success.
* `refused_without_effect` : **a request that is refused has no effect**, and neither has a login
  that fails, unless it is for its cookie.
-/

namespace ImageGateway

namespace Proxy

open Http (Request)

/-- Why the proxy turns a request away: it brings no credentials, the directory does not accept
them, none of the user's groups gives a grant, or one of the two decisions goes against it, the one
on the path that was received or the one on the path that would be sent. -/
inductive Rejects (s : ProxySettings) (directory : Directory) (request : Request) : Prop
  | noCredentials (h : credentialsOf request = none)
  | notAccepted (c : Login.Credentials) (cause : Directory.DirectoryError)
    (hc : credentialsOf request = some c)
    (h : directory c.username c.password = .error cause)
  | noGroup (c : Login.Credentials) (groups : List String)
    (hc : credentialsOf request = some c)
    (hgroups : directory c.username c.password = .ok groups)
    (h : ∀ identifier ∈ groups, Access.Grant.ofIdentifier? s.groupStart identifier = none)
  | received (c : Login.Credentials) (user : Directory.Authorized) (denial : Access.Denial)
    (hc : credentialsOf request = some c)
    (huser : Directory.authorizeUser directory s.groupStart c.username c.password = .ok user)
    (h : Access.authorize user.primary.grant request.method request.target.path = .error denial)
  | sent (c : Login.Credentials) (user : Directory.Authorized) (target : Url)
    (hc : credentialsOf request = some c)
    (huser : Directory.authorizeUser directory s.groupStart c.username c.password = .ok user)
    (htarget : s.base.target request.target.pathAndQuery = .ok target)
    (h : ∀ q, s.base.registryPath? target = some q → Access.isProtocolPath q = true →
      Access.authorize user.primary.grant request.method q ≠ .ok ())

variable {s : ProxySettings} {directory : Directory} {request : Request}

theorem Rejects.decide_ne_ok (h : Rejects s directory request) (d : Decision) :
    decide s directory request ≠ .ok d := by
  intro hd
  obtain ⟨c, user, hc, huser, hactor, htarget, hboth⟩ := decide_eq_ok hd
  obtain ⟨hreceived, q, hq, hprotocol, hsent⟩ := authorizeBoth_eq_ok_iff.1 hboth
  rw [hactor] at hreceived hsent
  -- the credentials of the request are those that were decided on
  have same {c' : Login.Credentials} (hc' : credentialsOf request = some c') : c' = c :=
    Option.some.inj (hc'.symm.trans hc)
  cases h with
  | noCredentials hnone =>
    rw [hnone] at hc
    cases hc
  | notAccepted c' cause hc' herror =>
    obtain ⟨groups, hgroups, -⟩ := Directory.authorizeUser_eq_ok_iff.1 huser
    rw [← same hc', herror] at hgroups
    cases hgroups
  | noGroup c' groups hc' hgroups hnone =>
    obtain ⟨groups', hgroups', hgrants, -⟩ := Directory.authorizeUser_eq_ok_iff.1 huser
    rw [← same hc', hgroups] at hgroups'
    obtain rfl := Except.ok.inj hgroups'
    refine Directory.grants_ne_nil_of_authorizeUser huser ?_
    rw [hgrants, List.eq_nil_iff_forall_not_mem]
    intro grant hgrant
    obtain ⟨identifier, hidentifier, hof⟩ := Access.Grant.mem_ofGroups.1 hgrant
    rw [hnone identifier hidentifier] at hof
    cases hof
  | received c' user' denial hc' huser' hdenied =>
    rw [same hc', huser] at huser'
    rw [← Except.ok.inj huser', hreceived] at hdenied
    cases hdenied
  | sent c' user' target hc' huser' htarget' hdenied =>
    rw [same hc', huser] at huser'
    rw [htarget] at htarget'
    rw [← Except.ok.inj htarget', ← Except.ok.inj huser'] at hdenied
    exact hdenied q hq hprotocol hsent

end Proxy

namespace Server

/-- The statuses with which the API turns a request away. -/
def turnedAway : List Http.Status := [400, 401, 403]

theorem not_mem_turnedAway_of_reports {status : Http.Status} (h : Api.Action.Reports status) :
    status ∉ turnedAway := by
  rcases h with rfl | rfl | rfl | rfl <;> decide

/-- The paths of the API lead to the API or nowhere. -/
theorem Route.ofPath?_of_api {path : String} (h : Text.beginsWith "/api" path = true) :
    ofPath? path = none ∨ ∃ route, ofPath? path = some (.api route) := by
  have hfixed : ∀ p ∈ fixedPaths, Text.beginsWith "/api" p.1 = true →
      p.2 ∉ [.health, .version, .login, .logout, .proxy] := by decide
  have hprotocol : ¬ Access.isProtocolPath path = true := by
    intro hp
    obtain ⟨rest, rfl⟩ := Text.beginsWith_iff.1 h
    obtain ⟨rest', heq⟩ := Text.beginsWith_iff.1 (Proxy.beginsWith_protocolRoot hp)
    simpa [Access.protocolRoot] using congrArg String.toList heq
  rw [ofPath?, if_neg hprotocol]
  cases hroute : fixedPaths.lookup path with
  | none => exact .inl rfl
  | some route =>
    have hmem : (path, route) ∈ fixedPaths := by
      obtain ⟨before, after, heq, -⟩ := List.lookup_eq_some_iff.1 hroute
      simp [heq]
    have hother := hfixed (path, route) hmem h
    cases route with
    | api route => exact .inr ⟨route, rfl⟩
    | _ => simp at hother

example : Route.ofPath? "/api/tags/" = none := by decide +kernel

section

variable {σ : Type} {g : Gateway} {registry : Registry.Behaviour σ} {w : World σ} {step : Step}

/-- Nothing was sent to the registry for the request, and no session left the store that still
counted. -/
structure Effectless (g : Gateway) (registry : Registry.Behaviour σ) (w : World σ) (step : Step) :
    Prop where
  calls_eq : (serveOne g registry w step.1 step.2).1.calls = []
  sessions : w.sessions.DropsStale (serveOne g registry w step.1 step.2).2.sessions step.1.now

/-- Only logins and logouts touch a session that counts. -/
theorem dropsStale_of_route (hlogin : Route.ofPath? step.2.target.path ≠ some .login)
    (hlogout : Route.ofPath? step.2.target.path ≠ some .logout) :
    w.sessions.DropsStale (serveOne g registry w step.1 step.2).2.sessions step.1.now :=
  dropsStale_of_other (fun _ _ h => hlogin h.route) (fun _ h => hlogout h.route) w.sessions

theorem effectless_of_no_route (hroute : Route.ofPath? step.2.target.path = none) :
    Effectless g registry w step where
  calls_eq := by
    simp only [serveOne, handle_of_no_route hroute]
    rfl
  sessions := dropsStale_of_route (by simp [hroute]) (by simp [hroute])

/-! ### The introspection API -/

/-- **The API answers with the status of a refusal before it calls the registry.** -/
theorem calls_of_turnedAway {apiRoute : Api.ApiRoute}
    (hroute : Route.ofPath? step.2.target.path = some (.api apiRoute))
    (hstatus : (serveOne g registry w step.1 step.2).1.response.status ∈ turnedAway) :
    (serveOne g registry w step.1 step.2).1.calls = [] := by
  have halways := always_api g w.sessions step.1 step.2 apiRoute
  rw [serveOne_response hroute, finished_status] at hstatus
  rw [serveOne_calls hroute, List.eq_nil_iff_forall_not_mem]
  intro record hrecord
  -- a call shows that the request was admitted, and then the answer is a report
  obtain ⟨call, st, ⟨session, action, hsession, hdecide, -⟩, -⟩ :=
    halways.calls registry w.registry record hrecord
  exact not_mem_turnedAway_of_reports
    (halways.result registry w.registry session action hsession hdecide) hstatus

/-! ### The proxy -/

theorem effectless_of_rejects (hroute : Route.ofPath? step.2.target.path = some .proxy)
    (h : Proxy.Rejects g.proxy step.1.directory step.2) : Effectless g registry w step where
  calls_eq := by
    rw [serveOne_calls hroute]
    refine (Proxy.always_respond g.proxy step.1.directory step.2).calls_eq_nil ?_ registry
      w.registry
    rintro c ⟨d, hd, -⟩
    exact h.decide_ne_ok d hd
  sessions := dropsStale_of_route (by simp [hroute]) (by simp [hroute])

/-! ### Logins -/

/-- **A login that fails opens no session**, unless it fails for its cookie. -/
theorem sessions_of_failed_login (hroute : Route.ofPath? step.2.target.path = some .login)
    (hstatus : (serveOne g registry w step.1 step.2).1.response.status ≠ 200) :
    (serveOne g registry w step.1 step.2).2.sessions = w.sessions ∨
      ∃ c groups, Opens g step c groups ∧ ¬ CookieFits g step ∧
        (serveOne g registry w step.1 step.2).2.sessions =
          w.sessions.put step.1.token (opened g step c groups) step.1.now := by
  by_cases hopens : ∃ c groups, Opens g step c groups
  · obtain ⟨c, groups, h⟩ := hopens
    exact .inr ⟨c, groups, h,
      fun hfits => hstatus ((login_status_eq_200_iff hroute).2 ⟨⟨c, groups, h⟩, hfits⟩),
      handle_sessions_of_opens h w.sessions⟩
  · simp only [not_exists] at hopens
    left
    rw [serveOne_sessions hroute]
    exact login_sessions hroute hopens w.sessions

end

/-- **A request that is refused has no effect.**  Whatever the state of the gateway, the directory
and the registry: a request below `/api` that is answered with one of the statuses of a refusal, and
a request of the raw protocol that the proxy rejects, make no call to the registry and drop a
session only if it no longer counted; and a login that is not answered with success leaves the
sessions as they are, unless it was answered with an error for its cookie after the session had been
opened. -/
theorem refused_without_effect {σ : Type} (g : Gateway) (registry : Registry.Behaviour σ)
    (w : World σ) (step : Step) :
    (Text.beginsWith "/api" step.2.target.path = true →
      (serveOne g registry w step.1 step.2).1.response.status ∈ turnedAway →
      Effectless g registry w step) ∧
    (Route.ofPath? step.2.target.path = some .proxy →
      Proxy.Rejects g.proxy step.1.directory step.2 → Effectless g registry w step) ∧
    (Route.ofPath? step.2.target.path = some .login →
      (serveOne g registry w step.1 step.2).1.response.status ≠ 200 →
      (serveOne g registry w step.1 step.2).2.sessions = w.sessions ∨
        ∃ c groups, Opens g step c groups ∧ ¬ CookieFits g step ∧
          (serveOne g registry w step.1 step.2).2.sessions =
            w.sessions.put step.1.token (opened g step c groups) step.1.now) := by
  refine ⟨fun hpath hstatus => ?_, effectless_of_rejects, sessions_of_failed_login⟩
  rcases Route.ofPath?_of_api hpath with hroute | ⟨route, hroute⟩
  · exact effectless_of_no_route hroute
  · exact ⟨calls_of_turnedAway hroute hstatus,
      dropsStale_of_route (by simp [hroute]) (by simp [hroute])⟩

namespace Sample

/-- A request for the catalog of a namespace by the holder of the token. -/
def catalog (now : Session.Instant) (nameSpace token : String) : Step :=
  (occasion now "",
    request .get "/api/catalog" (some ("namespace=" ++ nameSpace)) (cookie token))

/-- A manifest that the user sends to a namespace. -/
def push (nameSpace : String) : Step :=
  (occasion 5 "", request ⟨"PUT"⟩ ("/v2/" ++ nameSpace ++ "/app/manifests/v1") none credentials)

/-- A login with a password that the directory does not accept. -/
def failedLogin (token : String) : Step :=
  (occasion 5 token,
    request .post "/login" none (.ofText "authorization" "Basic YWxpY2U6d3Jvbmc="))

end Sample

/-- A session asks about a namespace that it does not cover, a user pushes to a namespace without
rights there, and a login fails. -/
theorem effectless_of_denials :
    Effectless Sample.gateway Sample.registry ⟨Sample.sessions, ()⟩ (Sample.catalog 5 "team2" "t") ∧
      Effectless Sample.gateway Sample.registry ⟨Sample.sessions, ()⟩ (Sample.push "team2") ∧
      (serveOne Sample.gateway Sample.registry ⟨Sample.sessions, ()⟩
        (Sample.failedLogin "u").1 (Sample.failedLogin "u").2).2.sessions = Sample.sessions := by
  have hrefused (step : Step) := refused_without_effect Sample.gateway Sample.registry
    ⟨Sample.sessions, ()⟩ step
  refine ⟨(hrefused _).1 (by decide +kernel) (by decide +kernel),
    (hrefused _).2.1 (by decide +kernel) ?_, ?_⟩
  · -- the one group of the user gives rights in `team1`
    exact .received ⟨"alice", "secret"⟩
      ⟨[⟨"team1_rwd", "team1", false, true⟩], "alice", ⟨"team1_rwd", "team1", false, true⟩⟩
      .wrongNamespace (by decide +kernel) (by decide +kernel) (by decide +kernel)
  · rcases (hrefused (Sample.failedLogin "u")).2.2 (by decide +kernel) (by decide +kernel) with
      hsame | ⟨-, -, -, hspoiled, -⟩
    · exact hsame
    · have hfits : CookieFits Sample.gateway (Sample.failedLogin "u") := by
        unfold CookieFits
        decide +kernel
      exact absurd hfits hspoiled

/-- A login that is answered with an error may have opened a session. -/
theorem not_unchanged_of_failed_login :
    ¬ ∀ (g : Gateway) (registry : Registry.Behaviour Unit) (w : World Unit) (step : Step),
      Route.ofPath? step.2.target.path = some .login →
      (serveOne g registry w step.1 step.2).1.response.status ≠ 200 →
      ∀ token now, ((serveOne g registry w step.1 step.2).2.sessions.get token now).1 =
        (w.sessions.get token now).1 := by
  intro hunchanged
  have hsame := hunchanged Sample.spoiled Sample.registry ⟨.empty 1800, ()⟩ (Sample.login 0 "t")
    (by decide +kernel) (by decide +kernel) "t" 1
  revert hsame
  decide +kernel

end Server

end ImageGateway
