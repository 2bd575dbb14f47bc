import ImageGateway.Proofs.Server.Authority

/-!
# The lifecycle of sessions

A session begins with a login and ends with a logout or with its lifetime, and with nothing else.
Over a run of any length, in which the clock never goes back and no token is issued twice, that is
decided by the requests that carry the token alone: what other clients do in between does not
matter.

A token that was never issued leads nowhere, with one exception: a login whose cookie could not be
written was answered with an error, but its session is in the store like any other.

* `passes_iff` : a request to the API passes as long as the session of a login with its token lasts.
* `session_of_issue` : the session of an issued token is that of the login that issued it.
* `lifecycle_of_session` : **a request to the API passes exactly while the session of its login
  lasts, and acts under the user and the grants of that login.**
-/

namespace ImageGateway

namespace Server

open Http (Request Response)

/-- The session is still in use at the time: no logout with its token has come, and its lifetime has
not passed. -/
structure Opening.Lasts {g : Gateway} {steps : List Step} {token : String}
    (i : Opening g steps token) (ttl : Nat) (now : Session.Instant) : Prop where
  not_loggedOut : ¬ i.LoggedOut
  live : now < i.session.createdAt + Session.seconds ttl

section Requests

variable {σ : Type} {g : Gateway} {ttl : Nat} {registry : Registry.Behaviour σ} {w : World σ}
  {st : σ} {before : List Step} {step : Step} {route : Api.ApiRoute} {token : String}

/-- A session answers with anything but the refusal for want of one. -/
theorem status_of_session {session : Session}
    (hroute : Route.ofPath? step.2.target.path = some (.api route))
    (h : sessionBehind? g ttl before step = some session) :
    (servedAfter g registry ⟨.empty ttl, st⟩ before step).response.status ≠ 401 := by
  rw [(servedAfter_of_session hroute h).2, finished_status]
  exact ((always_sessionReply g step route session).result _ _).1

/-- A request that passes has a session. -/
theorem exists_session_of_passes (hroute : Route.ofPath? step.2.target.path = some (.api route))
    (h : (servedAfter g registry ⟨.empty ttl, st⟩ before step).response.status ≠ 401) :
    ∃ session, sessionBehind? g ttl before step = some session :=
  Option.ne_none_iff_exists'.1 fun hnone => h (servedAfter_of_no_session hroute hnone).2

/-- The session of a request is that of a login with its token which lasts. -/
theorem exists_opening_of_session {session : Session}
    (htoken : Session.tokenOf? step.2.headers = some token)
    (h : sessionBehind? g ttl before step = some session) :
    ∃ i : Opening g before token, i.session = session ∧ i.Lasts ttl step.1.now := by
  obtain ⟨token', e, htoken', hfind, rfl, hlive⟩ := sessionBehind?_eq_some_iff.1 h
  obtain rfl : token' = token := Option.some.inj (htoken'.symm.trans htoken)
  obtain ⟨i, hi, rfl⟩ := opening_of_find? hfind
  exact ⟨i, rfl, hi, hlive⟩

/-- While the session of a login lasts, a request with its token has a session. -/
theorem exists_session_of_opening (hclock : ClockRuns (before ++ [step]))
    (htoken : Session.tokenOf? step.2.headers = some token) (i : Opening g before token)
    (hi : i.Lasts ttl step.1.now) : ∃ session, sessionBehind? g ttl before step = some session := by
  obtain ⟨hbefore, -, hnow⟩ := List.pairwise_append.1 hclock
  obtain ⟨e, hfind, -, hsince⟩ := i.holds hbefore
    (fun s hs => hnow s hs step (List.mem_singleton_self step)) hi.not_loggedOut hi.live
  exact ⟨e.session, sessionBehind?_eq_some_iff.2 ⟨token, e, htoken, hfind, rfl,
    Int.lt_of_lt_of_le hi.live (Int.add_le_add_right hsince _)⟩⟩

/-- **A request passes exactly while the session of a login with its token lasts.** -/
theorem passes_iff (hroute : Route.ofPath? step.2.target.path = some (.api route))
    (hclock : ClockRuns (before ++ [step]))
    (htoken : Session.tokenOf? step.2.headers = some token) :
    (servedAfter g registry ⟨.empty ttl, st⟩ before step).response.status ≠ 401 ↔
      ∃ i : Opening g before token, i.Lasts ttl step.1.now := by
  constructor
  · intro h
    obtain ⟨session, hsession⟩ := exists_session_of_passes hroute h
    obtain ⟨i, -, hi⟩ := exists_opening_of_session htoken hsession
    exact ⟨i, hi⟩
  · rintro ⟨i, hi⟩
    obtain ⟨session, hsession⟩ := exists_session_of_opening hclock htoken i hi
    exact status_of_session hroute hsession

theorem status_of_no_token (hroute : Route.ofPath? step.2.target.path = some (.api route))
    (h : Session.tokenOf? step.2.headers = none) :
    (servedAfter g registry ⟨.empty ttl, st⟩ before step).response.status = 401 := by
  by_contra hpasses
  obtain ⟨session, hsession⟩ := exists_session_of_passes hroute hpasses
  obtain ⟨token, _, htoken, -⟩ := sessionBehind?_eq_some_iff.1 hsession
  rw [h] at htoken
  cases htoken

/-- **The session of an issued token is that of the login that issued it.** -/
theorem session_of_issue {session : Session} (hdistinct : DistinctTokens g before)
    (i : Issue g registry w before token) (htoken : Session.tokenOf? step.2.headers = some token)
    (h : sessionBehind? g ttl before step = some session) : i.session = session := by
  obtain ⟨i', rfl, -⟩ := exists_opening_of_session htoken h
  rw [i.opening_eq hdistinct i']

/-- An opening under a token that was never issued is that of a login whose cookie was spoiled. -/
theorem Opening.not_fits (h : IsEmpty (Issue g registry w before token))
    (i : Opening g before token) : ¬ CookieFits g i.login :=
  fun hfits => h.elim ⟨i, i.answered_iff.2 hfits⟩

/-- The dashboard of a session is what its login was answered. -/
theorem dashboard_of_issue (i : Issue g registry ⟨.empty ttl, st⟩ before token)
    (hroute : Route.ofPath? step.2.target.path = some (.api .dashboard))
    (hmethod : step.2.method = .get) (h : sessionBehind? g ttl before step = some i.session) :
    (servedAfter g registry ⟨.empty ttl, st⟩ before step).response.body =
      (servedAfter g registry ⟨.empty ttl, st⟩ i.earlier i.login).response.body := by
  have hget : step.2.method ≠ .head := by
    rw [hmethod]
    decide
  have htakes : (Route.api .dashboard).takes step.2.method = true := by
    rw [hmethod]
    rfl
  rw [(servedAfter_of_session hroute h).2, finished_body hget]
  refine Eq.trans ?_ (body_of_login i.opens (i.answered_iff.1 i.answered)).symm
  rw [sessionReply, if_pos htakes]
  rfl

end Requests

/-- **The lifecycle of a session**, in a run in which the clock never goes back and no token is
issued twice.  A request to the API without a token is refused for want of a session.  With a token
that a successful login issued, it passes exactly while the session of that login lasts: less than
the lifetime has passed, and no logout with the token has come.  It is then answered under that
session, and the dashboard is what the login was answered.  With a token that was never issued it is
refused, unless the session of a login lasts that drew the token and was answered with an error for
its cookie. -/
theorem lifecycle_of_session {σ : Type} (g : Gateway) (ttl : Nat)
    (registry : Registry.Behaviour σ) (st : σ) (before : List Step) (step : Step)
    (route : Api.ApiRoute) (hroute : Route.ofPath? step.2.target.path = some (.api route))
    (hclock : ClockRuns (before ++ [step])) (hdistinct : DistinctTokens g before) :
    let world := (serve g registry ⟨.empty ttl, st⟩ before).2
    let served := servedAfter g registry ⟨.empty ttl, st⟩ before step
    (Session.tokenOf? step.2.headers = none → served.response.status = 401) ∧
    ∀ token, Session.tokenOf? step.2.headers = some token →
      (∀ i : Issue g registry ⟨.empty ttl, st⟩ before token,
        (served.response.status ≠ 401 ↔ i.Lasts ttl step.1.now) ∧
        (served.response.status ≠ 401 →
          (let run := (sessionReply g step route i.session).run registry world.registry
          served.calls = run.calls ∧
            served.response = finished (requestIdIn step.1 step.2) step.2 run.result) ∧
          (route = .dashboard → step.2.method = .get → served.response.body =
            (servedAfter g registry ⟨.empty ttl, st⟩ i.earlier i.login).response.body))) ∧
      (IsEmpty (Issue g registry ⟨.empty ttl, st⟩ before token) →
        (served.response.status ≠ 401 ↔ ∃ i : Opening g before token,
          ¬ CookieFits g i.login ∧ i.Lasts ttl step.1.now)) := by
  intro world served
  refine ⟨status_of_no_token hroute, ?_⟩
  intro token htoken
  have hpasses : served.response.status ≠ 401 ↔
      ∃ i : Opening g before token, i.Lasts ttl step.1.now := passes_iff hroute hclock htoken
  constructor
  · intro i
    constructor
    · -- there is no other opening under the token
      rw [hpasses]
      constructor
      · rintro ⟨i', hi'⟩
        rwa [i.opening_eq hdistinct i'] at hi'
      · exact fun hi => ⟨i.toOpening, hi⟩
    · intro hstatus
      obtain ⟨session, hsession⟩ := exists_session_of_passes hroute hstatus
      obtain rfl := session_of_issue hdistinct i htoken hsession
      refine ⟨servedAfter_of_session hroute hsession, ?_⟩
      rintro rfl hmethod
      exact dashboard_of_issue i hroute hmethod hsession
  · intro hempty
    rw [hpasses]
    exact exists_congr fun i => (and_iff_right (Opening.not_fits hempty i)).symm

namespace Sample

/-- A logout of the holder of the token. -/
def logout (now : Session.Instant) (token : String) : Step :=
  (occasion now "", request .post "/logout" none (cookie token))

theorem opens_login (now : Session.Instant) (token : String) :
    Opens gateway (login now token) ⟨"alice", "secret"⟩ ["cn=team1_rwd,ou=groups"] where
  route := (by decide +kernel : Route.ofPath? "/login" = some .login)
  method := rfl
  body := Nat.zero_le _
  credentials :=
    (by decide +kernel : Login.credentials [credentials] [] = .ok ⟨"alice", "secret"⟩)
  accepted := (by decide +kernel : directory "alice" "secret" = .ok ["cn=team1_rwd,ou=groups"])
  permitted := by decide +kernel

/-- Two clients log in, and one of them logs out. -/
def history : List Step := [login 0 "t", login 1 "u", logout 2 "u"]

/-- The login of the client who stays. -/
def issue : Issue gateway registry ⟨.empty 1800, ()⟩ history "t" where
  earlier := []
  login := login 0 "t"
  later := [login 1 "u", logout 2 "u"]
  credentials := ⟨"alice", "secret"⟩
  groups := ["cn=team1_rwd,ou=groups"]
  steps_eq := rfl
  opens := opens_login 0 "t"
  token_eq := rfl
  answered := login_status_of_fits (opens_login 0 "t") (by decide +kernel)

theorem distinctTokens : DistinctTokens gateway history := by
  have hroute : Route.ofPath? (logout 2 "u").2.target.path = some .logout := by decide +kernel
  have hlogout : ¬ Succeeds gateway (logout 2 "u") := by
    rintro ⟨⟨c, groups, h⟩, -⟩
    rw [h.route] at hroute
    cases hroute
  simp [DistinctTokens, history, hlogout, login, occasion]

theorem not_loggedOut : ¬ issue.LoggedOut := by
  rintro ⟨s, hs, hlogsOut⟩
  rcases List.mem_cons.1 hs with rfl | hs
  · exact (opens_login 1 "u").not_logsOut hlogsOut
  · obtain rfl := List.mem_singleton.1 hs
    exact absurd hlogsOut.token_eq (by decide +kernel)

end Sample

theorem lifecycle_of_dashboard :
    (servedAfter Sample.gateway Sample.registry ⟨.empty 1800, ()⟩ Sample.history
      (Sample.dashboard 3 "t")).response.body =
    (servedAfter Sample.gateway Sample.registry ⟨.empty 1800, ()⟩ []
      (Sample.login 0 "t")).response.body := by
  have hclock : ClockRuns (Sample.history ++ [Sample.dashboard 3 "t"]) := by
    unfold ClockRuns
    decide
  have hlasts : Sample.issue.Lasts 1800 (Sample.dashboard 3 "t").1.now :=
    ⟨Sample.not_loggedOut, by decide⟩
  obtain ⟨-, hissued⟩ := lifecycle_of_session Sample.gateway 1800 Sample.registry ()
    Sample.history (Sample.dashboard 3 "t") .dashboard (by decide +kernel) hclock
    Sample.distinctTokens
  obtain ⟨hpasses, hacts⟩ := (hissued "t" (by decide +kernel)).1 Sample.issue
  exact (hacts (hpasses.2 hlasts)).2 rfl rfl

/-- A token that was never issued may lead to a session. -/
theorem not_forall_refused_without_issue :
    ¬ ∀ (g : Gateway) (before : List Step) (step : Step) (route : Api.ApiRoute),
      Route.ofPath? step.2.target.path = some (.api route) → ClockRuns (before ++ [step]) →
      DistinctTokens g before → ∀ token, Session.tokenOf? step.2.headers = some token →
      IsEmpty (Issue g Sample.registry ⟨.empty 1800, ()⟩ before token) →
      (servedAfter g Sample.registry ⟨.empty 1800, ()⟩ before step).response.status = 401 := by
  intro hrefused
  have hclock : ClockRuns ([Sample.login 0 "t"] ++ [Sample.dashboard 1 "t"]) := by
    unfold ClockRuns
    decide
  have hstatus := hrefused Sample.spoiled [Sample.login 0 "t"] (Sample.dashboard 1 "t") .dashboard
    (by decide +kernel) hclock (List.pairwise_singleton _ _) "t" (by decide +kernel)
    (Sample.isEmpty_issue "t")
  revert hstatus
  decide +kernel

end Server

end ImageGateway
