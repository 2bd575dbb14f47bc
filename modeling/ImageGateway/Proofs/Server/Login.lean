import ImageGateway.Proofs.Access.Grant
import ImageGateway.Proofs.Api.Decision
import ImageGateway.Proofs.Server.Serve

/-!
# Logins

A login opens a session if its credentials are accepted and one of the user's groups gives a grant;
every other login is refused and leaves the sessions as they are.  The session is put into the store
before its cookie is written.  So a login that opens a session is answered with success only if the
cookie can stand in a header field, which is up to the domain that the settings give to cookies.

* `handle_sessions_of_opens`, `login_sessions` : what a login does to the sessions.
* `login_status_eq_200_iff` : **a login is answered with success if it opens a session and the
  cookie for it can be written.**
* `body_of_login` : what a login is answered is the dashboard of the session that it opens.
-/

namespace ImageGateway

namespace Server

open Http (Request Response)

/-- A request and the occasion on which it is served. -/
abbrev Step := Occasion × Request

/-- The request is a login that opens a session for a user whom the directory knows. -/
structure Opens (g : Gateway) (step : Step) (c : Login.Credentials) (groups : List String) :
    Prop where
  route : Route.ofPath? step.2.target.path = some .login
  method : step.2.method = .post
  body : step.2.body.bytes.length ≤ longestForm
  credentials : Login.credentials step.2.headers step.2.body.bytes = .ok c
  accepted : step.1.directory c.username c.password = .ok groups
  permitted : Access.Grant.ofGroups g.proxy.groupStart groups ≠ []

/-- The session that such a login opens. -/
def opened (g : Gateway) (step : Step) (c : Login.Credentials) (groups : List String) : Session :=
  ⟨c.username, Access.Grant.ofGroups g.proxy.groupStart groups, step.1.now⟩

/-- The cookie of the session that a login opens can stand in a header field. -/
def CookieFits (g : Gateway) (step : Step) : Prop :=
  (Utf8.encode (Session.setCookie step.1.token g.cookies g.lifetime)).all Http.isValueByte = true

instance (g : Gateway) (step : Step) : Decidable (CookieFits g step) :=
  inferInstanceAs (Decidable (_ = true))

/-- The request is a login that opens a session and hands its cookie out. -/
structure Succeeds (g : Gateway) (step : Step) : Prop where
  opens : ∃ c groups, Opens g step c groups
  fits : CookieFits g step

variable {g : Gateway} {step : Step} {c c' : Login.Credentials} {groups groups' : List String}

theorem Opens.unique (h : Opens g step c groups) (h' : Opens g step c' groups') :
    c = c' ∧ groups = groups' := by
  obtain rfl : c = c' := Except.ok.inj (h.credentials.symm.trans h'.credentials)
  exact ⟨rfl, Except.ok.inj (h.accepted.symm.trans h'.accepted)⟩

/-- Whether a cookie can be written is up to its token. -/
theorem CookieFits.of_token_eq {step' : Step} (h : CookieFits g step)
    (htoken : step.1.token = step'.1.token) : CookieFits g step' := by
  rwa [CookieFits, ← htoken]

/-! ### The sessions behind a login -/

theorem takes_login_iff {m : Http.Method} : Route.login.takes m = true ↔ m = .post := by
  simp [Route.takes, Route.methods?]

theorem handle_of_opens (h : Opens g step c groups) (sessions : Session.Store) :
    ∃ primary, onRoute g sessions step.1 step.2 .login =
      startSession g sessions step.1 c
        ⟨Access.Grant.ofGroups g.proxy.groupStart groups, primary⟩ := by
  obtain ⟨primary, hprimary⟩ := Directory.authorizeUser_of_grants h.accepted h.permitted
  refine ⟨primary, ?_⟩
  have hbody : ¬ longestForm < step.2.body.bytes.length := Nat.not_lt.2 h.body
  simp only [onRoute, takes_login_iff.2 h.method, login, if_neg hbody, h.credentials, hprimary]
  rfl

theorem handle_sessions_of_opens (h : Opens g step c groups) (sessions : Session.Store) :
    (handle g sessions step.1 step.2).sessions =
      sessions.put step.1.token (opened g step c groups) step.1.now := by
  obtain ⟨primary, hlogin⟩ := handle_of_opens h sessions
  rw [handle_of_route h.route, Outcome.mapReply, hlogin]
  rfl

/-- A login that opens no session is refused and leaves the sessions as they are. -/
theorem login_of_not_opens (hroute : Route.ofPath? step.2.target.path = some .login)
    (hmethod : step.2.method = .post) (h : ∀ c groups, ¬ Opens g step c groups)
    (sessions : Session.Store) : ∃ consulted refusal,
      login g sessions step.1 step.2 = ⟨sessions, consulted, .done (Refusal.response refusal)⟩ := by
  unfold login
  dsimp only
  split_ifs with hbody
  · exact ⟨_, _, rfl⟩
  split
  · exact ⟨_, _, rfl⟩
  rename_i c hc
  split
  · exact ⟨_, _, rfl⟩
  rename_i user huser
  obtain ⟨groups, haccepted, hgrants, -⟩ := Directory.authorizeUser_eq_ok_iff.1 huser
  exact absurd ⟨hroute, hmethod, Nat.not_lt.1 hbody, hc, haccepted,
    hgrants ▸ Directory.grants_ne_nil_of_authorizeUser huser⟩ (h c groups)

theorem login_sessions (hroute : Route.ofPath? step.2.target.path = some .login)
    (h : ∀ c groups, ¬ Opens g step c groups) (sessions : Session.Store) :
    (onRoute g sessions step.1 step.2 .login).sessions = sessions := by
  simp only [onRoute]
  split_ifs with hmethod
  · rfl
  · obtain ⟨_, _, hlogin⟩ := login_of_not_opens hroute (takes_login_iff.1 (by simpa using hmethod))
      h sessions
    rw [hlogin]

/-! ### The answer to a login -/

theorem withCookie_of_fits {cookie : String} {spoiled : Http.Status} {r : Response}
    (h : (Utf8.encode cookie).all Http.isValueByte = true) :
    withCookie cookie spoiled r =
      { r with headers := ⟨"set-cookie", Utf8.encode cookie⟩ :: r.headers } := by
  simp only [withCookie, h, if_true]

theorem withCookie_of_not_fits {cookie : String} {spoiled : Http.Status} {r : Response}
    (h : ¬ (Utf8.encode cookie).all Http.isValueByte = true) :
    (withCookie cookie spoiled r).status = spoiled := by
  simp only [withCookie, if_neg h]
  rfl

example : (withCookie "a\nb" 500 (emptyResponse 204 [])).status = 500 := by decide +kernel

section

variable {σ : Type} {registry : Registry.Behaviour σ} {w : World σ}

theorem response_of_opens (h : Opens g step c groups) :
    (serveOne g registry w step.1 step.2).1.response =
      finished (requestIdIn step.1 step.2) step.2
        (withCookie (Session.setCookie step.1.token g.cookies g.lifetime) 500
          (Api.Action.dashboardResponse (opened g step c groups))) := by
  obtain ⟨primary, hlogin⟩ := handle_of_opens h w.sessions
  rw [serveOne_response h.route, hlogin]
  rfl

theorem login_status_of_fits (h : Opens g step c groups) (hfits : CookieFits g step) :
    (serveOne g registry w step.1 step.2).1.response.status = 200 := by
  rw [response_of_opens h, finished_status, withCookie_of_fits hfits]
  rfl

/-- The session is open, but the client is told of an error. -/
theorem login_status_of_not_fits (h : Opens g step c groups) (hfits : ¬ CookieFits g step) :
    (serveOne g registry w step.1 step.2).1.response.status = 500 := by
  rw [response_of_opens h, finished_status, withCookie_of_not_fits hfits]

theorem login_status_of_not_opens (hroute : Route.ofPath? step.2.target.path = some .login)
    (h : ∀ c groups, ¬ Opens g step c groups) :
    (serveOne g registry w step.1 step.2).1.response.status ≠ 200 := by
  rw [serveOne_response hroute, finished_status]
  simp only [onRoute]
  split_ifs with hmethod
  · exact (by decide : 405 ≠ 200)
  · have hpost := takes_login_iff.1 (by simpa using hmethod)
    obtain ⟨_, refusal, hlogin⟩ := login_of_not_opens hroute hpost h w.sessions
    rw [hlogin]
    show refusal.response.status ≠ 200
    rw [Refusal.response_status]
    exact refusal.status_ne_ok

/-- **A login is answered with success** if it opens a session, unless its cookie is spoiled. -/
theorem login_status_eq_200_iff (hroute : Route.ofPath? step.2.target.path = some .login) :
    (serveOne g registry w step.1 step.2).1.response.status = 200 ↔ Succeeds g step := by
  refine ⟨fun hstatus => ?_, fun ⟨⟨_, _, h⟩, hfits⟩ => login_status_of_fits h hfits⟩
  by_cases hopens : ∃ c groups, Opens g step c groups
  · refine ⟨hopens, ?_⟩
    obtain ⟨c, groups, h⟩ := hopens
    by_contra hfits
    rw [login_status_of_not_fits h hfits] at hstatus
    cases hstatus
  · simp only [not_exists] at hopens
    exact absurd hstatus (login_status_of_not_opens hroute hopens)

/-- The answer to a login that succeeds is the dashboard of the session that it opens. -/
theorem body_of_login (h : Opens g step c groups) (hfits : CookieFits g step) :
    (serveOne g registry w step.1 step.2).1.response.body =
      (Api.Action.dashboardResponse (opened g step c groups)).body := by
  have hpost : step.2.method ≠ .head := by
    rw [h.method]
    decide
  rw [response_of_opens h, finished_body hpost, withCookie_of_fits hfits]

end

end Server

end ImageGateway
