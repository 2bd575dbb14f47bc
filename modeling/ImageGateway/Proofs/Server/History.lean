import ImageGateway.Proofs.Server.Login
import ImageGateway.Proofs.Session.Store
import Mathlib.Data.List.Induction

/-!
# Histories of sessions

A run is a list of requests, each with the occasion on which it is served.  What the store of
sessions holds behind a run goes back to the logins of the run, and this module says to which: an
`Opening` under a token is a login of the run that opened a session under the token, with the
requests before and behind it.  The token is issued by it only if the login was answered with
success (`Issue`), which a login that opens a session is unless its cookie is spoiled.

* `handle_sessions_cases` : what one request can do to the sessions.
* `opening_of_find?` : **every entry of the store is that of a login which no logout has followed**,
  whatever the clock does.
* `Opening.answered_iff` : which openings are issues.
* `Opening.holds` : conversely, **the session of a login stays in the store** until its lifetime has
  passed, if the clock never goes back, unless a younger one takes its place.
* `Issue.opening_eq` : a token that was issued goes back to one login, if none is issued twice.
-/

namespace ImageGateway

namespace Server

/-! ### Runs -/

section Runs

variable {σ : Type} {g : Gateway} {registry : Registry.Behaviour σ} {w : World σ}

/-- What is answered to a request that comes after the requests of `before`. -/
def servedAfter (g : Gateway) (registry : Registry.Behaviour σ) (w : World σ) (before : List Step)
    (step : Step) : Served :=
  (serveOne g registry (serve g registry w before).2 step.1 step.2).1

/-- The sessions behind a list of requests. -/
def sessionsAfter (g : Gateway) (sessions : Session.Store) (steps : List Step) : Session.Store :=
  steps.foldl (fun sessions step => (handle g sessions step.1 step.2).sessions) sessions

theorem serve_append (steps more : List Step) : serve g registry w (steps ++ more) =
    ((serve g registry w steps).1 ++ (serve g registry (serve g registry w steps).2 more).1,
      (serve g registry (serve g registry w steps).2 more).2) := by
  induction steps generalizing w with
  | nil => rfl
  | cons step steps ih => simp only [List.cons_append, serve, ih]

theorem length_serve (steps : List Step) : (serve g registry w steps).1.length = steps.length := by
  induction steps generalizing w with
  | nil => rfl
  | cons step steps ih => simp only [serve, List.length_cons, ih]

/-- The answers of a run are those to its requests, each after the ones before it. -/
theorem getElem?_serve (before after : List Step) (step : Step) :
    (serve g registry w (before ++ step :: after)).1[before.length]? =
      some (servedAfter g registry w before step) := by
  rw [serve_append, List.getElem?_append_right (Nat.le_of_eq (length_serve before)),
    length_serve, Nat.sub_self]
  rfl

theorem serve_sessions (steps : List Step) :
    (serve g registry w steps).2.sessions = sessionsAfter g w.sessions steps := by
  induction steps generalizing w with
  | nil => rfl
  | cons step steps ih => exact ih

theorem sessionsAfter_append (sessions : Session.Store) (steps more : List Step) :
    sessionsAfter g sessions (steps ++ more) =
      sessionsAfter g (sessionsAfter g sessions steps) more :=
  List.foldl_append

end Runs

/-! ### One request -/

/-- The request is a logout with this token. -/
structure LogsOut (step : Step) (token : String) : Prop where
  route : Route.ofPath? step.2.target.path = some .logout
  method : Route.logout.takes step.2.method = true
  token_eq : Session.tokenOf? step.2.headers = some token

variable {g : Gateway} {step : Step} {c c' : Login.Credentials} {groups groups' : List String}
  {token : String}

theorem Opens.not_logsOut (h : Opens g step c groups) : ¬ LogsOut step token := fun h' => by
  have := h.route.symm.trans h'.route
  cases this

theorem handle_sessions_of_logsOut (h : LogsOut step token) (sessions : Session.Store) :
    (handle g sessions step.1 step.2).sessions = sessions.delete token := by
  rw [handle_of_route h.route, Outcome.mapReply]
  simp only [onRoute, h.method, logout, h.token_eq]
  rfl

theorem logout_sessions (hroute : Route.ofPath? step.2.target.path = some .logout)
    (hmethod : Route.logout.takes step.2.method = true) (h : ∀ token, ¬ LogsOut step token)
    (sessions : Session.Store) : (logout g sessions step.2).sessions = sessions := by
  unfold logout
  cases htoken : Session.tokenOf? step.2.headers with
  | none => rfl
  | some token => exact absurd ⟨hroute, hmethod, htoken⟩ (h token)

theorem dropsStale_api (sessions : Session.Store) (route : Api.ApiRoute) :
    sessions.DropsStale (api g sessions step.1 step.2 route).sessions step.1.now := by
  unfold api liveSession
  cases Session.tokenOf? step.2.headers with
  | none => exact .refl sessions step.1.now
  | some token =>
    have hget : sessions.DropsStale (sessions.get token step.1.now).2 step.1.now :=
      Session.Store.dropsStale_get
    dsimp only
    rcases hl : sessions.get token step.1.now with ⟨_ | session, sessions'⟩ <;> rw [hl] at hget
    · exact hget
    · dsimp only
      split_ifs <;> exact hget

/-- A request that is neither such a login nor such a logout drops a stale session at most. -/
theorem dropsStale_of_other (hopens : ∀ c groups, ¬ Opens g step c groups)
    (hlogsOut : ∀ token, ¬ LogsOut step token) (sessions : Session.Store) :
    sessions.DropsStale (handle g sessions step.1 step.2).sessions step.1.now := by
  have same {sessions' : Session.Store} (h : sessions' = sessions) :
      sessions.DropsStale sessions' step.1.now := h ▸ .refl sessions step.1.now
  cases hroute : Route.ofPath? step.2.target.path with
  | none => exact same (by rw [handle_of_no_route hroute]; rfl)
  | some route =>
    rw [handle_of_route hroute, Outcome.mapReply]
    cases route with
    | api route => exact dropsStale_api sessions route
    | proxy => exact same rfl
    | login => exact same (login_sessions hroute hopens sessions)
    | logout =>
      refine same ?_
      simp only [onRoute]
      split_ifs with hmethod
      · rfl
      · exact logout_sessions hroute (by simpa using hmethod) hlogsOut sessions
    | health => exact same (by simp only [onRoute]; split_ifs <;> rfl)
    | version => exact same (by simp only [onRoute]; split_ifs <;> rfl)

/-- **What a request can do to the sessions**: open one, end one, or drop a stale one at most. -/
theorem handle_sessions_cases (step : Step) (sessions : Session.Store) :
    (∃ c groups, Opens g step c groups ∧ (handle g sessions step.1 step.2).sessions =
      sessions.put step.1.token (opened g step c groups) step.1.now) ∨
    (∃ token, LogsOut step token ∧
      (handle g sessions step.1 step.2).sessions = sessions.delete token) ∨
    (∀ token, ¬ LogsOut step token) ∧
      sessions.DropsStale (handle g sessions step.1 step.2).sessions step.1.now := by
  by_cases hopens : ∃ c groups, Opens g step c groups
  · obtain ⟨c, groups, h⟩ := hopens
    exact .inl ⟨c, groups, h, handle_sessions_of_opens h sessions⟩
  by_cases hlogsOut : ∃ token, LogsOut step token
  · obtain ⟨token, h⟩ := hlogsOut
    exact .inr (.inl ⟨token, h, handle_sessions_of_logsOut h sessions⟩)
  simp only [not_exists] at hopens hlogsOut
  exact .inr (.inr ⟨hlogsOut, dropsStale_of_other hopens hlogsOut sessions⟩)

theorem handle_lifetime (step : Step) (sessions : Session.Store) :
    (handle g sessions step.1 step.2).sessions.lifetime = sessions.lifetime := by
  rcases handle_sessions_cases (g := g) step sessions with
    ⟨c, groups, -, h⟩ | ⟨token, -, h⟩ | ⟨-, h⟩
  · rw [h, Session.Store.lifetime_put]
  · rw [h, Session.Store.lifetime_delete]
  · exact h.lifetime_eq

theorem sessionsAfter_lifetime (steps : List Step) (sessions : Session.Store) :
    (sessionsAfter g sessions steps).lifetime = sessions.lifetime := by
  induction steps generalizing sessions with
  | nil => rfl
  | cons step steps ih => exact (ih _).trans (handle_lifetime step sessions)

/-! ### Openings and issues -/

/-- A login in a list of requests that opened a session under the token, whatever it was
answered. -/
structure Opening (g : Gateway) (steps : List Step) (token : String) where
  earlier : List Step
  login : Step
  later : List Step
  credentials : Login.Credentials
  groups : List String
  steps_eq : steps = earlier ++ login :: later
  opens : Opens g login credentials groups
  token_eq : login.1.token = token

namespace Opening

variable {steps : List Step}

/-- The session that was opened. -/
def session (i : Opening g steps token) : Session := opened g i.login i.credentials i.groups

/-- A request behind the login was a logout with the token. -/
def LoggedOut (i : Opening g steps token) : Prop := ∃ step ∈ i.later, LogsOut step token

/-- The entry of the session in the store. -/
def entry (i : Opening g steps token) : Session.Entry := ⟨token, i.session, i.session.createdAt⟩

/-- The opening with one more request behind it. -/
def extend (i : Opening g steps token) (step : Step) : Opening g (steps ++ [step]) token :=
  { i with
    later := i.later ++ [step]
    steps_eq := (congrArg (· ++ [step]) i.steps_eq).trans (List.append_assoc _ _ _) }

/-- The login at the end of a list. -/
def last (steps : List Step) (h : Opens g step c groups) :
    Opening g (steps ++ [step]) step.1.token :=
  ⟨steps, step, [], c, groups, rfl, h, rfl⟩

theorem sessionsAfter_eq (i : Opening g steps token) (sessions : Session.Store) :
    sessionsAfter g sessions steps = sessionsAfter g ((sessionsAfter g sessions i.earlier).put token
      i.session i.session.createdAt) i.later := by
  refine (congrArg (sessionsAfter g sessions) i.steps_eq).trans ?_
  have hput := handle_sessions_of_opens i.opens (sessionsAfter g sessions i.earlier)
  rw [i.token_eq] at hput
  rw [sessionsAfter_append]
  exact congrArg (sessionsAfter g · i.later) hput

theorem login_mem (i : Opening g steps token) : i.login ∈ steps := by
  obtain ⟨earlier, login, later, -, -, rfl, -, -⟩ := i
  exact List.mem_append_right _ List.mem_cons_self

theorem mem_of_later (i : Opening g steps token) (h : step ∈ i.later) : step ∈ steps :=
  i.steps_eq.symm ▸ List.mem_append_right _ (List.mem_cons_of_mem _ h)

theorem not_loggedOut_last (h : Opens g step c groups) : ¬ (last steps h).LoggedOut := by
  rintro ⟨_, hmem, -⟩
  cases hmem

theorem not_loggedOut_extend {i : Opening g steps token} (hi : ¬ i.LoggedOut)
    (h : ¬ LogsOut step token) : ¬ (i.extend step).LoggedOut := by
  rintro ⟨s, hs, hlogsOut⟩
  rcases List.mem_append.1 hs with hs | hs
  · exact hi ⟨s, hs, hlogsOut⟩
  · obtain rfl := List.mem_singleton.1 hs
    exact h hlogsOut

end Opening

/-- **Every entry of the store is that of a login which no logout has followed.** -/
theorem opening_of_find? {ttl : Nat} {steps : List Step} {e : Session.Entry}
    (h : (sessionsAfter g (.empty ttl) steps).find? token = some e) :
    ∃ i : Opening g steps token, ¬ i.LoggedOut ∧ e = i.entry := by
  induction steps using List.reverseRecOn generalizing e with
  | nil => cases h
  | append_singleton steps step ih =>
    rw [sessionsAfter_append] at h
    -- the entry was there before, and the request is no logout with the token
    have older (h : (sessionsAfter g (.empty ttl) steps).find? token = some e)
        (hstep : ¬ LogsOut step token) :
        ∃ i : Opening g (steps ++ [step]) token, ¬ i.LoggedOut ∧ e = i.entry := by
      obtain ⟨i, hi, he⟩ := ih h
      exact ⟨i.extend step, Opening.not_loggedOut_extend hi hstep, he⟩
    change (handle g (sessionsAfter g (.empty ttl) steps) step.1 step.2).sessions.find? token =
      some e at h
    rcases handle_sessions_cases (g := g) step (sessionsAfter g (.empty ttl) steps) with
      ⟨c, groups, hopens, hput⟩ | ⟨other, hlogsOut, hdelete⟩ | ⟨hlogsOut, hdrops⟩
    · -- the entry is that of the login itself, or was there before
      rw [hput, Session.Store.find?_put] at h
      split_ifs at h with htoken
      · subst htoken
        exact ⟨Opening.last steps hopens, Opening.not_loggedOut_last hopens,
          (Option.some.inj h).symm⟩
      · exact older h hopens.not_logsOut
    · rw [hdelete, Session.Store.find?_delete] at h
      split_ifs at h with htoken
      exact older h fun h' => htoken (Option.some.inj (hlogsOut.token_eq.symm.trans h'.token_eq))
    · exact older (hdrops.find?_of_find? h) (hlogsOut token)

/-- The login was answered with success, in a run that begins in the world `w`. -/
def Opening.Answered {σ : Type} {steps : List Step} (registry : Registry.Behaviour σ) (w : World σ)
    (i : Opening g steps token) : Prop :=
  (servedAfter g registry w i.earlier i.login).response.status = 200

/-- A login in a list of requests that issued the token: it opened a session under the token and
was answered with success. -/
structure Issue {σ : Type} (g : Gateway) (registry : Registry.Behaviour σ) (w : World σ)
    (steps : List Step) (token : String) extends Opening g steps token where
  answered : toOpening.Answered registry w

section Answers

variable {σ : Type} {registry : Registry.Behaviour σ} {w : World σ} {steps : List Step}

/-- **Which openings are issues**: those whose cookie can stand in a header field. -/
theorem Opening.answered_iff (i : Opening g steps token) :
    i.Answered registry w ↔ CookieFits g i.login :=
  (login_status_eq_200_iff i.opens.route).trans ⟨Succeeds.fits, fun h => ⟨⟨_, _, i.opens⟩, h⟩⟩

theorem Opening.answered_or_spoiled (i : Opening g steps token) : i.Answered registry w ∨
    ¬ CookieFits g i.login ∧
      (servedAfter g registry w i.earlier i.login).response.status = 500 := by
  by_cases hfits : CookieFits g i.login
  · exact .inl (i.answered_iff.2 hfits)
  · exact .inr ⟨hfits, login_status_of_not_fits i.opens hfits⟩

end Answers

/-! ### Clocks and distinct tokens -/

/-- The clock never goes back. -/
def ClockRuns (steps : List Step) : Prop := steps.Pairwise fun x y => x.1.now ≤ y.1.now

/-- No token is issued twice. -/
def DistinctTokens (g : Gateway) (steps : List Step) : Prop :=
  steps.Pairwise fun x y => Succeeds g x → Succeeds g y → x.1.token ≠ y.1.token

/-- The store has an entry under the token that is not older than `since`. -/
def Holds (sessions : Session.Store) (token : String) (since : Session.Instant) : Prop :=
  ∃ e, sessions.find? token = some e ∧ e.storedAt = e.session.createdAt ∧
    since ≤ e.session.createdAt

/-- An entry that counts outlasts every request but a logout with its token: at most, a login puts a
younger one in its place. -/
theorem Holds.handle {sessions : Session.Store} {since : Session.Instant}
    (h : Holds sessions token since) (hclock : since ≤ step.1.now)
    (hlive : step.1.now < since + Session.seconds sessions.lifetime)
    (hlogsOut : ¬ LogsOut step token) :
    Holds (handle g sessions step.1 step.2).sessions token since := by
  obtain ⟨e, hfind, hstored, hsince⟩ := h
  rcases handle_sessions_cases (g := g) step sessions with
    ⟨c, groups, -, hput⟩ | ⟨other, hl, hdelete⟩ | ⟨-, hdrops⟩
  · rw [Holds, hput, Session.Store.find?_put]
    split_ifs with htoken
    · exact ⟨_, rfl, rfl, hclock⟩
    · exact ⟨e, hfind, hstored, hsince⟩
  · rw [Holds, hdelete, Session.Store.find?_delete, if_neg]
    · exact ⟨e, hfind, hstored, hsince⟩
    · rintro rfl
      exact hlogsOut hl
  · refine ⟨e, hdrops.find?_of_live hfind ?_, hstored, hsince⟩
    rw [Session.Store.isStale_eq_false_iff hstored]
    exact Int.lt_of_lt_of_le hlive (Int.add_le_add_right hsince _)

theorem Holds.sessionsAfter {steps : List Step} {sessions : Session.Store} {since : Session.Instant}
    (h : Holds sessions token since) (hclock : ∀ step ∈ steps, since ≤ step.1.now)
    (hlive : ∀ step ∈ steps, step.1.now < since + Session.seconds sessions.lifetime)
    (hlogsOut : ∀ step ∈ steps, ¬ LogsOut step token) :
    Holds (sessionsAfter g sessions steps) token since := by
  induction steps generalizing sessions with
  | nil => exact h
  | cons step steps ih =>
    simp only [List.forall_mem_cons] at hclock hlive hlogsOut
    refine ih (h.handle hclock.1 hlive.1 hlogsOut.1) hclock.2 ?_ hlogsOut.2
    rw [handle_lifetime]
    exact hlive.2

/-- **The store holds the session of a login**, or a younger one, until its lifetime has passed or a
logout comes with its token. -/
theorem Opening.holds {ttl : Nat} {steps : List Step} {now : Session.Instant}
    (hclock : ClockRuns steps) (hnow : ∀ step ∈ steps, step.1.now ≤ now)
    (i : Opening g steps token) (hi : ¬ i.LoggedOut)
    (hlive : now < i.session.createdAt + Session.seconds ttl) :
    Holds (sessionsAfter g (.empty ttl) steps) token i.session.createdAt := by
  rw [ClockRuns, i.steps_eq, List.pairwise_append] at hclock
  rw [i.sessionsAfter_eq]
  refine Holds.sessionsAfter ?_ (List.pairwise_cons.1 hclock.2.1).1 (fun step hstep => ?_)
    fun step hstep hlogsOut => hi ⟨step, hstep, hlogsOut⟩
  · rw [Holds, Session.Store.find?_put, if_pos rfl]
    exact ⟨i.entry, rfl, rfl, Int.le_refl _⟩
  · rw [Session.Store.lifetime_put, sessionsAfter_lifetime]
    exact Int.lt_of_le_of_lt (hnow step (i.mem_of_later hstep)) hlive

/-- Two parts of one list around elements that are not related are the same parts. -/
theorem parts_unique {α : Type} {R : α → α → Prop} {a b a' b' : List α} {x x' : α}
    (hR : (a ++ x :: b).Pairwise R) (h : a ++ x :: b = a' ++ x' :: b') (hx : ¬ R x x')
    (hx' : ¬ R x' x) : a = a' ∧ x = x' ∧ b = b' := by
  -- the element that comes first is related to the other one
  have first {a b b' : List α} {x x' y : α} {l : List α} (hx : ¬ R x x')
      (hR : (a ++ x :: b).Pairwise R) (h : x :: b = y :: l ++ x' :: b') : False := by
    obtain ⟨-, rfl⟩ := List.cons.inj h
    obtain ⟨-, hR, -⟩ := List.pairwise_append.1 hR
    exact hx ((List.pairwise_cons.1 hR).1 x' (by simp))
  rcases List.append_eq_append_iff.1 h with ⟨l, rfl, hl⟩ | ⟨l, rfl, hl⟩
  · cases l with
    | nil => simpa using hl
    | cons y l => exact (first hx hR hl).elim
  · cases l with
    | nil => simpa [eq_comm] using hl
    | cons y l => exact (first hx' (h ▸ hR) hl).elim

/-- **A token that was issued goes back to one login.** -/
theorem Issue.opening_eq {σ : Type} {registry : Registry.Behaviour σ} {w : World σ}
    {steps : List Step} (hdistinct : DistinctTokens g steps) (i : Issue g registry w steps token)
    (i' : Opening g steps token) : i' = i.toOpening := by
  obtain ⟨i, hanswered⟩ := i
  have hfits : CookieFits g i.login := i.answered_iff.1 hanswered
  obtain ⟨earlier, login, later, c, groups, hsteps, hopens, htoken⟩ := i
  obtain ⟨earlier', login', later', c', groups', hsteps', hopens', htoken'⟩ := i'
  have hsucceeds : Succeeds g login := ⟨⟨c, groups, hopens⟩, hfits⟩
  -- the cookie is that of the token, and so the other login hands it out as well
  have hsucceeds' : Succeeds g login' :=
    ⟨⟨c', groups', hopens'⟩, hfits.of_token_eq (htoken.trans htoken'.symm)⟩
  obtain ⟨rfl, rfl, rfl⟩ := parts_unique (hsteps ▸ hdistinct) (hsteps.symm.trans hsteps')
    (fun h => h hsucceeds hsucceeds' (htoken.trans htoken'.symm))
    (fun h => h hsucceeds' hsucceeds (htoken'.trans htoken.symm))
  obtain ⟨rfl, rfl⟩ := hopens.unique hopens'
  rfl

/-! ### The session behind a request -/

/-- The work for a request to the API under a session. -/
def sessionReply (g : Gateway) (step : Step) (route : Api.ApiRoute) (session : Session) :
    Registry.Exchange Http.Response :=
  if (Route.api route).takes step.2.method then
    Api.respond g.client step.1.schedule session (queryOf step.2) route
  else .done (methodNotAllowed (.api route))

/-- The session that a request has behind the requests of `before`. -/
def sessionBehind? (g : Gateway) (ttl : Nat) (before : List Step) (step : Step) : Option Session :=
  (liveSession (sessionsAfter g (.empty ttl) before) step.1.now step.2).1

/-- **The session of a request is that of a login** which its token goes back to. -/
theorem sessionBehind?_eq_some_iff {ttl : Nat} {before : List Step} {session : Session} :
    sessionBehind? g ttl before step = some session ↔
      ∃ token e, Session.tokenOf? step.2.headers = some token ∧
        (sessionsAfter g (.empty ttl) before).find? token = some e ∧ e.session = session ∧
        step.1.now < e.session.createdAt + Session.seconds ttl := by
  unfold sessionBehind? liveSession
  cases htoken : Session.tokenOf? step.2.headers with
  | none => simp
  | some token =>
    dsimp only
    rw [Session.Store.get_fst_eq_some_iff]
    constructor
    · rintro ⟨e, he, hstale, hsession⟩
      obtain ⟨i, -, rfl⟩ := opening_of_find? he
      rw [Session.Store.isStale_eq_false_iff rfl, sessionsAfter_lifetime] at hstale
      exact ⟨token, _, rfl, he, hsession, hstale⟩
    · rintro ⟨_, e, hsame, he, hsession, hlive⟩
      obtain rfl := Option.some.inj hsame
      obtain ⟨i, -, rfl⟩ := opening_of_find? he
      refine ⟨_, he, ?_, hsession⟩
      rw [Session.Store.isStale_eq_false_iff rfl, sessionsAfter_lifetime]
      exact hlive

section Answers

variable {σ : Type} {registry : Registry.Behaviour σ} {st : σ} {ttl : Nat} {before : List Step}
  {route : Api.ApiRoute}

theorem servedAfter_of_session {session : Session}
    (hroute : Route.ofPath? step.2.target.path = some (.api route))
    (h : sessionBehind? g ttl before step = some session) :
    let served := servedAfter g registry ⟨.empty ttl, st⟩ before step
    let run := (sessionReply g step route session).run registry
      (serve g registry ⟨.empty ttl, st⟩ before).2.registry
    served.calls = run.calls ∧
      served.response = finished (requestIdIn step.1 step.2) step.2 run.result := by
  have hreply (sessions : Session.Store) (hs : (liveSession sessions step.1.now step.2).1 =
      some session) :
      (onRoute g sessions step.1 step.2 (.api route)).reply =
        sessionReply g step route session := by
    rcases hl : liveSession sessions step.1.now step.2 with ⟨_ | live, sessions'⟩ <;> rw [hl] at hs
    · cases hs
    · obtain rfl : live = session := Option.some.inj hs
      simp only [onRoute, api, hl, sessionReply]
      split_ifs <;> rfl
  -- the sessions of the run do not depend on the registry
  have hworld : (liveSession (serve g registry ⟨.empty ttl, st⟩ before).2.sessions step.1.now
      step.2).1 = some session := by
    rw [serve_sessions]
    exact h
  exact ⟨by rw [servedAfter, serveOne_calls hroute, hreply _ hworld],
    by rw [servedAfter, serveOne_response hroute, hreply _ hworld]⟩

/-- **Without a session nothing is done for a request.** -/
theorem servedAfter_of_no_session
    (hroute : Route.ofPath? step.2.target.path = some (.api route))
    (h : sessionBehind? g ttl before step = none) :
    let served := servedAfter g registry ⟨.empty ttl, st⟩ before step
    served.calls = [] ∧ served.response.status = 401 := by
  have hreply (sessions : Session.Store) (hs : (liveSession sessions step.1.now step.2).1 = none) :
      ∃ r, (onRoute g sessions step.1 step.2 (.api route)).reply = .done r ∧ r.status = 401 := by
    rcases hl : liveSession sessions step.1.now step.2 with ⟨_ | live, sessions'⟩ <;> rw [hl] at hs
    · simp only [onRoute, api, hl]
      refine ⟨_, rfl, ?_⟩
      split_ifs <;> rfl
    · cases hs
  have hworld : (liveSession (serve g registry ⟨.empty ttl, st⟩ before).2.sessions step.1.now
      step.2).1 = none := by
    rw [serve_sessions]
    exact h
  obtain ⟨r, hr, hstatus⟩ := hreply _ hworld
  refine ⟨by rw [servedAfter, serveOne_calls hroute, hr]; rfl, ?_⟩
  rw [servedAfter, serveOne_response hroute, finished_status, hr]
  exact hstatus

end Answers

end Server

end ImageGateway
