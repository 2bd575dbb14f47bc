import ImageGateway.Proofs.Access.Permission
import ImageGateway.Proofs.Api.Work
import ImageGateway.Proofs.Server.History

/-!
# The authority of the introspection API

Over a whole run, whatever the API does for a request it does on the authority of an earlier login:
the session of the request was opened there, and the groups that the directory returned there give
the rights that the request needs.  The login was answered with success, and so the token was issued
there, unless its cookie could not be written: then the session is in the store although the login
was answered with an error.

* `always_sessionReply` : what a session may lead to, by the rights that it has.
* `authority_of_api` : **no call and no answer of success without a login that justifies it**, and
  no call but a `GET` without the right to delete.
-/

namespace ImageGateway

namespace Server

open Http (Request)
open Registry (Call)

/-! ### What a session may lead to -/

/-- The session covers the namespace that a request names. -/
def MayAsk (step : Step) (route : Api.ApiRoute) (session : Session) : Prop :=
  route = .dashboard ∨ ∃ nameSpace, Api.namedNamespace? (queryOf step.2) route = some nameSpace ∧
    session.covers nameSpace = true

/-- The request is a deletion, and the session may delete in the namespace that it names. -/
def MayDelete (step : Step) (route : Api.ApiRoute) (session : Session) : Prop :=
  route = .tag ∧ step.2.method = .delete ∧
    ∃ nameSpace, Api.namedNamespace? (queryOf step.2) route = some nameSpace ∧
      session.mayDelete nameSpace = true

variable {g : Gateway} {step : Step} {route : Api.ApiRoute} {session : Session}

theorem mayAsk_of_decide {action : Api.Action}
    (h : Api.Action.decide session (queryOf step.2) route = .ok action) :
    MayAsk step route session := by
  rcases Api.Action.decide_eq_ok h with ⟨hroute, -⟩ | ⟨nameSpace, hnamed, hcovers, -⟩
  · exact .inl hroute
  · exact .inr ⟨nameSpace, hnamed, hcovers⟩

theorem mayDelete_of_decide {action : Api.Action}
    (h : Api.Action.decide session (queryOf step.2) route = .ok action)
    (htakes : (Route.api route).takes step.2.method = true) (hdeletes : action.deletes = true) :
    MayDelete step route session := by
  rcases Api.Action.decide_eq_ok h with ⟨-, rfl⟩ | ⟨nameSpace, hnamed, -, -, hmay⟩
  · cases hdeletes
  · obtain ⟨rfl, hright⟩ := hmay hdeletes
    exact ⟨rfl, by simpa [Route.takes, Route.methods?] using htakes, nameSpace, hnamed, hright⟩

/-- **What a session leads to needs the rights of the session**: every call and every answer of
success, and the right to delete for every call that is no `GET`. -/
theorem always_sessionReply (g : Gateway) (step : Step) (route : Api.ApiRoute) (session : Session) :
    (sessionReply g step route session).Always
      (fun c => MayAsk step route session ∧
        (c.request.method ≠ .get → MayDelete step route session))
      fun r => r.status ≠ 401 ∧ (r.status = 200 → MayAsk step route session) := by
  unfold sessionReply
  split_ifs with htakes
  · refine (Api.always_respond g.client step.1.schedule session (queryOf step.2) route).mono ?_ ?_
    · rintro c ⟨action, hd, method, path, headers, hasks, hcall⟩
      obtain ⟨url, -, -, rfl⟩ := Registry.Client.call?_eq_some hcall
      refine ⟨mayAsk_of_decide hd, fun hmethod => mayDelete_of_decide hd htakes ?_⟩
      by_contra hdeletes
      exact hmethod (hasks.method_eq (by simpa using hdeletes))
    · rintro r (⟨action, hd, hr⟩ | ⟨refusal, -, hr⟩)
      · exact ⟨hr.ne_unauthorized, fun _ => mayAsk_of_decide hd⟩
      · rcases hr with h | h <;> rw [h] <;> simp
  · exact .done ⟨(by decide : 405 ≠ 401), fun h : 405 = 200 => by cases h⟩

/-! ### The rights of a login -/

/-- One of the groups that the directory returned at the login, behind the filter for their names,
gives a grant on the namespace for which `right` holds. -/
def Opening.Gives {before : List Step} {token : String} (i : Opening g before token)
    (nameSpace : String) (right : Access.Grant → Prop) : Prop :=
  ∃ identifier ∈ i.groups, ∃ grant,
    Access.Grant.ofIdentifier? g.proxy.groupStart identifier = some grant ∧
      grant.nameSpace = nameSpace ∧ right grant

theorem Opening.gives_of_mem {before : List Step} {token nameSpace : String}
    {i : Opening g before token} {grant : Access.Grant} {right : Access.Grant → Prop}
    (h : grant ∈ i.session.grants) (hnameSpace : grant.nameSpace = nameSpace)
    (hright : right grant) : i.Gives nameSpace right := by
  obtain ⟨identifier, hidentifier, hgrant⟩ := Access.Grant.mem_ofGroups.1 h
  exact ⟨identifier, hidentifier, grant, hgrant, hnameSpace, hright⟩

/-- **The authority of the API goes back to a login.**  In every run, whenever the API calls the
registry for a request or answers it with success, the session under its token was opened by an
earlier login, which was answered with success unless its cookie could not be written.  Where the
request names a namespace, one of the groups that the directory returned at that login gives a grant
on it; and where a call is no `GET`, the request is a deletion and one of the groups gives the right
to delete there. -/
theorem authority_of_api {σ : Type} (g : Gateway) (ttl : Nat) (registry : Registry.Behaviour σ)
    (st : σ) (before : List Step) (step : Step) (route : Api.ApiRoute)
    (hroute : Route.ofPath? step.2.target.path = some (.api route))
    (h : (servedAfter g registry ⟨.empty ttl, st⟩ before step).calls ≠ [] ∨
      (servedAfter g registry ⟨.empty ttl, st⟩ before step).response.status = 200) :
    ∃ token, ∃ i : Opening g before token, Session.tokenOf? step.2.headers = some token ∧
      (let answer := (servedAfter g registry ⟨.empty ttl, st⟩ i.earlier i.login).response
      answer.status = 200 ∨ ¬ CookieFits g i.login ∧ answer.status = 500) ∧
      (route = .dashboard ∨ ∃ nameSpace,
        Api.namedNamespace? (queryOf step.2) route = some nameSpace ∧
          i.Gives nameSpace fun _ => True) ∧
      ((∃ record ∈ (servedAfter g registry ⟨.empty ttl, st⟩ before step).calls,
          ∃ hop ∈ record.hops, hop.request.method ≠ .get) →
        route = .tag ∧ step.2.method = .delete ∧ ∃ nameSpace,
          Api.namedNamespace? (queryOf step.2) route = some nameSpace ∧
            i.Gives nameSpace fun grant => grant.deleteAllowed = true) := by
  cases hsession : sessionBehind? g ttl before step with
  | none =>
    obtain ⟨hcalls, hstatus⟩ := servedAfter_of_no_session hroute hsession
    rw [hcalls, hstatus] at h
    simp at h
  | some session =>
    obtain ⟨token, e, htoken, hfind, rfl, -⟩ := sessionBehind?_eq_some_iff.1 hsession
    obtain ⟨i, -, rfl⟩ := opening_of_find? hfind
    obtain ⟨hcalls, hresponse⟩ := servedAfter_of_session hroute hsession
    have halways := always_sessionReply g step route i.entry.session
    rw [hcalls, hresponse, finished_status] at h
    refine ⟨token, i, htoken, i.answered_or_spoiled, ?_, ?_⟩
    · -- a call shows it as well as an answer of success
      have hask : MayAsk step route i.entry.session := by
        rcases h with h | h
        · obtain ⟨record, hrecord⟩ := List.exists_mem_of_ne_nil _ h
          obtain ⟨c, st', hc, -⟩ := halways.calls _ _ record hrecord
          exact hc.1
        · exact (halways.result _ _).2 h
      rcases hask with hdashboard | ⟨nameSpace, hnamed, hcovers⟩
      · exact .inl hdashboard
      · obtain ⟨grant, hgrant, hnameSpace⟩ := Session.covers_iff.1 hcovers
        exact .inr ⟨nameSpace, hnamed, Opening.gives_of_mem hgrant hnameSpace trivial⟩
    · rintro ⟨record, hrecord, hop, hhop, hmethod⟩
      rw [hcalls] at hrecord
      obtain ⟨c, st', ⟨-, hdelete⟩, rfl⟩ := halways.calls _ _ record hrecord
      -- redirects make no `GET` into anything else
      have hget : c.request.method ≠ .get := fun hget => hmethod
        (Registry.perform_hops (I := fun request => request.method = .get)
          (fun _ _ _ => Registry.redirected_get) hget hop hhop)
      obtain ⟨htag, hdeleting, nameSpace, hnamed, hmay⟩ := hdelete hget
      obtain ⟨grant, hgrant, hnameSpace, hright⟩ := Session.mayDelete_iff.1 hmay
      exact ⟨htag, hdeleting, nameSpace, hnamed, Opening.gives_of_mem hgrant hnameSpace hright⟩

namespace Sample

/-- A login that opens a session under the token. -/
def login (now : Session.Instant) (token : String) : Step :=
  (occasion now token, request .post "/login" none credentials)

/-- The deletion of a tag by the holder of the token. -/
def deletion (now : Session.Instant) (token : String) : Step :=
  (occasion now "", deleteTag token)

/-- A request for the dashboard by the holder of the token. -/
def dashboard (now : Session.Instant) (token : String) : Step :=
  (occasion now "", request .get "/api/dashboard" none (cookie token))

/-- The gateway of settings with a cookie domain that no header field can hold. -/
def spoiled : Gateway := .withRegistry { settings with server := { cookieDomain := "a\nb" } } url

/-- The gateway of such settings issues no token. -/
theorem isEmpty_issue (token : String) :
    IsEmpty (Issue spoiled registry ⟨.empty 1800, ()⟩ [login 0 "t"] token) := by
  refine ⟨fun i => ?_⟩
  have hlogin : i.login = login 0 "t" := List.mem_singleton.1 i.login_mem
  have hfits := i.answered_iff.1 i.answered
  rw [hlogin] at hfits
  revert hfits
  decide +kernel

end Sample

theorem authority_of_deletion : ∃ token, ∃ i : Opening Sample.gateway [Sample.login 0 "t"] token,
    Session.tokenOf? (Sample.deletion 5 "t").2.headers = some token ∧
      i.Answered Sample.registry ⟨.empty 1800, ()⟩ ∧
      ∃ nameSpace, i.Gives nameSpace fun grant => grant.deleteAllowed = true := by
  obtain ⟨token, i, htoken, hanswer, -, hdelete⟩ := authority_of_api Sample.gateway 1800
    Sample.registry () [Sample.login 0 "t"] (Sample.deletion 5 "t") .tag (by decide +kernel)
    (.inr (by decide +kernel))
  obtain ⟨-, -, nameSpace, -, hgives⟩ := hdelete (by decide +kernel)
  have hlogin : i.login = Sample.login 0 "t" := List.mem_singleton.1 i.login_mem
  have hfits : CookieFits Sample.gateway i.login := by
    rw [hlogin]
    decide +kernel
  exact ⟨token, i, htoken, hanswer.resolve_right fun hspoiled => hspoiled.1 hfits, nameSpace,
    hgives⟩

/-- A session may be in use whose login was answered with an error. -/
theorem not_forall_issued :
    ¬ ∀ (g : Gateway) (before : List Step) (step : Step) (route : Api.ApiRoute),
      Route.ofPath? step.2.target.path = some (.api route) →
      (servedAfter g Sample.registry ⟨.empty 1800, ()⟩ before step).response.status = 200 →
      ∃ token, Session.tokenOf? step.2.headers = some token ∧
        Nonempty (Issue g Sample.registry ⟨.empty 1800, ()⟩ before token) := by
  intro hissued
  obtain ⟨token, -, ⟨i⟩⟩ := hissued Sample.spoiled [Sample.login 0 "t"] (Sample.dashboard 1 "t")
    .dashboard (by decide +kernel) (by decide +kernel)
  exact (Sample.isEmpty_issue token).elim i

end Server

end ImageGateway
