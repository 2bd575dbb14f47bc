import ImageGateway.Proofs.Server.Confinement

/-!
# What a client learns of the registry's failures

An answer of the introspection API is compared with the one that the same request gets in front of
another registry.  As long as the registry fails, hardly anything of how it does so is left in the
answer: nothing at all for a request that only reads, and for a deletion the step that failed and
the kind of its failure, which distinguishes a status of 404, one of 405, a digest that is missing
and everything else.

* `DeletionError.SameKind` : two deletions failed in the same step, with failures of one kind.
* `Action.result_of_read` : what only reads is answered with success or with one fixed response.
* `Admits` : a request that is carried out, and the action that it asks for.
* `same_answer_of_failures` : **registries that fail alike cannot be told apart**.
-/

namespace ImageGateway

namespace Registry

/-- The same step of a deletion failed, with failures of the same kind. -/
inductive DeletionError.SameKind : DeletionError → DeletionError → Prop
  | lookup {e e' : RegistryError} (h : e.kind = e'.kind) : SameKind (.lookup e) (.lookup e')
  | delete {e e' : RegistryError} (h : e.kind = e'.kind) : SameKind (.delete e) (.delete e')

/-- Of an unwanted response only counts whether its status is 404 or 405. -/
theorem RegistryError.kind_ofResponse_eq {r r' : Http.Response}
    (hnotFound : r.status = 404 ↔ r'.status = 404)
    (hnotAllowed : r.status = 405 ↔ r'.status = 405) :
    (ofResponse r).kind = (ofResponse r').kind := by
  simp only [ofResponse, kind, hnotFound, hnotAllowed]

example : (RegistryError.ofResponse ⟨429, [], [0x6e, 0x6f], false⟩).kind = .unavailable := by
  decide +kernel

end Registry

namespace Api

open Server (Refusal)
open Registry (Behaviour Client Schedule DeletionError)

/-- What a client learns of a failed deletion is in the step and the kind of the failure. -/
theorem ofDeletion_eq_of_sameKind {e e' : DeletionError} (h : e.SameKind e') :
    Refusal.ofDeletion e = Refusal.ofDeletion e' := by
  cases h with
  | lookup hkind | delete hkind => simp only [Refusal.ofDeletion, hkind]

namespace Action

variable {σ : Type} {registry : Behaviour σ} {st : σ} {client : Client} {schedule : Schedule}
  {session : Session}

theorem result_lookUp {α : Type} (work : Registry.Lookup α) (render : α → Json.Value) :
    ((lookUp work render).run registry st).result =
      answer render (work.run.run registry st).result := by
  rw [lookUp, Registry.Exchange.run_bind_done]

/-- **What only reads is answered with success, or with a response that depends on nothing.** -/
theorem result_of_read {action : Action} (h : action.deletes = false) :
    let r := ((action.perform client schedule session).run registry st).result
    r.status = 200 ∨ r = Refusal.registryUnavailable.response := by
  cases action with
  | showDashboard => exact .inl (dashboardResponse_status session)
  | deleteTag => cases h
  | _ =>
    rw [perform, result_lookUp]
    exact answer_cases _ _

theorem result_of_failed_deletion {repo tag : String} {e : DeletionError}
    (h : ((client.deleteTag repo tag).run.run registry st).result = .error e) :
    (((deleteTag repo tag).perform client schedule session).run registry st).result =
      (Refusal.ofDeletion e).response := by
  rw [perform, Registry.Exchange.run_bind_done, h]
  rfl

end Action

end Api

namespace Server

open Http (Request)
open Registry (Behaviour Schedule)

/-- The request is one that is carried out, as the action: its route takes its method, it has a live
session, and the session may do what the query asks for. -/
def Admits (sessions : Session.Store) (now : Session.Instant) (request : Request)
    (action : Api.Action) : Prop :=
  ∃ route session, Route.ofPath? request.target.path = some (.api route) ∧
    (Route.api route).takes request.method = true ∧
    (liveSession sessions now request).1 = some session ∧
    Api.Action.decide session (queryOf request) route = .ok action

section

variable {σ τ : Type} {g : Gateway} {sessions : Session.Store} {o : Occasion} {request : Request}
  {action : Api.Action}

/-- The answer to a request that is carried out is what the action comes to. -/
theorem Admits.response (h : Admits sessions o.now request action) : ∃ session,
    ∀ {σ : Type} (registry : Behaviour σ) (st : σ) (schedule : Schedule),
      (serveOne g registry ⟨sessions, st⟩ { o with schedule } request).1.response =
        finished (requestIdIn o request) request
          ((action.perform g.client schedule session).run registry st).result := by
  obtain ⟨route, session, hroute, htakes, hsession, hdecide⟩ := h
  refine ⟨session, fun registry st schedule => ?_⟩
  rw [serveOne_response hroute, onRoute, api]
  rcases hlive : liveSession sessions o.now request with ⟨_ | live, sessions'⟩ <;>
    rw [hlive] at hsession
  · cases hsession
  · obtain rfl : live = session := Option.some.inj hsession
    simp only [htakes, if_true, Api.respond, hdecide]
    rfl

/-- **Registries that fail alike cannot be told apart.**  Take a request to the introspection API
that is carried out, and any two registries in any states, whatever the order in which they answer
calls that are made together.  If the request only reads, each of them leads to an answer of status
200 or 502, and if neither leads to one of status 200, to the same answer.  If the request is a
deletion that fails in front of both, in the same step and with failures of the same kind, they lead
to the same answer too. -/
theorem same_answer_of_failures (h : Admits sessions o.now request action)
    (registry : Behaviour σ) (st : σ) (other : Behaviour τ) (st' : τ) (schedule : Schedule) :
    let answer := (serveOne g registry ⟨sessions, st⟩ o request).1.response
    let answer' := (serveOne g other ⟨sessions, st'⟩ { o with schedule } request).1.response
    (action.deletes = false →
      (answer.status = 200 ∨ answer.status = 502) ∧
      (answer.status ≠ 200 → answer'.status ≠ 200 → answer' = answer)) ∧
    ∀ repo tag e e', action = .deleteTag repo tag →
      ((g.client.deleteTag repo tag).run.run registry st).result = .error e →
      ((g.client.deleteTag repo tag).run.run other st').result = .error e' →
      e.SameKind e' → answer' = answer := by
  intro answer answer'
  obtain ⟨session, hresponse⟩ := h.response (g := g)
  have hanswer : answer = finished (requestIdIn o request) request
      ((action.perform g.client o.schedule session).run registry st).result :=
    hresponse registry st o.schedule
  have hanswer' : answer' = finished (requestIdIn o request) request
      ((action.perform g.client schedule session).run other st').result :=
    hresponse other st' schedule
  rw [hanswer, hanswer', finished_status, finished_status]
  refine ⟨fun hreads => ⟨?_, fun hfails hfails' => ?_⟩, ?_⟩
  · refine (Api.Action.result_of_read hreads).imp_right fun hrefused => ?_
    rw [hrefused]
    rfl
  · rw [(Api.Action.result_of_read hreads).resolve_left hfails,
      (Api.Action.result_of_read hreads).resolve_left hfails']
  · rintro repo tag e e' rfl he he' hkind
    rw [Api.Action.result_of_failed_deletion he, Api.Action.result_of_failed_deletion he',
      Api.ofDeletion_eq_of_sameKind hkind]

end

namespace Sample

/-- The answer of a registry that refuses everything. -/
def refused (status : Http.Status) (text : String) : Http.Response :=
  { status, headers := [.ofText "server" text], body := Utf8.encode text }

/-- A registry that refuses everything with this status and this text. -/
def refusing (status : Http.Status) (text : String) : Behaviour Unit := fun _ _ =>
  (some (refused status text), ())

/-- A registry that never answers and counts what it is asked. -/
def silent : Behaviour Nat := fun count _ => (none, count + 1)

/-- A request for the catalog of the user's namespace. -/
def ownCatalog : Request :=
  request .get "/api/catalog" (some "namespace=team1") (cookie "t")

end Sample

/-- The catalog in front of a registry that fails and of one that is silent, and a deletion of a tag
that neither of two registries knows. -/
theorem same_answer_of_silence :
    let answer {σ : Type} (registry : Behaviour σ) (st : σ) (request : Request) :=
      (serveOne Sample.gateway registry ⟨Sample.sessions, st⟩ (Sample.occasion 5 "")
        request).1.response
    answer Sample.silent 3 Sample.ownCatalog =
        answer (Sample.refusing 500 "disk full") () Sample.ownCatalog ∧
      answer (Sample.refusing 404 "") () (Sample.deleteTag "t") =
        answer (Sample.refusing 404 "no tag v1") () (Sample.deleteTag "t") := by
  intro answer
  let session : Session := ⟨"alice", [⟨"team1_rwd", "team1", false, true⟩], 0⟩
  have hcatalog : Admits Sample.sessions (Sample.occasion 5 "").now Sample.ownCatalog
      (.listCatalog "team1") :=
    ⟨.catalog, session, by decide +kernel, by decide +kernel, by decide +kernel, by decide +kernel⟩
  have hdelete : Admits Sample.sessions (Sample.occasion 5 "").now (Sample.deleteTag "t")
      (.deleteTag "team1/app" "v1") :=
    ⟨.tag, session, by decide +kernel, by decide +kernel, by decide +kernel, by decide +kernel⟩
  constructor
  · exact ((same_answer_of_failures hcatalog (Sample.refusing 500 "disk full") () Sample.silent 3
      []).1 rfl).2 (by decide +kernel) (by decide +kernel)
  · refine (same_answer_of_failures hdelete (Sample.refusing 404 "no tag v1") ()
      (Sample.refusing 404 "") () []).2 "team1/app" "v1"
      (.lookup (.ofResponse (Sample.refused 404 "no tag v1")))
      (.lookup (.ofResponse (Sample.refused 404 ""))) rfl
      (by decide +kernel) (by decide +kernel) (.lookup ?_)
    exact Registry.RegistryError.kind_ofResponse_eq Iff.rfl Iff.rfl

end Server

end ImageGateway
