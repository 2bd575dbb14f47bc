import ImageGateway.Proofs.Api.Decision
import ImageGateway.Proofs.Registry.Exchange

/-!
# The work for a request to the introspection API

What an action asks of the registry is a list of paths: `Action.Asks` has one rule for each kind of
call that an action may lead to.  Some of the paths are built from what the registry answered
before: names out of the catalog and digests out of manifests, about which nothing else is known.

* `Client.CallsFor` : the calls for a family of paths.
* `Client.calls_fetchTagDetails`, `Client.calls_deleteTag`, … : the paths behind each function of
  the client.
* `Action.always_perform` : **an action calls for nothing but what it asks, and its answer reports
  success or a failure of the registry.**
* `always_respond` : a request that is decided on is answered so, and any other one is refused.
-/

namespace ImageGateway

namespace Registry

open Exchange (Always)

variable {ε α β : Type} {P : Call → Prop}

/-- Every call of a lookup satisfies `P`, whatever it finds. -/
def Calls (P : Call → Prop) (x : ExceptT ε Exchange α) : Prop := x.run.Always P fun _ => True

theorem calls_bind {x : ExceptT ε Exchange α} {f : α → ExceptT ε Exchange β} (hx : Calls P x)
    (hf : ∀ a, Calls P (f a)) : Calls P (x >>= f) := by
  refine Exchange.always_bind_except.2 (hx.mono (fun _ => id) ?_)
  rintro (e | a) -
  · trivial
  · exact hf a

theorem calls_pure (a : α) : Calls P (pure a : ExceptT ε Exchange α) := .done trivial

theorem calls_ofExcept (e : Except RegistryError α) : Calls P (Lookup.ofExcept e) := .done trivial

theorem calls_adapt {δ : Type} {f : ε → δ} {x : ExceptT ε Exchange α} (hx : Calls P x) :
    Calls P (x.adapt f) :=
  Exchange.always_bind.2 (hx.mono (fun _ => id) fun _ _ => .done trivial)

namespace Client

variable {c : Client} {method : Http.Method} {path repo reference : String}
  {headers : Http.Headers} {asks : Http.Method → String → Prop}

/-- The calls for the paths that are asked for. -/
def CallsFor (c : Client) (asks : Http.Method → String → Prop) (call : Call) : Prop :=
  ∃ method path headers, asks method path ∧ c.call? method path headers = some call

theorem always_fetch {read : Option Http.Response → Except RegistryError α}
    {Q : Except RegistryError α → Prop} (h : asks method path) (hread : ∀ answer, Q (read answer)) :
    (c.fetch method path headers read).run.Always (c.CallsFor asks) Q := by
  refine Exchange.always_bind.2 ?_
  unfold ask
  cases hcall : c.call? method path headers with
  | none => exact .done (.done (hread none))
  | some call =>
    exact .call ⟨method, path, headers, h, hcall⟩ fun answer => .done (.done (hread answer))

theorem calls_fetch {read : Option Http.Response → Except RegistryError α} (h : asks method path) :
    Calls (c.CallsFor asks) (c.fetch method path headers read) :=
  always_fetch h fun _ => trivial

theorem repositoriesOf_eq_ok {nameSpace : String} {answer : Option Http.Response}
    {repositories : List String} (h : repositoriesOf nameSpace answer = .ok repositories) :
    ∀ repo ∈ repositories, Text.beginsWith (nameSpace ++ "/") repo = true := by
  obtain ⟨document, -, h⟩ := bind_eq_ok_iff.1 h
  obtain rfl := Except.ok.inj h
  exact fun repo hrepo => (List.mem_filter.1 hrepo).2

theorem calls_fetchRepositories {nameSpace : String} (h : asks .get "_catalog") :
    Calls (c.CallsFor asks) (c.fetchRepositories nameSpace) := calls_fetch h

theorem calls_fetchTags (h : asks .get (tagsPath repo)) :
    Calls (c.CallsFor asks) (c.fetchTags repo) := calls_fetch h

theorem calls_resolve {payload : ManifestPayload}
    (h : ∀ digest, asks .get (manifestPath repo digest)) :
    Calls (c.CallsFor asks) (c.resolve repo payload) := by
  unfold resolve
  split_ifs
  · refine calls_bind (calls_ofExcept _) fun list => ?_
    refine calls_bind (calls_ofExcept _) fun digest => ?_
    exact calls_bind (calls_fetch (h digest)) fun payload =>
      calls_bind (calls_ofExcept _) fun _ => calls_pure _
  · exact calls_bind (calls_ofExcept _) fun _ => calls_pure _

theorem calls_fetchTagInfo {tag : String}
    (h : ∀ reference, asks .get (manifestPath repo reference)) :
    Calls (c.CallsFor asks) (c.fetchTagInfo repo tag) := by
  refine calls_bind (calls_fetch (h tag)) fun payload => ?_
  refine calls_bind (calls_resolve h) fun resolved => ?_
  exact calls_bind (calls_ofExcept _) fun _ => calls_pure _

theorem calls_fetchConfig {descriptor : Descriptor}
    (h : ∀ digest, asks .get (blobPath repo digest)) :
    Calls (c.CallsFor asks) (c.fetchConfig repo descriptor) := by
  unfold fetchConfig
  split_ifs
  · exact calls_pure _
  · exact calls_bind (calls_fetch (h _)) fun _ =>
      calls_bind (calls_ofExcept _) fun _ => calls_pure _

theorem calls_fetchTagDetails {tag : String}
    (hmanifest : ∀ reference, asks .get (manifestPath repo reference))
    (hblob : ∀ digest, asks .get (blobPath repo digest)) :
    Calls (c.CallsFor asks) (c.fetchTagDetails repo tag) := by
  refine calls_bind (calls_fetch (hmanifest tag)) fun payload => ?_
  refine calls_bind (calls_resolve hmanifest) fun resolved => ?_
  exact calls_bind (calls_fetchConfig hblob) fun _ => calls_pure _

theorem calls_deleteTag {tag : String} (hlookup : asks .head (manifestPath repo tag))
    (hdelete : ∀ digest, asks .delete (manifestPath repo digest)) :
    Calls (c.CallsFor asks) (c.deleteTag repo tag) :=
  calls_bind (calls_adapt (calls_fetch hlookup)) fun digest =>
    calls_adapt (calls_fetch (hdelete digest))

theorem calls_repositoryTask (h : asks .get (tagsPath repo)) :
    (c.repositoryTask repo).Calls (c.CallsFor asks) := by
  unfold repositoryTask tagsTask
  rw [Task.calls_map]
  cases hcall : c.call? .get (tagsPath repo) [] with
  | none => trivial
  | some call => exact ⟨.get, tagsPath repo, [], h, hcall⟩

theorem calls_fetchCatalog {schedule : Schedule} {nameSpace : String}
    (hcatalog : asks .get "_catalog")
    (htags : ∀ repo, Text.beginsWith (nameSpace ++ "/") repo = true → asks .get (tagsPath repo)) :
    Calls (c.CallsFor asks) (c.fetchCatalog schedule nameSpace) := by
  refine Exchange.always_bind_except.2 (always_fetch hcatalog fun answer => ?_)
  cases hfound : repositoriesOf nameSpace answer with
  | error e => trivial
  | ok repositories =>
    -- of the names in the catalog only their beginning is known
    refine Task.always_gather fun task htask => ?_
    obtain ⟨repo, hrepo, rfl⟩ := List.mem_map.1 htask
    exact calls_repositoryTask (htags repo (repositoriesOf_eq_ok hfound repo hrepo))

end Client

end Registry

namespace Api

open Server (Refusal)
open Http (Response)
open Registry (Client Calls)

namespace Action

/-- The action may ask the registry for the path in this way.  The digests are any that the
registry may have answered, and the names of a catalog any with the right beginning. -/
inductive Asks : Action → Http.Method → String → Prop
  | catalog (nameSpace : String) : Asks (.listCatalog nameSpace) .get "_catalog"
  | catalogTags (nameSpace repo : String) (h : Text.beginsWith (nameSpace ++ "/") repo = true) :
    Asks (.listCatalog nameSpace) .get (Client.tagsPath repo)
  | repositories (nameSpace : String) : Asks (.listRepositories nameSpace) .get "_catalog"
  | tags (repo : String) : Asks (.listTags repo) .get (Client.tagsPath repo)
  | infoManifest (repo tag reference : String) :
    Asks (.showTagInfo repo tag) .get (Client.manifestPath repo reference)
  | detailsManifest (repo tag reference : String) :
    Asks (.showTagDetails repo tag) .get (Client.manifestPath repo reference)
  | detailsBlob (repo tag digest : String) :
    Asks (.showTagDetails repo tag) .get (Client.blobPath repo digest)
  | lookup (repo tag : String) : Asks (.deleteTag repo tag) .head (Client.manifestPath repo tag)
  | delete (repo tag digest : String) :
    Asks (.deleteTag repo tag) .delete (Client.manifestPath repo digest)

theorem Asks.method_eq {action : Action} {method : Http.Method} {path : String}
    (h : action.Asks method path) (hdeletes : action.deletes = false) : method = .get := by
  cases h with
  | lookup | delete => cases hdeletes
  | _ => rfl

theorem Asks.ne_showDashboard {method : Http.Method} {path : String} :
    ¬ showDashboard.Asks method path := nofun

/-- What the answer to an action may report: that it was done, or how the registry failed. -/
def Reports (status : Http.Status) : Prop :=
  status = 200 ∨ status = 404 ∨ status = 405 ∨ status = 502

instance (status : Http.Status) : Decidable (Reports status) :=
  inferInstanceAs (Decidable (_ ∨ _))

theorem Reports.ne_unauthorized {status : Http.Status} (h : Reports status) : status ≠ 401 := by
  rintro rfl
  revert h
  decide

theorem dashboardResponse_status (session : Session) :
    (dashboardResponse session).status = 200 := rfl

/-- A lookup is answered with success, or with the one response that every failure gets. -/
theorem answer_cases {α : Type} (render : α → Json.Value)
    (found : Except Registry.RegistryError α) :
    (answer render found).status = 200 ∨
      answer render found = Refusal.registryUnavailable.response := by
  cases found with
  | ok a => exact .inl rfl
  | error e => exact .inr rfl

theorem answer_status {α : Type} (render : α → Json.Value)
    (found : Except Registry.RegistryError α) :
    (answer render found).status = 200 ∨ (answer render found).status = 502 :=
  (answer_cases render found).imp_right fun h => by rw [h, Refusal.response_status]; rfl

theorem ofDeletion_status (e : Registry.DeletionError) : Reports (Refusal.ofDeletion e).status := by
  cases e with
  | lookup cause => cases h : cause.kind <;> simp only [Refusal.ofDeletion, h] <;> decide
  | delete cause => cases h : cause.kind <;> simp only [Refusal.ofDeletion, h] <;> decide

theorem deletionAnswer_status (repo tag : String) (done : Except Registry.DeletionError Unit) :
    Reports (deletionAnswer repo tag done).status := by
  cases done with
  | ok u => exact .inl rfl
  | error e =>
    rw [deletionAnswer, Refusal.response_status]
    exact ofDeletion_status e

theorem always_lookUp {α : Type} {P : Registry.Call → Prop} {work : Registry.Lookup α}
    {render : α → Json.Value} (h : Calls P work) :
    (lookUp work render).Always P fun r => Reports r.status :=
  Registry.Exchange.always_bind.2 (h.mono (fun _ => id) fun found _ =>
    .done ((answer_status render found).imp_right fun h => .inr (.inr h)))

/-- **An action calls for nothing but what it asks**, and its answer blames nobody but the
registry. -/
theorem always_perform (client : Client) (schedule : Registry.Schedule) (session : Session)
    (action : Action) : (action.perform client schedule session).Always
      (client.CallsFor action.Asks) fun r => Reports r.status := by
  cases action with
  | showDashboard => exact .done (.inl (dashboardResponse_status session))
  | listCatalog nameSpace =>
    exact always_lookUp (Client.calls_fetchCatalog (.catalog nameSpace) (.catalogTags nameSpace))
  | listRepositories nameSpace =>
    exact always_lookUp (Client.calls_fetchRepositories (.repositories nameSpace))
  | listTags repo =>
    exact always_lookUp (Client.calls_fetchTags (.tags repo))
  | showTagInfo repo tag =>
    exact always_lookUp (Client.calls_fetchTagInfo (.infoManifest repo tag))
  | showTagDetails repo tag =>
    exact always_lookUp (Client.calls_fetchTagDetails (.detailsManifest repo tag)
      (.detailsBlob repo tag))
  | deleteTag repo tag =>
    have hcalls : Calls (client.CallsFor (deleteTag repo tag).Asks) (client.deleteTag repo tag) :=
      Client.calls_deleteTag (.lookup repo tag) (.delete repo tag)
    exact Registry.Exchange.always_bind.2
      (hcalls.mono (fun _ => id) fun done _ => .done (deletionAnswer_status repo tag done))

end Action

/-- A request is answered with a refusal, or with what an action reports. -/
theorem always_respond (client : Client) (schedule : Registry.Schedule) (session : Session)
    (query : Bytes) (route : ApiRoute) : (respond client schedule session query route).Always
      (fun call => ∃ action, Action.decide session query route = .ok action ∧
        client.CallsFor action.Asks call)
      fun r => (∃ action, Action.decide session query route = .ok action ∧
          Action.Reports r.status) ∨
        ∃ refusal, Action.decide session query route = .error refusal ∧
          (r.status = 400 ∨ r.status = 403) := by
  unfold respond
  cases hd : Action.decide session query route with
  | error refusal =>
    refine .done (.inr ⟨refusal, rfl, ?_⟩)
    rw [Refusal.response_status]
    exact Action.decide_eq_error hd
  | ok action =>
    exact (Action.always_perform client schedule session action).mono
      (fun call hcall => ⟨action, rfl, hcall⟩) fun _ hr => .inl ⟨action, rfl, hr⟩

end Api

end ImageGateway
