import ImageGateway.Proofs.Except
import ImageGateway.Proofs.Registry.Exchange
import ImageGateway.Registry.Deletion
import Mathlib.Data.List.Basic

/-!
# Deletions that are reported

The client follows redirects, and it judges a deletion by the last response alone.  The registry may
redirect a deletion to another place where the deletion is repeated; but a response of status 303
turns it into a `GET`, and then the success of the `GET` is reported as that of the deletion.  That
is the only way in which a deletion is reported that the registry did not confirm.

* `Hop.isConfirmed`, `Hop.isDiverted` : a deletion that the registry confirms, and one that it turns
  into a `GET`.
* `followFrom_confirmed` : along a chain of redirects with a successful end, **one of the two
  happens and not the other**.
* `confirmed_iff_not_diverted` : **a deletion that is reported was confirmed, unless it was
  diverted.**
* `not_confirmed_of_diverted` : the exception is one.
-/

namespace ImageGateway

namespace Registry

/-! ### Deletions among the requests of a run -/

namespace Hop

/-- The registry was asked to delete and answered with a status of this kind. -/
def answersDelete (kind : Http.Status → Bool) (hop : Hop) : Bool :=
  hop.request.method == .delete && hop.answer.any fun response => kind response.status

/-- A deletion that the registry has done or accepted. -/
def isConfirmed (hop : Hop) : Bool := hop.answersDelete isDeleted

/-- A deletion that the registry answered with a page to look at. -/
def isDiverted (hop : Hop) : Bool := hop.answersDelete (· == 303)

variable {kind : Http.Status → Bool} {hop : Hop} {request : WireRequest} {response : Http.Response}

theorem answersDelete_of_method_ne (h : hop.request.method ≠ .delete) :
    hop.answersDelete kind = false := by
  simp [answersDelete, h]

theorem answersDelete_of_delete (h : request.method = .delete) :
    answersDelete kind ⟨request, some response⟩ = kind response.status := by
  simp [answersDelete, h]

end Hop

variable {σ α : Type}

/-- The requests of a run with their answers, in order. -/
def Run.hops (run : Run σ α) : List Hop := run.calls.flatMap CallRecord.hops

/-- Among the hops, there is a deletion that was confirmed exactly if there is none that was
diverted. -/
def ConfirmedUnlessDiverted (hops : List Hop) : Prop :=
  (∃ hop ∈ hops, hop.isConfirmed = true) ↔ ∀ hop ∈ hops, hop.isDiverted = false

/-- The hop is neither a deletion that was confirmed nor one that was diverted. -/
def Hop.IsNeutral (hop : Hop) : Prop := hop.isConfirmed = false ∧ hop.isDiverted = false

theorem Hop.isNeutral_of_method {hop : Hop} {method : Http.Method} (h : hop.request.method = method)
    (hmethod : method ≠ .delete) : hop.IsNeutral :=
  ⟨answersDelete_of_method_ne (h ▸ hmethod), answersDelete_of_method_ne (h ▸ hmethod)⟩

theorem confirmedUnlessDiverted_append {before hops : List Hop}
    (h : ∀ hop ∈ before, hop.IsNeutral) :
    ConfirmedUnlessDiverted (before ++ hops) ↔ ConfirmedUnlessDiverted hops := by
  have hconfirmed : (∃ hop ∈ before ++ hops, hop.isConfirmed = true) ↔
      ∃ hop ∈ hops, hop.isConfirmed = true := by
    refine ⟨fun ⟨hop, hmem, hc⟩ => ?_, fun ⟨hop, hmem, hc⟩ => ⟨hop, by simp [hmem], hc⟩⟩
    rcases List.mem_append.1 hmem with hmem | hmem
    · rw [(h hop hmem).1] at hc
      cases hc
    · exact ⟨hop, hmem, hc⟩
  have hdiverted : (∀ hop ∈ before ++ hops, hop.isDiverted = false) ↔
      ∀ hop ∈ hops, hop.isDiverted = false := by
    rw [List.forall_mem_append]
    exact and_iff_right fun hop hmem => (h hop hmem).2
  rw [ConfirmedUnlessDiverted, hconfirmed, hdiverted]
  rfl

theorem confirmedUnlessDiverted_of_confirmed {hop : Hop} (hconfirmed : hop.isConfirmed = true)
    (hdiverted : hop.isDiverted = false) : ConfirmedUnlessDiverted [hop] :=
  iff_of_true ⟨hop, List.mem_singleton_self hop, hconfirmed⟩ (by simpa using hdiverted)

theorem confirmedUnlessDiverted_of_diverted {hop : Hop} {hops : List Hop}
    (hconfirmed : hop.isConfirmed = false) (hdiverted : hop.isDiverted = true)
    (h : ∀ later ∈ hops, later.IsNeutral) : ConfirmedUnlessDiverted (hop :: hops) := by
  refine iff_of_false ?_ fun hnone => ?_
  · rintro ⟨later, hmem, hlater⟩
    rcases List.mem_cons.1 hmem with rfl | hmem
    · rw [hconfirmed] at hlater
      cases hlater
    · rw [(h later hmem).1] at hlater
      cases hlater
  · rw [hnone hop List.mem_cons_self] at hdiverted
    cases hdiverted

/-! ### Chains of redirects -/

theorem isRedirect_of_target {request : WireRequest} {response : Http.Response} {target : Url}
    (h : redirectTarget? request response = some target) : isRedirect response.status = true := by
  unfold redirectTarget? at h
  split at h
  · assumption
  · cases h

theorem isDeleted_of_isRedirect {status : Http.Status} (h : isRedirect status = true) :
    isDeleted status = false := by
  simp only [isRedirect, List.contains_iff_mem, List.mem_cons, List.not_mem_nil, or_false] at h
  rcases h with rfl | rfl | rfl | rfl | rfl <;> rfl

theorem ne_seeOther_of_isDeleted {status : Http.Status} (h : isDeleted status = true) :
    (status == 303) = false := by
  simp only [isDeleted, Bool.or_eq_true, decide_eq_true_eq] at h
  rcases h with rfl | rfl <;> rfl

/-- **A chain of redirects with a successful end** confirms the deletion or diverts it. -/
theorem followFrom_confirmed {registry : Behaviour σ} {request : WireRequest} {left : Nat}
    {answer : Option Http.Response} {st : σ} {response : Http.Response}
    (hmethod : request.method = .delete)
    (hanswer : (followFrom registry request left answer st).answer = some response)
    (hdeleted : isDeleted response.status = true) : ConfirmedUnlessDiverted
      (⟨request, answer⟩ :: (followFrom registry request left answer st).redirects) := by
  fun_induction followFrom registry request left answer st with
  | case1 => cases hanswer
  | case2 request _ last state _ =>
    -- the deletion is answered itself
    obtain rfl : last = response := Option.some.inj hanswer
    refine confirmedUnlessDiverted_of_confirmed ?_ ?_
    · rw [Hop.isConfirmed, Hop.answersDelete_of_delete hmethod, hdeleted]
    · rw [Hop.isDiverted, Hop.answersDelete_of_delete hmethod, ne_seeOther_of_isDeleted hdeleted]
  | case3 => cases hanswer
  | case4 => cases hanswer
  | case5 request first state target htarget _ left next answer state' hreg ending ih =>
    have hredirect := isRedirect_of_target htarget
    have hfirst : Hop.isConfirmed ⟨request, some first⟩ = false := by
      rw [Hop.isConfirmed, Hop.answersDelete_of_delete hmethod, isDeleted_of_isRedirect hredirect]
    have hnext : next.method = if first.status = 303 then .get else .delete :=
      redirected_delete hmethod
    by_cases hdiverts : first.status = 303
    · -- nothing but `GET` comes behind it
      rw [if_pos hdiverts] at hnext
      have hget : ∀ hop ∈ ⟨next, answer⟩ :: ending.redirects, hop.request.method = .get :=
        List.forall_mem_cons.2 ⟨hnext, followFrom_redirects
          (I := fun request => request.method = .get) (fun _ _ _ => redirected_get) hnext⟩
      refine confirmedUnlessDiverted_of_diverted hfirst ?_ fun hop hhop =>
        Hop.isNeutral_of_method (hget hop hhop) (by decide)
      rw [Hop.isDiverted, Hop.answersDelete_of_delete hmethod, hdiverts]
      rfl
    · rw [if_neg hdiverts] at hnext
      have hneutral : ∀ hop ∈ [Hop.mk request (some first)], hop.IsNeutral := by
        refine List.forall_mem_singleton.2 ⟨hfirst, ?_⟩
        rw [Hop.isDiverted, Hop.answersDelete_of_delete hmethod]
        simpa using hdiverts
      exact (confirmedUnlessDiverted_append hneutral).2 (ih hnext hanswer)

/-! ### The runs of the client -/

theorem perform_confirmed {registry : Behaviour σ} {call : Call} {st : σ} {response : Http.Response}
    (hfollow : call.redirects = .follow) (hmethod : call.request.method = .delete)
    (hanswer : (call.perform registry st).1 = some response)
    (hdeleted : isDeleted response.status = true) :
    ConfirmedUnlessDiverted (call.perform registry st).2.1.hops := by
  simp only [Call.perform, hfollow] at hanswer ⊢
  exact followFrom_confirmed hmethod hanswer hdeleted

theorem deletedOf_eq_ok_iff {answer : Option Http.Response} : deletedOf answer = .ok () ↔
    ∃ response, answer = some response ∧ isDeleted response.status = true := by
  cases answer with
  | none => simp [deletedOf]
  | some response => by_cases h : isDeleted response.status = true <;> simp [deletedOf, h]

/-- A lookup behind another one finds something only if the other one does. -/
theorem run_bind_of_ok {ε β : Type} {registry : Behaviour σ} {x : ExceptT ε Exchange α}
    {f : α → ExceptT ε Exchange β} {st : σ} {b : β}
    (h : ((x >>= f).run.run registry st).result = .ok b) :
    ∃ a, (x.run.run registry st).result = .ok a ∧
      ((f a).run.run registry (x.run.run registry st).state).result = .ok b ∧
      ((x >>= f).run.run registry st).hops = (x.run.run registry st).hops ++
        ((f a).run.run registry (x.run.run registry st).state).hops := by
  rw [Exchange.run_bind_except] at h ⊢
  dsimp only at h ⊢
  cases hfound : (x.run.run registry st).result with
  | error e =>
    rw [hfound] at h
    cases h
  | ok a =>
    rw [hfound] at h
    exact ⟨a, rfl, h, List.flatMap_append⟩

/-- Rewording a failure changes neither what is found nor what is sent. -/
theorem run_adapt {ε δ : Type} (registry : Behaviour σ) (f : ε → δ) (x : ExceptT ε Exchange α)
    (st : σ) : (x.adapt f).run.run registry st =
      ⟨(x.run.run registry st).result.mapError f, (x.run.run registry st).calls,
        (x.run.run registry st).state⟩ :=
  Exchange.run_bind_done (e := x.run)

theorem result_adapt {ε δ : Type} (registry : Behaviour σ) (f : ε → δ) (x : ExceptT ε Exchange α)
    (st : σ) : ((x.adapt f).run.run registry st).result =
      (x.run.run registry st).result.mapError f := congrArg Run.result (run_adapt registry f x st)

theorem hops_adapt {ε δ : Type} (registry : Behaviour σ) (f : ε → δ) (x : ExceptT ε Exchange α)
    (st : σ) : ((x.adapt f).run.run registry st).hops = (x.run.run registry st).hops :=
  congrArg Run.hops (run_adapt registry f x st)

namespace Client

variable {c : Client} {repo digest tag : String} {registry : Behaviour σ} {st : σ}

/-- What the client asks for, it asks once: a call that follows redirects, and what is read in the
answer to it.  Where the URL cannot be sent to, nothing is asked. -/
theorem run_fetch_cases (registry : Behaviour σ) (st : σ) (method : Http.Method) (path : String)
    (headers : Http.Headers) (read : Option Http.Response → Except RegistryError α) :
    let run := (c.fetch method path headers read).run.run registry st
    (run.result = read none ∧ run.hops = []) ∨
      ∃ call : Call, call.redirects = .follow ∧ call.request.method = method ∧
        run.result = read (call.perform registry st).1 ∧
        run.hops = (call.perform registry st).2.1.hops := by
  intro run
  have hrun : run = (c.fetch method path headers read).run.run registry st := rfl
  rw [hrun, run_fetch]
  cases hcall : c.call? method path headers with
  | none => exact .inl ⟨rfl, rfl⟩
  | some call =>
    obtain ⟨url, -, -, rfl⟩ := call?_eq_some hcall
    exact .inr ⟨_, rfl, rfl, rfl, by simp [Run.hops]⟩

/-- A deletion that is reported was confirmed, or it was diverted. -/
theorem deleteManifest_confirmed
    (h : ((c.deleteManifest repo digest).run.run registry st).result = .ok ()) :
    ConfirmedUnlessDiverted ((c.deleteManifest repo digest).run.run registry st).hops := by
  rcases c.run_fetch_cases registry st .delete (manifestPath repo digest) [] deletedOf with
    ⟨hresult, -⟩ | ⟨call, hfollow, hmethod, hresult, hhops⟩
  · have hnone := hresult.symm.trans h
    cases hnone
  · obtain ⟨response, hanswer, hdeleted⟩ := deletedOf_eq_ok_iff.1 (hresult.symm.trans h)
    rw [deleteManifest, hhops]
    exact perform_confirmed hfollow hmethod hanswer hdeleted

/-- Looking a tag up deletes nothing. -/
theorem fetchDigest_neutral : ∀ hop ∈ ((c.fetchDigest repo tag).run.run registry st).hops,
    hop.IsNeutral := by
  intro hop hhop
  rcases c.run_fetch_cases registry st .head (manifestPath repo tag) (acceptHeader manifestTypes)
    digestOf with ⟨-, hhops⟩ | ⟨call, -, hmethod, -, hhops⟩
  · rw [fetchDigest, hhops] at hhop
    cases hhop
  · rw [fetchDigest, hhops] at hhop
    exact Hop.isNeutral_of_method (perform_hops (I := fun request => request.method = .head)
      (fun _ _ _ => redirected_head) hmethod hop hhop) (by decide)

/-- **A deletion by tag that is reported** comes down to the deletion of a manifest that is. -/
theorem deleteTag_confirmed
    (h : ((c.deleteTag repo tag).run.run registry st).result = .ok ()) :
    ConfirmedUnlessDiverted ((c.deleteTag repo tag).run.run registry st).hops := by
  have hsteps : c.deleteTag repo tag = (c.fetchDigest repo tag).adapt DeletionError.lookup >>=
      fun digest => (c.deleteManifest repo digest).adapt DeletionError.delete := rfl
  rw [hsteps] at h ⊢
  obtain ⟨digest, -, hdone, hhops⟩ := run_bind_of_ok h
  rw [result_adapt, mapError_eq_ok_iff] at hdone
  rw [hhops, hops_adapt, hops_adapt]
  exact (confirmedUnlessDiverted_append fetchDigest_neutral).2 (deleteManifest_confirmed hdone)

end Client

/-- **A deletion that is reported was confirmed, unless it was diverted.**  Whatever the registry
answers: where a deletion of a manifest or of a tag is reported as done, one of the requests of the
client was a `DELETE` that the registry answered with 200 or 202, exactly if none was a `DELETE`
that it answered with 303. -/
theorem confirmed_iff_not_diverted {σ : Type} (c : Client) (repo reference : String)
    (registry : Behaviour σ) (st : σ) :
    (((c.deleteManifest repo reference).run.run registry st).result = .ok () →
      ConfirmedUnlessDiverted ((c.deleteManifest repo reference).run.run registry st).hops) ∧
    (((c.deleteTag repo reference).run.run registry st).result = .ok () →
      ConfirmedUnlessDiverted ((c.deleteTag repo reference).run.run registry st).hops) :=
  ⟨Client.deleteManifest_confirmed, Client.deleteTag_confirmed⟩

namespace Sample

/-- A client of a registry. -/
def client : Client := .ofText "http://registry:5000" 4

/-- A registry that knows every tag, answers a deletion with this status and another place, and
accepts whatever it is asked there. -/
def redirecting (status : Http.Status) : Behaviour Unit := fun _ request =>
  if request.method = .head then
    (some { status := 200
            headers := [.ofText "docker-content-digest" "sha256:0a"]
            body := [] }, ())
  else if request.url.pathText = "/done" then
    (some { status := 200, headers := [], body := [] }, ())
  else (some { status, headers := [.ofText "location" "/done"], body := [] }, ())

end Sample

/-- A deletion that is redirected as it is. -/
theorem confirmed_of_redirected :
    (∃ hop ∈ ((Sample.client.deleteManifest "team1/app" "sha256:0a").run.run
      (Sample.redirecting 307) ()).hops, hop.isConfirmed = true) ∧
    ∃ hop ∈ ((Sample.client.deleteTag "team1/app" "sha256:0a").run.run
      (Sample.redirecting 307) ()).hops, hop.isConfirmed = true := by
  obtain ⟨hmanifest, htag⟩ := confirmed_iff_not_diverted Sample.client "team1/app" "sha256:0a"
    (Sample.redirecting 307) ()
  exact ⟨(hmanifest (by decide +kernel)).2 (by decide +kernel),
    (htag (by decide +kernel)).2 (by decide +kernel)⟩

/-- A deletion that is turned into a `GET` is reported, although nothing was deleted. -/
theorem not_confirmed_of_diverted :
    let manifest := (Sample.client.deleteManifest "team1/app" "sha256:0a").run.run
      (Sample.redirecting 303) ()
    let tag := (Sample.client.deleteTag "team1/app" "v1").run.run (Sample.redirecting 303) ()
    (manifest.result = .ok () ∧ ¬ ∃ hop ∈ manifest.hops, hop.isConfirmed = true) ∧
      tag.result = .ok () ∧ ¬ ∃ hop ∈ tag.hops, hop.isConfirmed = true := by
  decide +kernel

end Registry

end ImageGateway
