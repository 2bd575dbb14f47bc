import ImageGateway.Proofs.Registry.Confinement
import ImageGateway.Proofs.Registry.Deletion
import ImageGateway.Proofs.Url.Reading

/-!
# The two steps of a deletion

A tag is deleted by the digest that its lookup found, so everything hangs on the lookup: which of
its responses counts, what it must state, and that nothing is deleted where it states nothing.

* `Client.Sends`, `Client.sends_iff` : whether a client can ask at all does not depend on what it
  asks for, since only the authority of a URL can be wrong.
* `CallRecord.last`, `perform_eq_some_iff` : the response that ends a call.
* `CallRecord.digest?` : the digest that a lookup found.
* `deletion_follows_lookup` : **a deletion is a lookup and then, only if that found a digest, one
  deletion of the manifest with this digest.**
-/

namespace ImageGateway

namespace Registry

variable {σ : Type}

/-! ### Clients that can ask -/

namespace Client

/-- The root of the registry protocol has a URL for HTTP. -/
def Sends (c : Client) : Prop := ∃ url, Url.parse (c.url "") = .ok url ∧ url.isHttp = true

theorem exists_url_of_exists_url {c : Client} {path : String}
    (h : ∃ url, Url.parse (c.url path) = .ok url ∧ url.isHttp = true) (other : String) :
    ∃ url, Url.parse (c.url other) = .ok url ∧ url.isHttp = true := by
  obtain ⟨url, hurl, hhttp⟩ := h
  -- the base and the root of the protocol stand in front of either path
  have hclean (path : String) : Url.clean (c.url path).toList =
      Url.opening c.base.toList ++ '/' :: ("v2".toList ++ '/' :: Url.tidy path.toList) := by
    rw [url_toList, Url.clean_append (by rfl),
      Url.tidy_append (by rfl) (Url.isBlank_of_any (by decide))]
  obtain ⟨rest, a, hcut, hauthority, ha, -⟩ := Url.exists_of_parseChars hurl hhttp
  rw [hclean, Url.cutScheme?_append_slash] at hcut
  obtain ⟨⟨scheme, front⟩, hbase, hparts⟩ := Option.map_eq_some_iff.1 hcut
  obtain ⟨rfl, rfl⟩ := Prod.mk.inj hparts
  have hassoc (tail : List Char) : front ++ '/' :: ("v2".toList ++ '/' :: tail) =
      (front ++ '/' :: "v2".toList) ++ '/' :: tail := by simp
  dsimp only at hauthority ha
  rw [hassoc] at hauthority ha
  have hfront : Url.HasAuthority (front ++ '/' :: "v2".toList) :=
    Url.hasAuthority_of_append hauthority ⟨'v', by simp, by decide⟩
  rw [Url.authorityText_append_slash hfront] at ha
  have hcut' : Url.cutScheme? (Url.clean (c.url other).toList) =
      some (url.scheme, (front ++ '/' :: "v2".toList) ++ '/' :: Url.tidy other.toList) := by
    rw [hclean, Url.cutScheme?_append_slash, hbase, ← hassoc]
    rfl
  have hread := Url.parseChars_of_cut hcut' (Url.isServerScheme_of_isHttp hhttp)
  rw [Url.authorityText_append_slash hfront, ha] at hread
  exact ⟨_, hread, hhttp⟩

/-- **Whether a client can ask does not depend on what it asks for.** -/
theorem sends_iff (c : Client) (path : String) :
    c.Sends ↔ ∃ url, Url.parse (c.url path) = .ok url ∧ url.isHttp = true :=
  ⟨fun h => exists_url_of_exists_url h path, fun h => exists_url_of_exists_url h ""⟩

variable {c : Client}

theorem call?_of_sends (h : c.Sends) (method : Http.Method) (path : String)
    (headers : Http.Headers) : ∃ url, Url.parse (c.url path) = .ok url ∧
    c.call? method path headers = some ⟨.follow, .make method url headers []⟩ := by
  obtain ⟨url, hurl, hhttp⟩ := (c.sends_iff path).1 h
  exact ⟨url, hurl, by simp [call?, hurl, hhttp]⟩

theorem call?_of_not_sends (h : ¬ c.Sends) (method : Http.Method) (path : String)
    (headers : Http.Headers) : c.call? method path headers = none := by
  rw [Option.eq_none_iff_forall_ne_some]
  intro call hcall
  obtain ⟨url, hurl, hhttp, -⟩ := call?_eq_some hcall
  exact h ((c.sends_iff path).2 ⟨url, hurl, hhttp⟩)

end Client

/-! ### The end of a call -/

/-- The request whose answer ended the call. -/
def CallRecord.last (r : CallRecord) : Hop := r.redirects.getLast?.getD r.first

/-- The response that ends a chain of redirects is that to its last request; there is none if the
chain goes on from there. -/
theorem followFrom_eq_some_iff {registry : Behaviour σ} {request : WireRequest} {left : Nat}
    {answer : Option Http.Response} {st : σ} {response : Http.Response}
    (h : isRedirect response.status = false) :
    (followFrom registry request left answer st).answer = some response ↔
      ((followFrom registry request left answer st).redirects.getLast?.getD
        ⟨request, answer⟩).answer = some response := by
  fun_induction followFrom registry request left answer st with
  | case1 => simp
  | case2 => simp
  | case3 request _ first state target htarget _ | case4 request first state target htarget _ =>
    have hredirect := isRedirect_of_target htarget
    simp only [reduceCtorEq, List.getLast?_nil, Option.getD_none, Option.some.injEq, false_iff]
    rintro rfl
    rw [h] at hredirect
    cases hredirect
  | case5 request first state target htarget _ left next answer state' hreg ending ih =>
    simp only [List.getLast?_cons, Option.getD_some]
    exact ih

theorem perform_eq_some_iff {registry : Behaviour σ} {call : Call} {st : σ}
    {response : Http.Response} (h : isRedirect response.status = false) :
    (call.perform registry st).1 = some response ↔
      (call.perform registry st).2.1.last.answer = some response := by
  unfold Call.perform
  cases call.redirects with
  | passOn => rfl
  | follow => exact followFrom_eq_some_iff h

/-- The digest that a lookup found: its last response has status 200, and the first field for the
digest is a text and not empty. -/
def CallRecord.digest? (r : CallRecord) : Option String :=
  r.last.answer.bind fun response =>
    if response.status = 200 then
      (response.headers.firstText? digestHeader).filter (!·.isEmpty)
    else none

theorem CallRecord.digest?_eq_some_iff {r : CallRecord} {digest : String} :
    r.digest? = some digest ↔ ∃ response, r.last.answer = some response ∧ response.status = 200 ∧
      response.headers.firstText? digestHeader = some digest ∧ digest.isEmpty = false := by
  simp only [digest?, Option.bind_eq_some_iff]
  refine exists_congr fun response => and_congr_right fun _ => ?_
  by_cases h : response.status = 200
  · simp [h, Option.filter_eq_some_iff]
  · simp [h]

theorem successOf_eq_ok_iff {answer : Option Http.Response} {response : Http.Response} :
    successOf answer = .ok response ↔ answer = some response ∧ response.status = 200 := by
  cases answer with
  | none => simp [successOf]
  | some found =>
    by_cases h : found.status = 200
    · simp only [successOf, h, if_true, Except.ok.injEq, Option.some.injEq, iff_self_and]
      rintro rfl
      exact h
    · simp only [successOf, h, if_false, reduceCtorEq, Option.some.injEq, false_iff, not_and]
      rintro rfl
      exact h

namespace Client

theorem digestOf_eq_ok_iff {answer : Option Http.Response} {digest : String} :
    digestOf answer = .ok digest ↔ ∃ response, answer = some response ∧ response.status = 200 ∧
      response.headers.firstText? digestHeader = some digest ∧ digest.isEmpty = false := by
  simp only [digestOf, bind_eq_ok_iff, successOf_eq_ok_iff, and_assoc]
  refine exists_congr fun response => and_congr_right fun _ => and_congr_right fun _ => ?_
  cases response.headers.firstText? digestHeader with
  | none => simp
  | some found =>
    by_cases hempty : found.isEmpty = true
    · simp only [hempty, if_true, reduceCtorEq, Option.some.injEq, false_iff, not_and]
      rintro rfl
      simp [hempty]
    · simp only [Bool.not_eq_true] at hempty
      simp only [hempty, Bool.false_eq_true, if_false, Except.ok.injEq, Option.some.injEq,
        iff_self_and]
      rintro rfl
      exact hempty

/-- A lookup finds the digest that its last response states. -/
theorem digestOf_perform {registry : Behaviour σ} {call : Call} {st : σ} {digest : String} :
    digestOf (call.perform registry st).1 = .ok digest ↔
      (call.perform registry st).2.1.digest? = some digest := by
  rw [digestOf_eq_ok_iff, CallRecord.digest?_eq_some_iff]
  refine exists_congr fun response => and_congr_left fun ⟨hstatus, _⟩ => ?_
  exact perform_eq_some_iff (by rw [hstatus]; rfl)

/-- What a lookup of a digest records, and the digest or the failure that it comes to. -/
theorem run_fetchDigest (c : Client) (hc : c.Sends) (repo tag : String) (registry : Behaviour σ)
    (st : σ) : ∃ url lookup st' found, (c.fetchDigest repo tag).run.run registry st =
        ⟨found, [lookup], st'⟩ ∧
      Url.parse (c.url (manifestPath repo tag)) = .ok url ∧
      lookup.first.request = .make .head url (acceptHeader manifestTypes) [] ∧
      (∀ hop ∈ lookup.hops, hop.request.method = .head) ∧
      ∀ digest, found = .ok digest ↔ lookup.digest? = some digest := by
  obtain ⟨url, hurl, hcall⟩ :=
    call?_of_sends hc .head (manifestPath repo tag) (acceptHeader manifestTypes)
  have hrun := c.run_fetch registry st .head (manifestPath repo tag) (acceptHeader manifestTypes)
    digestOf
  rw [hcall] at hrun
  refine ⟨url, _, _, _, hrun, hurl, perform_first _ _ _, ?_, fun digest => digestOf_perform⟩
  exact perform_hops (I := fun request => request.method = .head)
    (fun _ _ _ => redirected_head) rfl

theorem run_deleteManifest (c : Client) (hc : c.Sends) (repo digest : String)
    (registry : Behaviour σ) (st : σ) :
    ∃ url deletion st' found, (c.deleteManifest repo digest).run.run registry st =
        ⟨found, [deletion], st'⟩ ∧
      Url.parse (c.url (manifestPath repo digest)) = .ok url ∧
      deletion.first.request = .make .delete url [] [] := by
  obtain ⟨url, hurl, hcall⟩ := call?_of_sends hc .delete (manifestPath repo digest) []
  have hrun := c.run_fetch registry st .delete (manifestPath repo digest) [] deletedOf
  rw [hcall] at hrun
  exact ⟨url, _, _, _, hrun, hurl, perform_first _ _ _⟩

end Client

/-- The steps of a deletion by tag, one after the other. -/
theorem run_deleteTag (c : Client) (repo tag : String) (registry : Behaviour σ) (st : σ) :
    (c.deleteTag repo tag).run.run registry st =
      let lookup := (c.fetchDigest repo tag).run.run registry st
      match lookup.result with
      | .error e => ⟨.error (.lookup e), lookup.calls, lookup.state⟩
      | .ok digest =>
        let deletion := (c.deleteManifest repo digest).run.run registry lookup.state
        ⟨deletion.result.mapError .delete, lookup.calls ++ deletion.calls, deletion.state⟩ := by
  have hsteps : c.deleteTag repo tag = (c.fetchDigest repo tag).adapt DeletionError.lookup >>=
      fun digest => (c.deleteManifest repo digest).adapt DeletionError.delete := rfl
  rw [hsteps, Exchange.run_bind_except, run_adapt]
  dsimp only
  cases (Exchange.run registry (c.fetchDigest repo tag).run st).result with
  | error e => rfl
  | ok digest =>
    dsimp only [Except.mapError]
    rw [run_adapt]
    rfl

/-- **A deletion by tag is a lookup and then, only if that found a digest, one deletion of the
manifest with this digest.**  Whatever the registry answers, the first request is a `HEAD` for the
tag, and all that follows it before the lookup ends are redirects of it.  If its last response has
status 200 and states a digest, the next request is a `DELETE` for this very digest, nothing but
redirects comes behind that, and what fails then fails as a deletion.  Otherwise nothing more is
sent, and the lookup has failed.  A client that has no URL to ask sends nothing at all. -/
theorem deletion_follows_lookup (c : Client) (repo tag : String) (registry : Behaviour σ) (st : σ) :
    let run := (c.deleteTag repo tag).run.run registry st
    (¬ c.Sends → run.calls = [] ∧ run.result = .error (.lookup .network)) ∧
    (c.Sends → ∃ (url : Url) (lookup : CallRecord),
      Url.parse (c.url (Client.manifestPath repo tag)) = .ok url ∧
      lookup.first.request = .make .head url (acceptHeader Client.manifestTypes) [] ∧
      (∀ hop ∈ lookup.hops, hop.request.method = .head) ∧
      match lookup.digest? with
      | none => run.calls = [lookup] ∧ ∃ e, run.result = .error (.lookup e)
      | some digest => ∃ (target : Url) (deletion : CallRecord),
          Url.parse (c.url (Client.manifestPath repo digest)) = .ok target ∧
          deletion.first.request = .make .delete target [] [] ∧
          run.calls = [lookup, deletion] ∧
          (run.result = .ok () ∨ ∃ e, run.result = .error (.delete e))) := by
  intro run
  have hrun : run = (c.deleteTag repo tag).run.run registry st := rfl
  rw [run_deleteTag] at hrun
  refine ⟨fun hc => ?_, fun hc => ?_⟩
  · have hlookup := c.run_fetch registry st .head (Client.manifestPath repo tag)
      (acceptHeader Client.manifestTypes) Client.digestOf
    rw [Client.call?_of_not_sends hc] at hlookup
    rw [Client.fetchDigest, hlookup] at hrun
    rw [hrun]
    exact ⟨rfl, rfl⟩
  · obtain ⟨url, lookup, st', found, hlookup, hurl, hfirst, hhead, hdigest⟩ :=
      c.run_fetchDigest hc repo tag registry st
    refine ⟨url, lookup, hurl, hfirst, hhead, ?_⟩
    rw [hlookup] at hrun
    cases found with
    | error e =>
      have hnone : lookup.digest? = none := by
        rw [Option.eq_none_iff_forall_ne_some]
        intro digest h
        cases (hdigest digest).2 h
      rw [hnone, hrun]
      exact ⟨rfl, e, rfl⟩
    | ok digest =>
      obtain ⟨target, deletion, st'', done, hdeletion, htarget, hfirst'⟩ :=
        c.run_deleteManifest hc repo digest registry st'
      rw [(hdigest digest).1 rfl, hrun]
      dsimp only
      rw [hdeletion]
      refine ⟨target, deletion, htarget, hfirst', rfl, ?_⟩
      cases done with
      | error e => exact .inr ⟨e, rfl⟩
      | ok _ => exact .inl rfl

/-- A deletion whose lookup finds a digest, and one by a client that has no URL to ask. -/
theorem deletion_of_found :
    (Sample.client.Sends ∧ ∃ (lookup deletion : CallRecord) (target : Url),
      ((Sample.client.deleteTag "team1/app" "v1").run.run (Sample.redirecting 307) ()).calls =
        [lookup, deletion] ∧
      Url.parse "http://registry:5000/v2/team1/app/manifests/sha256:0a" = .ok target ∧
      deletion.first.request = .make .delete target [] []) ∧
    ¬ (Client.ofText "http://registry:5000 " 4).Sends ∧
      (((Client.ofText "http://registry:5000 " 4).deleteTag "team1/app" "v1").run.run
        (Sample.redirecting 307) ()).result = .error (.lookup .network) := by
  have hsends : Sample.client.Sends := by
    refine ⟨⟨"http".toList, some ⟨[], [], .name "registry".toList, some 5000⟩,
      .segments ["v2".toList, []], none, none⟩, ?_, ?_⟩ <;> decide +kernel
  have hblank : ¬ (Client.ofText "http://registry:5000 " 4).Sends := by
    have hparse : Url.parse ((Client.ofText "http://registry:5000 " 4).url "") =
        .error .invalidPort := by decide +kernel
    rintro ⟨url, hurl, -⟩
    rw [hparse] at hurl
    cases hurl
  have hdigest : (((Sample.client.deleteTag "team1/app" "v1").run.run
      (Sample.redirecting 307) ()).calls.head?.bind CallRecord.digest?) = some "sha256:0a" := by
    decide +kernel
  obtain ⟨url, lookup, -, -, -, hsteps⟩ := (deletion_follows_lookup Sample.client "team1/app" "v1"
    (Sample.redirecting 307) ()).2 hsends
  refine ⟨⟨hsends, ?_⟩, hblank, ((deletion_follows_lookup _ _ _ _ _).1 hblank).2⟩
  split at hsteps
  · rename_i hnone
    rw [hsteps.1, List.head?_cons, Option.bind_some, hnone] at hdigest
    cases hdigest
  · rename_i digest hsome
    obtain ⟨target, deletion, htarget, hfirst, hcalls, -⟩ := hsteps
    rw [hcalls, List.head?_cons, Option.bind_some, hsome] at hdigest
    cases hdigest
    exact ⟨lookup, deletion, target, hcalls, htarget, hfirst⟩

end Registry

end ImageGateway
