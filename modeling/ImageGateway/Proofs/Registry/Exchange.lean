import ImageGateway.Registry.Catalog

/-!
# What an exchange may do

An exchange is a tree, so what it asks of the registry is said by a predicate on trees:
`Exchange.Always P Q` holds if every call of every branch satisfies `P` and every result satisfies
`Q`.  It is proved along the program, by one rule for each way of putting exchanges together, and
without a registry in sight; `Exchange.Always.result` and `Exchange.Always.hops` then say what it
means for a run in front of any registry, redirects included.

* `Exchange.always_bind` : the rule for one exchange after another.
* `Exchange.always_bind_except` : the same for lookups, which a failure ends.
* `Task.always_gather` : the rule for tasks that wait side by side.
* `Exchange.Always.calls`, `Exchange.Always.hops` : **every request that a run sends goes back to a
  call of the tree.**
-/

namespace ImageGateway

namespace Registry

variable {σ ε α β : Type} {P P' : Call → Prop}

namespace Exchange

/-- Every call that the exchange may make satisfies `P` and every result that it may have satisfies
`Q`, whatever it is answered. -/
inductive Always (P : Call → Prop) (Q : α → Prop) : Exchange α → Prop
  | done {a : α} (h : Q a) : Always P Q (.done a)
  | call {c : Call} {next : Option Http.Response → Exchange α} (hc : P c)
    (hnext : ∀ answer, Always P Q (next answer)) : Always P Q (.call c next)

@[simp] theorem always_done {Q : α → Prop} {a : α} : (done a).Always P Q ↔ Q a :=
  ⟨fun h => by cases h with | done h => exact h, .done⟩

@[simp] theorem always_call {Q : α → Prop} {c : Call} {next : Option Http.Response → Exchange α} :
    (call c next).Always P Q ↔ P c ∧ ∀ answer, (next answer).Always P Q :=
  ⟨fun h => by cases h with | call hc hnext => exact ⟨hc, hnext⟩, fun h => .call h.1 h.2⟩

theorem Always.mono {Q Q' : α → Prop} {e : Exchange α} (h : e.Always P Q)
    (hP : ∀ c, P c → P' c) (hQ : ∀ a, Q a → Q' a) : e.Always P' Q' := by
  induction h with
  | done h => exact .done (hQ _ h)
  | call hc _ ih => exact .call (hP _ hc) ih

@[simp] theorem always_bind {Q : β → Prop} {e : Exchange α} {f : α → Exchange β} :
    (e >>= f).Always P Q ↔ e.Always P fun a => (f a).Always P Q := by
  induction e with
  | done a => rw [done_bind, always_done]
  | call c next ih =>
    rw [call_bind, always_call, always_call]
    exact and_congr_right fun _ => forall_congr' ih

/-- A lookup goes on with what the one before it found; its failure is the failure of both. -/
theorem always_bind_except {Q : Except ε β → Prop} {x : ExceptT ε Exchange α}
    {f : α → ExceptT ε Exchange β} :
    (x >>= f).run.Always P Q ↔ x.run.Always P fun found =>
      match found with
      | .ok a => (f a).run.Always P Q
      | .error e => Q (.error e) := by
  rw [ExceptT.run_bind, always_bind]
  refine iff_of_eq (congrArg (Always P · x.run) (funext fun found => ?_))
  cases found with
  | error e => exact propext always_done
  | ok a => rfl

end Exchange

/-! ### Tasks side by side -/

namespace Task

/-- The call of the task, if it has one to make, satisfies `P`. -/
def Calls (P : Call → Prop) : Task β → Prop
  | .finished _ => True
  | .waiting c _ => P c

theorem calls_map {γ : Type} {f : β → γ} {t : Task β} : (t.map f).Calls P ↔ t.Calls P := by
  cases t <;> exact Iff.rfl

/-- The calls of the tasks are all that is called, whatever the schedule. -/
theorem always_gather {window : Nat} {schedule : Schedule} {tasks : List (Task (Except ε β))}
    (h : ∀ t ∈ tasks, t.Calls P) : (gather window schedule tasks).Always P fun _ => True := by
  fun_induction gather window schedule tasks with
  | case1 => exact .done trivial
  | case2 => exact .done trivial
  | case3 schedule b rest ih =>
    rw [Exchange.always_bind]
    exact (ih fun t ht => h t (List.mem_cons_of_mem _ ht)).mono (fun _ => id)
      fun _ _ => .done trivial
  | case4 => exact .done trivial
  | case5 schedule c next rest inFlight s hs ih =>
    have htasks := eq_of_select hs
    rw [htasks] at h
    -- the task that is picked makes its call, and is finished in the list from then on
    refine .call (h (.waiting s.call s.next) (by simp)) (fun answer => ih answer fun t ht => ?_)
    rcases List.mem_append.1 ht with ht | ht
    · exact h t (List.mem_append_left _ ht)
    rcases List.mem_cons.1 ht with rfl | ht
    · trivial
    · exact h t (List.mem_append_right _ (List.mem_cons_of_mem _ ht))

end Task

/-! ### Runs -/

theorem perform_first (registry : Behaviour σ) (c : Call) (st : σ) :
    (c.perform registry st).2.1.first.request = c.request := by
  unfold Call.perform
  cases c.redirects <;> rfl

theorem perform_redirects_of_passOn {registry : Behaviour σ} {c : Call} {st : σ}
    (h : c.redirects = .passOn) : (c.perform registry st).2.1.redirects = [] := by
  simp only [Call.perform, h]

/-- A redirected `GET` is a `GET`. -/
theorem redirected_get {request : WireRequest} {status : Http.Status} {target : Url}
    (h : request.method = .get) : (redirected request status target).method = .get := by
  simp only [redirected, redirectedMethod, h]
  split
  · rfl
  · split <;> rfl

/-- A redirected `HEAD` is a `HEAD`. -/
theorem redirected_head {request : WireRequest} {status : Http.Status} {target : Url}
    (h : request.method = .head) : (redirected request status target).method = .head := by
  have hpost : (Http.Method.head == .post) = false := rfl
  simp [redirected, redirectedMethod, h, hpost]

/-- A redirected `DELETE` is a `DELETE`, unless the status is 303. -/
theorem redirected_delete {request : WireRequest} {status : Http.Status} {target : Url}
    (h : request.method = .delete) : (redirected request status target).method =
      if status = 303 then .get else .delete := by
  have hhead : (Http.Method.delete != .head) = true := rfl
  have hpost : (Http.Method.delete == .post) = false := rfl
  simp [redirected, redirectedMethod, h, hhead, hpost]

/-- What every redirect preserves holds of all the requests behind the first one. -/
theorem followFrom_redirects {I : WireRequest → Prop}
    (hI : ∀ request status target, I request → I (redirected request status target))
    {registry : Behaviour σ} {request : WireRequest} {left : Nat} {answer : Option Http.Response}
    {st : σ} (h : I request) :
    ∀ hop ∈ (followFrom registry request left answer st).redirects, I hop.request := by
  fun_induction followFrom registry request left answer st with
  | case1 | case2 | case3 | case4 => simp
  | case5 request response state target htarget _ left next answer state' hreg ending ih =>
    rintro hop (_ | ⟨_, hhop⟩)
    · exact hI request response.status target h
    · exact ih (hI request response.status target h) hop hhop

theorem perform_hops {I : WireRequest → Prop}
    (hI : ∀ request status target, I request → I (redirected request status target))
    {registry : Behaviour σ} {c : Call} {st : σ} (h : I c.request) :
    ∀ hop ∈ (c.perform registry st).2.1.hops, I hop.request := by
  rintro hop (_ | ⟨_, hhop⟩)
  · rwa [perform_first]
  · cases hc : c.redirects with
    | passOn =>
      rw [perform_redirects_of_passOn hc] at hhop
      cases hhop
    | follow =>
      simp only [Call.perform, hc] at hhop
      exact followFrom_redirects hI h hop hhop

namespace Exchange

theorem run_done (registry : Behaviour σ) (a : α) (st : σ) :
    (done a).run registry st = ⟨a, [], st⟩ := rfl

theorem run_call (registry : Behaviour σ) (c : Call) (next : Option Http.Response → Exchange α)
    (st : σ) : (call c next).run registry st =
      let made := c.perform registry st
      let rest := (next made.1).run registry made.2.2
      { rest with calls := made.2.1 :: rest.calls } := rfl

theorem run_bind (registry : Behaviour σ) (e : Exchange α) (f : α → Exchange β) (st : σ) :
    (e >>= f).run registry st =
      let first := e.run registry st
      let rest := (f first.result).run registry first.state
      { rest with calls := first.calls ++ rest.calls } := by
  induction e generalizing st with
  | done a => rfl
  | call c next ih => simp only [call_bind, run_call, ih, List.cons_append]

theorem run_bind_done {registry : Behaviour σ} {e : Exchange α} {f : α → β} {st : σ} :
    (e >>= fun a => .done (f a)).run registry st =
      { e.run registry st with result := f (e.run registry st).result } := by
  simp only [run_bind, run_done, List.append_nil]

/-- A lookup goes on in the state that the one before it leaves. -/
theorem run_bind_except (registry : Behaviour σ) (x : ExceptT ε Exchange α)
    (f : α → ExceptT ε Exchange β) (st : σ) : (x >>= f).run.run registry st =
      let first := x.run.run registry st
      match first.result with
      | .error e => ⟨.error e, first.calls, first.state⟩
      | .ok a =>
        let rest := (f a).run.run registry first.state
        ⟨rest.result, first.calls ++ rest.calls, rest.state⟩ := by
  rw [ExceptT.run_bind, run_bind]
  dsimp only
  cases (x.run.run registry st).result with
  | error e => simp [run_done]
  | ok a => rfl

/-- Lookups that succeed one after the other succeed together, with the calls of both. -/
theorem run_bind_eq_ok_iff {registry : Behaviour σ} {x : ExceptT ε Exchange α}
    {f : α → ExceptT ε Exchange β} {st st' : σ} {b : β} {calls : List CallRecord} :
    (x >>= f).run.run registry st = ⟨.ok b, calls, st'⟩ ↔ ∃ a first middle rest,
      x.run.run registry st = ⟨.ok a, first, middle⟩ ∧
      (f a).run.run registry middle = ⟨.ok b, rest, st'⟩ ∧ first ++ rest = calls := by
  rw [run_bind_except]
  obtain ⟨found, first, middle⟩ := x.run.run registry st
  cases found with
  | error e => simp
  | ok a =>
    dsimp only
    constructor
    · intro h
      obtain ⟨hresult, hcalls, hstate⟩ := Run.mk.inj h
      exact ⟨a, first, middle, _, rfl, by rw [← hresult, ← hstate], hcalls⟩
    · rintro ⟨_, _, _, rest, hfirst, hrest, rfl⟩
      obtain ⟨ha, rfl, rfl⟩ := Run.mk.inj hfirst
      obtain rfl := Except.ok.inj ha
      rw [hrest]

/-- The result of a run is one of the results of the tree. -/
theorem Always.result {Q : α → Prop} {e : Exchange α} (h : e.Always P Q) (registry : Behaviour σ)
    (st : σ) : Q (e.run registry st).result := by
  induction h generalizing st with
  | done h => exact h
  | call _ _ ih => exact ih _ _

/-- Every record of a run is that of a call of the tree. -/
theorem Always.calls {Q : α → Prop} {e : Exchange α} (h : e.Always P Q) (registry : Behaviour σ)
    (st : σ) : ∀ r ∈ (e.run registry st).calls,
      ∃ c st', P c ∧ r = (c.perform registry st').2.1 := by
  induction h generalizing st with
  | done _ => simp [run]
  | call hc _ ih =>
    rintro r (_ | ⟨_, hr⟩)
    · exact ⟨_, st, hc, rfl⟩
    · exact ih _ _ r hr

/-- Where no call is possible, none is made. -/
theorem Always.calls_eq_nil {Q : α → Prop} {e : Exchange α} (h : e.Always P Q) (hP : ∀ c, ¬ P c)
    (registry : Behaviour σ) (st : σ) : (e.run registry st).calls = [] := by
  rw [List.eq_nil_iff_forall_not_mem]
  intro r hr
  obtain ⟨c, -, hc, -⟩ := h.calls registry st r hr
  exact hP c hc

/-- **What holds of the calls and is kept by redirects holds of every request that is sent.** -/
theorem Always.hops {Q : α → Prop} {I : WireRequest → Prop}
    (hI : ∀ request status target, I request → I (redirected request status target))
    {e : Exchange α} (h : e.Always (fun c => I c.request) Q) (registry : Behaviour σ) (st : σ) :
    ∀ r ∈ (e.run registry st).calls, ∀ hop ∈ r.hops, I hop.request := by
  intro r hr
  obtain ⟨c, st', hc, rfl⟩ := h.calls registry st r hr
  exact perform_hops hI hc

end Exchange

theorem send_of_takes {redirects : Redirects} {method : Http.Method} {url : Url}
    {headers : Http.Headers} {stream : Option Bytes} {body : Bytes} (htakes : takesUrl url = true)
    (hbody : sentBody? method headers stream = some body) :
    send redirects method url headers stream =
      .call ⟨redirects, .make method url headers body⟩ .done := by
  simp only [send, hbody, if_pos htakes]

theorem send_of_not_takes {redirects : Redirects} {method : Http.Method} {url : Url}
    {headers : Http.Headers} {stream : Option Bytes}
    (h : takesUrl url = false ∨ sentBody? method headers stream = none) :
    send redirects method url headers stream = .done none := by
  unfold send
  rcases h with h | h
  · simp only [h]
    cases sentBody? method headers stream <;> rfl
  · rw [h]

/-- What is sent to a URL is one call at most, and the URL and the fields are those that were
given. -/
theorem always_send (redirects : Redirects) (method : Http.Method) (url : Url)
    (headers : Http.Headers) (stream : Option Bytes) :
    (send redirects method url headers stream).Always
      (fun c => ∃ body, c = ⟨redirects, .make method url headers body⟩) fun _ => True := by
  unfold send
  cases sentBody? method headers stream with
  | none => exact .done trivial
  | some body =>
    dsimp only
    split
    · exact .call ⟨body, rfl⟩ fun _ => .done trivial
    · exact .done trivial

/-- The calls of the client follow redirects and bring no body. -/
theorem Client.call?_eq_some {c : Client} {method : Http.Method} {path : String}
    {headers : Http.Headers} {call : Call} (h : c.call? method path headers = some call) :
    ∃ url, Url.parse (c.url path) = .ok url ∧ url.isHttp = true ∧
      call = ⟨.follow, .make method url headers []⟩ := by
  unfold Client.call? at h
  split at h
  · cases h
  · rename_i url hurl
    split at h
    · rename_i hhttp
      exact ⟨url, hurl, hhttp, (Option.some.inj h).symm⟩
    · cases h

/-- What the client asks for, it asks once: a call, and what is read in the answer to it. -/
theorem Client.run_fetch (c : Client) (registry : Behaviour σ) (st : σ) (method : Http.Method)
    (path : String) (headers : Http.Headers)
    (read : Option Http.Response → Except RegistryError α) :
    (c.fetch method path headers read).run.run registry st =
      match c.call? method path headers with
      | none => ⟨read none, [], st⟩
      | some call =>
        let made := call.perform registry st
        ⟨read made.1, [made.2.1], made.2.2⟩ := by
  have hrun : (c.fetch method path headers read).run.run registry st =
      (c.ask method path headers >>= fun answer => .done (read answer)).run registry st := rfl
  rw [hrun, Exchange.run_bind_done, ask]
  cases c.call? method path headers with
  | none => rfl
  | some call => rfl

end Registry

end ImageGateway
