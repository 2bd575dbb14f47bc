import ImageGateway.Proofs.Registry.Exchange
import Mathlib.Data.List.Basic

/-!
# Catalogs in order

Several tag lists are fetched at a time, and they may arrive in any order.  In front of a registry
that answers each request by the request alone, none of this shows: each task has one outcome, which
depends neither on the others nor on when it is asked, and the outcomes are read in the order of the
catalog up to the first failure.

* `Answers` : a registry whose answers depend on nothing but the request.
* `Task.outcome`, `Task.inOrder` : what a task comes to, and a row of outcomes read in order.
* `Task.result_gather` : **whatever the window and the schedule, tasks that are gathered come to
  their outcomes in order.**
* `catalog_in_order` : the catalog of a namespace, in terms of its repositories fetched one by one.
-/

namespace ImageGateway

namespace Registry

variable {σ ε α β : Type}

/-! ### Registries whose answers depend on the request alone -/

/-- The registry answers every request as this function of it. -/
def Answers (registry : Behaviour σ) (answer : WireRequest → Option Http.Response) : Prop :=
  ∀ st request, (registry st request).1 = answer request

/-- The registry that does nothing but answer. -/
def answering (answer : WireRequest → Option Http.Response) : Behaviour Unit :=
  fun _ request => (answer request, ())

/-- The answer that a call comes to. -/
def Call.answered (answer : WireRequest → Option Http.Response) (c : Call) :
    Option Http.Response := (c.perform (answering answer) ()).1

variable {registry : Behaviour σ} {answer : WireRequest → Option Http.Response}

theorem followFrom_of_answers (h : Answers registry answer) (request : WireRequest) (left : Nat)
    (first : Option Http.Response) (st : σ) :
    (followFrom registry request left first st).answer =
      (followFrom (answering answer) request left first ()).answer := by
  fun_induction followFrom registry request left first st with
  | case1 => simp [followFrom]
  | case2 request left response st htarget => simp [followFrom, htarget]
  | case3 request left response st target htarget hhttp => simp [followFrom, htarget, hhttp]
  | case4 request response st target htarget hhttp => simp [followFrom, htarget, hhttp]
  | case5 request response st target htarget hhttp left next first st' hreg ending ih =>
    have hfirst : answer next = first := by rw [← h st next, hreg]
    simp only [ending, followFrom, htarget, hhttp, answering]
    rw [ih, ← hfirst]
    rfl

/-- **A call comes to the same answer in every state.** -/
theorem perform_of_answers (h : Answers registry answer) (c : Call) (st : σ) :
    (c.perform registry st).1 = c.answered answer := by
  unfold Call.answered Call.perform
  cases c.redirects with
  | passOn => exact h st c.request
  | follow =>
    have hfirst := h st c.request
    dsimp only [answering]
    rw [followFrom_of_answers h, hfirst]

/-! ### Tasks side by side -/

namespace Task

/-- What the task comes to. -/
def outcome (answer : WireRequest → Option Http.Response) : Task β → β
  | .finished b => b
  | .waiting c next => next (c.answered answer)

theorem outcome_map {γ : Type} (f : β → γ) (t : Task β) :
    (t.map f).outcome answer = f (t.outcome answer) := by
  cases t <;> rfl

/-- The results in order, up to the first failure. -/
def inOrder : List (Except ε β) → Except ε (List β)
  | [] => .ok []
  | .error e :: _ => .error e
  | .ok b :: rest => (inOrder rest).map (b :: ·)

theorem inOrder_of_ok {γ : Type} {f : γ → Except ε β} {found : γ → β} {l : List γ}
    (h : ∀ a ∈ l, f a = .ok (found a)) : inOrder (l.map f) = .ok (l.map found) := by
  induction l with
  | nil => rfl
  | cons a l ih =>
    rw [List.forall_mem_cons] at h
    rw [List.map_cons, h.1, inOrder, ih h.2]
    rfl

theorem inOrder_of_error {γ : Type} {f : γ → Except ε β} {before after : List γ} {a : γ} {e : ε}
    (hbefore : ∀ b ∈ before, ∃ result, f b = .ok result) (h : f a = .error e) :
    inOrder ((before ++ a :: after).map f) = .error e := by
  induction before with
  | nil => rw [List.nil_append, List.map_cons, h, inOrder]
  | cons b before ih =>
    rw [List.forall_mem_cons] at hbefore
    obtain ⟨result, hresult⟩ := hbefore.1
    rw [List.cons_append, List.map_cons, hresult, inOrder, ih hbefore.2]
    rfl

/-- Where tasks wait, one of them is selected. -/
theorem select_ne_none {n : Nat} {tasks : List (Task β)} (h : n < waitingCount tasks) :
    select n tasks ≠ none := by
  fun_induction select n tasks with
  | case1 => cases h
  | case2 n b rest ih =>
    rw [ne_eq, Option.map_eq_none_iff]
    exact ih (by simpa [waitingCount, isWaiting] using h)
  | case3 => exact Option.some_ne_none _
  | case4 n c next rest ih =>
    rw [waitingCount, List.countP_cons_of_pos rfl] at h
    rw [ne_eq, Option.map_eq_none_iff]
    exact ih (Nat.lt_of_succ_lt_succ h)

/-- **Whatever the window and the schedule, tasks that are gathered come to their outcomes in
order.** -/
theorem result_gather (h : Answers registry answer) {window : Nat} (hwindow : 0 < window)
    (schedule : Schedule) (tasks : List (Task (Except ε β))) (st : σ) :
    ((gather window schedule tasks).run registry st).result =
      inOrder (tasks.map (outcome answer)) := by
  fun_induction gather window schedule tasks generalizing st with
  | case1 => rfl
  | case2 => rfl
  | case3 schedule b rest ih =>
    rw [Exchange.run_bind_done, ih]
    rfl
  | case4 schedule c next rest inFlight hnone =>
    -- the window holds the task in front, so there is one to select
    obtain ⟨k, rfl⟩ : ∃ k, window = k + 1 := ⟨window - 1, by omega⟩
    have hpos : 0 < inFlight := by simp [inFlight, waitingCount, isWaiting]
    have hle : inFlight ≤ waitingCount (.waiting c next :: rest) :=
      (List.take_sublist _ _).countP_le
    exact absurd hnone (select_ne_none (Nat.lt_of_lt_of_le (Nat.mod_lt _ hpos) hle))
  | case5 schedule c next rest inFlight s hs ih =>
    have htasks := eq_of_select hs
    rw [Exchange.run_call]
    dsimp only
    rw [ih, perform_of_answers h, htasks]
    simp only [List.map_append, List.map_cons, outcome]

end Task

/-! ### The catalog of a namespace -/

namespace Client

theorem result_fetch (h : Answers registry answer) (c : Client) (method : Http.Method)
    (path : String) (headers : Http.Headers)
    (read : Option Http.Response → Except RegistryError α) (st : σ) :
    ((c.fetch method path headers read).run.run registry st).result =
      read ((c.call? method path headers).bind (·.answered answer)) := by
  rw [run_fetch]
  cases c.call? method path headers with
  | none => rfl
  | some call => exact congrArg read (perform_of_answers h call st)

/-- The task of a repository comes to what fetching its tags comes to. -/
theorem outcome_repositoryTask (h : Answers registry answer) (c : Client) (repo : String)
    (st : σ) : (c.repositoryTask repo).outcome answer =
      ((c.fetchTags repo).run.run registry st).result.map fun tags => ⟨repo, tags⟩ := by
  rw [repositoryTask, Task.outcome_map, fetchTags, result_fetch h, tagsTask]
  cases c.call? .get (tagsPath repo) [] <;> rfl

theorem repositoriesOf_eq (nameSpace : String) (answer : Option Http.Response) :
    repositoriesOf nameSpace answer =
      (documentOf CatalogDocument.ofJson? answer).map fun document =>
        document.repositories.filter (Text.beginsWith (nameSpace ++ "/")) := by
  unfold repositoriesOf
  cases documentOf CatalogDocument.ofJson? answer <;> rfl

/-- The steps of a listing: the catalog, and then the tags of its repositories. -/
theorem run_fetchCatalog (c : Client) (schedule : Schedule) (nameSpace : String)
    (registry : Behaviour σ) (st : σ) :
    (c.fetchCatalog schedule nameSpace).run.run registry st =
      let asked := (c.ask .get "_catalog" []).run registry st
      match documentOf CatalogDocument.ofJson? asked.result with
      | .error e => ⟨.error e, asked.calls, asked.state⟩
      | .ok document =>
        let repositories := document.repositories.filter (Text.beginsWith (nameSpace ++ "/"))
        let listed := (Task.gather c.window schedule (repositories.map c.repositoryTask)).run
          registry asked.state
        ⟨listed.result, asked.calls ++ listed.calls, listed.state⟩ := by
  have hcatalog : (c.fetchRepositories nameSpace).run.run registry st =
      { (c.ask .get "_catalog" []).run registry st with
        result := repositoriesOf nameSpace ((c.ask .get "_catalog" []).run registry st).result } :=
    Exchange.run_bind_done
  rw [fetchCatalog, Exchange.run_bind_except, hcatalog]
  dsimp only
  rw [repositoriesOf_eq]
  cases documentOf CatalogDocument.ofJson?
    (Exchange.run registry (c.ask .get "_catalog" []) st).result <;> rfl

variable {c : Client} {st : σ} (schedule : Schedule) (nameSpace : String)

theorem run_fetchCatalog_of_error {e : RegistryError}
    (hcatalog : documentOf CatalogDocument.ofJson?
      ((c.ask .get "_catalog" []).run registry st).result = .error e) :
    ((c.fetchCatalog schedule nameSpace).run.run registry st).result = .error e ∧
      ((c.fetchCatalog schedule nameSpace).run.run registry st).calls =
        ((c.ask .get "_catalog" []).run registry st).calls := by
  rw [run_fetchCatalog]
  dsimp only
  rw [hcatalog]
  exact ⟨rfl, rfl⟩

/-- Every repository is listed as if it were fetched on its own, in any state. -/
theorem result_fetchCatalog (h : Answers registry answer) (hwindow : 0 < c.window)
    {document : CatalogDocument} (hcatalog : documentOf CatalogDocument.ofJson?
      ((c.ask .get "_catalog" []).run registry st).result = .ok document) (other : σ) :
    ((c.fetchCatalog schedule nameSpace).run.run registry st).result = Task.inOrder
      ((document.repositories.filter (Text.beginsWith (nameSpace ++ "/"))).map fun repo =>
        ((c.fetchTags repo).run.run registry other).result.map fun tags => ⟨repo, tags⟩) := by
  rw [run_fetchCatalog]
  dsimp only
  rw [hcatalog]
  dsimp only
  rw [Task.result_gather h hwindow, List.map_map]
  exact congrArg Task.inOrder
    (List.map_congr_left fun repo _ => outcome_repositoryTask h c repo other)

end Client

/-- **The catalog of a namespace is listed in its own order, whatever is fetched at a time.**  In
front of a registry that answers each request by the request alone, for every number of tag lists
that are fetched at a time, zero standing for one, and every order in which they arrive: if there is
a catalog, its repositories under the namespace are listed in the order and as often as they stand
there, each with the tags that are found for it alone, in any state; if the tags of some cannot be
found, the failure is that of the first one of them.  Without a catalog the failure is that of the
catalog, and nothing more is asked. -/
theorem catalog_in_order (h : Answers registry answer) (text : String) (window : Nat)
    (schedule : Schedule) (nameSpace : String) (st other : σ) :
    let c := Client.ofText text window
    let asked := (c.ask .get "_catalog" []).run registry st
    let run := (c.fetchCatalog schedule nameSpace).run.run registry st
    let tags := fun repo => ((c.fetchTags repo).run.run registry other).result
    match documentOf CatalogDocument.ofJson? asked.result with
    | .error e => run.result = .error e ∧ run.calls = asked.calls
    | .ok document =>
      let repositories := document.repositories.filter (Text.beginsWith (nameSpace ++ "/"))
      (∀ found : String → List String, (∀ repo ∈ repositories, tags repo = .ok (found repo)) →
        run.result = .ok (repositories.map fun repo => ⟨repo, found repo⟩)) ∧
      (∀ before repo after e, repositories = before ++ repo :: after →
        (∀ earlier ∈ before, ∃ list, tags earlier = .ok list) → tags repo = .error e →
        run.result = .error e) := by
  intro c asked run tags
  split
  · rename_i e hcatalog
    exact Client.run_fetchCatalog_of_error schedule nameSpace hcatalog
  · rename_i document hcatalog
    have hwindow : 0 < c.window := Nat.le_max_right window 1
    have hresult := Client.result_fetchCatalog schedule nameSpace h hwindow hcatalog other
    refine ⟨fun found hfound => hresult.trans ?_,
      fun before repo after e hsplit hbefore herror => hresult.trans ?_⟩
    · exact Task.inOrder_of_ok fun repo hrepo => congrArg (Except.map _) (hfound repo hrepo)
    · rw [hsplit]
      refine Task.inOrder_of_error (fun earlier hearlier => ?_) (congrArg (Except.map _) herror)
      obtain ⟨list, hlist⟩ := hbefore earlier hearlier
      exact ⟨⟨earlier, list⟩, congrArg (Except.map _) hlist⟩

namespace Sample

/-- The answer of a registry with a repository that stands in its catalog twice and has no tags. -/
def listing (request : WireRequest) : Option Http.Response :=
  let document (text : String) : Http.Response :=
    { status := 200, headers := [], body := Utf8.encode text }
  if request.url.pathText = "/v2/_catalog" then
    some (document "[[\"team1/b\",\"team2/a\",\"team1/a\",\"team1/b\"]]")
  else if request.url.pathText = "/v2/team1/a/tags/list" then some (document "[[\"v1\",\"v2\"]]")
  else some (document "[null]")

end Sample

/-- A catalog whose second tag list arrives first. -/
theorem catalog_of_listing : Answers (answering Sample.listing) Sample.listing ∧
    (((Client.ofText "http://registry:5000" 2).fetchCatalog [1] "team1").run.run
      (answering Sample.listing) ()).result =
        .ok [⟨"team1/b", []⟩, ⟨"team1/a", ["v1", "v2"]⟩, ⟨"team1/b", []⟩] := by
  have hanswers : Answers (answering Sample.listing) Sample.listing := fun _ _ => rfl
  have hcatalog : documentOf CatalogDocument.ofJson?
      (((Client.ofText "http://registry:5000" 2).ask .get "_catalog" []).run
        (answering Sample.listing) ()).result =
      .ok ⟨["team1/b", "team2/a", "team1/a", "team1/b"]⟩ := by decide +kernel
  have hlisted := catalog_in_order hanswers "http://registry:5000" 2 [1] "team1" () ()
  dsimp only at hlisted
  rw [hcatalog] at hlisted
  refine ⟨hanswers, ?_⟩
  refine (hlisted.1 (fun repo => if repo = "team1/a" then ["v1", "v2"] else []) ?_).trans ?_
  · decide +kernel
  · decide +kernel

end Registry

end ImageGateway
