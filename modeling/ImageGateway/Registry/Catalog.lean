import ImageGateway.Registry.Client

/-!
# The catalog of a namespace

The repositories of a namespace are listed with their tags.  Several tag lists are fetched at a
time: those of the first `window` repositories that are not yet listed.  They may arrive in any
order, which a `Schedule` fixes, but they are listed in the order of the catalog, and the first
failure in that order ends the listing.

* `Task.gather` : the results of tasks of one call each, in the order of the tasks.
* `Client.fetchCatalog` : the catalog of a namespace.
-/

namespace ImageGateway

namespace Registry

/-- A repository with its tags. -/
structure Repository where
  name : String
  tags : List String
deriving DecidableEq, Repr

/-- Which of the calls that wait for an answer is answered next, counted from the first one; the
numbers are taken modulo the number of calls that wait, and a list that is used up stands for
zeros. -/
abbrev Schedule := List Nat

/-- Work that takes one call at most. -/
inductive Task (β : Type) where
  | finished (result : β)
  | waiting (c : Call) (next : Option Http.Response → β)

namespace Task

/-- Applies a function to the result. -/
def map {β γ : Type} (f : β → γ) : Task β → Task γ
  | .finished b => .finished (f b)
  | .waiting c next => .waiting c fun answer => f (next answer)

/-- The task has not made its call. -/
def isWaiting {β : Type} : Task β → Bool
  | .finished _ => false
  | .waiting _ _ => true

/-- A waiting task among others. -/
structure Selected (β : Type) where
  before : List (Task β)
  call : Call
  next : Option Http.Response → β
  after : List (Task β)

/-- The waiting task with `n` waiting tasks before it. -/
def select {β : Type} : Nat → List (Task β) → Option (Selected β)
  | _, [] => none
  | n, .finished b :: rest =>
    (select n rest).map fun s => { s with before := .finished b :: s.before }
  | 0, .waiting c next :: rest => some ⟨[], c, next, rest⟩
  | n + 1, .waiting c next :: rest =>
    (select n rest).map fun s => { s with before := .waiting c next :: s.before }

/-- The number of tasks that wait. -/
def waitingCount {β : Type} (tasks : List (Task β)) : Nat := tasks.countP isWaiting

theorem eq_of_select {β : Type} {n : Nat} {tasks : List (Task β)} {s : Selected β}
    (h : select n tasks = some s) : tasks = s.before ++ .waiting s.call s.next :: s.after := by
  fun_induction select n tasks generalizing s with
  | case1 => contradiction
  | case2 n b rest ih =>
    obtain ⟨u, hu, rfl⟩ := Option.map_eq_some_iff.1 h
    simp [← ih hu]
  | case3 c next rest =>
    cases h
    rfl
  | case4 n c next rest ih =>
    obtain ⟨u, hu, rfl⟩ := Option.map_eq_some_iff.1 h
    simp [← ih hu]

/-- The results of the tasks up to the first failure, in the order of the tasks. -/
def gather {ε β : Type} (window : Nat) (schedule : Schedule) (tasks : List (Task (Except ε β))) :
    Exchange (Except ε (List β)) :=
  match tasks with
  | [] => .done (.ok [])
  | .finished (.error e) :: _ => .done (.error e)
  | .finished (.ok b) :: rest =>
    gather window schedule rest >>= fun found => .done (found.map (b :: ·))
  | .waiting c next :: rest =>
    let inFlight := waitingCount ((Task.waiting c next :: rest).take window)
    match _h : select (schedule.headD 0 % inFlight) (.waiting c next :: rest) with
    -- the task in front waits, so there is always one to select
    | none => .done (.ok [])
    | some s =>
      .call s.call fun answer =>
        gather window schedule.tail (s.before ++ .finished (s.next answer) :: s.after)
termination_by (tasks.length, waitingCount tasks)
decreasing_by
  · exact Prod.Lex.left _ _ (by simp)
  · -- an answer turns a task that waits into one that is finished
    have hs := eq_of_select _h
    have hl := congrArg List.length hs
    have hw := congrArg waitingCount hs
    simp only [List.length_append, List.length_cons] at hl
    simp only [waitingCount, List.countP_append, List.countP_cons, isWaiting] at hw
    simp only [waitingCount, List.countP_append, List.countP_cons, isWaiting, List.length_append,
      List.length_cons]
    rw [hl]
    apply Prod.Lex.right
    simp only [Bool.false_eq_true, if_false, if_true] at hw ⊢
    omega

end Task

namespace Client

/-- The tags of a repository, as a task. -/
def tagsTask (c : Client) (repo : String) : Task (Except RegistryError (List String)) :=
  match c.call? .get (tagsPath repo) [] with
  | none => .finished (tagsOf none)
  | some call => .waiting call tagsOf

/-- The tags of a repository together with its name. -/
def repositoryTask (c : Client) (repo : String) : Task (Except RegistryError Repository) :=
  (c.tagsTask repo).map fun found => found.map fun tags => ⟨repo, tags⟩

/-- The repositories under a namespace with their tags. -/
def fetchCatalog (c : Client) (schedule : Schedule) (nameSpace : String) :
    Lookup (List Repository) := do
  let repositories ← c.fetchRepositories nameSpace
  ExceptT.mk (Task.gather c.window schedule (repositories.map c.repositoryTask))

end Client

end Registry

end ImageGateway
