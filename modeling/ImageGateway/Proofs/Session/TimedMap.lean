import ImageGateway.Proofs.Session.Store

/-!
# The store of sessions as a timed map

Two clocks run for a session in the store.  The session itself ends a lifetime after it was created,
which every reading checks, and the cache forgets an entry a lifetime after it was put there, which
it may do late: an entry that is due is hidden at the latest when the cache gets to it.  A session
can be put into the store long after it was created, or before, so neither clock is always the first
to run out.

What a token yields is told here from the calls alone that were made before, whichever entries the
cache has hidden by then.  A call changes the entry of its own token, so the calls on other tokens
do not matter (`find?_after`); without a put, an entry can only go (`find?_of_find?_after`); and it
stays as long as neither clock has run out (`find?_after_of_live`).

* `Call`, `Store.after` : a history of calls, and the store behind it.
* `hasExpiredWithin_eq` : a clock with bounded spans and readings gives the same answer.
* `timed_map` : **what a token yields behind a history.**
-/

namespace ImageGateway

namespace Session

/-- What is asked of the store for a token. -/
inductive Operation
  | put (session : Session)
  | get
  /-- Does the session cover the namespace, and may it delete there? -/
  | check (nameSpace : String)
  | delete
deriving DecidableEq, Repr

/-- An operation on a token, and when it comes. -/
structure Call where
  token : String
  operation : Operation
  now : Instant
  /-- The cache hides the entry from this call if it is due. -/
  hides : Bool
deriving DecidableEq, Repr

namespace Store

variable {store : Store} {token other : String} {session : Session} {now : Instant} {hides : Bool}
  {e : Entry}

/-! ### Calls -/

/-- The store behind a call. -/
def step (store : Store) (c : Call) : Store :=
  match c.operation with
  | .put session => store.put c.token session c.now
  | .get => (store.read c.hides c.token c.now).2
  | .check nameSpace => (store.check c.hides c.token nameSpace c.now).2
  | .delete => store.delete c.token

/-- The store behind a history of calls. -/
def after (store : Store) (calls : List Call) : Store := calls.foldl step store

end Store

/-- The call reads the session of its token. -/
def Call.Reads (c : Call) : Prop := c.operation = .get ∨ ∃ nameSpace, c.operation = .check nameSpace

/-- None of the calls puts a session under the token. -/
def PutFree (token : String) (calls : List Call) : Prop :=
  ∀ c ∈ calls, c.token = token → ∀ session, c.operation ≠ .put session

/-- None of the calls takes the session under the token away, or puts another there. -/
def Untouched (token : String) (calls : List Call) : Prop :=
  PutFree token calls ∧ ∀ c ∈ calls, c.token = token → c.operation ≠ .delete

/-- The entry that a call leaves of the one of its own token. -/
def Call.leaves (c : Call) (lifetime : Nat) (e : Option Entry) : Option Entry :=
  match c.operation with
  | .put session => some ⟨c.token, session, c.now⟩
  | .get | .check _ => e.filter fun e => !(Store.empty lifetime).isGone c.hides e c.now
  | .delete => none

namespace Store

variable {store : Store} {token other : String} {session : Session} {now : Instant} {hides : Bool}
  {e : Entry} {c : Call} {calls : List Call}

theorem isGone_congr {store' : Store} (h : store.lifetime = store'.lifetime) :
    store.isGone hides e now = store'.isGone hides e now := by
  simp only [isGone, isForgotten, h]

theorem read_fst : (store.read hides token now).1 =
    ((store.find? token).filter fun e => !store.isGone hides e now).map Entry.session := by
  unfold read
  cases store.find? token with
  | none => rfl
  | some e => cases h : store.isGone hides e now <;> simp [Option.filter, h]

theorem find?_read : (store.read hides other now).2.find? token =
    if other = token then (store.find? token).filter fun e => !store.isGone hides e now
    else store.find? token := by
  unfold read
  split_ifs with hother
  · subst hother
    cases hfind : store.find? other with
    | none => simp [hfind]
    | some e => cases h : store.isGone hides e now <;> simp [Option.filter, h, hfind, find?_delete]
  · cases store.find? other with
    | none => rfl
    | some e => cases h : store.isGone hides e now <;> simp [h, hother, find?_delete]

@[simp] theorem lifetime_step : (store.step c).lifetime = store.lifetime := by
  unfold step
  split <;> simp [check]

@[simp] theorem lifetime_after : (store.after calls).lifetime = store.lifetime := by
  unfold after
  induction calls generalizing store with
  | nil => rfl
  | cons c calls ih => rw [List.foldl_cons, ih, lifetime_step]

theorem after_append_cons (earlier later : List Call) (c : Call) :
    store.after (earlier ++ c :: later) = ((store.after earlier).step c).after later :=
  List.foldl_append

/-- **A call changes the entry of its own token and no other.** -/
theorem find?_step : (store.step c).find? token =
    if c.token = token then c.leaves store.lifetime (store.find? token) else store.find? token := by
  have hgone (hides e now) :
      store.isGone hides e now = (empty store.lifetime).isGone hides e now := isGone_congr rfl
  unfold step Call.leaves
  cases c.operation with
  | put session => rw [find?_put]
  | get => simp only [find?_read, hgone]
  | check nameSpace => simp only [check, find?_read, hgone]
  | delete => rw [find?_delete]

/-- The entry of a token is up to the calls on the token. -/
theorem find?_after : (store.after calls).find? token =
    (calls.filter (·.token == token)).foldl (fun e c => c.leaves store.lifetime e)
      (store.find? token) := by
  unfold after
  induction calls generalizing store with
  | nil => rfl
  | cons c calls ih =>
    rw [List.foldl_cons, ih, find?_step, lifetime_step]
    by_cases h : c.token = token <;> simp [h]

/-! ### Without a put, nothing comes -/

theorem find?_of_find?_step (h : c.token = token → ∀ session, c.operation ≠ .put session)
    (he : (store.step c).find? token = some e) : store.find? token = some e := by
  rw [find?_step] at he
  split_ifs at he with htoken
  · unfold Call.leaves at he
    split at he
    · rename_i session hput
      exact absurd hput (h htoken session)
    · exact (Option.filter_eq_some_iff.1 he).1
    · exact (Option.filter_eq_some_iff.1 he).1
    · cases he
  · exact he

theorem find?_of_find?_after (h : PutFree token calls)
    (he : (store.after calls).find? token = some e) : store.find? token = some e := by
  unfold after at he
  induction calls generalizing store with
  | nil => exact he
  | cons c calls ih =>
    obtain ⟨hc, hcalls⟩ := List.forall_mem_cons.1 h
    exact find?_of_find?_step hc (ih hcalls he)

theorem read_after_of_putFree (h : PutFree token calls) (hnone : store.find? token = none) :
    ((store.after calls).read hides token now).1 = none := by
  have hfind : (store.after calls).find? token = none := by
    cases he : (store.after calls).find? token with
    | none => rfl
    | some e =>
      rw [find?_of_find?_after h he] at hnone
      cases hnone
  rw [read_fst, hfind]
  rfl

/-- What is not there for a reading is not there for the next one. -/
theorem find?_of_read_eq_none (h : (store.read hides token now).1 = none) :
    (store.read hides token now).2.find? token = none := by
  rw [find?_read, if_pos rfl]
  rwa [read_fst, Option.map_eq_none_iff] at h

theorem step_of_reads (h : c.Reads) : store.step c = (store.read c.hides c.token c.now).2 := by
  unfold step
  rcases h with hget | ⟨nameSpace, hcheck⟩
  · rw [hget]
  · rw [hcheck]
    rfl

/-- What is read is never over. -/
theorem le_of_read_eq_some (h : (store.read hides token now).1 = some session) :
    now ≤ session.createdAt + seconds store.lifetime := by
  rw [read_fst, Option.map_eq_some_iff] at h
  obtain ⟨e, he, rfl⟩ := h
  have hlive := (Option.filter_eq_some_iff.1 he).2
  simp only [isGone, hasExpired, Bool.not_eq_true', Bool.or_eq_false_iff,
    decide_eq_false_iff_not] at hlive
  exact Int.not_lt.1 hlive.2

/-- What is read is up to the calls on the token. -/
theorem read_after_filter : ((store.after calls).read hides token now).1 =
    ((store.after (calls.filter (·.token == token))).read hides token now).1 := by
  have hgone : ∀ e, (store.after calls).isGone hides e now =
      (store.after (calls.filter (·.token == token))).isGone hides e now :=
    fun _ => isGone_congr (lifetime_after.trans lifetime_after.symm)
  rw [read_fst, read_fst, find?_after, find?_after, List.filter_filter]
  simp only [hgone, Bool.and_self]

/-! ### A live session stays -/

/-- Once neither clock has run out, neither had run out before. -/
theorem isGone_of_live {earlier : Instant} (hle : earlier ≤ now)
    (h : store.isStale e now = false) : store.isGone hides e earlier = false := by
  simp only [isStale, isForgotten, hasExpired, Bool.or_eq_false_iff, decide_eq_false_iff_not] at h
  simp only [isGone, isForgotten, hasExpired, Bool.or_eq_false_iff, Bool.and_eq_false_iff,
    decide_eq_false_iff_not]
  exact ⟨.inr fun hdue => h.1 (Int.le_trans hdue hle),
    fun hover => h.2 (Int.lt_of_lt_of_le hover hle)⟩

theorem find?_step_of_live (hput : c.token = token → ∀ session, c.operation ≠ .put session)
    (hdelete : c.token = token → c.operation ≠ .delete) (hle : c.now ≤ now)
    (hlive : store.isStale e now = false) (he : store.find? token = some e) :
    (store.step c).find? token = some e := by
  rw [find?_step]
  split_ifs with htoken
  · have hstays : (empty store.lifetime).isGone c.hides e c.now = false :=
      (isGone_congr rfl).trans (isGone_of_live hle hlive)
    unfold Call.leaves
    split
    · rename_i session h
      exact absurd h (hput htoken session)
    · simp [he, hstays]
    · simp [he, hstays]
    · rename_i h
      exact absurd h (hdelete htoken)
  · exact he

theorem find?_after_of_live (h : Untouched token calls) (hclock : ∀ c ∈ calls, c.now ≤ now)
    (hlive : store.isStale e now = false) (he : store.find? token = some e) :
    (store.after calls).find? token = some e := by
  unfold after
  induction calls generalizing store with
  | nil => exact he
  | cons c calls ih =>
    obtain ⟨hput, hputs⟩ := List.forall_mem_cons.1 h.1
    obtain ⟨hdelete, hdeletes⟩ := List.forall_mem_cons.1 h.2
    obtain ⟨hle, hclock⟩ := List.forall_mem_cons.1 hclock
    refine ih ⟨hputs, hdeletes⟩ hclock ?_ (find?_step_of_live hput hdelete hle hlive he)
    rw [← hlive, isStale, isForgotten, lifetime_step]
    rfl

/-- The session that was put last is read as long as its entry is not due, unless it is over. -/
theorem read_after_put (h : Untouched token calls) (hclock : ∀ c ∈ calls, c.now ≤ now)
    (hdue : now < c.now + seconds store.lifetime) (htoken : c.token = token)
    (hput : c.operation = .put session) :
    (((store.step c).after calls).read hides token now).1 =
      if session.createdAt + seconds store.lifetime < now then none else some session := by
  have hfind : (store.step c).find? token = some ⟨token, session, c.now⟩ := by
    rw [find?_step, if_pos htoken, Call.leaves, hput, htoken]
  rw [read_fst]
  split_ifs with hover
  · rw [Option.map_eq_none_iff, Option.filter_eq_none_iff]
    intro e he
    obtain rfl := Option.some.inj ((find?_of_find?_after h.1 he).symm.trans hfind)
    simp [isGone, hasExpired, hover]
  · have hlive : (store.step c).isStale ⟨token, session, c.now⟩ now = false := by
      simp only [isStale, isForgotten, hasExpired, lifetime_step, Bool.or_eq_false_iff,
        decide_eq_false_iff_not]
      exact ⟨Int.not_le.2 hdue, hover⟩
    have hgone : ((store.step c).after calls).isGone hides ⟨token, session, c.now⟩ now = false :=
      (isGone_congr lifetime_after).trans (isGone_of_live (Int.le_refl now) hlive)
    rw [find?_after_of_live h hclock hlive hfind]
    simp [Option.filter, hgone]

end Store

/-! ### The age of a session -/

theorem seconds_le_seconds {m n : Nat} (h : m ≤ n) : seconds m ≤ seconds n :=
  Int.mul_le_mul_of_nonneg_right (Int.ofNat_le.2 h) (by decide)

/-- **The bounds of a clock do not matter** for a lifetime that it has a span for. -/
theorem hasExpiredWithin_eq {s : Session} {span : Int} {latest now : Instant} {lifetime : Nat}
    (hspan : seconds lifetime ≤ span) (hlatest : now ≤ latest) :
    s.hasExpiredWithin span latest lifetime now = s.hasExpired lifetime now := by
  rw [hasExpiredWithin, hasExpired, Int.min_eq_left hspan]
  split_ifs with h
  · rfl
  · -- an end behind the latest reading is behind this one
    have hbehind : ¬ s.createdAt + seconds lifetime < now := fun hover =>
      h (Int.le_of_lt (Int.lt_of_lt_of_le hover hlatest))
    exact (decide_eq_false hbehind).symm

/-! ### Histories -/

theorem Store.ofLifetime?_eq_some_iff {ttl : Nat} {store : Store} :
    Store.ofLifetime? ttl = some store ↔ ttl ≤ Store.longestLifetime ∧ store = .empty ttl := by
  unfold Store.ofLifetime?
  split_ifs with h <;> simp [h, eq_comm]

/-- **What a token yields behind a history** of calls in which the clock never goes back, in front
of a cache that hides what is due when it gets to it.  Never a session that is over.  Nothing, if no
session was put under the token, or it was deleted since, or a reading found nothing and no session
was put there since.  Otherwise the session that was put there last, while less than the lifetime
has passed since then, unless it is over.  The calls on other tokens do not matter, and neither do
the bounds of the clock; and where the cache hides all that is due, this is what the gateway
reads. -/
theorem timed_map {ttl : Nat} {store : Store} (hstore : Store.ofLifetime? ttl = some store)
    (before : List Call) (token : String) (hides : Bool) (now : Instant)
    (hclock : (before.map (·.now) ++ [now]).Pairwise (· ≤ ·)) :
    let yields := fun calls => ((store.after calls).read hides token now).1
    (∀ session, yields before = some session → now ≤ session.createdAt + seconds ttl) ∧
    (PutFree token before → yields before = none) ∧
    (∀ earlier c later, before = earlier ++ c :: later → c.token = token → PutFree token later →
      c.operation = .delete → yields before = none) ∧
    (∀ earlier c later session, before = earlier ++ c :: later → c.token = token →
      Untouched token later → c.operation = .put session → now < c.now + seconds ttl →
      yields before = if session.createdAt + seconds ttl < now then none else some session) ∧
    (∀ earlier c later, before = earlier ++ c :: later → c.token = token → PutFree token later →
      c.Reads → ((store.after earlier).read c.hides token c.now).1 = none →
      yields before = none) ∧
    yields before = yields (before.filter (·.token == token)) ∧
    (∀ span latest, seconds Store.longestLifetime ≤ span → now ≤ latest → ∀ session : Session,
      session.hasExpiredWithin span latest ttl now = session.hasExpired ttl now) ∧
    (hides = true → yields before = ((store.after before).get token now).1) := by
  obtain ⟨httl, rfl⟩ := Store.ofLifetime?_eq_some_iff.1 hstore
  have hnow : ∀ c ∈ before, c.now ≤ now := fun c hc =>
    (List.pairwise_append.1 hclock).2.2 c.now (List.mem_map_of_mem hc) now List.mem_cons_self
  intro yields
  refine ⟨fun session h => ?_, fun hfree => Store.read_after_of_putFree hfree rfl, ?_, ?_, ?_, ?_,
    fun span latest hspan hlatest session =>
      hasExpiredWithin_eq (Int.le_trans (seconds_le_seconds httl) hspan) hlatest, ?_⟩
  · have hle := Store.le_of_read_eq_some h
    rwa [Store.lifetime_after] at hle
  · rintro earlier c later rfl htoken hfree hdelete
    simp only [yields, Store.after_append_cons]
    refine Store.read_after_of_putFree hfree ?_
    rw [Store.find?_step, if_pos htoken, Call.leaves, hdelete]
  · rintro earlier c later session rfl htoken huntouched hput hdue
    have hlater : ∀ c ∈ later, c.now ≤ now := fun c hc =>
      hnow c (List.mem_append_right _ (List.mem_cons_of_mem _ hc))
    have hlifetime : ((Store.empty ttl).after earlier).lifetime = ttl := Store.lifetime_after
    simp only [yields, Store.after_append_cons]
    rw [Store.read_after_put huntouched hlater (by rwa [hlifetime]) htoken hput, hlifetime]
  · rintro earlier c later rfl htoken hfree hreads hnone
    simp only [yields, Store.after_append_cons]
    refine Store.read_after_of_putFree hfree ?_
    rw [Store.step_of_reads hreads, ← htoken]
    exact Store.find?_of_read_eq_none (htoken ▸ hnone)
  · exact Store.read_after_filter
  · rintro rfl
    exact congrArg Prod.fst Store.read_true

namespace Sample

/-- A session that began with the clock. -/
def session : Session := ⟨"alice", [], 0⟩

/-- Calls on another token, and a reading, after a session was put under the token. -/
def later : List Call :=
  [⟨"u", .put session, seconds 1, false⟩, ⟨"t", .check "team1", seconds 30, true⟩,
    ⟨"u", .delete, seconds 31, false⟩]

theorem untouched_later : Untouched "t" later := by
  constructor <;> simp [PutFree, later]

end Sample

/-- A session is read up to its last second. -/
theorem timed_map_of_session :
    (((Store.empty 60).after (⟨"t", .put Sample.session, 0, false⟩ :: Sample.later)).read true "t"
      (seconds 59)).1 = some Sample.session := by
  obtain ⟨-, -, -, hheld, -⟩ := timed_map (show Store.ofLifetime? 60 = some (.empty 60) from rfl)
    (⟨"t", .put Sample.session, 0, false⟩ :: Sample.later) "t" true (seconds 59) (by decide)
  exact (hheld [] _ _ _ rfl rfl Sample.untouched_later rfl (by decide)).trans (if_neg (by decide))

/-- A session can be over when it is put into the store. -/
example :
    (((Store.empty 60).put "t" Sample.session (seconds 61)).read false "t" (seconds 61)).1 =
      none := by decide

end Session

end ImageGateway
