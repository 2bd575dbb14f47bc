import ImageGateway.Session.Store
import Mathlib.Data.List.Basic

/-!
# The store of sessions as a map

The store is a list of entries, and each operation is described here by what it does to the lookup
of one token: `put` and `delete` change the lookup of their own token and no other, and `get`
removes an entry at most, and none that is live.

* `Store.find?_put`, `Store.find?_delete` : the entries behind a login and behind a logout.
* `Store.get_fst_eq_some_iff` : what is read is the entry of the token, unless it is stale.
* `Store.dropsStale_get` : **reading drops a stale entry at most**, whoever reads.
* `Store.DropsStale.find?_of_find?`, `Store.DropsStale.find?_of_live` : nothing comes back, and a
  live session stays in its place.
-/

namespace ImageGateway

namespace Session

namespace Store

variable {store : Store} {token other : String} {session : Session} {now : Instant} {e : Entry}

/-! ### Lookups behind an operation -/

theorem find?_delete : (store.delete other).find? token =
    if other = token then none else store.find? token := by
  unfold find? delete
  rw [List.find?_filter]
  split_ifs with h
  · rw [List.find?_eq_none]
    simp [h]
  · congr 1
    funext entry
    by_cases he : entry.token = token
    · simp [he, Ne.symm h]
    · simp [he]

theorem find?_put : (store.put other session now).find? token =
    if other = token then some ⟨other, session, now⟩ else store.find? token := by
  have hfind : (store.put other session now).find? token =
      if other == token then some ⟨other, session, now⟩ else (store.delete other).find? token := by
    simp only [find?, put, List.find?_cons]
    cases other == token <;> rfl
  rw [hfind, find?_delete]
  by_cases h : other = token <;> simp [h]

@[simp] theorem lifetime_put : (store.put token session now).lifetime = store.lifetime := rfl

@[simp] theorem lifetime_delete : (store.delete token).lifetime = store.lifetime := rfl

@[simp] theorem lifetime_read {hides : Bool} :
    (store.read hides token now).2.lifetime = store.lifetime := by
  unfold read
  cases store.find? token with
  | none => rfl
  | some e => dsimp only; split_ifs <;> rfl

@[simp] theorem lifetime_get : (store.get token now).2.lifetime = store.lifetime := lifetime_read

/-! ### Reading -/

/-- The entry no longer counts at this time. -/
def isStale (store : Store) (e : Entry) (now : Instant) : Bool :=
  store.isForgotten e now || e.session.hasExpired store.lifetime now

/-- For an entry that was stored when its session began, the store's clock decides. -/
theorem isStale_eq_false_iff (h : e.storedAt = e.session.createdAt) :
    store.isStale e now = false ↔ now < e.session.createdAt + seconds store.lifetime := by
  simp only [isStale, isForgotten, hasExpired, h, Bool.or_eq_false_iff, decide_eq_false_iff_not,
    Int.not_le, Int.not_lt]
  exact ⟨And.left, fun hlive => ⟨hlive, Int.le_of_lt hlive⟩⟩

/-- A cache that hides all that is due is the one that the gateway reads. -/
theorem read_true : store.read true token now = store.get token now := rfl

theorem get_of_find?_eq_none (h : store.find? token = none) :
    store.get token now = (none, store) := by
  simp only [get, read, h]

theorem get_of_find?_eq_some (h : store.find? token = some e) : store.get token now =
    if store.isStale e now then (none, store.delete token) else (some e.session, store) := by
  simp only [get, read, h]
  rfl

theorem get_fst_eq_some_iff : (store.get token now).1 = some session ↔
    ∃ e, store.find? token = some e ∧ store.isStale e now = false ∧ e.session = session := by
  cases h : store.find? token with
  | none => simp [get_of_find?_eq_none h]
  | some e =>
    rw [get_of_find?_eq_some h]
    split_ifs with hs
    · simp [hs]
    · simpa using fun _ => hs

/-- The one store is the other, apart from entries that no longer counted at this time. -/
structure DropsStale (before after : Store) (now : Instant) : Prop where
  lifetime_eq : after.lifetime = before.lifetime
  find?_cases : ∀ token, after.find? token = before.find? token ∨
    after.find? token = none ∧ ∃ e, before.find? token = some e ∧ before.isStale e now = true

theorem DropsStale.refl (store : Store) (now : Instant) : DropsStale store store now :=
  ⟨rfl, fun _ => .inl rfl⟩

theorem dropsStale_get : DropsStale store (store.get other now).2 now where
  lifetime_eq := lifetime_get
  find?_cases token := by
    cases ho : store.find? other with
    | none => exact .inl (by rw [get_of_find?_eq_none ho])
    | some e =>
      rw [get_of_find?_eq_some ho]
      split_ifs with hs
      · -- the stale entry is gone, and no other one
        rw [find?_delete]
        split_ifs with hother
        · exact .inr ⟨rfl, e, hother ▸ ho, hs⟩
        · exact .inl rfl
      · exact .inl rfl

/-- What is dropped does not come back. -/
theorem DropsStale.find?_of_find? {after : Store} (h : DropsStale store after now)
    (he : after.find? token = some e) : store.find? token = some e := by
  rcases h.find?_cases token with hsame | ⟨hnone, -⟩
  · rwa [← hsame]
  · rw [hnone] at he
    cases he

/-- A live session stays. -/
theorem DropsStale.find?_of_live {after : Store} (h : DropsStale store after now)
    (he : store.find? token = some e) (hs : store.isStale e now = false) :
    after.find? token = some e := by
  rcases h.find?_cases token with hsame | ⟨-, e', he', hstale⟩
  · rwa [hsame]
  · obtain rfl := Option.some.inj (he.symm.trans he')
    rw [hs] at hstale
    cases hstale

end Store

end Session

end ImageGateway
