import ImageGateway.Proofs.Access.Gate
import ImageGateway.Proofs.Access.Grant

/-!
# Which grant counts

On the raw protocol a user acts under the most permissive grant alone.  That order puts the right
to delete before the right to write.  The gate has an order of its own, given by what it lets pass,
and a pull-only grant deletes nothing there.  The two orders therefore agree but for one pair: a
grant that deletes and does not write goes before one that writes and does not delete, although the
gate lets less of its requests pass.

* `Grant.morePermissive_iff` : the order on grants is that of their ranks.
* `Grant.rank_le_of_mostPermissive?` : **no grant of a user ranks above the one that counts**.
* `allowsMethod_lost_iff` : what a grant of higher rank refuses and one of lower rank allows.
* `denied_iff_crossed` : **what the holder of several groups on a namespace loses** is what a group
  `_rw` allows besides reading, where a group `_rd` counts instead.
* `not_forall_allowed` : this happens, so the grant that counts need not be the most permissive one
  at the gate.
-/

namespace ImageGateway

namespace Access

namespace Grant

/-! ### The order as a number -/

/-- The place of a grant in the order: the right to delete weighs more than the right to write. -/
def rank (g : Grant) : Nat :=
  (if g.deleteAllowed then 2 else 0) + if g.pullOnly then 0 else 1

theorem morePermissive_iff {a b : Grant} : a.morePermissive b = true ↔ b.rank < a.rank := by
  obtain ⟨_, _, pullA, deleteA⟩ := a
  obtain ⟨_, _, pullB, deleteB⟩ := b
  cases pullA <;> cases deleteA <;> cases pullB <;> cases deleteB <;>
    simp [morePermissive, rank]

theorem rank_le_mostPermissiveFrom (best : Grant) (rest : List Grant) :
    ∀ g ∈ best :: rest, g.rank ≤ (mostPermissiveFrom best rest).rank := by
  induction rest generalizing best with
  | nil => simp [mostPermissiveFrom]
  | cons next rest ih =>
    have hstep : mostPermissiveFrom best (next :: rest) =
        mostPermissiveFrom (if next.morePermissive best then next else best) rest := rfl
    -- the one that is kept of the first two ranks as high as both
    have hkept : best.rank ≤ (mostPermissiveFrom best (next :: rest)).rank ∧
        next.rank ≤ (mostPermissiveFrom best (next :: rest)).rank := by
      have hbest := ih (if next.morePermissive best then next else best) _ List.mem_cons_self
      rw [hstep]
      split_ifs at hbest ⊢ with h
      · exact ⟨(morePermissive_iff.1 h).le.trans hbest, hbest⟩
      · exact ⟨hbest, (Nat.not_lt.1 (mt morePermissive_iff.2 h)).trans hbest⟩
    rintro g (_ | ⟨_, _ | ⟨_, hg⟩⟩)
    · exact hkept.1
    · exact hkept.2
    · rw [hstep]
      exact ih _ g (List.mem_cons_of_mem _ hg)

/-- **No grant of a user ranks above the one that counts.** -/
theorem rank_le_of_mostPermissive? {grants : List Grant} {held g : Grant}
    (h : mostPermissive? grants = some held) (hg : g ∈ grants) : g.rank ≤ held.rank := by
  cases grants with
  | nil => cases h
  | cons best rest =>
    cases h
    exact rank_le_mostPermissiveFrom best rest g hg

/-! ### Rights and groups -/

theorem suffix_text_inj {e e' : Suffix} (he : e ∈ suffixes) (he' : e' ∈ suffixes) :
    e.text = e'.text ↔ e.pullOnly = e'.pullOnly ∧ e.deleteAllowed = e'.deleteAllowed := by
  have : ∀ e ∈ suffixes, ∀ e' ∈ suffixes,
      e.text = e'.text ↔ e.pullOnly = e'.pullOnly ∧ e.deleteAllowed = e'.deleteAllowed := by decide
  exact this e he e' he'

/-- The suffix of a group is read off the rights that it gives. -/
theorem group_eq_iff {start : String} {identifiers : List String} {g : Grant} {e : Suffix}
    (hg : g ∈ ofGroups start identifiers) (he : e ∈ suffixes) :
    g.group = g.nameSpace ++ e.text ↔
      g.pullOnly = e.pullOnly ∧ g.deleteAllowed = e.deleteAllowed := by
  obtain ⟨e', he', hgroup, -, hpull, hdelete⟩ := suffix_of_mem_ofGroups hg
  rw [hgroup, hpull, hdelete, String.append_right_inj, suffix_text_inj he' he]

end Grant

/-! ### What is lost -/

/-- The grant that is held deletes and does not write, the other one writes and does not delete. -/
def Crossed (held other : Grant) : Prop :=
  (held.pullOnly = true ∧ held.deleteAllowed = true) ∧
    other.pullOnly = false ∧ other.deleteAllowed = false

theorem deletes_of_rank_le {held other : Grant} (h : other.rank ≤ held.rank)
    (hheld : held.pullOnly = true) (hother : other.pullOnly = false) :
    held.deleteAllowed = true ∧ other.deleteAllowed = false := by
  simp only [Grant.rank, hheld, hother] at h
  cases hd : held.deleteAllowed <;> cases ho : other.deleteAllowed <;> simp [hd, ho] at h ⊢

theorem deleteAllowed_of_rank_le {held other : Grant} (h : other.rank ≤ held.rank)
    (hother : other.deleteAllowed = true) : held.deleteAllowed = true := by
  by_contra hd
  simp only [Grant.rank, hother, hd] at h
  split_ifs at h <;> omega

/-- A grant refuses a method that one of no higher rank allows only where the two are crossed. -/
theorem allowsMethod_lost_iff {held other : Grant} (h : other.rank ≤ held.rank)
    {m : Http.Method} :
    allowsMethod other m = .ok () ∧ allowsMethod held m ≠ .ok () ↔
      Crossed held other ∧ m ≠ .get ∧ m ≠ .head ∧ m ≠ .delete := by
  rw [ne_eq, allowsMethod_eq_ok_iff, allowsMethod_eq_ok_iff]
  constructor
  · rintro ⟨⟨hread, hdelete⟩, hheld⟩
    cases hp : held.pullOnly with
    | true =>
      -- the method is a writing one, so the other grant writes
      have hm : ¬ (m = .get ∨ m = .head) := fun hm => hheld ⟨fun _ => hm, by simp [hp]⟩
      have hother : other.pullOnly = false := by simpa using mt hread hm
      obtain ⟨hd, ho⟩ := deletes_of_rank_le h hp hother
      exact ⟨⟨⟨hp, hd⟩, hother, ho⟩, fun hget => hm (.inl hget), fun hhead => hm (.inr hhead),
        hdelete hother ho⟩
    | false =>
      -- what a writing grant refuses is a deletion, and then the other one does so too
      exfalso
      refine hheld ⟨by simp [hp], fun _ hd hm => ?_⟩
      subst hm
      have ho : other.deleteAllowed = false := by
        simpa [hd] using mt (deleteAllowed_of_rank_le h)
      cases hother : other.pullOnly with
      | true => exact absurd (hread hother) (by decide)
      | false => exact hdelete hother ho rfl
  · rintro ⟨⟨⟨hp, -⟩, hother, -⟩, hget, hhead, hdelete⟩
    refine ⟨⟨by simp [hother], fun _ _ => hdelete⟩, fun hheld => ?_⟩
    exact (hheld.1 hp).elim hget hhead

/-- Between grants on one namespace the gate decides by the method alone. -/
theorem authorize_lost_iff {held other : Grant} (h : other.nameSpace = held.nameSpace)
    {m : Http.Method} {path : String} :
    authorize other m path = .ok () ∧ authorize held m path ≠ .ok () ↔
      (isPing path = false ∧ hasDotSegment path = false ∧ liesIn held.nameSpace path = true) ∧
        allowsMethod other m = .ok () ∧ allowsMethod held m ≠ .ok () := by
  rw [ne_eq, authorize_eq_ok_iff, authorize_eq_ok_iff, h, ← Bool.not_eq_true (isPing path)]
  tauto

/-- **What the holder of several groups on a namespace loses.**  A request that one of the groups
allows is denied under the grant that counts exactly where that grant comes from the group `_rd` of
the namespace and the other one from its group `_rw`, and the request is a writing one in the
namespace other than a deletion. -/
theorem denied_iff_crossed (user start : String) (groups : List String) (p : Principal)
    (hp : Principal.ofGrants? user (Grant.ofGroups start groups) = some p) (g : Grant)
    (hg : g ∈ Grant.ofGroups start groups) (hnameSpace : g.nameSpace = p.grant.nameSpace)
    (m : Http.Method) (path : String) :
    authorize g m path = .ok () ∧ authorize p.grant m path ≠ .ok () ↔
      (p.grant.group = p.grant.nameSpace ++ "_rd" ∧ g.group = g.nameSpace ++ "_rw") ∧
        (m ≠ .get ∧ m ≠ .head ∧ m ≠ .delete) ∧
        isPing path = false ∧ hasDotSegment path = false ∧
        liesIn p.grant.nameSpace path = true := by
  obtain ⟨held, hheld, rfl⟩ := Option.map_eq_some_iff.1 hp
  have hrank := Grant.rank_le_of_mostPermissive? hheld hg
  have hheldMem := Grant.mem_of_mostPermissive? hheld
  have hread : (held.group = held.nameSpace ++ "_rd" ∧ g.group = g.nameSpace ++ "_rw") ↔
      Crossed held g :=
    and_congr (Grant.group_eq_iff (e := ⟨"_rd", true, true⟩) hheldMem (by decide))
      (Grant.group_eq_iff (e := ⟨"_rw", false, false⟩) hg (by decide))
  rw [authorize_lost_iff hnameSpace, allowsMethod_lost_iff hrank, ← hread]
  exact and_comm.trans and_assoc

theorem denied_of_crossed :
    let groups := ["cn=team1_rw,ou=groups", "team2_rw", "team1_rd"]
    let held : Grant := ⟨"team1_rd", "team1", true, true⟩
    let other : Grant := ⟨"team1_rw", "team1", false, false⟩
    Principal.ofGrants? "alice" (Grant.ofGroups "team" groups) = some ⟨"alice", held⟩ ∧
      authorize other ⟨"PUT"⟩ "/v2/team1/app/manifests/v1" = .ok () ∧
      authorize held ⟨"PUT"⟩ "/v2/team1/app/manifests/v1" ≠ .ok () := by
  have hp : Principal.ofGrants? "alice"
      (Grant.ofGroups "team" ["cn=team1_rw,ou=groups", "team2_rw", "team1_rd"]) =
        some ⟨"alice", ⟨"team1_rd", "team1", true, true⟩⟩ := by decide +kernel
  exact ⟨hp, (denied_iff_crossed "alice" "team" _ _ hp ⟨"team1_rw", "team1", false, false⟩
    (by decide +kernel) rfl ⟨"PUT"⟩ "/v2/team1/app/manifests/v1").2 (by decide +kernel)⟩

/-- The grant that counts is not always the most permissive one at the gate. -/
theorem not_forall_allowed :
    ¬ ∀ (user start : String) (groups : List String) (p : Principal),
      Principal.ofGrants? user (Grant.ofGroups start groups) = some p →
      ∀ g ∈ Grant.ofGroups start groups, g.nameSpace = p.grant.nameSpace →
      ∀ (m : Http.Method) (path : String),
        authorize g m path = .ok () → authorize p.grant m path = .ok () := by
  intro h
  have hput := h "alice" "team" ["team1_rw", "team1_rd"]
    ⟨"alice", ⟨"team1_rd", "team1", true, true⟩⟩ (by decide +kernel)
    ⟨"team1_rw", "team1", false, false⟩ (by decide +kernel) rfl
    ⟨"PUT"⟩ "/v2/team1/app/manifests/v1" (by decide +kernel)
  exact absurd hput (by decide +kernel)

end Access

end ImageGateway
