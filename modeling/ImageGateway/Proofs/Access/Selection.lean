import ImageGateway.Proofs.Access.Precedence
import Mathlib.Order.Bounds.Basic

/-!
# What the groups of a user come to

A user has the groups that the directory names, in some order and possibly more than once.  One
after the other they are taken or skipped, and the first of the best grants is the one that counts.
The list of grants and the choice are compared with what they mean:

* `CarriesSuffix`, `Derives` : which names give a grant, and which lists of grants a list of
  identifiers gives.  Each identifier is looked at on its own, so nothing is reordered or merged.
* `Outranks`, `Unbeaten` : the order of the rights, and the places of a list of grants that no grant
  of the list outranks.
* `Grant.derives_iff` : the grants of a user are the ones that the groups give, and no others.
* `Grant.mostPermissive?_eq_some_iff` : the choice is **the grant at the least unbeaten place**.
* `Grant.rank_eq_of_perm` : the choice depends on the order of the groups, its rights do not.
* `selection_of_groups` : all of it for the actor of the raw protocol.

The loop of the choice compares a candidate with the best grant so far only.  The invariant
`exists_firstPlace` says where that grant stands: everything in front of it ranks strictly lower.
-/

namespace ImageGateway

namespace Access

namespace Grant

/-! ### Which groups give a grant -/

/-- The name of a group is a nonempty namespace and one of the suffixes. -/
def CarriesSuffix (name : String) : Prop :=
  ∃ e ∈ suffixes, ∃ nameSpace, nameSpace ≠ "" ∧ name = nameSpace ++ e.text

/-- The group of an identifier counts: its name begins as required and carries a suffix. -/
def Counts (start identifier : String) : Prop :=
  (∃ rest, groupName identifier = start ++ rest) ∧ CarriesSuffix (groupName identifier)

/-- What a list of identifiers gives: one grant for each group that counts, in their order. -/
inductive Derives (start : String) : List String → List Grant → Prop
  | nil : Derives start [] []
  | taken {identifier : String} {identifiers : List String} {g : Grant} {grants : List Grant} :
      Counts start identifier → ofGroup? (groupName identifier) = some g →
      Derives start identifiers grants → Derives start (identifier :: identifiers) (g :: grants)
  | skipped {identifier : String} {identifiers : List String} {grants : List Grant} :
      ¬ Counts start identifier → Derives start identifiers grants →
      Derives start (identifier :: identifiers) grants

theorem ofGroup?_isSome_iff {name : String} :
    (ofGroup? name).isSome = true ↔ CarriesSuffix name := by
  constructor
  · intro h
    obtain ⟨g, hg⟩ := Option.isSome_iff_exists.1 h
    obtain ⟨e, he, hname, hne, -⟩ := ofGroup?_eq_some hg
    exact ⟨e, he, g.nameSpace, hne, hname⟩
  · rintro ⟨e, he, nameSpace, hne, hname⟩
    have hgives : ofSuffix? name e = some ⟨name, nameSpace, e.pullOnly, e.deleteAllowed⟩ :=
      ofSuffix?_eq_some_iff.2 ⟨hname, hne, rfl, rfl, rfl⟩
    exact List.findSome?_isSome_iff.2 ⟨e, he, by rw [hgives]; rfl⟩

theorem ofIdentifier?_of_counts {start identifier : String} (h : Counts start identifier) :
    ∃ g, ofGroup? (groupName identifier) = some g ∧ ofIdentifier? start identifier = some g := by
  obtain ⟨g, hg⟩ := Option.isSome_iff_exists.1 (ofGroup?_isSome_iff.2 h.2)
  exact ⟨g, hg, ofIdentifier?_eq_some_iff.2 ⟨Text.beginsWith_iff.2 h.1, hg⟩⟩

theorem ofIdentifier?_of_not_counts {start identifier : String} (h : ¬ Counts start identifier) :
    ofIdentifier? start identifier = none := by
  by_contra hne
  obtain ⟨g, hg⟩ := Option.ne_none_iff_exists'.1 hne
  obtain ⟨hbegins, hgroup⟩ := ofIdentifier?_eq_some_iff.1 hg
  exact h ⟨Text.beginsWith_iff.1 hbegins, ofGroup?_isSome_iff.1 (by rw [hgroup]; rfl)⟩

section Cons

variable {start identifier : String} {identifiers : List String}

theorem ofGroups_cons_of_some {g : Grant} (h : ofIdentifier? start identifier = some g) :
    ofGroups start (identifier :: identifiers) = g :: ofGroups start identifiers :=
  List.filterMap_cons_some h

theorem ofGroups_cons_of_none (h : ofIdentifier? start identifier = none) :
    ofGroups start (identifier :: identifiers) = ofGroups start identifiers :=
  List.filterMap_cons_none h

end Cons

/-- **The grants of a user are the ones that the groups give.** -/
theorem derives_iff {start : String} {identifiers : List String} {grants : List Grant} :
    Derives start identifiers grants ↔ grants = ofGroups start identifiers := by
  constructor
  · intro h
    induction h with
    | nil => rfl
    | taken hcounts hg _ ih =>
      obtain ⟨g', hg', hidentifier⟩ := ofIdentifier?_of_counts hcounts
      obtain rfl : _ = g' := Option.some.inj (hg.symm.trans hg')
      rw [ofGroups_cons_of_some hidentifier, ih]
    | skipped hcounts _ ih =>
      rw [ofGroups_cons_of_none (ofIdentifier?_of_not_counts hcounts), ih]
  · rintro rfl
    induction identifiers with
    | nil => exact .nil
    | cons identifier identifiers ih =>
      by_cases hcounts : Counts start identifier
      · obtain ⟨g, hg, hidentifier⟩ := ofIdentifier?_of_counts hcounts
        rw [ofGroups_cons_of_some hidentifier]
        exact .taken hcounts hg ih
      · rw [ofGroups_cons_of_none (ofIdentifier?_of_not_counts hcounts)]
        exact .skipped hcounts ih

/-! ### The first of the best -/

/-- `a` permits more than `b`: it deletes and `b` does not, or they agree on that and it writes
and `b` does not. -/
def Outranks (a b : Grant) : Prop :=
  (a.deleteAllowed = true ∧ b.deleteAllowed = false) ∨
    (a.deleteAllowed = b.deleteAllowed ∧ a.pullOnly = false ∧ b.pullOnly = true)

/-- The place holds a grant that none of the list outranks. -/
def Unbeaten (grants : List Grant) (i : Nat) : Prop :=
  ∃ g, grants[i]? = some g ∧ ∀ other ∈ grants, ¬ other.Outranks g

theorem outranks_iff {a b : Grant} : a.Outranks b ↔ b.rank < a.rank := by
  obtain ⟨_, _, pullA, deleteA⟩ := a
  obtain ⟨_, _, pullB, deleteB⟩ := b
  cases pullA <;> cases deleteA <;> cases pullB <;> cases deleteB <;> simp [Outranks, rank]

theorem rank_eq_iff {a b : Grant} :
    a.rank = b.rank ↔ a.deleteAllowed = b.deleteAllowed ∧ a.pullOnly = b.pullOnly := by
  obtain ⟨_, _, pullA, deleteA⟩ := a
  obtain ⟨_, _, pullB, deleteB⟩ := b
  cases pullA <;> cases deleteA <;> cases pullB <;> cases deleteB <;> simp [rank]

/-- What the loop has chosen stands at a place with grants of lower rank only in front of it. -/
theorem exists_firstPlace (best : Grant) (rest : List Grant) :
    ∃ i : Nat, (best :: rest)[i]? = some (mostPermissiveFrom best rest) ∧
      ∀ j < i, ∀ g : Grant, (best :: rest)[j]? = some g →
        g.rank < (mostPermissiveFrom best rest).rank := by
  induction rest generalizing best with
  | nil => exact ⟨0, rfl, fun j hj => absurd hj (Nat.not_lt_zero j)⟩
  | cons next rest ih =>
    have hstep : mostPermissiveFrom best (next :: rest) =
        mostPermissiveFrom (if next.morePermissive best then next else best) rest := rfl
    rw [hstep]
    by_cases h : next.morePermissive best = true
    · -- the candidate takes over, so it beats the one in front of it
      rw [if_pos h]
      obtain ⟨i, hi, hfront⟩ := ih next
      have hnext := rank_le_mostPermissiveFrom next rest next List.mem_cons_self
      refine ⟨i + 1, hi, fun j hj g hg => ?_⟩
      cases j with
      | zero =>
        cases hg
        exact (morePermissive_iff.1 h).trans_le hnext
      | succ j => exact hfront j (by omega) g hg
    · rw [if_neg h]
      obtain ⟨i, hi, hfront⟩ := ih best
      cases i with
      | zero => exact ⟨0, hi, fun j hj => absurd hj (Nat.not_lt_zero j)⟩
      | succ i =>
        -- the candidate is passed over, and so is the best grant so far
        have hbest := hfront 0 (Nat.succ_pos i) best rfl
        refine ⟨i + 2, hi, fun j hj g hg => ?_⟩
        match j, hj, hg with
        | 0, _, hg =>
          cases hg
          exact hbest
        | 1, _, hg =>
          cases hg
          exact (Nat.not_lt.1 (mt morePermissive_iff.2 h)).trans_lt hbest
        | j + 2, hj, hg => exact hfront (j + 1) (by omega) g hg

/-- **The grant that counts stands at the least unbeaten place.** -/
theorem mostPermissive?_eq_some_iff {grants : List Grant} {g : Grant} :
    mostPermissive? grants = some g ↔
      ∃ i, IsLeast {i | Unbeaten grants i} i ∧ grants[i]? = some g := by
  cases grants with
  | nil =>
    constructor
    · intro h
      cases h
    · rintro ⟨i, -, h⟩
      cases h
  | cons best rest =>
    obtain ⟨i, hi, hfront⟩ := exists_firstPlace best rest
    have hmax := rank_le_mostPermissiveFrom best rest
    have hleast : IsLeast {i | Unbeaten (best :: rest) i} i := by
      constructor
      · exact ⟨_, hi, fun other hother hbeats =>
          Nat.not_lt.2 (hmax other hother) (outranks_iff.1 hbeats)⟩
      · rintro j ⟨held, hheld, hunbeaten⟩
        by_contra hj
        exact hunbeaten _ (List.mem_of_getElem? hi)
          (outranks_iff.2 (hfront j (Nat.lt_of_not_le hj) held hheld))
    rw [mostPermissive?, Option.some.injEq]
    constructor
    · rintro rfl
      exact ⟨i, hleast, hi⟩
    · rintro ⟨j, hj, hg⟩
      obtain rfl := hj.unique hleast
      exact Option.some.inj (hi.symm.trans hg)

/-- **The rights of the grant that counts do not depend on the order of the grants.** -/
theorem rank_eq_of_perm {grants grants' : List Grant} {g g' : Grant} (h : grants.Perm grants')
    (hg : mostPermissive? grants = some g) (hg' : mostPermissive? grants' = some g') :
    g.rank = g'.rank := by
  have hmem : g ∈ grants' := h.mem_iff.1 (mem_of_mostPermissive? hg)
  have hmem' : g' ∈ grants := h.mem_iff.2 (mem_of_mostPermissive? hg')
  exact Nat.le_antisymm (rank_le_of_mostPermissive? hg' hmem) (rank_le_of_mostPermissive? hg hmem')

end Grant

/-- The rights of an actor: whether it deletes, and whether it only reads. -/
def Principal.rights (p : Principal) : Bool × Bool := (p.grant.deleteAllowed, p.grant.pullOnly)

theorem Principal.ofGrants?_eq_none_iff {user : String} {grants : List Grant} :
    ofGrants? user grants = none ↔ grants = [] := by
  rw [ofGrants?, Option.map_eq_none_iff, ← Option.not_isSome_iff_eq_none,
    Grant.mostPermissive?_isSome, not_not]

theorem Principal.rights_of_perm (user : String) {grants grants' : List Grant}
    (h : grants.Perm grants') :
    (ofGrants? user grants).map rights = (ofGrants? user grants').map rights := by
  cases hp : ofGrants? user grants with
  | none =>
    obtain rfl := ofGrants?_eq_none_iff.1 hp
    rw [ofGrants?_eq_none_iff.2 h.nil_eq.symm]
  | some p =>
    have hne : grants' ≠ [] := by
      rintro rfl
      rw [ofGrants?_eq_none_iff.2 h.eq_nil] at hp
      cases hp
    obtain ⟨p', hp'⟩ := Option.ne_none_iff_exists'.1 (mt ofGrants?_eq_none_iff.1 hne)
    obtain ⟨g, hg, rfl⟩ := Option.map_eq_some_iff.1 hp
    obtain ⟨g', hg', rfl⟩ := Option.map_eq_some_iff.1 hp'
    obtain ⟨hdelete, hpull⟩ := Grant.rank_eq_iff.1 (Grant.rank_eq_of_perm h hg hg')
    rw [hp', Option.map_some, Option.map_some, rights, rights, hdelete, hpull]

/-- **What the groups of a user come to.**  The grants are exactly those that the groups that count
give, in their order and each as often as its group is named.  There is no actor exactly if there
are no grants; otherwise the actor is the user under the grant at the least place that no grant of
the list outranks.  Whatever the order of the groups, the actor has the same rights. -/
theorem selection_of_groups (user start : String) (groups : List String) :
    (∀ grants, Grant.Derives start groups grants ↔ grants = Grant.ofGroups start groups) ∧
      (Principal.ofGrants? user (Grant.ofGroups start groups) = none ↔
        Grant.ofGroups start groups = []) ∧
      (∀ p, Principal.ofGrants? user (Grant.ofGroups start groups) = some p ↔
        ∃ i, IsLeast {i | Grant.Unbeaten (Grant.ofGroups start groups) i} i ∧
          ∃ g, (Grant.ofGroups start groups)[i]? = some g ∧ p = ⟨user, g⟩) ∧
      ∀ groups', groups.Perm groups' →
        (Principal.ofGrants? user (Grant.ofGroups start groups')).map Principal.rights =
          (Principal.ofGrants? user (Grant.ofGroups start groups)).map Principal.rights := by
  refine ⟨fun grants => Grant.derives_iff, Principal.ofGrants?_eq_none_iff, fun p => ?_,
    fun groups' hperm => (Principal.rights_of_perm user (hperm.filterMap _)).symm⟩
  constructor
  · intro h
    obtain ⟨g, hg, rfl⟩ := Option.map_eq_some_iff.1 h
    obtain ⟨i, hleast, hi⟩ := Grant.mostPermissive?_eq_some_iff.1 hg
    exact ⟨i, hleast, g, hi, rfl⟩
  · rintro ⟨i, hleast, g, hi, rfl⟩
    rw [Principal.ofGrants?, Grant.mostPermissive?_eq_some_iff.2 ⟨i, hleast, hi⟩, Option.map_some]

/-- The groups of a user in two orders: another grant counts, with the same rights. -/
theorem selection_of_reversed_groups :
    let groups := ["team1_r", "cn=team2_rd,ou=groups", "staff", "team3_rd", "team2_rw"]
    Principal.ofGrants? "alice" (Grant.ofGroups "team" groups) =
        some ⟨"alice", ⟨"team2_rd", "team2", true, true⟩⟩ ∧
      Principal.ofGrants? "alice" (Grant.ofGroups "team" groups.reverse) =
        some ⟨"alice", ⟨"team3_rd", "team3", true, true⟩⟩ ∧
      (Principal.ofGrants? "alice" (Grant.ofGroups "team" groups.reverse)).map Principal.rights =
        (Principal.ofGrants? "alice" (Grant.ofGroups "team" groups)).map Principal.rights := by
  intro groups
  obtain ⟨-, -, -, hrights⟩ := selection_of_groups "alice" "team" groups
  exact ⟨by decide +kernel, by decide +kernel,
    hrights groups.reverse (List.reverse_perm groups).symm⟩

end Access

end ImageGateway
