import ImageGateway.Proofs.Access.Permission
import ImageGateway.Proofs.Api.Decision

/-!
# What the dashboard tells

The dashboard adds the grants of a session up by namespace, and a deletion is decided by a walk over
the grants of its own.  Both are compared with the list of grants, which may name a namespace or a
group several times and may have grants without a namespace:

* `Tells` : an entry agrees with the grants on its namespace and with the decision on a deletion.
* `decide_tag` : the decision on a deletion of a well-formed tag is that of the right to delete.
* `tells_permissionOn` : the sum of the grants on a namespace agrees with them.
* `dashboard_of_grants` : **the dashboard has one entry for each namespace with a name, in the order
  in which the grants first name them, and every entry tells what is enforced**.
-/

namespace ImageGateway

namespace Api

open Access (Grant Permission)

variable {session : Session}

/-- The entry tells what the session holds on its namespace and what it may do there. -/
structure Tells (session : Session) (entry : Permission) : Prop where
  /-- Some grant stands behind the entry. -/
  held : ∃ g ∈ session.grants, g.nameSpace = entry.nameSpace
  deleteAllowed : entry.deleteAllowed = session.mayDelete entry.nameSpace
  /-- A request to delete a tag in the namespace is decided as the entry says. -/
  decides : ∀ query name, tagOf session query = .ok name →
    name.repository.nameSpace = entry.nameSpace →
    Action.decide session query .tag =
      if entry.deleteAllowed then .ok (.deleteTag name.repository.repo name.tag)
      else .error .deleteNotAllowed
  pullOnly : entry.pullOnly = true ↔
    ∀ g ∈ session.grants, g.nameSpace = entry.nameSpace → g.pullOnly = true
  increasing : entry.groups.Pairwise (· < ·)
  groups : ∀ group, group ∈ entry.groups ↔
    ∃ g ∈ session.grants, g.nameSpace = entry.nameSpace ∧ g.group = group

theorem decide_tag {query : Bytes} {name : TagName} (h : tagOf session query = .ok name) :
    Action.decide session query .tag =
      if session.mayDelete name.repository.nameSpace then
        .ok (.deleteTag name.repository.repo name.tag)
      else .error .deleteNotAllowed := by
  unfold Action.decide
  rw [h]
  rfl

/-- **The sum of the grants on a namespace agrees with them.** -/
theorem tells_permissionOn {nameSpace : String}
    (hheld : ∃ g ∈ session.grants, g.nameSpace = nameSpace) :
    Tells session (Access.permissionOn session.grants nameSpace) where
  held := hheld
  deleteAllowed := Access.permissionOn_deleteAllowed session.grants nameSpace
  decides := by
    intro query name hname hin
    rw [decide_tag hname, hin, Access.permissionOn_deleteAllowed]
    rfl
  pullOnly := by
    rw [Access.permissionOn_pullOnly_iff]
    exact ⟨fun h => h.2, fun h => ⟨hheld, h⟩⟩
  increasing := Access.pairwise_inOrder _
  groups := fun _ => Access.mem_permissionOn_groups

/-- **The dashboard tells what is enforced.**  The namespaces of a session are those of its grants,
without repetitions and in the order in which the grants first name them.  The dashboard shows them,
and has one entry for each of them that has a name, in the same order; and every entry agrees with
the grants on its namespace and with what is decided on a deletion there. -/
theorem dashboard_of_grants (session : Session) :
    (session.namespaces.Nodup ∧
      (∀ nameSpace, nameSpace ∈ session.namespaces ↔
        ∃ g ∈ session.grants, g.nameSpace = nameSpace) ∧
      session.namespaces.Pairwise fun s t =>
        (session.grants.map (·.nameSpace)).idxOf s < (session.grants.map (·.nameSpace)).idxOf t) ∧
      (Dashboard.ofSession session).namespaces = session.namespaces ∧
      (Dashboard.ofSession session).permissions.map (·.nameSpace) =
        session.namespaces.filter (· ≠ "") ∧
      ∀ entry ∈ (Dashboard.ofSession session).permissions, Tells session entry := by
  refine ⟨⟨Access.nodup_distinct _, fun nameSpace => Access.mem_namespacesOf,
    Access.pairwise_distinct _⟩, rfl, ?_, fun entry hentry => ?_⟩
  · have hnamed : ∀ s : String, (!s.isEmpty) = decide (s ≠ "") := fun s => by
      by_cases hs : s = "" <;> simp [hs]
    rw [Dashboard.ofSession, Access.map_nameSpace_permissions]
    exact List.filter_congr fun s _ => hnamed s
  · obtain ⟨nameSpace, hmem, -, rfl⟩ := Access.mem_permissions.1 hentry
    exact tells_permissionOn (Access.mem_namespacesOf.1 hmem)

/-- Two groups on a namespace, one of them named twice, and a grant without a namespace. -/
theorem dashboard_of_repeated_groups :
    let session : Session := ⟨"alice", [⟨"team1_rd", "team1", true, true⟩, ⟨"_r", "", true, false⟩,
      ⟨"team2_rw", "team2", false, false⟩, ⟨"team1_r", "team1", true, false⟩,
      ⟨"team1_rd", "team1", true, true⟩], 0⟩
    let entry : Permission := ⟨"team1", true, true, ["team1_r", "team1_rd"]⟩
    session.namespaces = ["team1", "", "team2"] ∧
      (Dashboard.ofSession session).permissions =
        [entry, ⟨"team2", false, false, ["team2_rw"]⟩] ∧ Tells session entry := by
  intro session entry
  have hpermissions : (Dashboard.ofSession session).permissions =
      [entry, ⟨"team2", false, false, ["team2_rw"]⟩] := by decide +kernel
  obtain ⟨-, -, -, htells⟩ := dashboard_of_grants session
  have hmem : entry ∈ (Dashboard.ofSession session).permissions := by
    rw [hpermissions]
    exact List.mem_cons_self
  exact ⟨by decide +kernel, hpermissions, htells entry hmem⟩

end Api

end ImageGateway
