import ImageGateway.Api.Payload
import ImageGateway.Proofs.Access.Gate
import ImageGateway.Proofs.Access.Grant
import ImageGateway.Proofs.Access.Permission

/-!
# The raw protocol within the session

The same groups of a user are read in two ways.  On the raw protocol one grant counts, and the gate
decides by it; a session keeps all of the grants, and its dashboard adds them up by namespace.  The
one grant is one of all, so whatever the gate lets pass for it the session permits as well, and
the dashboard says so.

* `entry_of_grant` : a namespace on which a session has a grant has one entry in the dashboard.
* `permits_of_authorize` : **the raw protocol never goes beyond the session**.
-/

namespace ImageGateway

namespace Api

open Access (Grant Principal)

variable {session : Session} {g : Grant}

/-- The entries of the dashboard for a namespace. -/
def Dashboard.entriesFor (d : Dashboard) (nameSpace : String) : List Access.Permission :=
  d.permissions.filter (·.nameSpace == nameSpace)

theorem entry_of_grant (hg : g ∈ session.grants) (hne : g.nameSpace ≠ "") :
    (Dashboard.ofSession session).entriesFor g.nameSpace =
      [Access.permissionOn session.grants g.nameSpace] :=
  Access.filter_permissions (Access.nodup_distinct _) (Access.mem_namespacesOf.2 ⟨g, hg, rfl⟩) hne

/-- A writing grant shows in the entry of its namespace. -/
theorem entry_writes (hg : g ∈ session.grants) (hwrites : g.pullOnly = false) :
    (Access.permissionOn session.grants g.nameSpace).pullOnly = false := by
  rw [← Bool.not_eq_true, Access.permissionOn_pullOnly_iff]
  rintro ⟨-, hall⟩
  exact absurd (hall g hg rfl) (by simp [hwrites])

/-- The right to delete shows in the entry of its namespace. -/
theorem entry_deletes (hg : g ∈ session.grants) (hdeletes : g.deleteAllowed = true) :
    (Access.permissionOn session.grants g.nameSpace).deleteAllowed = true := by
  rw [Access.permissionOn_deleteAllowed, Access.deleteAllowedIn_iff]
  exact ⟨g, hg, rfl, hdeletes⟩

/-- **The raw protocol never goes beyond the session.**  Let a session be opened with the grants of
a user, and let the gate allow a request to the user under the grant that counts, other than a ping.
Then the session covers the namespace of that grant, and the dashboard has one entry for it; if the
request does not only read, the entry is not pull-only; and if it is a deletion, the session may
delete in the namespace, and the entry says so. -/
theorem permits_of_authorize (user start : String) (groups : List String) (p : Principal)
    (hp : Principal.ofGrants? user (Grant.ofGroups start groups) = some p) (holder : String)
    (createdAt : Session.Instant) (m : Http.Method) (path : String)
    (hping : Access.isPing path = false) (h : Access.authorize p.grant m path = .ok ()) :
    let session : Session := ⟨holder, Grant.ofGroups start groups, createdAt⟩
    session.covers p.grant.nameSpace = true ∧
      ∃ entry, (Dashboard.ofSession session).entriesFor p.grant.nameSpace = [entry] ∧
        (m ≠ .get → m ≠ .head → entry.pullOnly = false) ∧
        (m = .delete →
          session.mayDelete p.grant.nameSpace = true ∧ entry.deleteAllowed = true) := by
  intro session
  have hmem : p.grant ∈ session.grants := (Principal.ofGrants?_eq_some hp).2
  obtain ⟨-, -, -, hne, -⟩ := Grant.suffix_of_mem_ofGroups hmem
  -- the path is no ping path, so the gate has looked at the method
  obtain ⟨hread, hdelete⟩ : (p.grant.pullOnly = true → m = .get ∨ m = .head) ∧
      (p.grant.pullOnly = false → p.grant.deleteAllowed = false → m ≠ .delete) := by
    rcases Access.authorize_eq_ok_iff.1 h with hping' | ⟨-, -, hmethod⟩
    · rw [hping] at hping'
      cases hping'
    · exact Access.allowsMethod_eq_ok_iff.1 hmethod
  have hwrites (hget : m ≠ .get) (hhead : m ≠ .head) : p.grant.pullOnly = false := by
    rw [← Bool.not_eq_true]
    exact fun hpull => (hread hpull).elim hget hhead
  have hdeletes (hm : m = .delete) : p.grant.deleteAllowed = true := by
    by_contra hno
    refine hdelete (hwrites ?_ ?_) (by simpa using hno) hm <;> rw [hm] <;> decide
  refine ⟨Session.covers_iff.2 ⟨p.grant, hmem, rfl⟩, _, entry_of_grant hmem hne, ?_, ?_⟩
  · exact fun hget hhead => entry_writes hmem (hwrites hget hhead)
  · exact fun hm => ⟨Session.mayDelete_iff.2 ⟨p.grant, hmem, rfl, hdeletes hm⟩,
      entry_deletes hmem (hdeletes hm)⟩

theorem permits_of_deletion :
    let session : Session :=
      ⟨"alice", Grant.ofGroups "team" ["team1_r", "team2_rw", "cn=team1_rwd,ou=groups"], 0⟩
    session.mayDelete "team1" = true ∧
      ∃ entry, (Dashboard.ofSession session).entriesFor "team1" = [entry] ∧
        entry.pullOnly = false ∧ entry.deleteAllowed = true := by
  obtain ⟨-, entry, hentry, hwrites, hdeletes⟩ := permits_of_authorize "alice" "team"
    ["team1_r", "team2_rw", "cn=team1_rwd,ou=groups"]
    ⟨"alice", ⟨"team1_rwd", "team1", false, true⟩⟩ (by decide +kernel) "alice" 0 .delete
    "/v2/team1/app/manifests/sha256:0a" (by decide +kernel) (by decide +kernel)
  obtain ⟨hmay, hallowed⟩ := hdeletes rfl
  exact ⟨hmay, entry, hentry, hwrites (by decide) (by decide), hallowed⟩

end Api

end ImageGateway
