import ImageGateway.Directory.Basic
import ImageGateway.Proofs.Text.Cut

/-!
# Where grants come from

A grant is always the reading of one group name: a nonempty namespace followed by one of the four
suffixes, whose rights it has.  Everything that the gateway allows goes back to such a name, so the
lemmas here lead from a grant to the group, and from the actor of the raw protocol to a grant.

* `Grant.ofGroup?_eq_some` : the group name of a grant, taken apart.
* `Grant.mem_ofGroups` : the grants of a user are those of the groups that begin as required.
* `Grant.mem_of_mostPermissive?` : the most permissive grant is one of the grants.
* `Directory.authorizeUser_eq_ok_iff` : what an accepted user is.
-/

namespace ImageGateway

namespace Access

namespace Grant

theorem ofSuffix?_eq_some_iff {group : String} {e : Suffix} {g : Grant} :
    ofSuffix? group e = some g ↔ group = g.nameSpace ++ e.text ∧ g.nameSpace ≠ "" ∧
      g.group = group ∧ g.pullOnly = e.pullOnly ∧ g.deleteAllowed = e.deleteAllowed := by
  obtain ⟨group', ns, pullOnly, deleteAllowed⟩ := g
  unfold ofSuffix?
  constructor
  · intro h
    split at h
    · cases h
    · rename_i ns' hns
      split_ifs at h with he
      obtain ⟨rfl, rfl, rfl, rfl⟩ := h
      exact ⟨Text.dropEnd?_eq_some_iff.1 hns, by simpa using he, rfl, rfl, rfl⟩
  · rintro ⟨hns, hne, rfl, rfl, rfl⟩
    simp only [Text.dropEnd?_eq_some_iff.2 hns]
    rw [if_neg (by simpa using hne)]

/-- **The group of a grant is its namespace and a suffix**, and the rights are the suffix's. -/
theorem ofGroup?_eq_some {group : String} {g : Grant} (h : ofGroup? group = some g) :
    ∃ e ∈ suffixes, group = g.nameSpace ++ e.text ∧ g.nameSpace ≠ "" ∧ g.group = group ∧
      g.pullOnly = e.pullOnly ∧ g.deleteAllowed = e.deleteAllowed := by
  obtain ⟨e, he, hg⟩ := List.exists_of_findSome?_eq_some h
  exact ⟨e, he, ofSuffix?_eq_some_iff.1 hg⟩

/-- An empty beginning needs no case of its own: every name begins with it. -/
theorem ofIdentifier?_eq_some_iff {start identifier : String} {g : Grant} :
    ofIdentifier? start identifier = some g ↔
      Text.beginsWith start (groupName identifier) = true ∧
        ofGroup? (groupName identifier) = some g := by
  simp only [ofIdentifier?, Bool.or_eq_true]
  split_ifs with h
  · -- the test passes as well where `start` is empty
    have : Text.beginsWith start (groupName identifier) = true :=
      h.elim (fun h => Text.beginsWith_of_isEmpty h _) id
    simp [this]
  · simp only [not_or] at h
    simp [h.2]

theorem mem_ofGroups {start : String} {identifiers : List String} {g : Grant} :
    g ∈ ofGroups start identifiers ↔ ∃ i ∈ identifiers, ofIdentifier? start i = some g :=
  List.mem_filterMap

/-- A grant of a user has a namespace and the rights of one suffix. -/
theorem suffix_of_mem_ofGroups {start : String} {identifiers : List String} {g : Grant}
    (h : g ∈ ofGroups start identifiers) : ∃ e ∈ suffixes, g.group = g.nameSpace ++ e.text ∧
      g.nameSpace ≠ "" ∧ g.pullOnly = e.pullOnly ∧ g.deleteAllowed = e.deleteAllowed := by
  obtain ⟨identifier, -, hidentifier⟩ := mem_ofGroups.1 h
  obtain ⟨e, he, hgroup, hne, hname, hrights⟩ :=
    ofGroup?_eq_some (ofIdentifier?_eq_some_iff.1 hidentifier).2
  exact ⟨e, he, hname.trans hgroup, hne, hrights⟩

theorem mem_of_mostPermissiveFrom (best : Grant) (rest : List Grant) :
    mostPermissiveFrom best rest ∈ best :: rest := by
  induction rest generalizing best with
  | nil => exact List.mem_singleton_self best
  | cons g rest ih =>
    simp only [mostPermissiveFrom, List.foldl_cons]
    split_ifs
    · exact List.mem_cons_of_mem _ (ih g)
    · rcases List.mem_cons.1 (ih best) with h | h
      · exact List.mem_cons.2 (.inl h)
      · exact List.mem_cons_of_mem _ (List.mem_cons_of_mem _ h)

theorem mem_of_mostPermissive? {grants : List Grant} {g : Grant}
    (h : mostPermissive? grants = some g) : g ∈ grants := by
  cases grants with
  | nil => cases h
  | cons best rest =>
    cases h
    exact mem_of_mostPermissiveFrom best rest

theorem mostPermissive?_isSome {grants : List Grant} :
    (mostPermissive? grants).isSome = true ↔ grants ≠ [] := by
  cases grants <;> simp [mostPermissive?]

end Grant

theorem Principal.ofGrants?_eq_some {user : String} {grants : List Grant} {p : Principal}
    (h : ofGrants? user grants = some p) : p.name = user ∧ p.grant ∈ grants := by
  obtain ⟨g, hg, rfl⟩ := Option.map_eq_some_iff.1 h
  exact ⟨rfl, Grant.mem_of_mostPermissive? hg⟩

end Access

namespace Directory

/-- **An accepted user** is one whom the directory knows, with the grants of the groups that it
returns; the actor on the raw protocol is the most permissive of them. -/
theorem authorizeUser_eq_ok_iff {directory : Directory} {start username password : String}
    {user : Authorized} :
    authorizeUser directory start username password = .ok user ↔
      ∃ groups, directory username password = .ok groups ∧
        user.grants = Access.Grant.ofGroups start groups ∧
        Access.Principal.ofGrants? username user.grants = some user.primary := by
  unfold authorizeUser
  cases hd : directory username password with
  | error cause => simp
  | ok groups =>
    simp only [Except.ok.injEq, exists_eq_left']
    constructor
    · intro h
      split at h
      · cases h
      · rename_i primary hp
        cases h
        exact ⟨rfl, hp⟩
    · rintro ⟨hg, hp⟩
      rw [← hg]
      simp only [hp]

theorem authorizeUser_of_grants {directory : Directory} {start username password : String}
    {groups : List String} (h : directory username password = .ok groups)
    (hgrants : Access.Grant.ofGroups start groups ≠ []) :
    ∃ primary, authorizeUser directory start username password =
      .ok ⟨Access.Grant.ofGroups start groups, primary⟩ := by
  obtain ⟨g, hg⟩ := Option.isSome_iff_exists.1 (Access.Grant.mostPermissive?_isSome.2 hgrants)
  exact ⟨⟨username, g⟩, authorizeUser_eq_ok_iff.2 ⟨groups, h, rfl, by
    rw [Access.Principal.ofGrants?, hg, Option.map_some]⟩⟩

theorem grants_ne_nil_of_authorizeUser {directory : Directory} {start username password : String}
    {user : Authorized} (h : authorizeUser directory start username password = .ok user) :
    user.grants ≠ [] := by
  obtain ⟨-, -, -, hprimary⟩ := authorizeUser_eq_ok_iff.1 h
  exact List.ne_nil_of_mem (Access.Principal.ofGrants?_eq_some hprimary).2

end Directory

end ImageGateway
