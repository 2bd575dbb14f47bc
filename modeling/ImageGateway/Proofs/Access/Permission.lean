import ImageGateway.Session.Store
import Mathlib.Data.List.Nodup
import Mathlib.Data.String.Basic

/-!
# What a list of grants adds up to

* `mem_distinct`, `mem_namespacesOf` : the namespaces of a list of grants are those of its members.
* `pairwise_distinct` : they stand in the order of their first occurrences.
* `mem_inOrder`, `pairwise_inOrder` : the groups of an entry, without repetitions and in order.
* `permissionOn_pullOnly_iff`, `permissionOn_deleteAllowed` : what the entry of a namespace says.
* `filter_permissions` : every namespace that is asked for has one entry.
* `Session.covers_iff`, `Session.mayDelete_iff` : what a session may do is what one of its grants
  says.
-/

namespace ImageGateway

namespace Access

@[simp] theorem mem_distinct {s : String} {l : List String} : s ∈ distinct l ↔ s ∈ l := by
  induction l with
  | nil => rfl
  | cons t l ih =>
    rw [distinct, List.mem_cons, List.mem_cons, List.mem_filter, ih]
    by_cases h : s = t <;> simp [h]

theorem nodup_distinct (l : List String) : (distinct l).Nodup := by
  induction l with
  | nil => exact List.nodup_nil
  | cons s l ih =>
    rw [distinct, List.nodup_cons]
    exact ⟨by simp, ih.filter _⟩

/-- Each member is found further behind than the ones before it. -/
theorem pairwise_distinct (l : List String) :
    (distinct l).Pairwise fun s t => l.idxOf s < l.idxOf t := by
  induction l with
  | nil => exact .nil
  | cons s l ih =>
    have hbehind {t : String} (ht : t ≠ s) : (s :: l).idxOf t = l.idxOf t + 1 :=
      List.idxOf_cons_ne l ht.symm
    rw [distinct, List.pairwise_cons]
    constructor
    · intro t ht
      have hne : t ≠ s := by simpa using (List.mem_filter.1 ht).2
      rw [List.idxOf_cons_self, hbehind hne]
      omega
    · refine (ih.filter (· != s)).imp_of_mem ?_
      intro t u ht hu hlt
      have hne : t ≠ s := by simpa using (List.mem_filter.1 ht).2
      have hne' : u ≠ s := by simpa using (List.mem_filter.1 hu).2
      rw [hbehind hne, hbehind hne']
      omega

theorem mem_namespacesOf {nameSpace : String} {grants : List Grant} :
    nameSpace ∈ namespacesOf grants ↔ ∃ g ∈ grants, g.nameSpace = nameSpace := by
  rw [namespacesOf, mem_distinct, List.mem_map]

theorem deleteAllowedIn_iff {nameSpace : String} {grants : List Grant} :
    deleteAllowedIn grants nameSpace = true ↔
      ∃ g ∈ grants, g.nameSpace = nameSpace ∧ g.deleteAllowed = true := by
  simp [deleteAllowedIn]

/-! ### Names in order -/

theorem mem_insertInOrder {s t : String} {l : List String} :
    t ∈ insertInOrder s l ↔ t = s ∨ t ∈ l := by
  induction l with
  | nil => simp [insertInOrder]
  | cons u l ih =>
    rw [insertInOrder]
    split_ifs with hlt heq
    · simp
    · subst heq
      simp
    · rw [List.mem_cons, ih, List.mem_cons]
      tauto

theorem pairwise_insertInOrder {s : String} {l : List String} (h : l.Pairwise (· < ·)) :
    (insertInOrder s l).Pairwise (· < ·) := by
  induction l with
  | nil => exact List.pairwise_singleton _ s
  | cons t l ih =>
    obtain ⟨hfirst, hl⟩ := List.pairwise_cons.1 h
    rw [insertInOrder]
    split_ifs with hlt heq
    · refine List.pairwise_cons.2 ⟨fun u hu => ?_, h⟩
      rcases List.mem_cons.1 hu with rfl | hu
      · exact hlt
      · exact String.lt_trans hlt (hfirst u hu)
    · exact h
    · have hgt : t < s := (lt_or_gt_of_ne heq).resolve_left hlt
      refine List.pairwise_cons.2 ⟨fun u hu => ?_, ih hl⟩
      rcases mem_insertInOrder.1 hu with rfl | hu
      · exact hgt
      · exact hfirst u hu

theorem mem_inOrder {s : String} {l : List String} : s ∈ inOrder l ↔ s ∈ l := by
  induction l with
  | nil => rfl
  | cons t l ih => rw [inOrder, List.foldr_cons, mem_insertInOrder, ← inOrder, ih, List.mem_cons]

/-- **The names increase strictly**, so none is repeated. -/
theorem pairwise_inOrder (l : List String) : (inOrder l).Pairwise (· < ·) := by
  induction l with
  | nil => exact .nil
  | cons s l ih =>
    rw [inOrder, List.foldr_cons]
    exact pairwise_insertInOrder ih

/-! ### The entry of a namespace -/

theorem mem_grantsOn {nameSpace : String} {grants : List Grant} {g : Grant} :
    g ∈ grantsOn nameSpace grants ↔ g ∈ grants ∧ g.nameSpace = nameSpace := by
  simp [grantsOn]

theorem permissionOn_pullOnly_iff {grants : List Grant} {nameSpace : String} :
    (permissionOn grants nameSpace).pullOnly = true ↔
      (∃ g ∈ grants, g.nameSpace = nameSpace) ∧
        ∀ g ∈ grants, g.nameSpace = nameSpace → g.pullOnly = true := by
  simp only [permissionOn, Bool.and_eq_true, Bool.not_eq_true',
    List.isEmpty_eq_false_iff_exists_mem, List.all_eq_true, mem_grantsOn, and_imp]

theorem permissionOn_deleteAllowed (grants : List Grant) (nameSpace : String) :
    (permissionOn grants nameSpace).deleteAllowed = deleteAllowedIn grants nameSpace := by
  simp only [permissionOn, grantsOn, deleteAllowedIn, List.any_filter]

theorem mem_permissionOn_groups {grants : List Grant} {nameSpace group : String} :
    group ∈ (permissionOn grants nameSpace).groups ↔
      ∃ g ∈ grants, g.nameSpace = nameSpace ∧ g.group = group := by
  simp only [permissionOn, mem_inOrder, List.mem_map, mem_grantsOn, and_assoc]

theorem mem_permissions {grants : List Grant} {namespaces : List String} {entry : Permission} :
    entry ∈ permissions grants namespaces ↔
      ∃ nameSpace ∈ namespaces, nameSpace ≠ "" ∧ permissionOn grants nameSpace = entry := by
  simp [permissions, and_assoc]

/-- One entry stands for each namespace with a name, in the order asked. -/
theorem map_nameSpace_permissions (grants : List Grant) (namespaces : List String) :
    (permissions grants namespaces).map (·.nameSpace) = namespaces.filter (!·.isEmpty) := by
  rw [permissions, List.map_map]
  exact List.map_id _

/-- **Every namespace that is asked for has one entry**, if it has a name and is asked for once. -/
theorem filter_permissions {grants : List Grant} {namespaces : List String} {nameSpace : String}
    (hnodup : namespaces.Nodup) (h : nameSpace ∈ namespaces) (hne : nameSpace ≠ "") :
    (permissions grants namespaces).filter (·.nameSpace == nameSpace) =
      [permissionOn grants nameSpace] := by
  have hnamed : nameSpace ∈ namespaces.filter (!·.isEmpty) :=
    List.mem_filter.2 ⟨h, by simpa using hne⟩
  have hone : (namespaces.filter (!·.isEmpty)).filter (· == nameSpace) = [nameSpace] := by
    rw [List.filter_beq, List.count_eq_one_of_mem (hnodup.filter _) hnamed, List.replicate_one]
  calc (permissions grants namespaces).filter (·.nameSpace == nameSpace)
      = ((namespaces.filter (!·.isEmpty)).filter (· == nameSpace)).map (permissionOn grants) :=
        List.filter_map
    _ = [permissionOn grants nameSpace] := by rw [hone, List.map_singleton]

end Access

namespace Session

theorem covers_iff {s : Session} {nameSpace : String} :
    s.covers nameSpace = true ↔ ∃ g ∈ s.grants, g.nameSpace = nameSpace := by
  rw [covers, List.contains_iff_mem]
  exact Access.mem_namespacesOf

theorem mayDelete_iff {s : Session} {nameSpace : String} : s.mayDelete nameSpace = true ↔
    ∃ g ∈ s.grants, g.nameSpace = nameSpace ∧ g.deleteAllowed = true :=
  Access.deleteAllowedIn_iff

end Session

end ImageGateway
