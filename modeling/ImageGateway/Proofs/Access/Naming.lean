import ImageGateway.Proofs.Access.Grant

/-!
# How groups are named

A group that gives rights on a namespace is named by a rule: the namespace, and behind it an ending
that spells the rights.  The table of suffixes holds these endings and is searched for the first one
that leaves something in front of it.  Reading a name undoes naming, also where the namespace itself
ends like a suffix, because a name never ends in two of them: no ending is an end of another.  For
the same reason the table may stand in any order.

* `ending`, `mem_suffixes_iff` : the endings, and that the table consists of them.
* `Suffix.eq_of_append_eq` : **a name is a namespace and a suffix in one way only.**
* `Grant.ofGroupIn?_eq_some_iff` : what is found in a table does not depend on its order.
* `Grant.grant_of_name` : all of this together.
-/

namespace ImageGateway

namespace Access

/-- The ending of the name of a group that reads, writes unless it is pull-only, and deletes if that
is allowed. -/
def ending (pullOnly deleteAllowed : Bool) : String :=
  "_r" ++ (if pullOnly then "" else "w") ++ (if deleteAllowed then "d" else "")

/-- The table holds the four endings with their rights, and nothing else. -/
theorem mem_suffixes_iff {e : Suffix} :
    e ∈ suffixes ↔ e.text = ending e.pullOnly e.deleteAllowed := by
  constructor
  · have : ∀ e ∈ suffixes, e.text = ending e.pullOnly e.deleteAllowed := by decide
    exact this e
  · obtain ⟨text, pullOnly, deleteAllowed⟩ := e
    intro (h : text = ending pullOnly deleteAllowed)
    subst h
    cases pullOnly <;> cases deleteAllowed <;> decide

namespace Suffix

/-- No suffix is an end of another. -/
theorem eq_of_isSuffix : ∀ e ∈ suffixes, ∀ e' ∈ suffixes,
    e.text.toList <:+ e'.text.toList → e = e' := by
  decide

variable {e e' : Suffix} {nameSpace nameSpace' : String}

/-- **A name is a namespace and a suffix in one way only.** -/
theorem eq_of_append_eq (he : e ∈ suffixes) (he' : e' ∈ suffixes)
    (h : nameSpace ++ e.text = nameSpace' ++ e'.text) : e = e' ∧ nameSpace = nameSpace' := by
  have hlist : nameSpace.toList ++ e.text.toList = nameSpace'.toList ++ e'.text.toList := by
    rw [← String.toList_append, h, String.toList_append]
  have hends : e.text.toList <:+ nameSpace'.toList ++ e'.text.toList :=
    hlist ▸ List.suffix_append _ _
  have hsame : e = e' := by
    rcases List.suffix_or_suffix_of_suffix hends (List.suffix_append _ _) with hend | hend
    · exact eq_of_isSuffix e he e' he' hend
    · exact (eq_of_isSuffix e' he' e he hend).symm
  subst hsame
  exact ⟨rfl, String.append_left_inj _ |>.1 h⟩

end Suffix

namespace Grant

variable {table : List Suffix} {group : String} {g : Grant}

/-- Two suffixes never give grants for one name, so the first to give one is the only one. -/
theorem ofGroupIn?_eq_some_iff (htable : table.Perm suffixes) :
    ofGroupIn? table group = some g ↔ ∃ e ∈ suffixes, ofSuffix? group e = some g := by
  constructor
  · intro h
    obtain ⟨e, he, hg⟩ := List.exists_of_findSome?_eq_some h
    exact ⟨e, htable.mem_iff.1 he, hg⟩
  · rintro ⟨e, he, hg⟩
    have hfound : (ofGroupIn? table group).isSome = true :=
      List.findSome?_isSome_iff.2 ⟨e, htable.mem_iff.2 he, by rw [hg]; rfl⟩
    obtain ⟨g', hg'⟩ := Option.isSome_iff_exists.1 hfound
    obtain ⟨e', he', hgives⟩ := List.exists_of_findSome?_eq_some hg'
    have hname := (ofSuffix?_eq_some_iff.1 hg).1
    have hname' := (ofSuffix?_eq_some_iff.1 hgives).1
    obtain ⟨rfl, -⟩ := Suffix.eq_of_append_eq he (htable.mem_iff.1 he') (hname ▸ hname')
    rw [hg', ← hgives, hg]

theorem ofGroupIn?_eq_of_perm (htable : table.Perm suffixes) :
    ofGroupIn? table group = ofGroup? group := by
  refine Option.ext fun g => ?_
  rw [ofGroup?, ofGroupIn?_eq_some_iff htable, ofGroupIn?_eq_some_iff (List.Perm.refl _)]

/-- The grant of a name is that on the namespace in front of the ending that spells its rights. -/
theorem ofGroup?_eq_some_iff : ofGroup? group = some g ↔
    g.nameSpace ≠ "" ∧ g.group = group ∧
      group = g.nameSpace ++ ending g.pullOnly g.deleteAllowed := by
  rw [ofGroup?, ofGroupIn?_eq_some_iff (List.Perm.refl _)]
  constructor
  · rintro ⟨e, he, hg⟩
    obtain ⟨hname, hne, hgroup, hpull, hdelete⟩ := ofSuffix?_eq_some_iff.1 hg
    rw [mem_suffixes_iff, ← hpull, ← hdelete] at he
    exact ⟨hne, hgroup, he ▸ hname⟩
  · rintro ⟨hne, hgroup, hname⟩
    exact ⟨⟨_, g.pullOnly, g.deleteAllowed⟩, mem_suffixes_iff.2 rfl,
      ofSuffix?_eq_some_iff.2 ⟨hname, hne, hgroup, rfl, rfl⟩⟩

/-- **Reading the name of a group undoes naming it.**  The table consists of the four endings with
their rights.  A namespace, which may be any text but the empty one, followed by an ending gives the
grant on that very namespace with the rights of the ending.  A name that gives a grant is the
namespace of the grant followed by the ending of its rights.  And the order of the table does not
matter. -/
theorem grant_of_name :
    (∀ e, e ∈ suffixes ↔ e.text = ending e.pullOnly e.deleteAllowed) ∧
      (∀ nameSpace, nameSpace ≠ "" → ∀ e ∈ suffixes,
        ofGroup? (nameSpace ++ e.text) =
          some ⟨nameSpace ++ e.text, nameSpace, e.pullOnly, e.deleteAllowed⟩) ∧
      (∀ group g, ofGroup? group = some g → g.nameSpace ≠ "" ∧ g.group = group ∧
        group = g.nameSpace ++ ending g.pullOnly g.deleteAllowed) ∧
      ∀ table, table.Perm suffixes → ∀ group, ofGroupIn? table group = ofGroup? group := by
  refine ⟨fun e => mem_suffixes_iff, fun nameSpace hne e he => ?_,
    fun group g => ofGroup?_eq_some_iff.1, fun table htable group => ofGroupIn?_eq_of_perm htable⟩
  exact ofGroup?_eq_some_iff.2 ⟨hne, rfl, congrArg (nameSpace ++ ·) (mem_suffixes_iff.1 he)⟩

/-- A namespace that itself ends like a suffix, and the table read from its end. -/
theorem grant_of_nested_name :
    let e : Suffix := ⟨"_rd", true, true⟩
    let group := "team_rw" ++ e.text
    ("team_rw" ≠ "" ∧ e ∈ suffixes ∧ suffixes.reverse.Perm suffixes) ∧
      ofGroup? group = some ⟨group, "team_rw", true, true⟩ ∧
        ofGroupIn? suffixes.reverse group = ofGroup? group := by
  intro e group
  obtain ⟨-, hgrant, -, horder⟩ := grant_of_name
  have hmem : e ∈ suffixes := by decide
  have hperm : suffixes.reverse.Perm suffixes := List.reverse_perm suffixes
  exact ⟨⟨by decide, hmem, hperm⟩, hgrant "team_rw" (by decide) e hmem, horder _ hperm group⟩

end Grant

end Access

end ImageGateway
