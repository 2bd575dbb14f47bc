import ImageGateway.Text.Cut
import Mathlib.Data.List.Infix

/-!
# Replacing a pattern

Replacing goes through a list once, from left to right.  Every list is cut into pieces in which the
pattern does not stand, with the pattern between them, and where the first member of the pattern
stands nowhere else in it, replacing puts the new part between the same pieces: no copy of the
pattern arises that was not there, and none that the new part brings is looked at.

* `Text.exists_pieces` : the pieces of a list.
* `Text.replaceFrom_intercalate` : **the new part stands between the pieces, and nothing else is
  changed**.
* `Text.intercalate_inj` : what stands between the pieces is told by the whole.
-/

namespace ImageGateway

namespace Text

section Pieces

variable {α : Type} {pattern : List α}

theorem intercalate_cons (x first : List α) (pieces : List (List α)) :
    x.intercalate (first :: pieces) = first ++ pieces.flatMap (x ++ ·) := by
  induction pieces generalizing first with
  | nil => simp
  | cons second pieces ih => rw [List.intercalate_cons_cons, ih]; simp

theorem length_flatMap_append (x : List α) (pieces : List (List α)) :
    (pieces.flatMap (x ++ ·)).length = pieces.length * x.length + pieces.flatten.length := by
  induction pieces with
  | nil => simp
  | cons first pieces ih =>
    simp only [List.flatMap_cons, List.length_append, ih, List.length_cons, List.flatten_cons,
      Nat.succ_mul]
    omega

/-- **What stands between the pieces is told by the whole**, if there are two pieces at least. -/
theorem intercalate_inj {x y : List α} {pieces : List (List α)} (htwo : 2 ≤ pieces.length)
    (h : x.intercalate pieces = y.intercalate pieces) : x = y := by
  obtain ⟨first, second, more, rfl⟩ : ∃ first second more, pieces = first :: second :: more := by
    match pieces, htwo with
    | first :: second :: more, _ => exact ⟨first, second, more, rfl⟩
  rw [intercalate_cons, intercalate_cons, List.append_cancel_left_eq] at h
  have hlength : x.length = y.length := by
    have := congrArg List.length h
    rw [length_flatMap_append, length_flatMap_append, Nat.add_right_cancel_iff] at this
    exact Nat.eq_of_mul_eq_mul_left (Nat.succ_pos more.length) this
  rw [List.flatMap_cons, List.flatMap_cons, List.append_assoc, List.append_assoc] at h
  exact (List.append_inj h hlength).1

/-- Every list is cut into pieces without the pattern in them. -/
theorem exists_pieces (hne : pattern ≠ []) (l : List α) : ∃ pieces, pieces ≠ [] ∧
    (∀ piece ∈ pieces, ¬ pattern <:+: piece) ∧ l = pattern.intercalate pieces := by
  induction hn : l.length using Nat.strong_induction_on generalizing l with
  | h n ih =>
    cases l with
    | nil => exact ⟨[[]], by simp, by simpa using hne, by simp⟩
    | cons b l =>
      by_cases hfront : pattern <+: b :: l
      · obtain ⟨rest, hrest⟩ := hfront
        have hshorter : rest.length < n := by
          rw [← hn, ← hrest, List.length_append]
          exact Nat.lt_add_of_pos_left (List.length_pos_iff.2 hne)
        obtain ⟨pieces, hpieces, hclean, hcut⟩ := ih _ hshorter rest rfl
        obtain ⟨first, more, rfl⟩ := List.exists_cons_of_ne_nil hpieces
        refine ⟨[] :: first :: more, by simp, ?_, ?_⟩
        · simpa [List.forall_mem_cons, hne] using hclean
        · rw [List.intercalate_cons_cons, ← hcut, List.nil_append, hrest]
      · obtain ⟨pieces, hpieces, hclean, hcut⟩ :=
          ih l.length (by rw [← hn]; exact Nat.lt_succ_self _) l rfl
        obtain ⟨first, more, rfl⟩ := List.exists_cons_of_ne_nil hpieces
        rw [List.forall_mem_cons] at hclean
        rw [intercalate_cons] at hcut
        refine ⟨(b :: first) :: more, by simp, ?_, ?_⟩
        · rw [List.forall_mem_cons, List.infix_cons_iff, not_or]
          refine ⟨⟨fun hfirst => hfront (hfirst.trans ?_), hclean.1⟩, hclean.2⟩
          rw [hcut]
          exact List.prefix_append (b :: first) _
        · rw [intercalate_cons, hcut, List.cons_append]

end Pieces

variable {α : Type} [BEq α] [LawfulBEq α] {pattern new : List α}

omit [LawfulBEq α] in
/-- Members of an occurrence that was replaced are passed over. -/
theorem replaceFrom_eq_drop (pattern new : List α) (skip : Nat) (l : List α) :
    replaceFrom pattern new skip l = replaceFrom pattern new 0 (l.drop skip) := by
  induction skip generalizing l with
  | zero => rfl
  | succ skip ih =>
    cases l with
    | nil => rfl
    | cons a l => exact ih l

/-- The pattern in front of the rest is replaced. -/
theorem replaceFrom_append_self (hne : pattern ≠ []) (l : List α) :
    replaceFrom pattern new 0 (pattern ++ l) = new ++ replaceFrom pattern new 0 l := by
  obtain ⟨a, more, rfl⟩ := List.exists_cons_of_ne_nil hne
  have hfront : (a :: more).isPrefixOf (a :: (more ++ l)) = true :=
    List.isPrefixOf_iff_prefix.2 ⟨l, rfl⟩
  rw [List.cons_append, replaceFrom, if_pos hfront, replaceFrom_eq_drop, List.length_cons,
    Nat.add_sub_cancel, List.drop_left]

/-- A piece without the pattern in it stays, and what begins with the pattern does not add to it. -/
theorem replaceFrom_append {a : α} {more piece rest : List α} (ha : a ∉ more)
    (hpiece : ¬ a :: more <:+: piece) (hrest : ∀ b, rest.head? = some b → b = a) :
    replaceFrom (a :: more) new 0 (piece ++ rest) =
      piece ++ replaceFrom (a :: more) new 0 rest := by
  induction piece with
  | nil => rfl
  | cons b piece ih =>
    rw [List.infix_cons_iff, not_or] at hpiece
    have hfront : ¬ a :: more <+: b :: (piece ++ rest) := by
      intro hfirst
      obtain ⟨rfl, hmore⟩ := List.cons_prefix_cons.1 hfirst
      rcases List.prefix_or_prefix_of_prefix hmore (List.prefix_append piece rest) with hin | hout
      · exact hpiece.1 (List.cons_prefix_cons.2 ⟨rfl, hin⟩)
      · -- the pattern would reach beyond the piece, to where it begins again
        obtain ⟨beyond, rfl⟩ := hout
        rw [List.prefix_append_right_inj] at hmore
        cases beyond with
        | nil => exact hpiece.1 (by simp)
        | cons c beyond =>
          obtain ⟨tail, rfl⟩ := hmore
          obtain rfl := hrest c rfl
          exact ha (by simp)
    rw [List.cons_append, replaceFrom, if_neg (by rwa [List.isPrefixOf_iff_prefix]),
      ih hpiece.2, List.cons_append]

/-- **The new part stands between the pieces, and nothing else is changed.** -/
theorem replaceFrom_intercalate {a : α} {more : List α} (ha : a ∉ more) {pieces : List (List α)}
    (h : ∀ piece ∈ pieces, ¬ a :: more <:+: piece) :
    replaceFrom (a :: more) new 0 ((a :: more).intercalate pieces) = new.intercalate pieces := by
  cases pieces with
  | nil => rfl
  | cons first pieces =>
    rw [intercalate_cons, intercalate_cons]
    induction pieces generalizing first with
    | nil => exact replaceFrom_append ha (h first (by simp)) (by simp)
    | cons second pieces ih =>
      rw [replaceFrom_append ha (h first (by simp)) (by simp), List.flatMap_cons,
        List.append_assoc, replaceFrom_append_self (List.cons_ne_nil a more),
        ih second fun piece hpiece => h piece (List.mem_cons_of_mem _ hpiece), List.flatMap_cons,
        List.append_assoc]

end Text

end ImageGateway
