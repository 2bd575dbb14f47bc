import ImageGateway.Text.Cut
import Mathlib.Data.List.DropRight

/-!
# Cutting texts

What the functions of `ImageGateway.Text.Cut` find, stated as equations between texts: a beginning
or an end is removed exactly where the text is that beginning or end and the rest.

* `Text.beginsWith_iff`, `Text.dropStart?_eq_some_iff`, `Text.dropEnd?_eq_some_iff` : fixed
  beginnings and ends.
* `Text.cutAt_eq_some_iff` : the first separator.
* `Text.trimWhere_append`, `Text.trimWhere_surround` : what is trimmed around a member that stays,
  and around a list that neither begins nor ends with one to trim.
* `Text.eq_rdropWhile_append`, `Text.append_replicate_inj` : the copies of a member at the end.
* `Text.trim_trim` : a trimmed text has nothing left to trim.
-/

namespace ImageGateway

namespace Text

theorem eq_append_iff_toList {s t u : String} : s = t ++ u ↔ s.toList = t.toList ++ u.toList := by
  rw [← String.toList_append, String.toList_inj]

theorem toList_slash (s t : String) : (s ++ "/" ++ t).toList = s.toList ++ '/' :: t.toList := by
  rw [String.toList_append, String.toList_append, List.append_assoc]
  rfl

theorem beginsWith_iff {start s : String} :
    beginsWith start s = true ↔ ∃ rest, s = start ++ rest := by
  simp only [beginsWith, List.isPrefixOf_iff_prefix, eq_append_iff_toList]
  constructor
  · rintro ⟨rest, h⟩
    exact ⟨String.ofList rest, by rw [String.toList_ofList, h]⟩
  · rintro ⟨rest, h⟩
    exact ⟨rest.toList, h.symm⟩

theorem beginsWith_of_isEmpty {start : String} (h : start.isEmpty = true) (s : String) :
    beginsWith start s = true := by
  rw [String.isEmpty_iff] at h
  exact beginsWith_iff.2 ⟨s, by simp [h]⟩

theorem dropStart?_eq_some_iff {start s rest : String} :
    dropStart? start s = some rest ↔ s = start ++ rest := by
  simp only [dropStart?, Option.map_eq_some_iff, List.isPrefixOf?_eq_some_iff_append_eq,
    eq_append_iff_toList]
  constructor
  · rintro ⟨l, h, rfl⟩
    rw [String.toList_ofList, h]
  · intro h
    exact ⟨rest.toList, h.symm, String.ofList_toList⟩

theorem dropStart?_append (start rest : String) : dropStart? start (start ++ rest) = some rest :=
  dropStart?_eq_some_iff.2 rfl

theorem dropEnd?_eq_some_iff {tail s front : String} :
    dropEnd? tail s = some front ↔ s = front ++ tail := by
  simp only [dropEnd?, Option.map_eq_some_iff, List.isSuffixOf?_eq_some_iff_append_eq,
    eq_append_iff_toList]
  constructor
  · rintro ⟨l, h, rfl⟩
    rw [String.toList_ofList, h]
  · intro h
    exact ⟨front.toList, h.symm, String.ofList_toList⟩

theorem cutWhere_eq_some_iff {α : Type} {p : α → Bool} {l x y : List α} :
    cutWhere p l = some (x, y) ↔ ∃ a, p a = true ∧ (∀ b ∈ x, p b = false) ∧ l = x ++ a :: y := by
  induction l generalizing x with
  | nil => simp [cutWhere]
  | cons c l ih =>
    rw [cutWhere]
    split_ifs with hc
    · constructor
      · rintro ⟨⟩
        exact ⟨c, hc, by simp, rfl⟩
      · rintro ⟨a, ha, hx, h⟩
        cases x with
        | nil => simp only [List.nil_append, List.cons.injEq] at h; simp [h]
        | cons b x =>
          obtain ⟨rfl, -⟩ := List.cons.inj h
          simp [hc] at hx
    · simp only [Option.map_eq_some_iff, Prod.exists, Prod.mk.injEq]
      constructor
      · rintro ⟨x, y, h, rfl, rfl⟩
        obtain ⟨a, ha, hx, rfl⟩ := ih.1 h
        exact ⟨a, ha, by simpa using ⟨by simpa using hc, hx⟩, rfl⟩
      · rintro ⟨a, ha, hx, h⟩
        cases x with
        | nil => simp only [List.nil_append, List.cons.injEq] at h; simp [h.1, ha] at hc
        | cons b x =>
          obtain ⟨rfl, rfl⟩ := List.cons.inj h
          exact ⟨x, y, ih.2 ⟨a, ha, fun d hd => hx d (List.mem_cons_of_mem _ hd), rfl⟩, rfl, rfl⟩

/-- **A cut is at the first separator.** -/
theorem cutAt_eq_some_iff {c : Char} {s x y : String} :
    cutAt c s = some (x, y) ↔ s.toList = x.toList ++ c :: y.toList ∧ c ∉ x.toList := by
  simp only [cutAt, Option.map_eq_some_iff, Prod.exists, Prod.mk.injEq, cutWhere_eq_some_iff,
    beq_iff_eq, beq_eq_false_iff_ne]
  constructor
  · rintro ⟨x, y, ⟨a, rfl, hx, h⟩, rfl, rfl⟩
    simp only [String.toList_ofList]
    exact ⟨h, fun hc => hx a hc rfl⟩
  · rintro ⟨h, hx⟩
    refine ⟨x.toList, y.toList, ⟨c, rfl, ?_, h⟩, String.ofList_toList, String.ofList_toList⟩
    rintro b hb rfl
    exact hx hb

/-! ### Trimming -/

theorem dropWhile_append {α : Type} {p : α → Bool} {a : α} (h : p a = false) (x y : List α) :
    (x ++ a :: y).dropWhile p = x.dropWhile p ++ a :: y := by
  rw [List.dropWhile_append]
  split_ifs with hx
  · rw [List.isEmpty_iff.1 hx, List.dropWhile_cons_of_neg (by simp [h]), List.nil_append]
  · rfl

theorem rdropWhile_append {α : Type} {p : α → Bool} {a : α} (h : p a = false) (x y : List α) :
    (x ++ a :: y).rdropWhile p = x ++ a :: y.rdropWhile p := by
  induction y using List.reverseRecOn with
  | nil => rw [List.rdropWhile_concat_neg _ _ _ (by simp [h]), List.rdropWhile_nil]
  | append_singleton y b ih =>
    rw [← List.cons_append, ← List.append_assoc, List.rdropWhile_concat, List.rdropWhile_concat]
    split_ifs
    · exact ih
    · simp

/-- **Trimming stops at a member that stays, from both sides.** -/
theorem trimWhere_append {α : Type} {p : α → Bool} {a : α} (h : p a = false) (x y : List α) :
    trimWhere p (x ++ a :: y) = x.dropWhile p ++ a :: y.rdropWhile p := by
  rw [← rdropWhile_append h, ← dropWhile_append h]
  rfl

/-- Behind a member that stays, only the end is trimmed. -/
theorem trimWhere_cons {α : Type} {p : α → Bool} {a : α} {l : List α} (h : p a = false) :
    trimWhere p (a :: l) = a :: (l.reverse.dropWhile p).reverse := trimWhere_append h [] l

/-- A member that stays is in the list exactly if it is in what is left of it. -/
theorem mem_trimWhere_iff {α : Type} {p : α → Bool} {a : α} (h : p a = false) {l : List α} :
    a ∈ trimWhere p l ↔ a ∈ l := by
  constructor
  · intro ha
    rw [trimWhere, List.mem_reverse] at ha
    exact List.dropWhile_subset p (List.mem_reverse.1 (List.dropWhile_subset p ha))
  · intro ha
    obtain ⟨x, y, rfl⟩ := List.append_of_mem ha
    rw [trimWhere_append h]
    exact List.mem_append_right _ List.mem_cons_self

theorem dropWhile_eq_self {α : Type} {p : α → Bool} {l : List α}
    (h : ∀ a, l.head? = some a → p a = false) : l.dropWhile p = l := by
  cases l with
  | nil => rfl
  | cons a l => exact List.dropWhile_cons_of_neg (by simp [h a rfl])

/-- **All that is trimmed are the members around a list** that neither begins nor ends with one. -/
theorem trimWhere_surround {α : Type} {p : α → Bool} {x l y : List α}
    (hx : ∀ a ∈ x, p a = true) (hy : ∀ a ∈ y, p a = true)
    (hhead : ∀ a, l.head? = some a → p a = false)
    (hlast : ∀ a, l.getLast? = some a → p a = false) : trimWhere p (x ++ l ++ y) = l := by
  rw [trimWhere, List.append_assoc, List.dropWhile_append_of_pos hx]
  cases l with
  | nil => simp [List.dropWhile_eq_nil_iff.2 hy]
  | cons a l =>
    rw [List.cons_append, List.dropWhile_cons_of_neg (by simp [hhead a rfl]), ← List.cons_append,
      List.reverse_append, List.dropWhile_append_of_pos (by simpa using hy),
      dropWhile_eq_self fun b hb => hlast b (by rwa [List.head?_reverse] at hb),
      List.reverse_reverse]

theorem trimWhere_dropWhile {α : Type} (p : α → Bool) (l : List α) :
    trimWhere p (l.dropWhile p) = trimWhere p l := by
  rw [trimWhere, trimWhere, List.dropWhile_idempotent]

theorem trimWhere_trimWhere {α : Type} (p : α → Bool) (l : List α) :
    trimWhere p (trimWhere p l) = trimWhere p l := by
  rw [← trimWhere_dropWhile p l]
  cases h : l.dropWhile p with
  | nil => rfl
  | cons a m =>
    have ha : p a = false := by
      have hne : l.dropWhile p ≠ [] := by simp [h]
      simpa [h] using List.head_dropWhile_not p hne
    rw [trimWhere_cons ha, trimWhere_cons ha, List.reverse_reverse, List.dropWhile_idempotent]

section End

variable {α : Type} [BEq α] [LawfulBEq α] {a : α} {l m : List α}

/-- Only copies of the member are trimmed. -/
theorem eq_rdropWhile_append (a : α) (l : List α) :
    ∃ k, l = l.rdropWhile (· == a) ++ List.replicate k a := by
  refine ⟨(l.rtakeWhile (· == a)).length, ?_⟩
  rw [← List.eq_replicate_of_mem fun b hb => by simpa using List.mem_rtakeWhile_imp hb,
    List.rdropWhile_append_rtakeWhile]

theorem getLast?_rdropWhile_ne (a : α) (l : List α) :
    (l.rdropWhile (· == a)).getLast? ≠ some a := by
  intro h
  have hne : l.rdropWhile (· == a) ≠ [] := fun hnil => by
    rw [hnil] at h
    cases h
  rw [List.getLast?_eq_some_getLast hne] at h
  exact List.rdropWhile_last_not _ _ hne (beq_iff_eq.2 (Option.some.inj h))

theorem rdropWhile_append_replicate (h : l.getLast? ≠ some a) (k : Nat) :
    (l ++ List.replicate k a).rdropWhile (· == a) = l := by
  induction k with
  | zero =>
    rw [List.replicate_zero, List.append_nil, List.rdropWhile_eq_self_iff]
    intro hne hlast
    exact h (by rw [List.getLast?_eq_some_getLast hne, beq_iff_eq.1 hlast])
  | succ k ih =>
    rw [List.replicate_succ', ← List.append_assoc, List.rdropWhile_concat_pos _ _ _ (by simp), ih]

/-- What is left when copies at the end are trimmed does not ask how many there were. -/
theorem append_replicate_inj (hl : l.getLast? ≠ some a) (hm : m.getLast? ≠ some a) {i j : Nat}
    (h : l ++ List.replicate i a = m ++ List.replicate j a) : l = m := by
  rw [← rdropWhile_append_replicate hl i, h, rdropWhile_append_replicate hm]

end End

theorem trimEnd_toList (c : Char) (s : String) :
    (trimEnd c s).toList = s.toList.rdropWhile (· == c) := String.toList_ofList

theorem eq_trimEnd_append (c : Char) (s : String) :
    ∃ k, s.toList = (trimEnd c s).toList ++ List.replicate k c := by
  rw [trimEnd_toList]
  exact eq_rdropWhile_append c s.toList

theorem getLast?_trimEnd_ne (c : Char) (s : String) : (trimEnd c s).toList.getLast? ≠ some c := by
  rw [trimEnd_toList]
  exact getLast?_rdropWhile_ne c s.toList

theorem trim_trim (s : String) : trim (trim s) = trim s := by
  rw [trim, trim, String.toList_ofList, trimWhere_trimWhere]

end Text

end ImageGateway
