import ImageGateway.Access.Gate
import ImageGateway.Proofs.Text.Character
import ImageGateway.Proofs.Text.Cut
import ImageGateway.Url.Path
import Mathlib.Data.List.Basic

/-!
# What the gate lets through

The gate recognises dot segments by replacing `%2e` in the small letters of a segment; the URL
parser compares a segment with a list of spellings.  `isDotSegment_eq` shows that the two agree, so
a path that the gate accepts has no segment that the parser would resolve.

* `isDotSegment_eq` : the gate and the URL parser know the same dot segments.
* `allowsMethod_eq_ok_iff`, `authorize_eq_ok_iff` : the decisions as conditions.
* `liesIn_of_beginsWith` : the namespace of a path below the protocol root.
-/

namespace ImageGateway

namespace Access

/-! ### Dot segments -/

/-- The segment with `%2e` read as a full stop. -/
def plainDots (s : List Char) : List Char := Text.replaceFrom "%2e".toList ['.'] 0 s

theorem plainDots_escape (s : List Char) :
    plainDots ('%' :: '2' :: 'e' :: s) = '.' :: plainDots s := rfl

theorem plainDots_cons {c : Char} {s : List Char} (h : ∀ t, c :: s ≠ '%' :: '2' :: 'e' :: t) :
    plainDots (c :: s) = c :: plainDots s := by
  have hp : "%2e".toList.isPrefixOf (c :: s) = false := by
    rw [Bool.eq_false_iff, ne_eq, List.isPrefixOf_iff_prefix]
    rintro ⟨t, ht⟩
    exact h t ht.symm
  unfold plainDots
  rw [Text.replaceFrom, hp]
  rfl

theorem plainDots_eq_nil_iff {s : List Char} : plainDots s = [] ↔ s = [] := by
  constructor
  · intro h
    cases s with
    | nil => rfl
    | cons c s =>
      by_cases he : ∃ t, c :: s = '%' :: '2' :: 'e' :: t
      · obtain ⟨t, ht⟩ := he
        rw [ht, plainDots_escape] at h
        cases h
      · rw [plainDots_cons fun t ht => he ⟨t, ht⟩] at h
        cases h
  · rintro rfl
    rfl

/-- A full stop at the front was one, or was an escape. -/
theorem plainDots_eq_dot_iff {s t : List Char} :
    plainDots s = '.' :: t ↔
      ∃ r, (s = '.' :: r ∨ s = '%' :: '2' :: 'e' :: r) ∧ plainDots r = t := by
  constructor
  · intro h
    cases s with
    | nil => cases h
    | cons c s =>
      by_cases he : ∃ r, c :: s = '%' :: '2' :: 'e' :: r
      · obtain ⟨r, hr⟩ := he
        rw [hr, plainDots_escape] at h
        exact ⟨r, .inr hr, (List.cons.inj h).2⟩
      · rw [plainDots_cons fun t ht => he ⟨t, ht⟩] at h
        obtain ⟨rfl, ht⟩ := List.cons.inj h
        exact ⟨s, .inl rfl, ht⟩
  · rintro ⟨r, rfl | rfl, rfl⟩
    · exact plainDots_cons (by simp)
    · exact plainDots_escape r

/-- A character in front of the letters is the small form of itself alone. -/
theorem toLower_eq_iff_of_lt {c d : Char} (h : d.toNat < 65) : c.toLower = d ↔ c = d := by
  simp only [← Char.toNat_inj, Text.toNat_toLower]
  split_ifs <;> omega

theorem toLower_eq_e_iff {c : Char} : c.toLower = 'e' ↔ c = 'e' ∨ c = 'E' := by
  simp only [← Char.toNat_inj, Text.toNat_toLower, Char.reduceToNat]
  split_ifs <;> omega

theorem map_toLower_eq_dot_cons_iff {s t : List Char} :
    s.map Char.toLower = '.' :: t ↔ ∃ r, s = '.' :: r ∧ r.map Char.toLower = t := by
  simp [List.map_eq_cons_iff, toLower_eq_iff_of_lt]

theorem map_toLower_eq_escape_cons_iff {s t : List Char} :
    s.map Char.toLower = '%' :: '2' :: 'e' :: t ↔
      ∃ r, (s = '%' :: '2' :: 'e' :: r ∨ s = '%' :: '2' :: 'E' :: r) ∧ r.map Char.toLower = t := by
  simp only [List.map_eq_cons_iff, toLower_eq_iff_of_lt, toLower_eq_e_iff, Char.reduceToNat,
    Nat.reduceLT]
  constructor
  · rintro ⟨_, _, rfl, rfl, _, _, rfl, rfl, _, r, rfl, rfl | rfl, rfl⟩
    · exact ⟨r, .inl rfl, rfl⟩
    · exact ⟨r, .inr rfl, rfl⟩
  · rintro ⟨r, rfl | rfl, rfl⟩
    · exact ⟨_, _, rfl, rfl, _, _, rfl, rfl, _, r, rfl, .inl rfl, rfl⟩
    · exact ⟨_, _, rfl, rfl, _, _, rfl, rfl, _, r, rfl, .inr rfl, rfl⟩

/-- The gate reads a full stop at the front of a segment where one of its forms stands. -/
theorem plainDots_lower_eq_dot_iff {s t : List Char} :
    plainDots (s.map Char.toLower) = '.' :: t ↔
      ∃ a ∈ UrlPath.dotForms, ∃ r, s = a ++ r ∧ plainDots (r.map Char.toLower) = t := by
  rw [plainDots_eq_dot_iff]
  simp only [map_toLower_eq_dot_cons_iff, map_toLower_eq_escape_cons_iff]
  constructor
  · rintro ⟨_, ⟨r, rfl, rfl⟩ | ⟨r, rfl | rfl, rfl⟩, rfl⟩
    · exact ⟨".".toList, by decide, r, rfl, rfl⟩
    · exact ⟨"%2e".toList, by decide, r, rfl, rfl⟩
    · exact ⟨"%2E".toList, by decide, r, rfl, rfl⟩
  · rintro ⟨a, ha, r, rfl, rfl⟩
    simp only [UrlPath.dotForms, List.map_cons, List.map_nil, List.mem_cons, List.not_mem_nil,
      or_false] at ha
    rcases ha with rfl | rfl | rfl
    · exact ⟨_, .inl ⟨r, rfl, rfl⟩, rfl⟩
    · exact ⟨_, .inr ⟨r, .inl rfl, rfl⟩, rfl⟩
    · exact ⟨_, .inr ⟨r, .inr rfl, rfl⟩, rfl⟩

theorem plainDots_lower_eq_nil_iff {s : List Char} :
    plainDots (s.map Char.toLower) = [] ↔ s = [] := by
  rw [plainDots_eq_nil_iff, List.map_eq_nil_iff]

/-- **The gate and the URL parser know the same dot segments.** -/
theorem isDotSegment_eq (s : List Char) :
    isDotSegment s = (UrlPath.isSingleDot s || UrlPath.isDoubleDot s) := by
  -- the gate reads forms of a full stop one by one, as the lists of the parser are made of them
  have single : plainDots (s.map Char.toLower) = ['.'] ↔ UrlPath.isSingleDot s = true := by
    simp [plainDots_lower_eq_dot_iff, plainDots_lower_eq_nil_iff, UrlPath.isSingleDot,
      UrlPath.singleDots]
  have double : plainDots (s.map Char.toLower) = ['.', '.'] ↔ UrlPath.isDoubleDot s = true := by
    simp only [plainDots_lower_eq_dot_iff, plainDots_lower_eq_nil_iff, UrlPath.isDoubleDot,
      UrlPath.doubleDots, List.contains_iff_mem, List.mem_flatMap, List.mem_map]
    constructor
    · rintro ⟨a, ha, _, rfl, b, hb, _, rfl, rfl⟩
      exact ⟨a, ha, b, hb, by rw [List.append_nil]⟩
    · rintro ⟨a, ha, b, hb, rfl⟩
      exact ⟨a, ha, b, rfl, b, hb, [], (List.append_nil b).symm, rfl⟩
  rw [Bool.eq_iff_iff, Bool.or_eq_true, ← single, ← double]
  simp [isDotSegment, plainDots]

theorem hasDotSegment_eq_false_iff {path : String} : hasDotSegment path = false ↔
    ∀ s ∈ path.toList.splitOn '/',
      UrlPath.isSingleDot s = false ∧ UrlPath.isDoubleDot s = false := by
  simp [hasDotSegment, isDotSegment_eq]

/-! ### Decisions -/

theorem allowsMethod_eq_ok_iff {g : Grant} {m : Http.Method} : allowsMethod g m = .ok () ↔
    (g.pullOnly = true → m = .get ∨ m = .head) ∧
      (g.pullOnly = false → g.deleteAllowed = false → m ≠ .delete) := by
  unfold allowsMethod
  split_ifs with hp hm hd
  · simpa [hp] using hm
  · simpa [hp] using hm
  · rw [Bool.and_eq_true, beq_iff_eq, Bool.not_eq_true'] at hd
    simp [hp, hd]
  · simp only [hp, Bool.false_eq_true, false_implies, true_implies, true_and, true_iff]
    rintro hdel rfl
    exact hd (by simp [hdel])

theorem authorize_eq_ok_iff {g : Grant} {m : Http.Method} {path : String} :
    authorize g m path = .ok () ↔ isPing path = true ∨
      hasDotSegment path = false ∧ liesIn g.nameSpace path = true ∧ allowsMethod g m = .ok () := by
  unfold authorize
  split_ifs with h1 h2 h3
  · simp [h1]
  · simp [h1, h2]
  · rw [Bool.not_eq_true'] at h3
    simp [h1, h3]
  · rw [Bool.not_eq_true', Bool.not_eq_false] at h3
    simp [h1, h2, h3]

/-- Below the protocol root the namespace comes first. -/
theorem liesIn_of_beginsWith {nameSpace path : String}
    (h : Text.beginsWith protocolRoot path = true) :
    liesIn nameSpace path = Text.beginsWith (protocolRoot ++ "/" ++ nameSpace ++ "/") path := by
  obtain ⟨rest, rfl⟩ := Text.beginsWith_iff.1 h
  rw [liesIn, scopedPath, Text.dropStart?_append, Option.getD_some, Bool.eq_iff_iff]
  simp [Text.beginsWith_iff, String.append_assoc]

end Access

end ImageGateway
