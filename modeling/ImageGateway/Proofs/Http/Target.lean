import ImageGateway.Http.Target
import ImageGateway.Proofs.Url.Reading

/-!
# Request targets inside of URLs

A target that was read has nothing in it that the reader of URLs would clean away or take for the
mark of another part.  So a target behind the text of a base is cut into its path and its query
again.

* `Target.IsWritten` : the characters of a target that was read.
* `Target.isWritten_of_ofText?` : **every target that is read consists of them.**
* `Target.query_pathAndQuery` : its query is found again where it is cut as part of a URL.
-/

namespace ImageGateway

namespace Http

namespace Target

/-- Path and query consist of the characters that their places allow. -/
structure IsWritten (t : Target) : Prop where
  path : ∀ c ∈ t.path.toList, isPathChar c = true
  query : ∀ q, t.query = some q → ∀ c ∈ q.toList, isQueryChar c = true

theorem isWritten_of_parts {path : List Char} {query : Option (List Char)}
    (h : (path.all isPathChar && (query.getD []).all isQueryChar) = true) :
    (Target.mk (if path.isEmpty then "/" else String.ofList path)
      (query.map String.ofList)).IsWritten := by
  rw [Bool.and_eq_true, List.all_eq_true, List.all_eq_true] at h
  refine ⟨?_, fun q hq c hc => ?_⟩
  · dsimp only
    split_ifs
    · exact List.all_eq_true.1 (by decide)
    · rw [String.toList_ofList]
      exact h.1
  · obtain ⟨q, rfl, rfl⟩ := Option.map_eq_some_iff.1 hq
    rw [String.toList_ofList] at hc
    exact h.2 c hc

theorem isWritten_of_ofPathAndQuery? {s : List Char} {t : Target}
    (h : ofPathAndQuery? s = some t) : t.IsWritten := by
  unfold ofPathAndQuery? at h
  dsimp only at h
  split at h
  all_goals
    split at h
    · rename_i hchars
      obtain rfl := Option.some.inj h
      exact isWritten_of_parts hchars
    · cases h

/-- **A target that is read consists of the characters that a target may hold.** -/
theorem isWritten_of_ofText? {text : String} {t : Target} (h : ofText? text = some t) :
    t.IsWritten := by
  unfold ofText? at h
  split_ifs at h
  split at h
  · cases h
  · cases h
    exact ⟨List.all_eq_true.1 (by decide), fun q hq => nomatch hq⟩
  · exact isWritten_of_ofPathAndQuery? h
  · unfold ofAbsolute? at h
    split at h
    · dsimp only at h
      split_ifs at h
      exact isWritten_of_ofPathAndQuery? h
    · split_ifs at h
      cases h
      exact ⟨List.all_eq_true.1 (by decide), fun q hq => nomatch hq⟩

theorem toList_pathAndQuery (t : Target) :
    t.pathAndQuery.toList = t.path.toList ++ Url.marked '?' (t.query.map String.toList) := by
  unfold pathAndQuery
  cases t.query <;> simp [Url.marked]

theorem isBlank_of_mem_pathAndQuery {t : Target} (h : t.IsWritten) :
    ∀ c ∈ t.pathAndQuery.toList, Url.isBlank c = false := by
  have hpath (c : Char) (hc : isPathChar c = true) : Url.isBlank c = false := by
    simp only [isPathChar, Bool.or_eq_true, beq_iff_eq, Bool.and_eq_true, decide_eq_true_eq] at hc
    simp only [Url.isBlank, decide_eq_false_iff_not]
    omega
  have hquery (c : Char) (hc : isQueryChar c = true) : Url.isBlank c = false := by
    simp only [isQueryChar, Bool.or_eq_true, beq_iff_eq, Bool.and_eq_true, decide_eq_true_eq] at hc
    simp only [Url.isBlank, decide_eq_false_iff_not]
    omega
  rw [toList_pathAndQuery, List.forall_mem_append]
  refine ⟨fun c hc => hpath c (h.path c hc), ?_⟩
  cases hq : t.query with
  | none => exact List.forall_mem_nil _
  | some q =>
    rw [Option.map_some, Url.marked, List.forall_mem_cons]
    exact ⟨by rfl, fun c hc => hquery c (h.query q hq c hc)⟩

/-- The query is found again where the target is cut as part of a URL. -/
theorem query_pathAndQuery {t : Target} (h : t.IsWritten) {path : List Char}
    (hpath : t.path.toList = '/' :: path) :
    ∃ s, t.pathAndQuery.toList = '/' :: s ∧ Url.tidy s = s ∧
      (Url.Tail.ofChars s).query = t.query.map String.toList := by
  have hfront : ∀ c ∈ path, Url.isFront c = true := by
    intro c hc
    have hchar := h.path c (by rw [hpath]; exact List.mem_cons_of_mem _ hc)
    by_contra hmark
    simp only [Url.isFront, Bool.and_eq_true, bne_iff_ne, not_and_or, not_not] at hmark
    rcases hmark with rfl | rfl <;> cases hchar
  have hquery : ∀ q, t.query.map String.toList = some q → '#' ∉ q := by
    rintro q hq hmark
    obtain ⟨text, htext, rfl⟩ := Option.map_eq_some_iff.1 hq
    cases h.query text htext '#' hmark
  have htext : t.pathAndQuery.toList =
      '/' :: (path ++ Url.marked '?' (t.query.map String.toList)) := by
    rw [toList_pathAndQuery, hpath, List.cons_append]
  refine ⟨_, htext, Url.tidy_eq_self fun c hc => ?_, ?_⟩
  · refine isBlank_of_mem_pathAndQuery h c ?_
    rw [htext]
    exact List.mem_cons_of_mem _ hc
  · have htail := @Url.Tail.ofChars_marked path (t.query.map String.toList) none hfront hquery
    rw [Url.marked.eq_2, List.append_nil] at htail
    rw [htail]

end Target

end Http

end ImageGateway
