import ImageGateway.Url.Basic
import ImageGateway.Url.Path
import Mathlib.Data.List.Basic

/-!
# Paths and their segments

The text of a path and the list of its segments say the same, since no segment has a slash in it;
so a question about the beginning of a path is a question about its first segments.

* `splitOn_render` : the segments of a rendered path.
* `render_prefix_iff` : **a path begins with the text of some segments and a slash exactly if its
  segments begin with these**, and some more.
* `resolve_eq_self` : without dot segments nothing is resolved.
* `slash_mem_encode_iff` : percent-encoding brings no slash into a segment and takes none away.
-/

namespace ImageGateway

namespace UrlPath

/-! ### Splitting -/

theorem eq_false_of_mem_splitOnP {α : Type} {p : α → Bool} {l s : List α} (h : s ∈ l.splitOnP p) :
    ∀ a ∈ s, p a = false := by
  induction l generalizing s with
  | nil =>
    rw [List.splitOnP_nil, List.mem_singleton] at h
    simp [h]
  | cons c l ih =>
    obtain ⟨first, rest, hsplit⟩ := List.exists_cons_of_ne_nil (List.splitOnP_ne_nil p l)
    rw [List.splitOnP_cons_eq_if_modifyHead, hsplit] at h
    rw [hsplit] at ih
    by_cases hc : p c = true
    · rw [if_pos hc] at h
      rcases List.mem_cons.1 h with rfl | h
      · simp
      · exact ih h
    · rw [if_neg hc, List.modifyHead_cons] at h
      rcases List.mem_cons.1 h with rfl | h
      · rw [List.forall_mem_cons]
        exact ⟨by simpa using hc, ih List.mem_cons_self⟩
      · exact ih (List.mem_cons_of_mem _ h)

/-- Text without separators goes to the last part. -/
theorem exists_splitOnP_append {α : Type} (p : α → Bool) (x : List α) :
    ∃ front last, x.splitOnP p = front ++ [last] ∧ ∀ y, (∀ a ∈ y, p a = false) →
      (x ++ y).splitOnP p = front ++ [last ++ y] := by
  induction x with
  | nil => exact ⟨[], [], by simp, fun y hy => by simpa using List.splitOnP_eq_singleton hy⟩
  | cons a x ih =>
    obtain ⟨front, last, hx, happend⟩ := ih
    by_cases ha : p a = true
    · refine ⟨[] :: front, last, ?_, fun y hy => ?_⟩
      · simp [List.splitOnP_cons_eq_if_modifyHead, ha, hx]
      · simp [List.splitOnP_cons_eq_if_modifyHead, ha, happend y hy]
    · cases front with
      | nil =>
        refine ⟨[], a :: last, ?_, fun y hy => ?_⟩
        · simp [List.splitOnP_cons_eq_if_modifyHead, ha, hx]
        · simp [List.splitOnP_cons_eq_if_modifyHead, ha, happend y hy]
      | cons first front =>
        refine ⟨(a :: first) :: front, last, ?_, fun y hy => ?_⟩
        · simp [List.splitOnP_cons_eq_if_modifyHead, ha, hx]
        · simp [List.splitOnP_cons_eq_if_modifyHead, ha, happend y hy]

theorem sep_notMem_of_mem_splitOn {sep : Char} {l s : List Char} (h : s ∈ l.splitOn sep) :
    sep ∉ s := by
  rw [List.splitOn_eq_splitOnP] at h
  intro hs
  simpa using eq_false_of_mem_splitOnP h sep hs

/-! ### Rendering -/

/-- No segment of the list has a slash in it. -/
def SlashFree (segments : List (List Char)) : Prop := ∀ s ∈ segments, '/' ∉ s

theorem SlashFree.append {x y : List (List Char)} (hx : SlashFree x) (hy : SlashFree y) :
    SlashFree (x ++ y) := fun s hs => (List.mem_append.1 hs).elim (hx s) (hy s)

theorem slashFree_splitOn (l : List Char) : SlashFree (l.splitOn '/') :=
  fun _ => sep_notMem_of_mem_splitOn

theorem splitOn_slash_cons (l : List Char) : ('/' :: l).splitOn '/' = [] :: l.splitOn '/' := by
  rw [← List.nil_append ('/' :: l), List.splitOn_append_cons_self]
  rfl

theorem splitOn_render_append {segments : List (List Char)} (h : SlashFree segments)
    (rest : List Char) : ((UrlPath.segments segments).render ++ '/' :: rest).splitOn '/' =
      [] :: (segments ++ rest.splitOn '/') := by
  unfold render
  induction segments with
  | nil => exact splitOn_slash_cons rest
  | cons s segments ih =>
    have hs : '/' ∉ s := h s List.mem_cons_self
    have hrest := ih fun t ht => h t (List.mem_cons_of_mem _ ht)
    -- the slash in front of a segment leaves an empty text before it
    have hfirst (l : List Char) : ('/' :: (s ++ '/' :: l)).splitOn '/' =
        [] :: s :: l.splitOn '/' := by
      rw [splitOn_slash_cons, List.splitOn_append_cons_self, List.splitOn_eq_singleton hs]
      rfl
    rcases segments with _ | ⟨t, segments⟩
    · simp only [List.flatMap_cons, List.flatMap_nil, List.append_nil, List.cons_append]
      exact hfirst rest
    · simp only [List.flatMap_cons, List.cons_append, List.append_assoc] at hrest ⊢
      rw [hfirst]
      rw [splitOn_slash_cons] at hrest
      rw [(List.cons.inj hrest).2]

theorem splitOn_render {segments : List (List Char)} (h : SlashFree segments) :
    (UrlPath.segments segments).render.splitOn '/' = [] :: segments := by
  rcases List.eq_nil_or_concat segments with rfl | ⟨front, s, rfl⟩
  · rfl
  · have hfront : SlashFree front := fun t ht => h t (by simp [ht])
    have hs : '/' ∉ s := h s (by simp)
    have := splitOn_render_append hfront s
    rw [List.splitOn_eq_singleton hs] at this
    simpa [render] using this

theorem render_inj {x y : List (List Char)} (hx : SlashFree x) (hy : SlashFree y) :
    (UrlPath.segments x).render = (UrlPath.segments y).render ↔ x = y := by
  constructor
  · intro h
    have := congrArg (List.splitOn '/') h
    rw [splitOn_render hx, splitOn_render hy] at this
    exact (List.cons.inj this).2
  · rintro rfl
    rfl

theorem render_append (x y : List (List Char)) : (UrlPath.segments (x ++ y)).render =
    (UrlPath.segments x).render ++ (UrlPath.segments y).render := List.flatMap_append

theorem render_replicate (k : Nat) :
    (UrlPath.segments (List.replicate k [])).render = List.replicate k '/' := by
  simp [render, List.flatMap_replicate]

/-- A nonempty path is the text of its first segment behind a slash and the rest. -/
theorem render_splitOn (l : List Char) : (UrlPath.segments (l.splitOn '/')).render = '/' :: l := by
  have hne := List.splitOn_ne_nil '/' l
  have hjoin : ∀ {x : List (List Char)}, x ≠ [] →
      (UrlPath.segments x).render = '/' :: ['/'].intercalate x := by
    intro x hx
    induction x with
    | nil => exact absurd rfl hx
    | cons s x ih =>
      cases x with
      | nil => simp [render]
      | cons t x =>
        have := ih (List.cons_ne_nil t x)
        simp only [render, List.flatMap_cons, List.intercalate_cons_cons] at this ⊢
        rw [this]
        simp
  rw [hjoin hne, List.intercalate_splitOn]

/-- A character of a text is a slash or stands in one of its segments. -/
theorem eq_or_mem_of_mem {c : Char} {l : List Char} (h : c ∈ l) :
    c = '/' ∨ ∃ s ∈ l.splitOn '/', c ∈ s := by
  have hc : c ∈ (UrlPath.segments (l.splitOn '/')).render := by
    rw [render_splitOn]
    exact List.mem_cons_of_mem _ h
  obtain ⟨s, hs, hcs⟩ := List.mem_flatMap.1 hc
  exact (List.mem_cons.1 hcs).imp_right fun hcs => ⟨s, hs, hcs⟩

/-- **A path begins with the text of some segments and a slash exactly if it has these segments in
front** of some more. -/
theorem render_prefix_iff {x y : List (List Char)} (hx : SlashFree x) (hy : SlashFree y) :
    (UrlPath.segments x).render ++ ['/'] <+: (UrlPath.segments y).render ↔
      ∃ more, more ≠ [] ∧ y = x ++ more := by
  constructor
  · rintro ⟨rest, h⟩
    have := congrArg (List.splitOn '/') h
    rw [List.append_assoc, List.singleton_append, splitOn_render_append hx,
      splitOn_render hy] at this
    exact ⟨rest.splitOn '/', List.splitOn_ne_nil '/' rest, (List.cons.inj this).2.symm⟩
  · rintro ⟨more, hmore, rfl⟩
    obtain ⟨s, more, rfl⟩ := List.exists_cons_of_ne_nil hmore
    exact ⟨s ++ (UrlPath.segments more).render, by simp [render]⟩

/-! ### Dot segments -/

/-- The segment is no dot segment. -/
def isPlain (s : List Char) : Bool := !isSingleDot s && !isDoubleDot s

theorem isPlain_iff {s : List Char} :
    isPlain s = true ↔ isSingleDot s = false ∧ isDoubleDot s = false := by
  simp [isPlain]

theorem resolveAfter_eq {done segments : List (List Char)} (h : ∀ s ∈ segments, isPlain s = true) :
    resolveAfter done segments = done.reverse ++ segments := by
  fun_induction resolveAfter done segments with
  | case1 => simp
  | case2 done s hs => simp [isPlain, hs] at h
  | case3 done s _ hs => simp [isPlain, hs] at h
  | case4 => simp
  | case5 done s t rest hs => simp [isPlain, hs] at h
  | case6 done s t rest _ hs => simp [isPlain, hs] at h
  | case7 done s t rest _ _ ih =>
    rw [ih fun s hs => h s (List.mem_cons_of_mem _ hs)]
    simp

/-- **Without dot segments nothing is resolved.** -/
theorem resolve_eq_self {segments : List (List Char)} (h : ∀ s ∈ segments, isPlain s = true) :
    resolve segments = segments := resolveAfter_eq h

theorem mem_of_mem_resolveAfter {done segments : List (List Char)} {s : List Char}
    (h : s ∈ resolveAfter done segments) : s ∈ done ∨ s ∈ segments ∨ s = [] := by
  fun_induction resolveAfter done segments with
  | case1 => exact .inl (List.mem_reverse.1 h)
  | case2 done t ht =>
    rcases List.mem_cons.1 (List.mem_reverse.1 h) with rfl | h
    · exact .inr (.inr rfl)
    · exact .inl (List.mem_of_mem_tail h)
  | case3 done t _ ht =>
    rcases List.mem_cons.1 (List.mem_reverse.1 h) with rfl | h
    · exact .inr (.inr rfl)
    · exact .inl h
  | case4 done t =>
    rcases List.mem_cons.1 (List.mem_reverse.1 h) with rfl | h
    · exact .inr (.inl List.mem_cons_self)
    · exact .inl h
  | case5 done t u rest _ ih =>
    rcases ih h with h | h | h
    · exact .inl (List.mem_of_mem_tail h)
    · exact .inr (.inl (List.mem_cons_of_mem _ h))
    · exact .inr (.inr h)
  | case6 done t u rest _ _ ih =>
    rcases ih h with h | h | h
    · exact .inl h
    · exact .inr (.inl (List.mem_cons_of_mem _ h))
    · exact .inr (.inr h)
  | case7 done t u rest _ _ ih =>
    rcases ih h with h | h | h
    · rcases List.mem_cons.1 h with rfl | h
      · exact .inr (.inl List.mem_cons_self)
      · exact .inl h
    · exact .inr (.inl (List.mem_cons_of_mem _ h))
    · exact .inr (.inr h)

/-! ### Percent-encoding -/

theorem slash_notMem_escapeChar (c : Char) : '/' ∉ Percent.escapeChar c := by
  have hdigit : ∀ n < 16, '/' ≠ Text.hexDigitUpper n := by decide
  simp only [Percent.escapeChar, List.mem_flatMap, not_exists, not_and]
  intro b _ h
  have hb : b.toNat < 256 := b.toNat_lt
  simp only [Percent.escapeByte, Text.hexByteUpper, List.mem_cons, List.not_mem_nil, or_false] at h
  rcases h with h | h | h
  · exact absurd h (by decide)
  · exact hdigit _ (by omega) h
  · exact hdigit _ (by omega) h

theorem slash_mem_encode_iff {s : List Char} : '/' ∈ Percent.encode keeps s ↔ '/' ∈ s := by
  induction s with
  | nil => rfl
  | cons c s ih =>
    rw [Percent.encode_cons, List.mem_append, List.mem_cons, ih]
    refine or_congr_left ?_
    split_ifs with hc
    · exact List.mem_singleton
    · simp only [slash_notMem_escapeChar, false_iff]
      rintro rfl
      exact hc (by decide)

theorem encode_eq_nil_iff {keep : Char → Bool} {s : List Char} :
    Percent.encode keep s = [] ↔ s = [] := by
  cases s with
  | nil => simp
  | cons c s =>
    have hne : (if keep c then [c] else Percent.escapeChar c) ≠ [] := by
      split_ifs
      · simp
      · obtain ⟨b, bytes, hbytes⟩ :=
          List.exists_cons_of_ne_nil (String.utf8EncodeChar_ne_nil (c := c))
        simp [Percent.escapeChar, Percent.escapeByte, hbytes]
    simp [hne]

theorem render_map_encode (segments : List (List Char)) :
    (UrlPath.segments (segments.map (Percent.encode keeps))).render =
      Percent.encode keeps (UrlPath.segments segments).render := by
  unfold render
  induction segments with
  | nil => rfl
  | cons s segments ih =>
    simp only [List.map_cons, List.flatMap_cons, ih, List.cons_append, Percent.encode_cons,
      Percent.encode_append]
    rw [if_pos (by decide)]
    rfl

/-- Splitting and encoding may change places. -/
theorem splitOn_encode (s : List Char) :
    (Percent.encode keeps s).splitOn '/' = (s.splitOn '/').map (Percent.encode keeps) := by
  have hfree : SlashFree ((s.splitOn '/').map (Percent.encode keeps)) := by
    intro t ht
    obtain ⟨u, hu, rfl⟩ := List.mem_map.1 ht
    rw [slash_mem_encode_iff]
    exact slashFree_splitOn s u hu
  have hsplit := splitOn_render hfree
  rw [render_map_encode, render_splitOn, Percent.encode_cons, if_pos (by decide),
    List.singleton_append, splitOn_slash_cons] at hsplit
  exact (List.cons.inj hsplit).2

/-- Encoding brings no slash to the end of a text. -/
theorem getLast?_encode_ne {s : List Char} (h : s.getLast? ≠ some '/') :
    (Percent.encode keeps s).getLast? ≠ some '/' := by
  rcases List.eq_nil_or_concat s with rfl | ⟨front, c, rfl⟩
  · exact h
  · rw [List.concat_eq_append, List.getLast?_concat] at h
    have hc : '/' ∉ Percent.encode keeps [c] := by
      rw [slash_mem_encode_iff, List.mem_singleton]
      exact fun hc => h (congrArg some hc.symm)
    have hne : Percent.encode keeps [c] ≠ [] := by
      rw [ne_eq, encode_eq_nil_iff]
      exact List.cons_ne_nil _ _
    rw [List.concat_eq_append, Percent.encode_append, List.getLast?_append_of_ne_nil _ hne]
    exact fun hlast => hc (List.mem_of_getLast? hlast)

theorem slashFree_ofSegments {segments : List (List Char)} (h : SlashFree segments) :
    SlashFree (ofSegments segments) := by
  intro s hs
  obtain ⟨t, ht, rfl⟩ := List.mem_map.1 hs
  rw [slash_mem_encode_iff]
  rcases mem_of_mem_resolveAfter ht with ht | ht | rfl
  · cases ht
  · exact h t ht
  · simp

end UrlPath

end ImageGateway
