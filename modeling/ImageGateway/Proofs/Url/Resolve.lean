import ImageGateway.Proofs.Codec.Percent
import ImageGateway.Proofs.Text.Utf8
import ImageGateway.Proofs.Url.Segments
import ImageGateway.Url.Parser
import Mathlib.Data.List.Infix

/-!
# Paths in normal form

A path is resolved and then encoded.  Neither step leaves work to the other: encoding makes no dot
segment, so a path in normal form has no dot segments, no separators and nothing to encode, and is
read as itself.

* `descend` : the directory that a row of segments leads to; `resolveAfter_eq_descend` tells the
  resolved path by it, and `resolveAfter_append` what is resolved behind it.
* `isPlain_encode` : encoding makes no dot segment.
* `directory`, `ofSegments_append` : **what has nothing to resolve is put into the directory.**
* `IsSegment`, `isSegment_of_mem_ofSegments`, `ofSegments_eq_self` : **the segments of a path in
  normal form, which stay as they are**.
* `segmentsOf_render` : they are read back from the text of the path.
-/

namespace ImageGateway

namespace UrlPath

/-! ### Directories -/

/-- The directory that a row of segments leads to from the directory `done`; the last segment of
either is in front. -/
def descend (done : List (List Char)) : List (List Char) → List (List Char)
  | [] => done
  | s :: rest =>
    if isDoubleDot s then descend done.tail rest
    else if isSingleDot s then descend done rest
    else descend (s :: done) rest

theorem descend_append (done segments more : List (List Char)) :
    descend done (segments ++ more) = descend (descend done segments) more := by
  induction segments generalizing done with
  | nil => rfl
  | cons s segments ih =>
    simp only [List.cons_append, descend]
    split_ifs <;> exact ih _

/-- What is resolved behind a directory does not ask how that was reached. -/
theorem resolveAfter_append (done segments : List (List Char)) {more : List (List Char)}
    (h : more ≠ []) :
    resolveAfter done (segments ++ more) = resolveAfter (descend done segments) more := by
  induction segments generalizing done with
  | nil => rfl
  | cons s segments ih =>
    obtain ⟨t, rest, ht⟩ : ∃ t rest, segments ++ more = t :: rest :=
      List.exists_cons_of_ne_nil (by simp [h])
    rw [ht] at ih
    rw [List.cons_append, ht, resolveAfter, descend]
    split_ifs <;> exact ih _

/-- A path ends in its directory, or in an empty segment inside of it. -/
theorem resolveAfter_eq_descend (done segments : List (List Char)) :
    ∃ j, resolveAfter done segments = (descend done segments).reverse ++ List.replicate j [] := by
  fun_induction resolveAfter done segments with
  | case1 => exact ⟨0, by simp [descend]⟩
  | case2 done s hs => exact ⟨1, by simp [descend, hs]⟩
  | case3 done s hs hs' => exact ⟨1, by simp [descend, hs, hs']⟩
  | case4 done s hs hs' => exact ⟨0, by simp [descend, hs, hs']⟩
  | case5 done s t rest hs ih =>
    obtain ⟨j, hj⟩ := ih
    exact ⟨j, by rw [hj, descend.eq_2 _ s, if_pos hs]⟩
  | case6 done s t rest hs hs' ih =>
    obtain ⟨j, hj⟩ := ih
    exact ⟨j, by rw [hj, descend.eq_2 _ s, if_neg hs, if_pos hs']⟩
  | case7 done s t rest hs hs' ih =>
    obtain ⟨j, hj⟩ := ih
    exact ⟨j, by rw [hj, descend.eq_2 _ s, if_neg hs, if_neg hs']⟩

theorem isPlain_of_mem_descend {done segments : List (List Char)}
    (hdone : ∀ s ∈ done, isPlain s = true) : ∀ s ∈ descend done segments, isPlain s = true := by
  fun_induction descend done segments with
  | case1 => exact hdone
  | case2 done s rest hs ih => exact ih fun t ht => hdone t (List.mem_of_mem_tail ht)
  | case3 done s rest hs hs' ih => exact ih hdone
  | case4 done s rest hs hs' ih =>
    exact ih (List.forall_mem_cons.2 ⟨by simp [isPlain, hs, hs'], hdone⟩)

/-- **Nothing is left to resolve.** -/
theorem isPlain_of_mem_resolve {segments : List (List Char)} :
    ∀ s ∈ resolve segments, isPlain s = true := by
  intro s hs
  obtain ⟨j, hj⟩ := resolveAfter_eq_descend [] segments
  rw [resolve, hj, List.mem_append] at hs
  rcases hs with hs | hs
  · exact isPlain_of_mem_descend (List.forall_mem_nil _) s (List.mem_reverse.1 hs)
  · rw [List.eq_of_mem_replicate hs]
    decide

theorem resolve_ne_nil {segments : List (List Char)} (h : segments ≠ []) :
    resolve segments ≠ [] := by
  have hlast (done : List (List Char)) : resolveAfter done segments ≠ [] := by
    fun_induction resolveAfter done segments with
    | case1 => exact absurd rfl h
    | case2 | case3 | case4 => simp
    | case5 _ _ _ _ _ ih | case6 _ _ _ _ _ _ ih | case7 _ _ _ _ _ _ ih =>
      exact ih (List.cons_ne_nil _ _)
  exact hlast []

/-! ### Encoding -/

/-- A text that begins with no triple of an encoded character was not encoded. -/
theorem eq_of_encode_eq {keep : Char → Bool} {s d : List Char} (h : Percent.encode keep s = d)
    (hd : ∀ c, keep c = false → ∀ r, r <:+ d → ¬ Percent.escapeChar c <+: r) : s = d := by
  induction s generalizing d with
  | nil => exact h
  | cons c s ih =>
    rw [Percent.encode_cons] at h
    by_cases hc : keep c = true
    · rw [if_pos hc, List.singleton_append] at h
      subst h
      rw [← ih rfl fun c hc r hr => hd c hc r (hr.trans (List.suffix_cons _ _))]
    · rw [if_neg hc] at h
      exact absurd ⟨_, h⟩ (hd c (by simpa using hc) d List.suffix_rfl)

/-- Only a full stop is encoded as one. -/
theorem eq_dot_of_escapeChar {c digit : Char} {r : List Char}
    (hdigit : digit = 'e' ∨ digit = 'E') (hr : r.take 3 = ['%', '2', digit])
    (h : Percent.escapeChar c <+: r) : c = '.' := by
  obtain ⟨b, bytes, hbytes⟩ := List.exists_cons_of_ne_nil (String.utf8EncodeChar_ne_nil (c := c))
  have hb : b.toNat < 256 := b.toNat_lt
  rw [Percent.escapeChar, hbytes, List.flatMap_cons] at h
  have htake : Percent.escapeByte b = ['%', '2', digit] := by
    rw [← hr]
    exact (List.prefix_iff_eq_take.1 ((List.prefix_append _ _).trans h))
  simp only [Percent.escapeByte, Text.hexByteUpper, List.cons.injEq, and_true, true_and] at htake
  obtain ⟨hhigh, hlow⟩ := htake
  have hdigits : ∀ n < 16, (Text.hexDigitUpper n = '2' → n = 2) ∧
      (Text.hexDigitUpper n = 'e' ∨ Text.hexDigitUpper n = 'E' → n = 14) := by decide
  have h2 := (hdigits (b.toNat / 16) (by omega)).1 hhigh
  have h14 := (hdigits (b.toNat % 16) (by omega)).2 (by rwa [hlow])
  rw [← Char.toNat_inj, Utf8.toNat_of_mem (by omega) (hbytes ▸ List.mem_cons_self)]
  show b.toNat = 46
  omega

/-- **Encoding makes no dot segment.** -/
theorem isPlain_encode {s : List Char} (h : isPlain s = true) :
    isPlain (Percent.encode keeps s) = true := by
  -- a percent sign in a dot segment begins the triple of a full stop
  have htriples : ∀ d ∈ singleDots ++ doubleDots, ∀ r ∈ d.tails, r.head? = some '%' →
      r.take 3 = ['%', '2', 'e'] ∨ r.take 3 = ['%', '2', 'E'] := by decide
  have hform : Percent.encode keeps s ∈ singleDots ++ doubleDots →
      s ∈ singleDots ++ doubleDots := by
    intro hd
    rwa [← eq_of_encode_eq rfl fun c hc r hr hescape => ?_] at hd
    have hhead : r.head? = some '%' := by
      obtain ⟨more, rfl⟩ := hescape
      obtain ⟨b, bytes, hbytes⟩ :=
        List.exists_cons_of_ne_nil (String.utf8EncodeChar_ne_nil (c := c))
      rw [Percent.escapeChar, hbytes]
      rfl
    have hdot : c = '.' := by
      rcases htriples _ hd r ((List.mem_tails _ _).2 hr) hhead with htake | htake
      · exact eq_dot_of_escapeChar (.inl rfl) htake hescape
      · exact eq_dot_of_escapeChar (.inr rfl) htake hescape
    rw [hdot] at hc
    cases hc
  have hplain (t : List Char) : isPlain t = true ↔ t ∉ singleDots ++ doubleDots := by
    simp [isPlain, isSingleDot, isDoubleDot]
  rw [hplain] at h ⊢
  exact fun hd => h (hform hd)

/-! ### Directories in normal form -/

/-- The directory that a row of segments leads to, in normal form. -/
def directory (segments : List (List Char)) : List (List Char) :=
  (descend [] segments).reverse.map (Percent.encode keeps)

/-- **What has nothing to resolve is put into the directory.** -/
theorem ofSegments_append (segments : List (List Char)) {more : List (List Char)}
    (hmore : ∀ s ∈ more, isPlain s = true) (hne : more ≠ []) :
    ofSegments (segments ++ more) = directory segments ++ more.map (Percent.encode keeps) := by
  rw [ofSegments, resolve, resolveAfter_append _ _ hne, resolveAfter_eq hmore, List.map_append]
  rfl

theorem ofSegments_append_replicate (segments : List (List Char)) (k : Nat) :
    ∃ j, ofSegments (segments ++ List.replicate k []) =
      directory segments ++ List.replicate j [] := by
  cases k with
  | zero =>
    obtain ⟨j, hj⟩ := resolveAfter_eq_descend [] segments
    refine ⟨j, ?_⟩
    rw [List.replicate_zero, List.append_nil, ofSegments, resolve, hj, List.map_append,
      List.map_replicate]
    rfl
  | succ k =>
    have hplain : ∀ s ∈ List.replicate (k + 1) [], isPlain s = true := fun s hs => by
      rw [List.eq_of_mem_replicate hs]
      decide
    exact ⟨k + 1, by rw [ofSegments_append _ hplain (by simp), List.map_replicate]; rfl⟩

theorem directory_concat (segments : List (List Char)) {s : List Char} (h : isPlain s = true) :
    directory (segments ++ [s]) = directory segments ++ [Percent.encode keeps s] := by
  obtain ⟨hsingle, hdouble⟩ := isPlain_iff.1 h
  rw [directory, descend_append]
  simp [descend, hsingle, hdouble, directory]

/-- The last segment stays, or an empty one takes its place. -/
theorem ofSegments_concat (segments : List (List Char)) (s : List Char) :
    ∃ front last, ofSegments (segments ++ [s]) = front ++ [Percent.encode keeps last] ∧
      front.length ≤ (directory segments).length ∧ (last = s ∨ last = []) := by
  rw [ofSegments, resolve, resolveAfter_append _ _ (List.cons_ne_nil _ _), resolveAfter]
  split_ifs
  · exact ⟨(descend [] segments).tail.reverse.map (Percent.encode keeps), [], by simp,
      by simp [directory], .inr rfl⟩
  · exact ⟨directory segments, [], by simp [directory], le_rfl, .inr rfl⟩
  · exact ⟨directory segments, s, by simp [directory], le_rfl, .inl rfl⟩

/-- More text at its end makes the last segment another one. -/
theorem ofSegments_concat_ne (segments : List (List Char)) {s t : List Char} (ht : t ≠ [])
    (hplain : isPlain (s ++ t) = true) (j : Nat) : ofSegments (segments ++ [s]) ≠
      directory (segments ++ [s ++ t]) ++ List.replicate j [] := by
  obtain ⟨front, last, heq, hlength, hlast⟩ := ofSegments_concat segments s
  rw [heq, directory_concat _ hplain]
  intro h
  -- there is no place for empty segments behind it, so both are the last of as many segments
  have hlengths := congrArg List.length h
  simp only [List.length_append, List.length_singleton, List.length_replicate] at hlengths
  obtain rfl : j = 0 := by omega
  rw [List.replicate_zero, List.append_nil] at h
  have hsegment := List.singleton_inj.1 (List.append_inj h (by omega)).2
  have hmore : 0 < (Percent.encode keeps t).length :=
    List.length_pos_of_ne_nil (mt encode_eq_nil_iff.1 ht)
  have hchars := congrArg List.length hsegment
  rw [Percent.encode_append, List.length_append] at hchars
  rcases hlast with rfl | rfl
  · omega
  · rw [Percent.encode_nil, List.length_nil] at hchars
    omega

/-! ### Normal form -/

/-- A segment of a path in normal form. -/
structure IsSegment (s : List Char) : Prop where
  plain : isPlain s = true
  kept : s.all keeps = true
  noSeparator : ∀ c ∈ s, Url.isSlash c = false

theorem keepsTriples_keeps : Percent.KeepsTriples keeps := by decide

theorem notMem_encode {c : Char} (hc : c ≠ '%' ∧ ∀ n < 16, c ≠ Text.hexDigitUpper n) {s : List Char}
    (h : c ∉ s) {keep : Char → Bool} : c ∉ Percent.encode keep s := by
  intro hmem
  obtain ⟨d, hd, hmem⟩ := List.mem_flatMap.1 hmem
  split_ifs at hmem
  · rw [List.mem_singleton.1 hmem] at h
    exact h hd
  · rcases Percent.mem_escapeChar hmem with rfl | ⟨n, hn, rfl⟩
    · exact hc.1 rfl
    · exact hc.2 n hn rfl

theorem isSegment_encode {s : List Char} (hplain : isPlain s = true)
    (hslash : ∀ c ∈ s, Url.isSlash c = false) : IsSegment (Percent.encode keeps s) where
  plain := isPlain_encode hplain
  kept := Percent.all_encode keepsTriples_keeps s
  noSeparator := by
    have hiff (s : List Char) : (∀ c ∈ s, Url.isSlash c = false) ↔ '/' ∉ s ∧ '\\' ∉ s := by
      simp only [Url.isSlash, Bool.or_eq_false_iff, beq_eq_false_iff_ne]
      constructor
      · exact fun h => ⟨fun hc => (h _ hc).1 rfl, fun hc => (h _ hc).2 rfl⟩
      · rintro ⟨hslash, hback⟩ c hc
        exact ⟨fun heq => hslash (heq ▸ hc), fun heq => hback (heq ▸ hc)⟩
    rw [hiff] at hslash ⊢
    exact ⟨notMem_encode (by decide) hslash.1, notMem_encode (by decide) hslash.2⟩

theorem isSegment_nil : IsSegment [] := ⟨by decide, rfl, List.forall_mem_nil _⟩

/-- **The segments of a path in normal form.** -/
theorem isSegment_of_mem_ofSegments {segments : List (List Char)}
    (h : ∀ s ∈ segments, ∀ c ∈ s, Url.isSlash c = false) :
    ∀ s ∈ ofSegments segments, IsSegment s := by
  intro s hs
  obtain ⟨t, ht, rfl⟩ := List.mem_map.1 hs
  refine isSegment_encode (isPlain_of_mem_resolve t ht) ?_
  rcases mem_of_mem_resolveAfter ht with ht | ht | rfl
  · cases ht
  · exact h t ht
  · exact List.forall_mem_nil _

theorem map_encode_eq_self {segments : List (List Char)} (h : ∀ s ∈ segments, IsSegment s) :
    segments.map (Percent.encode keeps) = segments :=
  (List.map_congr_left fun s hs => Percent.encode_eq_self (h s hs).kept).trans (List.map_id' _)

/-- **A path in normal form stays as it is.** -/
theorem ofSegments_eq_self {segments : List (List Char)} (h : ∀ s ∈ segments, IsSegment s) :
    ofSegments segments = segments := by
  rw [ofSegments, resolve_eq_self fun s hs => (h s hs).plain, map_encode_eq_self h]

theorem directory_eq_self {segments : List (List Char)} (h : ∀ s ∈ segments, IsSegment s) :
    directory segments = segments := by
  -- an empty segment behind it shows the directory
  have happend := ofSegments_append segments (List.forall_mem_singleton.2 isSegment_nil.plain)
    (List.cons_ne_nil _ _)
  rw [ofSegments_eq_self (List.forall_mem_append.2 ⟨h, List.forall_mem_singleton.2 isSegment_nil⟩)]
    at happend
  exact (List.append_cancel_right happend).symm

/-- The segments of a text are read back from it. -/
theorem splitOnP_render {s : List Char} {segments : List (List Char)}
    (h : ∀ t ∈ s :: segments, IsSegment t) :
    (s ++ (UrlPath.segments segments).render).splitOnP Url.isSlash = s :: segments := by
  induction segments generalizing s with
  | nil =>
    rw [render, List.flatMap_nil, List.append_nil]
    exact List.splitOnP_eq_singleton (h s List.mem_cons_self).noSeparator
  | cons t segments ih =>
    rw [List.forall_mem_cons] at h
    have hrest := ih h.2
    rw [render] at hrest ⊢
    rw [List.flatMap_cons, List.cons_append,
      List.splitOnP_append_cons_of_forall_mem h.1.noSeparator '/' rfl, hrest]

theorem segmentsOf_render {segments : List (List Char)} (h : ∀ s ∈ segments, IsSegment s)
    (hne : segments ≠ []) :
    Url.segmentsOf Url.isSlash (UrlPath.segments segments).render = segments := by
  obtain ⟨s, segments, rfl⟩ := List.exists_cons_of_ne_nil hne
  exact splitOnP_render h

/-- The text of a path ends in a slash only if its last segment is empty. -/
theorem getLast?_render {segments : List (List Char)} (h : ∀ s ∈ segments, IsSegment s)
    (hlast : segments.getLast? ≠ some []) :
    (UrlPath.segments segments).render.getLast? ≠ some '/' := by
  rcases List.eq_nil_or_concat segments with rfl | ⟨front, s, rfl⟩
  · exact nofun
  · rw [List.concat_eq_append] at h hlast ⊢
    have hpath : (UrlPath.segments (front ++ [s])).render =
        ((UrlPath.segments front).render ++ ['/']) ++ s := by simp [render]
    rw [hpath, List.getLast?_append_of_ne_nil _ (fun hnil => hlast (by rw [hnil]; simp))]
    intro hslash
    have hseparator := (h s (by simp)).noSeparator '/' (List.mem_of_getLast? hslash)
    cases hseparator

end UrlPath

end ImageGateway
