import ImageGateway.Proofs.Url.Reading

/-!
# Behind a text and behind its URL

The base of a registry is a text in one of many spellings, and the URL that is read from it has one
spelling.  A path may be put behind the one or behind the other, without the slashes at the end in
either case.  In two cases the two lead to different places.

A blank at the end of a text does not count, but one in front of a path does: it stands at the end
of a host, which has no blanks, or of a segment.  And a path that ends in an empty segment has a
slash more at its end: it is taken off from the URL, but not from a text that ends in a dot segment
or in a backslash.

* `Seamless` : neither is the case.
* `parse_below_root`, `parse_kept_below_root` : what is read behind the text of the URL.
* `parse_below_iff` : **behind the text the same is read, if and only if it is seamless**.
* `seamless_render` : the text of a URL is.
-/

namespace ImageGateway

namespace Url

open UrlPath (keeps directory)

/-- What is put behind the text of a base is read below the directory of its URL: no blank at the
end is lost on the way, and the directory does not end in an empty segment. -/
structure Seamless (text : String) : Prop where
  opening : opening text.toList = clean text.toList
  directory : (directory (basePieces (Text.trimEnd '/' text).toList)).getLast? ≠ some []

/-! ### Marks -/

theorem cutMark_snd_eq_none {mark : Char} {s : List Char} (h : (cutMark mark s).2 = none) :
    mark ∉ s := by
  intro hmem
  unfold cutMark at h
  split at h
  · rename_i hdrop
    simpa using List.dropWhile_eq_nil_iff.1 hdrop mark hmem
  · cases h

/-- A base without query and fragment has no marks in it. -/
theorem not_marked_of_parseChars {s : List Char} {url : Url} (h : parseChars s = .ok url)
    (hhttp : url.isHttp = true) (hquery : url.query = none) (hfragment : url.fragment = none) :
    ¬ Marked s := by
  obtain ⟨rest, a, hcut, -, -, hurl⟩ := exists_of_parseChars h hhttp
  rw [hurl, serverUrl] at hquery hfragment
  dsimp only at hquery hfragment
  rw [Option.map_eq_none_iff] at hquery hfragment
  have hhash : '#' ∉ rest := cutMark_snd_eq_none hfragment
  rw [Tail.ofChars, cutMark_eq_none hhash] at hquery
  have hmark : '?' ∉ rest := cutMark_snd_eq_none hquery
  obtain ⟨blanks, hblanks, hopening⟩ := opening_eq s
  have hcut' := cutScheme?_append_of_some blanks hcut
  rw [← hopening] at hcut'
  rw [marked_iff hcut']
  rintro ⟨c, hc, hfront⟩
  have hrest : c ∈ rest := (List.mem_append.1 hc).resolve_right fun hc => by
    have hblank := isBlank_of_isFront hfront
    rw [hblanks c hc] at hblank
    cases hblank
  simp only [isFront, Bool.and_eq_false_iff, bne_eq_false_iff_eq] at hfront
  rcases hfront with rfl | rfl
  · exact hmark hrest
  · exact hhash hrest

theorem Tail.ofChars_of_front {s : List Char} (h : ∀ c ∈ s, isFront c = true) :
    Tail.ofChars s = ⟨s, none, none⟩ := by
  have happend := Tail.ofChars_append h []
  rw [List.append_nil] at happend
  rw [happend]
  exact congrArg (Tail.mk · none none) (List.append_nil s)

/-! ### Below a base -/

variable {t s rest scheme : List Char} {k : Nat} {a : Authority} {root url : Url}

/-- What is read of a plain text below a base. -/
theorem parseChars_below_plain (hcut : cutScheme? (opening t) = some (scheme, rest))
    (hserver : isServerScheme scheme = true) (hauthority : HasAuthority rest) (ht : ¬ Marked t)
    (hs : PlainText s) :
    parseChars (t ++ '/' :: s) = (authorityOf scheme (authorityText rest)).map fun a =>
      { scheme
        authority := some a
        path := .segments (directory (basePieces t) ++ (s.splitOn '/').map (Percent.encode keeps))
        query := none
        fragment := none } := by
  have htail : Tail.ofChars (tidy s) = ⟨s, none, none⟩ := by
    rw [hs.tidy_eq, Tail.ofChars_of_front fun c hc => (hs.chars c hc).2.1]
  rw [parseChars_below hcut hserver hauthority ht, htail, hs.pieces_eq,
    UrlPath.ofSegments_append _ hs.segments (List.splitOn_ne_nil _ _)]
  rfl

/-- The authority of a base, if no blank at its end was lost. -/
theorem authority_of_root (hroot : parseChars (t ++ List.replicate k '/') = .ok root)
    (hhttp : root.isHttp = true)
    (hend : opening (t ++ List.replicate k '/') = clean (t ++ List.replicate k '/')) :
    ∃ rest a, cutScheme? (opening t) = some (root.scheme, rest) ∧ HasAuthority rest ∧
      authorityOf root.scheme (authorityText rest) = .ok a ∧ root.authority = some a := by
  cases k with
  | zero =>
    rw [List.replicate_zero, List.append_nil] at hroot hend
    obtain ⟨rest, a, hcut, hauthority, ha, hurl⟩ := exists_of_parseChars hroot hhttp
    rw [← hend] at hcut
    exact ⟨rest, a, hcut, hauthority, ha, by rw [hurl]; rfl⟩
  | succ k =>
    -- the authority ends in front of the slashes
    obtain ⟨rest, hcut, hparts⟩ := parts_of_base hroot
    obtain ⟨hauthority, -⟩ := hparts hhttp
    have hread := parseChars_behind hcut (isServerScheme_of_isHttp hhttp) hauthority
      (List.replicate k '/')
    rw [List.replicate_succ, hread] at hroot
    obtain ⟨a, ha, hurl⟩ := map_eq_ok_iff.1 hroot
    exact ⟨rest, a, hcut, hauthority, ha, by rw [← hurl]; rfl⟩

/-- The path of a base is its directory, but for empty segments at the end of that. -/
theorem path_of_root (hroot : parseChars (t ++ List.replicate k '/') = .ok root)
    (hhttp : root.isHttp = true) (ht : ¬ Marked t)
    (hend : opening (t ++ List.replicate k '/') = clean (t ++ List.replicate k '/')) :
    ∃ j, root.path = .segments (directory (basePieces t) ++ List.replicate j []) := by
  cases k with
  | zero =>
    rw [List.replicate_zero, List.append_nil] at hroot hend
    obtain ⟨rest, a, hcut, -, -, hurl⟩ := exists_of_parseChars hroot hhttp
    rw [← hend] at hcut
    have hfront : rest.takeWhile isFront = rest :=
      List.takeWhile_eq_self_iff.2 (not_marked_iff.1 (mt (marked_iff hcut).2 ht))
    have hbase : basePath t = afterAuthority rest := by rw [basePath, hcut]
    obtain ⟨i, hi⟩ := segmentsOf_eq (basePath t)
    obtain ⟨j, hj⟩ := UrlPath.ofSegments_append_replicate (basePieces t) i
    refine ⟨j, ?_⟩
    rw [hurl, serverUrl, pathPieces, hfront, ← hbase, hi, ← hj]
    rfl
  | succ k =>
    obtain ⟨rest, hcut, hparts⟩ := parts_of_base hroot
    obtain ⟨hauthority, -⟩ := hparts hhttp
    rw [List.replicate_succ, parseChars_below hcut (isServerScheme_of_isHttp hhttp) hauthority ht,
      pieces_replicate] at hroot
    obtain ⟨a, -, hurl⟩ := map_eq_ok_iff.1 hroot
    obtain ⟨j, hj⟩ := UrlPath.ofSegments_append_replicate (basePieces t) (k + 1)
    exact ⟨j, by rw [← hurl, ← hj]⟩

/-- A base that ends in slashes has lost no blank. -/
theorem opening_eq_clean (t : List Char) (k : Nat) :
    opening (t ++ List.replicate (k + 1) '/') = clean (t ++ List.replicate (k + 1) '/') := by
  rw [List.replicate_succ', ← List.append_assoc, opening_append (by rfl), clean_append (by rfl)]
  rfl

/-! ### The text of a URL -/

theorem renderChars_eq {segments : List (List Char)} (ha : root.authority = some a)
    (hpath : root.path = .segments segments) (hquery : root.query = none)
    (hfragment : root.fragment = none) :
    root.renderChars = root.scheme ++ ':' :: written a segments := by
  rw [renderChars_eq_written ha hpath, hquery, hfragment, marked, marked, List.append_nil,
    List.append_nil]

theorem written_append (a : Authority) (segments more : List (List Char)) :
    written a (segments ++ more) = written a segments ++ (UrlPath.segments more).render := by
  simp [written, UrlPath.render_append]

section Written

variable (ha : a.IsNormal scheme) {segments : List (List Char)}
  (hsegments : ∀ s ∈ segments, UrlPath.IsSegment s)
include ha

theorem hasAuthority_written (segments : List (List Char)) : HasAuthority (written a segments) := by
  obtain ⟨c, text, htext⟩ := List.exists_cons_of_ne_nil (Authority.render_ne_nil ha)
  obtain ⟨-, hfront, hslash⟩ := Authority.isAuthorityText_render ha c (by simp [htext])
  refine ⟨c, ?_, hslash⟩
  rw [written, htext, List.cons_append, List.takeWhile_cons_of_pos (by decide),
    List.takeWhile_cons_of_pos (by decide), List.takeWhile_cons_of_pos hfront]
  simp

include hsegments

theorem openPieces_afterAuthority_written : openPieces (afterAuthority (written a segments)) =
    segments := by
  rw [(parts_written ha segments).2]
  cases segments with
  | nil => rfl
  | cons s segments => exact UrlPath.segmentsOf_render hsegments (List.cons_ne_nil _ _)

theorem getLast?_written (hlast : segments.getLast? ≠ some []) :
    (written a segments).getLast? ≠ some '/' := by
  cases segments with
  | nil =>
    have hauthority : written a [] = ['/', '/'] ++ a.render := by simp [written, UrlPath.render]
    rw [hauthority, List.getLast?_append_of_ne_nil _ (Authority.render_ne_nil ha)]
    intro hslash
    have hplain := (Authority.isAuthorityText_render ha '/' (List.mem_of_getLast? hslash)).2.2
    cases hplain
  | cons s segments =>
    have hpath : written a (s :: segments) =
        ('/' :: '/' :: a.render) ++ (UrlPath.segments (s :: segments)).render := by simp [written]
    rw [hpath, List.getLast?_append_of_ne_nil _ (by simp [UrlPath.render])]
    exact UrlPath.getLast?_render hsegments hlast

end Written

theorem cutScheme?_opening_written (hhttp : root.isHttp = true) (ha : a.IsNormal root.scheme)
    {segments : List (List Char)} (hsegments : ∀ s ∈ segments, UrlPath.IsSegment s) :
    cutScheme? (opening (root.scheme ++ ':' :: written a segments)) =
      some (root.scheme, written a segments) := by
  rw [opening_eq_self]
  · exact cutScheme?_of_isHttp hhttp _
  · exact List.forall_mem_append.2 ⟨isBlank_of_mem_scheme hhttp, List.forall_mem_cons.2
      ⟨by rfl, fun c hc => (forall_mem_written ha hsegments c hc).1⟩⟩

theorem parseChars_below_written (hhttp : root.isHttp = true) (ha : a.IsNormal root.scheme)
    {segments : List (List Char)} (hsegments : ∀ s ∈ segments, UrlPath.IsSegment s)
    (hs : PlainText s) :
    parseChars ((root.scheme ++ ':' :: written a segments) ++ '/' :: s) = .ok
      { scheme := root.scheme
        authority := some a
        path := .segments (segments ++ (s.splitOn '/').map (Percent.encode keeps))
        query := none
        fragment := none } := by
  have hcut := cutScheme?_opening_written hhttp ha hsegments
  have hfront : ∀ c ∈ written a segments, isFront c = true :=
    fun c hc => (forall_mem_written ha hsegments c hc).2
  have hmarked : ¬ Marked (root.scheme ++ ':' :: written a segments) :=
    mt (marked_iff hcut).1 (not_marked_iff.2 hfront)
  have hpieces : basePieces (root.scheme ++ ':' :: written a segments) = segments := by
    rw [basePieces, basePath, hcut]
    exact openPieces_afterAuthority_written ha hsegments
  have hserver := isServerScheme_of_isHttp hhttp
  rw [parseChars_below_plain hcut hserver (hasAuthority_written ha segments) hmarked hs, hpieces,
    authorityText, List.takeWhile_eq_self_iff.2 hfront, (parts_written ha segments).1,
    authorityOf_render hserver ha, UrlPath.directory_eq_self hsegments]
  rfl

/-- The slashes at the end of the text are those of the empty segments at the end. -/
theorem trimEnd_render (ha : a.IsNormal root.scheme) (hauthority : root.authority = some a)
    {segments : List (List Char)} (hsegments : ∀ s ∈ segments, UrlPath.IsSegment s)
    (hlast : segments.getLast? ≠ some [])
    (hpath : root.path = .segments (segments ++ List.replicate k [])) (hquery : root.query = none)
    (hfragment : root.fragment = none) :
    (Text.trimEnd '/' root.render).toList = root.scheme ++ ':' :: written a segments := by
  have hend : (root.scheme ++ ':' :: written a segments).getLast? ≠ some '/' := by
    have hne : written a segments ≠ [] := List.cons_ne_nil _ _
    rw [List.getLast?_append_of_ne_nil _ (List.cons_ne_nil _ _), List.getLast?_cons_of_ne_nil hne]
    exact getLast?_written ha hsegments hlast
  rw [Text.trimEnd_toList, render, String.toList_ofList,
    renderChars_eq hauthority hpath hquery hfragment, written_append,
    UrlPath.render_replicate, ← List.cons_append, ← List.append_assoc]
  exact Text.rdropWhile_append_replicate hend k

/-- **Whatever is put behind the text of a URL leads to the same server.** -/
theorem exists_behind_root (h : root.IsNormal) (s : List Char) :
    ∃ url, parseChars ((Text.trimEnd '/' root.render).toList ++ '/' :: s) = .ok url ∧
      url.scheme = root.scheme ∧ url.authority = root.authority := by
  obtain ⟨k, hk⟩ := Text.eq_trimEnd_append '/' root.render
  rw [render, String.toList_ofList, ← render] at hk
  have hblank := isBlank_of_mem_renderChars h
  have hroot := parseChars_renderChars h
  have hend := (opening_eq_self hblank).trans (clean_eq_self hblank).symm
  rw [hk] at hroot hend
  obtain ⟨rest, a, hcut, hauthority, ha, hrootAuthority⟩ := authority_of_root hroot h.http hend
  have hread := parseChars_behind hcut (isServerScheme_of_isHttp h.http) hauthority s
  rw [ha] at hread
  exact ⟨_, hread, rfl, hrootAuthority.symm⟩

/-- **What is read behind the text of a URL**: the path stands below the directory of the URL, but
for the empty segments at the end of that. -/
theorem parse_below_root (h : root.IsNormal) (hquery : root.query = none)
    (hfragment : root.fragment = none) (hs : PlainText s) :
    ∃ segments k, root.path = .segments (segments ++ List.replicate k []) ∧
      segments.getLast? ≠ some [] ∧
      parseChars ((Text.trimEnd '/' root.render).toList ++ '/' :: s) =
        .ok { root with
          path := .segments (segments ++ (s.splitOn '/').map (Percent.encode keeps)) } := by
  obtain ⟨a, hauthority, ha⟩ := h.authority
  obtain ⟨all, hpath, -, hall⟩ := h.path
  obtain ⟨k, hk⟩ := Text.eq_rdropWhile_append [] all
  have hlast := Text.getLast?_rdropWhile_ne [] all
  generalize all.rdropWhile (· == []) = segments at hk hlast
  subst hk
  have hsegments : ∀ s ∈ segments, UrlPath.IsSegment s :=
    fun s hs => hall s (List.mem_append_left _ hs)
  refine ⟨segments, k, hpath, hlast, ?_⟩
  rw [trimEnd_render ha hauthority hsegments hlast hpath hquery hfragment,
    parseChars_below_written h.http ha hsegments hs, hauthority, hquery, hfragment]

/-- The slashes at the end of the path are those of the empty segments at the end too. -/
theorem trimEnd_pathText {segments : List (List Char)}
    (hsegments : ∀ s ∈ segments, UrlPath.IsSegment s) (hlast : segments.getLast? ≠ some [])
    (hpath : root.path = .segments (segments ++ List.replicate k [])) :
    (Text.trimEnd '/' root.pathText).toList = (UrlPath.segments segments).render := by
  rw [Text.trimEnd_toList, pathText, String.toList_ofList, hpath, UrlPath.render_append,
    UrlPath.render_replicate]
  exact Text.rdropWhile_append_replicate (UrlPath.getLast?_render hsegments hlast) k

/-- **What a path keeps is sent as it is written**, behind the path of the URL. -/
theorem parse_kept_below_root (h : root.IsNormal) (hquery : root.query = none)
    (hfragment : root.fragment = none) (hs : PlainText s) (hkept : s.all keeps = true) :
    ∃ url, parseChars ((Text.trimEnd '/' root.render).toList ++ '/' :: s) = .ok url ∧
      url.scheme = root.scheme ∧ url.authority = root.authority ∧
      url.pathText.toList = (Text.trimEnd '/' root.pathText).toList ++ '/' :: s ∧
      url.query = none ∧ url.fragment = none := by
  obtain ⟨segments, k, hpath, hlast, hread⟩ := parse_below_root h hquery hfragment hs
  obtain ⟨all, hall, -, hsegments⟩ := h.path
  obtain rfl := UrlPath.segments.inj (hall.symm.trans hpath)
  refine ⟨_, hread, rfl, rfl, ?_, hquery, hfragment⟩
  rw [trimEnd_pathText (fun s hs => hsegments s (List.mem_append_left _ hs)) hlast hpath, pathText,
    String.toList_ofList, UrlPath.render_append, UrlPath.render_map_encode, UrlPath.render_splitOn,
    Percent.encode_eq_self (by rw [List.all_cons, hkept]; decide)]

/-! ### The text of a base -/

/-- What is read behind the text of a base, if no blank at its end was lost. -/
theorem parseChars_below_text (hroot : parseChars (t ++ List.replicate k '/') = .ok root)
    (hhttp : root.isHttp = true) (hquery : root.query = none) (hfragment : root.fragment = none)
    (ht : ¬ Marked t)
    (hend : opening (t ++ List.replicate k '/') = clean (t ++ List.replicate k '/'))
    (hs : PlainText s) :
    (∃ j, root.path = .segments (directory (basePieces t) ++ List.replicate j [])) ∧
      parseChars (t ++ '/' :: s) = .ok { root with
        path := .segments (directory (basePieces t) ++
          (s.splitOn '/').map (Percent.encode keeps)) } := by
  obtain ⟨rest, a, hcut, hauthority, ha, hrootAuthority⟩ := authority_of_root hroot hhttp hend
  refine ⟨path_of_root hroot hhttp ht hend, ?_⟩
  rw [parseChars_below_plain hcut (isServerScheme_of_isHttp hhttp) hauthority ht hs, ha,
    hrootAuthority, hquery, hfragment]
  rfl

theorem isSlash_of_isBlank {c : Char} (h : isBlank c = true) : isSlash c = false := by
  rw [← Bool.not_eq_true]
  intro hslash
  simp only [isSlash, Bool.or_eq_true, beq_iff_eq] at hslash
  rcases hslash with rfl | rfl <;> cases h

/-- No dot segment ends in a blank. -/
theorem isPlain_append_of_isBlank (s : List Char) {blanks : List Char} (hne : blanks ≠ [])
    (h : ∀ c ∈ blanks, isBlank c = true) : UrlPath.isPlain (s ++ blanks) = true := by
  have hforms : ∀ d ∈ UrlPath.singleDots ++ UrlPath.doubleDots,
      d.getLast?.any isBlank = false := by decide
  obtain ⟨front, c, rfl⟩ := (List.eq_nil_or_concat blanks).resolve_left hne
  have hlast : (s ++ front.concat c).getLast? = some c := by simp
  have hblank := h c (by simp)
  generalize s ++ front.concat c = segment at hlast
  have hnot : segment ∉ UrlPath.singleDots ++ UrlPath.doubleDots := fun hmem => by
    have hform := hforms segment hmem
    rw [hlast, Option.any_some, hblank] at hform
    cases hform
  simpa [UrlPath.isPlain, UrlPath.isSingleDot, UrlPath.isDoubleDot] using hnot

/-- Behind a base with a path, more text is more of the path. -/
theorem afterAuthority_append (h : afterAuthority rest ≠ []) (more : List Char) :
    afterAuthority (rest ++ more) = afterAuthority rest ++ more := by
  have hne : rest.dropWhile isSlash ≠ [] := fun hnil => h (by rw [afterAuthority, hnil]; rfl)
  rw [afterAuthority, (takeWhile_dropWhile_append more hne).2,
    (takeWhile_dropWhile_append more h).2]
  rfl

theorem exists_openPieces_append {path : List Char} (h : path ≠ []) :
    ∃ front last, segmentsOf isSlash path = front ++ [last] ∧
      ∀ more, (∀ c ∈ more, isSlash c = false) →
        openPieces (path ++ more) = front ++ [last ++ more] := by
  cases path with
  | nil => exact absurd rfl h
  | cons c path => exact UrlPath.exists_splitOnP_append isSlash path

/-- Behind a base without a path, blanks would be the end of the authority, which has none there. -/
theorem afterAuthority_ne_nil_of_blanks {blanks : List Char}
    (hserver : isServerScheme scheme = true) (hauthority : HasAuthority rest)
    (hfront : ∀ c ∈ rest ++ blanks, isFront c = true) (hne : blanks ≠ [])
    (hblanks : ∀ c ∈ blanks, isBlank c = true)
    (ha : authorityOf scheme (authorityText (rest ++ blanks)) = .ok a) :
    afterAuthority rest ≠ [] := by
  intro hafter
  have htext : authorityText (rest ++ blanks) = rest.dropWhile isSlash ++ blanks := by
    rw [authorityText, List.takeWhile_eq_self_iff.2 hfront, (takeWhile_dropWhile_append blanks
      (dropWhile_ne_nil_of_hasAuthority hauthority)).2, List.takeWhile_eq_self_iff]
    intro c hc
    rcases List.mem_append.1 hc with hc | hc
    · exact List.dropWhile_eq_nil_iff.1 hafter c hc
    · rw [isSlash_of_isBlank (hblanks c hc)]
      rfl
  obtain ⟨front, c, rfl⟩ := (List.eq_nil_or_concat blanks).resolve_left hne
  rw [htext] at ha
  have hblank := isBlank_getLast?_of_authorityOf hserver ha c (by simp)
  rw [hblanks c (by simp)] at hblank
  cases hblank

/-- **A blank that was lost at the end of a base is not lost in front of a path**: the host cannot
be read with it, and a segment is another one. -/
theorem path_ne_of_blank (hroot : parseChars t = .ok root) (hhttp : root.isHttp = true)
    (ht : ¬ Marked t) (hend : opening t ≠ clean t) (hs : PlainText s)
    (hurl : parseChars (t ++ '/' :: s) = .ok url) {segments : List (List Char)} {j : Nat}
    (hpath : root.path = .segments (segments ++ List.replicate j [])) :
    url.path ≠ .segments (segments ++ (s.splitOn '/').map (Percent.encode keeps)) := by
  obtain ⟨rest, a, hcut, hauthority, -, hrootUrl⟩ := exists_of_parseChars hroot hhttp
  obtain ⟨blanks, hblanks, hopening⟩ := opening_eq t
  have hne : blanks ≠ [] := by
    rintro rfl
    exact hend (by rw [hopening, List.append_nil])
  have hcut' := cutScheme?_append_of_some blanks hcut
  rw [← hopening] at hcut'
  have hauthority' : HasAuthority (rest ++ blanks) := by
    obtain ⟨c, hc, hslash⟩ := hauthority
    exact ⟨c, (mem_takeWhile_append rest).1 hc, hslash⟩
  have hserver := isServerScheme_of_isHttp hhttp
  have hfront := not_marked_iff.1 (mt (marked_iff hcut').2 ht)
  rw [parseChars_below_plain hcut' hserver hauthority' ht hs] at hurl
  obtain ⟨a, ha, rfl⟩ := map_eq_ok_iff.1 hurl
  have hafter := afterAuthority_ne_nil_of_blanks hserver hauthority hfront hne hblanks ha
  obtain ⟨front, last, hpieces, hmore⟩ := exists_openPieces_append hafter
  have hrootPath : root.path = .segments (UrlPath.ofSegments (front ++ [last])) := by
    rw [hrootUrl, serverUrl, pathPieces, ← hpieces, List.takeWhile_eq_self_iff.2 fun c hc =>
      hfront c (List.mem_append_left _ hc)]
  have hbase : basePieces t = front ++ [last ++ blanks] := by
    rw [basePieces, basePath, hcut']
    dsimp only
    rw [afterAuthority_append hafter, hmore blanks fun c hc => isSlash_of_isBlank (hblanks c hc)]
  intro hsame
  have hdirectory := List.append_cancel_right (UrlPath.segments.inj hsame)
  rw [hrootPath, ← hdirectory, hbase] at hpath
  exact UrlPath.ofSegments_concat_ne front hne
    (isPlain_append_of_isBlank last hne hblanks) j (UrlPath.segments.inj hpath)

/-- **Behind the text of a base the same is read as behind its URL, if and only if the text is
seamless.** -/
theorem parse_below_iff {text : String} (hroot : parse text = .ok root) (hhttp : root.isHttp = true)
    (hquery : root.query = none) (hfragment : root.fragment = none) (hs : PlainText s) :
    ∃ url, parseChars ((Text.trimEnd '/' root.render).toList ++ '/' :: s) = .ok url ∧
      (parseChars ((Text.trimEnd '/' text).toList ++ '/' :: s) = .ok url ↔ Seamless text) := by
  obtain ⟨segments, j, hpath, hlast, hbelow⟩ :=
    parse_below_root (isNormal_of_parseChars hroot hhttp) hquery hfragment hs
  refine ⟨_, hbelow, ?_⟩
  obtain ⟨k, hk⟩ := Text.eq_trimEnd_append '/' text
  have hmarked := not_marked_of_parseChars hroot hhttp hquery hfragment
  rw [parse] at hroot
  rw [hk] at hroot hmarked
  have ht : ¬ Marked (Text.trimEnd '/' text).toList := by
    rintro ⟨c, hc, hmark⟩
    exact hmarked ⟨c, List.mem_append_left _ hc, hmark⟩
  constructor
  · intro hclient
    have hopening : opening text.toList = clean text.toList := by
      by_contra hend
      rw [hk] at hend
      cases k with
      | zero =>
        rw [List.replicate_zero, List.append_nil] at hend hroot
        exact path_ne_of_blank hroot hhttp ht hend hs hclient hpath rfl
      | succ k => exact hend (opening_eq_clean _ k)
    refine ⟨hopening, ?_⟩
    rw [hk] at hopening
    obtain ⟨-, hread⟩ := parseChars_below_text hroot hhttp hquery hfragment ht hopening hs
    rw [hread] at hclient
    have hsame := congrArg Url.path (Except.ok.inj hclient)
    rwa [List.append_cancel_right (UrlPath.segments.inj hsame)]
  · rintro ⟨hopening, hdirectory⟩
    rw [hk] at hopening
    obtain ⟨⟨i, hi⟩, hread⟩ := parseChars_below_text hroot hhttp hquery hfragment ht hopening hs
    rw [hread, Text.append_replicate_inj hdirectory hlast
      (UrlPath.segments.inj (hi.symm.trans hpath))]

/-- The text of a URL is seamless itself. -/
theorem seamless_render (h : root.IsNormal) (hquery : root.query = none)
    (hfragment : root.fragment = none) : Seamless root.render := by
  have hroot : parse root.render = .ok root := by
    rw [parse, render, String.toList_ofList]
    exact parseChars_renderChars h
  have hplain : PlainText [] := ⟨List.forall_mem_nil _, by decide⟩
  obtain ⟨url, hbelow, hsame⟩ := parse_below_iff hroot h.http hquery hfragment hplain
  exact hsame.1 hbelow

end Url

end ImageGateway
