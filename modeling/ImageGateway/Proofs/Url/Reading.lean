import ImageGateway.Proofs.Url.Authority
import ImageGateway.Proofs.Url.Resolve

/-!
# URLs in normal form

What the reader makes of a text under a scheme that names a server is told part by part: the scheme,
then the authority, then path, query and fragment.  Only the authority can be wrong, and it ends
where a path begins; so whether there is a URL below a base does not depend on what is put behind
the base.

* `parseChars_of_cut` : what the reader makes of a text, as an equation.
* `parseChars_behind`, `parseChars_below` : what it makes of a text that is put behind a base.
* `IsNormal`, `isNormal_of_parseChars` : the URLs for HTTP that reading yields.
* `parseChars_renderChars` : **a URL in normal form is read back from its text**.
-/

namespace ImageGateway

namespace Url

/-! ### The parts -/

/-- The text of the authority, in the text behind the colon of a scheme. -/
def authorityText (rest : List Char) : List Char :=
  ((rest.takeWhile isFront).dropWhile isSlash).takeWhile (!isSlash ·)

/-- The URL with this authority and the path, query and fragment of the text behind the colon. -/
def serverUrl (scheme : List Char) (a : Authority) (rest : List Char) : Url where
  scheme
  authority := some a
  path := .segments (UrlPath.ofSegments (pathPieces rest))
  query := (Tail.ofChars rest).query.map (Percent.encode (queryKeeps true))
  fragment := (Tail.ofChars rest).fragment.map (Percent.encode fragmentKeeps)

theorem ofScheme_server {scheme : List Char} (h : isServerScheme scheme = true)
    (rest : List Char) : ofScheme scheme rest =
      (authorityOf scheme (authorityText rest)).map (serverUrl scheme · rest) := by
  simp only [ofScheme, h, if_true, ofServerText, Tail.ofChars_front]
  rw [authorityText]
  cases authorityOf scheme _ <;> rfl

/-- **Under a scheme that names a server, only the authority decides whether there is a URL.** -/
theorem parseChars_of_cut {s scheme rest : List Char}
    (hcut : cutScheme? (clean s) = some (scheme, rest)) (h : isServerScheme scheme = true) :
    parseChars s = (authorityOf scheme (authorityText rest)).map (serverUrl scheme · rest) := by
  rw [parseChars, hcut]
  exact ofScheme_server h rest

theorem exists_of_parseChars {s : List Char} {url : Url} (h : parseChars s = .ok url)
    (hhttp : url.isHttp = true) : ∃ rest a, cutScheme? (clean s) = some (url.scheme, rest) ∧
      HasAuthority rest ∧ authorityOf url.scheme (authorityText rest) = .ok a ∧
      url = serverUrl url.scheme a rest := by
  obtain ⟨rest, hcut, hparts⟩ := parts_of_parseChars h
  rw [parseChars_of_cut hcut (isServerScheme_of_isHttp hhttp)] at h
  obtain ⟨a, ha, hurl⟩ := map_eq_ok_iff.1 h
  exact ⟨rest, a, hcut, (hparts hhttp).1, ha, hurl.symm⟩

theorem Tail.ofChars_append {x : List Char} (h : ∀ c ∈ x, isFront c = true) (y : List Char) :
    Tail.ofChars (x ++ y) =
      ⟨x ++ (Tail.ofChars y).front, (Tail.ofChars y).query, (Tail.ofChars y).fragment⟩ := by
  have hquery : '?' ∉ x := fun hc => nomatch h _ hc
  have hfragment : '#' ∉ x := fun hc => nomatch h _ hc
  simp only [Tail.ofChars, cutMark_append_left hfragment, cutMark_append_left hquery]

/-- The parts of a text are those that it was put together from. -/
theorem Tail.ofChars_marked {front : List Char} {query fragment : Option (List Char)}
    (hfront : ∀ c ∈ front, isFront c = true) (hquery : ∀ q, query = some q → '#' ∉ q) :
    Tail.ofChars (front ++ (marked '?' query ++ marked '#' fragment)) =
      ⟨front, query, fragment⟩ := by
  have hmark : '#' ∉ marked '?' query := by
    cases query with
    | none => exact List.not_mem_nil
    | some q => simpa [marked] using hquery q rfl
  have hfragment : cutMark '#' (marked '?' query ++ marked '#' fragment) =
      (marked '?' query, fragment) := by
    rw [cutMark_append_left hmark]
    cases fragment <;> simp [marked, cutMark]
  have hquery : cutMark '?' (marked '?' query) = ([], query) := by
    cases query <;> rfl
  rw [Tail.ofChars_append hfront]
  simp only [Tail.ofChars, hfragment, hquery, List.append_nil]

/-! ### Behind a base -/

theorem takeWhile_append_slash {p : Char → Bool} (hp : p '/' = false) (x y : List Char) :
    (x ++ '/' :: y).takeWhile p = x.takeWhile p := by
  rw [List.takeWhile_append]
  split_ifs with h
  · rw [List.takeWhile_cons_of_neg (by simp [hp]), List.append_nil,
      (List.takeWhile_prefix p).eq_of_length h]
  · rfl

/-- More text behind a text that could name an authority does not decide whether it does. -/
theorem hasAuthority_of_append {rest s : List Char} (h : HasAuthority (rest ++ s))
    (htext : ∃ c ∈ rest, isSlash c = false) : HasAuthority rest := by
  by_cases hmarked : Marked rest
  · obtain ⟨c, hc, hmark⟩ := hmarked
    rwa [HasAuthority, takeWhile_append_of_mem s hc hmark] at h
  · obtain ⟨c, hc, hslash⟩ := htext
    refine ⟨c, ?_, hslash⟩
    rwa [List.takeWhile_eq_self_iff.2 (not_marked_iff.1 hmarked)]

/-- The authority ends where the path begins. -/
theorem authorityText_append_slash {rest : List Char} (h : HasAuthority rest) (s : List Char) :
    authorityText (rest ++ '/' :: s) = authorityText rest := by
  unfold authorityText
  by_cases hmarked : Marked rest
  · obtain ⟨c, hc, hmark⟩ := hmarked
    rw [takeWhile_append_of_mem _ hc hmark]
  · have hfront := not_marked_iff.1 hmarked
    rw [List.takeWhile_append_of_pos hfront, List.takeWhile_cons_of_pos (by decide),
      List.takeWhile_eq_self_iff.2 hfront,
      (takeWhile_dropWhile_append _ (dropWhile_ne_nil_of_hasAuthority h)).2,
      takeWhile_append_slash (by decide)]

theorem pathPieces_append_slash {rest : List Char} (h : HasAuthority rest)
    (hfront : ∀ c ∈ rest, isFront c = true) (s : List Char) :
    pathPieces (rest ++ '/' :: s) =
      openPieces (afterAuthority rest) ++ (s.takeWhile isFront).splitOnP isSlash := by
  rw [pathPieces, List.takeWhile_append_of_pos hfront, List.takeWhile_cons_of_pos (by decide),
    afterAuthority_append_slash _ (dropWhile_ne_nil_of_hasAuthority h), segmentsOf_append_slash]

/-- Behind any base, marked or not, the authority is that of the base. -/
theorem parseChars_behind {t scheme rest : List Char}
    (hcut : cutScheme? (opening t) = some (scheme, rest)) (hserver : isServerScheme scheme = true)
    (hauthority : HasAuthority rest) (s : List Char) :
    parseChars (t ++ '/' :: s) = (authorityOf scheme (authorityText rest)).map
      (serverUrl scheme · (rest ++ '/' :: tidy s)) := by
  have hcut' : cutScheme? (clean (t ++ '/' :: s)) = some (scheme, rest ++ '/' :: tidy s) := by
    rw [clean_append (by rfl), cutScheme?_append_slash, hcut]
    rfl
  rw [parseChars_of_cut hcut' hserver, authorityText_append_slash hauthority]

/-- **What the reader makes of a text that is put behind a base.** -/
theorem parseChars_below {t scheme rest : List Char}
    (hcut : cutScheme? (opening t) = some (scheme, rest)) (hserver : isServerScheme scheme = true)
    (hauthority : HasAuthority rest) (ht : ¬ Marked t) (s : List Char) :
    parseChars (t ++ '/' :: s) = (authorityOf scheme (authorityText rest)).map fun a =>
      { scheme
        authority := some a
        path := .segments (UrlPath.ofSegments (basePieces t ++ pieces s))
        query := (Tail.ofChars (tidy s)).query.map (Percent.encode (queryKeeps true))
        fragment := (Tail.ofChars (tidy s)).fragment.map (Percent.encode fragmentKeeps) } := by
  have hfront := not_marked_iff.1 (mt (marked_iff hcut).2 ht)
  have htail := Tail.ofChars_append (x := rest ++ ['/'])
    (List.forall_mem_append.2 ⟨hfront, List.forall_mem_singleton.2 (by decide)⟩) (tidy s)
  rw [List.append_assoc, List.singleton_append] at htail
  have hpieces : pathPieces (rest ++ '/' :: tidy s) = basePieces t ++ pieces s := by
    rw [pathPieces_append_slash hauthority hfront, basePieces, basePath, hcut]
    rfl
  rw [parseChars_behind hcut hserver hauthority]
  simp only [serverUrl, htail, hpieces]

/-! ### Normal form -/

/-- A URL for HTTP in normal form. -/
structure IsNormal (url : Url) : Prop where
  http : url.isHttp = true
  authority : ∃ a, url.authority = some a ∧ a.IsNormal url.scheme
  path : ∃ segments, url.path = .segments segments ∧ segments ≠ [] ∧
    ∀ s ∈ segments, UrlPath.IsSegment s
  query : ∀ q, url.query = some q → q.all (queryKeeps true) = true
  fragment : ∀ f, url.fragment = some f → f.all fragmentKeeps = true

theorem isSlash_of_mem_pathPieces {rest : List Char} :
    ∀ s ∈ pathPieces rest, ∀ c ∈ s, isSlash c = false :=
  fun _ hs => UrlPath.eq_false_of_mem_splitOnP hs

theorem pathPieces_ne_nil (rest : List Char) : pathPieces rest ≠ [] :=
  List.splitOnP_ne_nil _ _

/-- **Reading yields a URL in normal form**, if it is one for HTTP. -/
theorem isNormal_of_parseChars {s : List Char} {url : Url} (h : parseChars s = .ok url)
    (hhttp : url.isHttp = true) : url.IsNormal := by
  obtain ⟨rest, a, -, -, ha, hurl⟩ := exists_of_parseChars h hhttp
  generalize hscheme : url.scheme = scheme at ha hurl
  subst hurl
  have hserver := isServerScheme_of_isHttp hhttp
  refine ⟨hhttp, ⟨a, rfl, isNormal_of_authorityOf hserver ha⟩, ⟨_, rfl, ?_, ?_⟩, ?_, ?_⟩
  · rw [UrlPath.ofSegments, ne_eq, List.map_eq_nil_iff]
    exact UrlPath.resolve_ne_nil (pathPieces_ne_nil rest)
  · exact UrlPath.isSegment_of_mem_ofSegments isSlash_of_mem_pathPieces
  · intro q hq
    obtain ⟨q, -, rfl⟩ := Option.map_eq_some_iff.1 hq
    exact Percent.all_encode (by decide) q
  · intro f hf
    obtain ⟨f, -, rfl⟩ := Option.map_eq_some_iff.1 hf
    exact Percent.all_encode (by decide) f

/-! ### Writing and reading -/

theorem cutScheme?_of_isHttp {url : Url} (h : url.isHttp = true) (rest : List Char) :
    cutScheme? (url.scheme ++ ':' :: rest) = some (url.scheme, rest) := by
  simp only [isHttp, Bool.or_eq_true, beq_iff_eq] at h
  rcases h with h | h <;> rw [h] <;> rfl

/-- The text of an authority and of a path behind it. -/
def written (a : Authority) (segments : List (List Char)) : List Char :=
  '/' :: '/' :: (a.render ++ (UrlPath.segments segments).render)

section Written

variable {scheme : List Char} {a : Authority} (ha : a.IsNormal scheme)
  {segments : List (List Char)} (hsegments : ∀ s ∈ segments, UrlPath.IsSegment s)
include ha hsegments

theorem forall_mem_written : ∀ c ∈ written a segments, isBlank c = false ∧ isFront c = true := by
  have hkept (c : Char) (hc : UrlPath.keeps c = true) : isBlank c = false ∧ isFront c = true := by
    have hmarks : UrlPath.keeps '?' = false ∧ UrlPath.keeps '#' = false := by decide
    refine ⟨?_, ?_⟩
    · simp only [UrlPath.keeps, Bool.and_eq_true, decide_eq_true_eq] at hc
      simpa [isBlank] using hc.1.1
    · simp only [isFront, Bool.and_eq_true, bne_iff_ne]
      constructor <;> rintro rfl
      · rw [hmarks.1] at hc
        cases hc
      · rw [hmarks.2] at hc
        cases hc
  simp only [written, List.forall_mem_cons, List.forall_mem_append]
  refine ⟨by decide, by decide, fun c hc => ?_, fun c hc => ?_⟩
  · obtain ⟨hblank, hfront, -⟩ := Authority.isAuthorityText_render ha c hc
    exact ⟨hblank, hfront⟩
  · obtain ⟨s, hs, hc⟩ := List.mem_flatMap.1 hc
    rcases List.mem_cons.1 hc with rfl | hc
    · decide
    · exact hkept c (List.all_eq_true.1 (hsegments s hs).kept c hc)

omit hsegments in
variable (segments) in
/-- The authority and the path are read back. -/
theorem parts_written : ((written a segments).dropWhile isSlash).takeWhile (!isSlash ·) = a.render ∧
    afterAuthority (written a segments) = (UrlPath.segments segments).render := by
  have hslash : ∀ c ∈ a.render, (!isSlash c) = true := fun c hc => by
    simp [(Authority.isAuthorityText_render ha c hc).2.2]
  obtain ⟨c, text, htext⟩ := List.exists_cons_of_ne_nil (Authority.render_ne_nil ha)
  have hfirst : isSlash c = false := by simpa using hslash c (by simp [htext])
  have hdrop : (written a segments).dropWhile isSlash =
      a.render ++ (UrlPath.segments segments).render := by
    rw [written, List.dropWhile_cons_of_pos (by rfl), List.dropWhile_cons_of_pos (by rfl), htext,
      List.cons_append, List.dropWhile_cons_of_neg (by simp [hfirst])]
  rw [afterAuthority, hdrop, List.takeWhile_append_of_pos hslash,
    List.dropWhile_append_of_pos hslash]
  cases segments with
  | nil => simp [UrlPath.render]
  | cons s segments =>
    rw [UrlPath.render, List.flatMap_cons, List.cons_append,
      List.takeWhile_cons_of_neg (by decide), List.dropWhile_cons_of_neg (by decide)]
    simp

end Written

theorem opening_eq_self {s : List Char} (h : ∀ c ∈ s, isBlank c = false) : opening s = s := by
  have hdrop : s.dropWhile isBlank = s := by
    cases s with
    | nil => rfl
    | cons c s => exact List.dropWhile_cons_of_neg (by simp [h c List.mem_cons_self])
  rw [opening, hdrop, unwrapped_eq_self h]

theorem tidy_eq_self {s : List Char} (h : ∀ c ∈ s, isBlank c = false) : tidy s = s := by
  have hdrop : s.rdropWhile isBlank = s :=
    List.rdropWhile_eq_self_iff.2 fun hne => by simp [h _ (List.getLast_mem hne)]
  rw [tidy, hdrop, unwrapped_eq_self h]

theorem clean_eq_self {s : List Char} (h : ∀ c ∈ s, isBlank c = false) : clean s = s := by
  cases s with
  | nil => rfl
  | cons c s =>
    rw [List.forall_mem_cons] at h
    have hclean := clean_append h.1 [] s
    rwa [tidy_eq_self h.2] at hclean

theorem isBlank_of_mem_scheme {url : Url} (h : url.isHttp = true) :
    ∀ c ∈ url.scheme, isBlank c = false := by
  simp only [isHttp, Bool.or_eq_true, beq_iff_eq] at h
  rcases h with h | h <;> rw [h] <;> exact isBlank_of_any (by decide)

theorem isBlank_of_keepsOutside {encoded : List Char} {c : Char}
    (h : keepsOutside encoded c = true) : isBlank c = false := by
  simp only [keepsOutside, Bool.and_eq_true, decide_eq_true_eq] at h
  simpa [isBlank] using h.1.1

theorem isBlank_of_mem_marked {encoded : List Char} {mark : Char} (hmark : isBlank mark = false)
    {part : Option (List Char)}
    (h : ∀ text, part = some text → text.all (keepsOutside encoded) = true) :
    ∀ c ∈ marked mark part, isBlank c = false := by
  cases part with
  | none => exact List.forall_mem_nil _
  | some text => exact List.forall_mem_cons.2 ⟨hmark, fun c hc =>
      isBlank_of_keepsOutside (List.all_eq_true.1 (h text rfl) c hc)⟩

theorem map_encode_eq_self {keep : Char → Bool} {part : Option (List Char)}
    (h : ∀ text, part = some text → text.all keep = true) :
    part.map (Percent.encode keep) = part := by
  cases part with
  | none => rfl
  | some text => rw [Option.map_some, Percent.encode_eq_self (h text rfl)]

/-- Behind the colon of the scheme, the parts of a URL are cut where they were put together. -/
theorem parts_marked {scheme : List Char} {a : Authority} (ha : a.IsNormal scheme)
    {segments : List (List Char)} (hne : segments ≠ [])
    (hsegments : ∀ s ∈ segments, UrlPath.IsSegment s) {query : Option (List Char)}
    (hquery : ∀ q, query = some q → '#' ∉ q) (fragment : Option (List Char)) :
    let rest := written a segments ++ (marked '?' query ++ marked '#' fragment)
    authorityText rest = a.render ∧ pathPieces rest = segments ∧
      Tail.ofChars rest = ⟨written a segments, query, fragment⟩ := by
  intro rest
  have htail : Tail.ofChars rest = ⟨written a segments, query, fragment⟩ :=
    Tail.ofChars_marked (fun c hc => (forall_mem_written ha hsegments c hc).2) hquery
  have hfront := Tail.ofChars_front rest
  rw [htail] at hfront
  obtain ⟨hhost, hpath⟩ := parts_written ha segments
  refine ⟨?_, ?_, htail⟩
  · rw [authorityText, ← hfront]
    exact hhost
  · rw [pathPieces, ← hfront, hpath, UrlPath.segmentsOf_render hsegments hne]

theorem renderChars_eq_written {url : Url} {a : Authority} {segments : List (List Char)}
    (ha : url.authority = some a) (hpath : url.path = .segments segments) :
    url.renderChars = url.scheme ++ ':' ::
      (written a segments ++ (marked '?' url.query ++ marked '#' url.fragment)) := by
  simp [renderChars, renderFront, ha, hpath, written]

/-- There is nothing to clean in the text of a URL. -/
theorem isBlank_of_mem_renderChars {url : Url} (h : url.IsNormal) :
    ∀ c ∈ url.renderChars, isBlank c = false := by
  obtain ⟨a, hauthority, ha⟩ := h.authority
  obtain ⟨segments, hpath, -, hsegments⟩ := h.path
  rw [renderChars_eq_written hauthority hpath]
  simp only [List.forall_mem_append, List.forall_mem_cons]
  exact ⟨isBlank_of_mem_scheme h.http, by rfl,
    fun c hc => (forall_mem_written ha hsegments c hc).1,
    isBlank_of_mem_marked (by rfl) h.query, isBlank_of_mem_marked (by rfl) h.fragment⟩

/-- **A URL in normal form is read back from its text.** -/
theorem parseChars_renderChars {url : Url} (h : url.IsNormal) :
    parseChars url.renderChars = .ok url := by
  obtain ⟨a, hauthority, ha⟩ := h.authority
  obtain ⟨segments, hpath, hne, hsegments⟩ := h.path
  have hserver := isServerScheme_of_isHttp h.http
  have hcut : cutScheme? (clean url.renderChars) = some (url.scheme,
      written a segments ++ (marked '?' url.query ++ marked '#' url.fragment)) := by
    rw [clean_eq_self (isBlank_of_mem_renderChars h), renderChars_eq_written hauthority hpath,
      cutScheme?_of_isHttp h.http]
  have hquery : ∀ q, url.query = some q → '#' ∉ q :=
    fun q hq hmark => nomatch List.all_eq_true.1 (h.query q hq) '#' hmark
  obtain ⟨hread, hpieces, htail⟩ := parts_marked ha hne hsegments hquery url.fragment
  rw [parseChars_of_cut hcut hserver, hread, authorityOf_render hserver ha,
    Except.map, serverUrl, hpieces, htail, UrlPath.ofSegments_eq_self hsegments]
  dsimp only
  rw [map_encode_eq_self h.query, map_encode_eq_self h.fragment, ← hauthority, ← hpath]

end Url

end ImageGateway
