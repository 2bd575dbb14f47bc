import ImageGateway.Proofs.Url.Base
import ImageGateway.Registry.Client

/-!
# Where the client of the registry goes

The client puts the path of a manifest, of a blob or of a list of tags behind the text of its base
URL, and the whole is read as a URL, which resolves dot segments.  So a path that begins with the
name of a namespace need not be sent to it.

* `Client.Stays` : the pieces of a path, resolved, still lie in the namespace.
* `Client.confined_iff` : **a request is sent to the namespace exactly if its path stays**,
  for every base URL and every path.
* `Client.stays_of_plain` : a path without dot segments, backslashes and marks stays below a base
  without them.
-/

namespace ImageGateway

namespace Registry

open UrlPath (SlashFree)

/-- A name as the URL reader writes it in a path. -/
def wireName (name : String) : String := String.ofList (Percent.encode UrlPath.keeps name.toList)

theorem wireName_toList (name : String) :
    (wireName name).toList = Percent.encode UrlPath.keeps name.toList := String.toList_ofList

/-- The path of a request is that of the catalog, or lies in the namespace. -/
def Confined (base nameSpace path : String) : Prop :=
  path = base ++ "/v2/_catalog" ∨
    Text.beginsWith (base ++ "/v2/" ++ wireName nameSpace ++ "/") path = true

instance (base nameSpace path : String) : Decidable (Confined base nameSpace path) :=
  inferInstanceAs (Decidable (_ ∨ _))

/-- The segments of a path. -/
def segmentsOfPath (path : String) : List (List Char) := (path.toList.splitOn '/').tail

namespace Client

/-- The segments that are sent for a path: the base and the pieces of the path, resolved. -/
def sentSegments (c : Client) (path : String) : List (List Char) :=
  UrlPath.ofSegments (Url.basePieces c.base.toList ++ "v2".toList :: Url.pieces path.toList)

/-- The path stays where its text points: nothing in the base cuts it off, and its segments are
those of the catalog or begin with those of the namespace. -/
def Stays (c : Client) (base nameSpace path : String) : Prop :=
  ¬ Url.Marked c.base.toList ∧ (c.sentSegments path = segmentsOfPath (base ++ "/v2/_catalog") ∨
    ∃ more, more ≠ [] ∧
      c.sentSegments path = segmentsOfPath (base ++ "/v2/" ++ wireName nameSpace) ++ more)

end Client

/-- What stands below the root of the registry protocol. -/
theorem below_toList (base rest : String) : (base ++ "/v2/" ++ rest).toList =
    base.toList ++ '/' :: ("v2".toList ++ '/' :: rest.toList) := by
  rw [String.toList_append, String.toList_append, List.append_assoc]
  rfl

theorem catalog_eq (base : String) : base ++ "/v2/_catalog" = base ++ "/v2/" ++ "_catalog" := by
  rw [String.append_assoc]
  rfl

theorem slashFree_segmentsOfPath (path : String) : SlashFree (segmentsOfPath path) :=
  fun s hs => UrlPath.slashFree_splitOn path.toList s (List.mem_of_mem_tail hs)

theorem render_segmentsOfPath {path : String} {rest : List Char} (h : path.toList = '/' :: rest) :
    (UrlPath.segments (segmentsOfPath path)).render = path.toList := by
  rw [segmentsOfPath, h, UrlPath.splitOn_slash_cons, List.tail_cons, UrlPath.render_splitOn]

theorem slashFree_sentSegments (c : Client) (path : String) : SlashFree (c.sentSegments path) := by
  refine UrlPath.slashFree_ofSegments ((Url.slashFree_openPieces _).append ?_)
  rintro s (_ | ⟨_, hs⟩)
  · decide
  · exact Url.slashFree_pieces _ s hs

/-- Behind the path of a base, a path begins with a slash. -/
theorem exists_eq_slash_cons {base : List Char} {segments : List (List Char)}
    (h : base <+: (UrlPath.segments segments).render) (rest : List Char) :
    ∃ l, base ++ '/' :: rest = '/' :: l := by
  cases base with
  | nil => exact ⟨rest, rfl⟩
  | cons c base =>
    cases segments with
    | nil => exact absurd (List.prefix_nil.1 h) (List.cons_ne_nil c base)
    | cons s segments =>
      obtain rfl : c = '/' := (List.cons_prefix_cons.1 h).1
      exact ⟨_, rfl⟩

theorem render_segmentsOfPath_below {base : String} {segments : List (List Char)}
    (hbase : base.toList <+: (UrlPath.segments segments).render) (rest : String) :
    (UrlPath.segments (segmentsOfPath (base ++ "/v2/" ++ rest))).render =
      (base ++ "/v2/" ++ rest).toList := by
  obtain ⟨l, hl⟩ := exists_eq_slash_cons hbase ("v2".toList ++ '/' :: rest.toList)
  exact render_segmentsOfPath ((below_toList base rest).trans hl)

/-- Confinement is a question about segments. -/
theorem confined_iff_segments {base nameSpace : String} {segments sent : List (List Char)}
    (hbase : base.toList <+: (UrlPath.segments segments).render) (hsent : SlashFree sent) :
    Confined base nameSpace (String.ofList (UrlPath.segments sent).render) ↔
      sent = segmentsOfPath (base ++ "/v2/_catalog") ∨
        ∃ more, more ≠ [] ∧
          sent = segmentsOfPath (base ++ "/v2/" ++ wireName nameSpace) ++ more := by
  refine or_congr ?_ ?_
  · rw [catalog_eq, ← UrlPath.render_inj hsent (slashFree_segmentsOfPath _),
      render_segmentsOfPath_below hbase, ← String.toList_inj, String.toList_ofList]
  · rw [← UrlPath.render_prefix_iff (slashFree_segmentsOfPath _) hsent,
      render_segmentsOfPath_below hbase, Text.beginsWith, List.isPrefixOf_iff_prefix,
      String.toList_append, String.toList_ofList, String.toList_ofList]

/-- The path of a base is not below itself. -/
theorem not_confined_of_base {nameSpace : String} (path : String) :
    ¬ Confined (Text.trimEnd '/' path) nameSpace path := by
  obtain ⟨k, hpath⟩ := Text.eq_trimEnd_append '/' path
  have hslashes (rest : String) :
      path ≠ Text.trimEnd '/' path ++ ("/v2/" ++ rest) := fun h => by
    rw [Text.eq_append_iff_toList, hpath, String.toList_append] at h
    have hmem : 'v' ∈ List.replicate k '/' := by
      rw [List.append_cancel_left h]
      exact List.mem_append_left _ (by decide)
    cases List.eq_of_mem_replicate hmem
  rintro (h | h)
  · exact hslashes "_catalog" h
  · obtain ⟨rest, hrest⟩ := Text.beginsWith_iff.1 h
    exact hslashes (wireName nameSpace ++ "/" ++ rest) (by simpa [String.append_assoc] using hrest)

variable {text path : String} {window : Nat} {root url : Url}

theorem url_toList (c : Client) (path : String) :
    (c.url path).toList = c.base.toList ++ '/' :: ("v2".toList ++ '/' :: path.toList) :=
  below_toList c.base path

/-- The root of the registry protocol is a piece of its own. -/
theorem pieces_below (path : List Char) :
    Url.pieces ("v2".toList ++ '/' :: path) = "v2".toList :: Url.pieces path := by
  refine Url.pieces_append_slash (fun c hc => ?_) path
  have hchars : c = 'v' ∨ c = '2' := by simpa using hc
  rcases hchars with rfl | rfl <;> decide

theorem Client.isHttp_of_url (hroot : Url.parse text = .ok root)
    (hurl : Url.parse ((Client.ofText text window).url path) = .ok url)
    (hhttp : url.isHttp = true) : root.isHttp = true := by
  obtain ⟨k, htext⟩ := Text.eq_trimEnd_append '/' text
  rw [Url.parse, htext] at hroot
  rw [Url.parse, url_toList] at hurl
  exact Url.isHttp_of_below hroot hurl hhttp

/-- **A request is sent to the namespace exactly if its path stays in it.** -/
theorem Client.confined_iff (hroot : Url.parse text = .ok root)
    (hurl : Url.parse ((Client.ofText text window).url path) = .ok url)
    (hhttp : url.isHttp = true) (nameSpace : String) :
    Confined (Text.trimEnd '/' root.pathText) nameSpace url.pathText ↔
      (Client.ofText text window).Stays (Text.trimEnd '/' root.pathText) nameSpace path := by
  obtain ⟨k, htext⟩ := Text.eq_trimEnd_append '/' text
  rw [Url.parse, htext] at hroot
  rw [Url.parse, url_toList] at hurl
  by_cases hmarked : Url.Marked (Client.ofText text window).base.toList
  · -- the path of the base is sent as it is, at whose end there are only slashes
    have hpath : url.pathText = root.pathText := by
      rw [Url.pathText, Url.path_below_of_marked hroot hurl hhttp hmarked, Url.pathText]
    rw [hpath]
    exact iff_of_false (not_confined_of_base root.pathText) fun h => h.1 hmarked
  · -- what is sent is the text of segments, and the path of the base is another such text
    have hpath := Url.path_below hroot hurl hhttp hmarked
    rw [pieces_below] at hpath
    obtain ⟨rest, -, hparts⟩ := Url.parts_of_parseChars hroot
    obtain ⟨-, hrootPath⟩ := hparts (Url.isHttp_of_below hroot hurl hhttp)
    have hbase : (Text.trimEnd '/' root.pathText).toList <+:
        (UrlPath.segments (UrlPath.ofSegments (Url.pathPieces rest))).render := by
      rw [Text.trimEnd_toList, Url.pathText, hrootPath, String.toList_ofList]
      exact List.rdropWhile_prefix _ _
    have hsent : url.pathText = String.ofList
        (UrlPath.segments ((Client.ofText text window).sentSegments path)).render := by
      rw [Url.pathText, hpath]
      rfl
    rw [hsent, confined_iff_segments hbase (slashFree_sentSegments _ path)]
    exact (and_iff_right hmarked).symm

/-! ### Plain paths -/

theorem segmentsOfPath_below {base : String} {segments : List (List Char)}
    (hfree : SlashFree segments) (hbase : base.toList = (UrlPath.segments segments).render)
    (rest : String) : segmentsOfPath (base ++ "/v2/" ++ rest) =
      segments ++ "v2".toList :: rest.toList.splitOn '/' := by
  rw [segmentsOfPath, below_toList, hbase, UrlPath.splitOn_render_append hfree, List.tail_cons,
    List.splitOn_append_cons_self]
  rfl

/-- Of a plain path below a plain base nothing is resolved. -/
theorem Client.sentSegments_of_plain (c : Client) (hbase : Url.PlainText c.base.toList)
    (hpath : Url.PlainText path.toList) : c.sentSegments path =
      (Url.basePieces c.base.toList).map (Percent.encode UrlPath.keeps) ++
        "v2".toList :: (path.toList.splitOn '/').map (Percent.encode UrlPath.keeps) := by
  rw [sentSegments, hpath.pieces_eq, UrlPath.ofSegments, UrlPath.resolve_eq_self, List.map_append]
  · rfl
  · intro p hp
    rcases List.mem_append.1 hp with hp | hp
    · exact hbase.basePieces_eq.2.2 p hp
    rcases List.mem_cons.1 hp with rfl | hp
    · decide
    · exact hpath.segments p hp

/-- **A plain path below a plain base stays where its text points.** -/
theorem Client.stays_of_plain (hroot : Url.parse text = .ok root) (hhttp : root.isHttp = true)
    (htext : Url.PlainText (Text.trimEnd '/' text).toList) (hpath : Url.PlainText path.toList)
    {nameSpace : String}
    (h : path = "_catalog" ∨ Text.beginsWith (nameSpace ++ "/") path = true) :
    (Client.ofText text window).Stays (Text.trimEnd '/' root.pathText) nameSpace path := by
  obtain ⟨k, htrimmed⟩ := Text.eq_trimEnd_append '/' text
  rw [Url.parse, htrimmed] at hroot
  have hbase := Url.pathText_of_plain hroot hhttp htext (Text.getLast?_trimEnd_ne '/' text)
  have hfree : SlashFree ((Url.basePieces (Text.trimEnd '/' text).toList).map
      (Percent.encode UrlPath.keeps)) := by
    intro s hs
    obtain ⟨p, hp, rfl⟩ := List.mem_map.1 hs
    rw [UrlPath.slash_mem_encode_iff]
    exact htext.basePieces_eq.1 p hp
  refine ⟨htext.not_marked, ?_⟩
  rw [sentSegments_of_plain (.ofText text window) htext hpath]
  rcases h with rfl | h
  · left
    rw [catalog_eq, segmentsOfPath_below hfree hbase "_catalog"]
    rfl
  · right
    obtain ⟨rest, rfl⟩ := Text.beginsWith_iff.1 h
    refine ⟨(rest.toList.splitOn '/').map (Percent.encode UrlPath.keeps), ?_, ?_⟩
    · exact mt List.map_eq_nil_iff.1 (List.splitOn_ne_nil _ _)
    · rw [segmentsOfPath_below hfree hbase (wireName nameSpace), Text.toList_slash,
        List.splitOn_append_cons_self, List.map_append, wireName_toList, UrlPath.splitOn_encode,
        List.append_assoc, List.cons_append]
      rfl

end Registry

end ImageGateway
