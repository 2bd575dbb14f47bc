import ImageGateway.Proofs.Server.Confinement
import ImageGateway.Proofs.Url.Seam

/-!
# The grammar of names

A client names a repository and a tag, and both are checked character by character.  The check is
compared with a grammar, and the names that pass it with what is sent for them.

* `Grammar.Repository`, `Grammar.Tag` : the grammar, told by the parts that a name is put together
  from, without splitting anything.
* `repositoryIn_iff`, `isTag_iff` : the check takes exactly the names of the grammar.
* `sent_below` : a name is sent below the path of the registry as it is written.
* `sent_as_named` : **what a client names is taken if and only if the grammar has it**, it is then
  taken without the blanks around it, taken again the same way, and sent unchanged.

The base of the registry is a URL in normal form here.  Of other spellings of it nothing is said: a
blank at the end of the text, say, would stand in front of the name.
-/

namespace ImageGateway

namespace Api

open Registry (Client)

namespace Grammar

/-- A letter or a digit of ASCII. -/
def Alphanumeric (c : Char) : Prop :=
  ('A' ≤ c ∧ c ≤ 'Z') ∨ ('a' ≤ c ∧ c ≤ 'z') ∨ ('0' ≤ c ∧ c ≤ '9')

/-- A character that may stand in a name. -/
def NameCharacter (c : Char) : Prop := Alphanumeric c ∨ c = '.' ∨ c = '_' ∨ c = '-'

/-- A segment of the name of a repository. -/
structure Segment (s : String) : Prop where
  nonempty : s ≠ ""
  single : s ≠ "."
  double : s ≠ ".."
  characters : ∀ c ∈ s.toList, NameCharacter c

/-- A repository: the namespace and one more segment at least, with slashes between them. -/
def Repository (nameSpace repo : String) : Prop :=
  ∃ rest, rest ≠ [] ∧ repo = Text.joinWith "/" (nameSpace :: rest) ∧
    ∀ s ∈ nameSpace :: rest, Segment s

/-- A tag: a letter, a digit or an underscore, and up to 127 characters of a name behind it. -/
def Tag (tag : String) : Prop :=
  ∃ first rest, tag.toList = first :: rest ∧ (Alphanumeric first ∨ first = '_') ∧
    rest.length ≤ 127 ∧ ∀ c ∈ rest, NameCharacter c

end Grammar

open Grammar (Alphanumeric NameCharacter Segment)

/-! ### Characters -/

theorem isAlphanum_iff {c : Char} : c.isAlphanum = true ↔ Alphanumeric c := by
  have hrange (d e : Char) :
      (decide (c.val ≥ d.val) && decide (c.val ≤ e.val)) = true ↔ d ≤ c ∧ c ≤ e := by
    rw [Bool.and_eq_true, decide_eq_true_iff, decide_eq_true_iff]
    rfl
  have hupper : c.isUpper = true ↔ 'A' ≤ c ∧ c ≤ 'Z' := decide_eq_true_iff
  have hlower : c.isLower = true ↔ 'a' ≤ c ∧ c ≤ 'z' := hrange 'a' 'z'
  have hdigit : c.isDigit = true ↔ '0' ≤ c ∧ c ≤ '9' := hrange '0' '9'
  show (c.isUpper || c.isLower || c.isDigit) = true ↔ _
  rw [Bool.or_eq_true, Bool.or_eq_true, hupper, hlower, hdigit, or_assoc, Alphanumeric]

theorem isNameChar_iff {c : Char} : isNameChar c = true ↔ NameCharacter c := by
  simp [isNameChar, NameCharacter, isAlphanum_iff, or_assoc]

/-- Names are written in ASCII, with characters that a path keeps. -/
theorem kept_of_isNameChar {c : Char} (h : isNameChar c = true) :
    c.toNat < 0x80 ∧ UrlPath.keeps c = true := by
  have hall : ∀ n < 0x80, isNameChar (Char.ofNat n) = true →
      UrlPath.keeps (Char.ofNat n) = true := by decide
  have hlt : c.toNat < 0x80 := by
    have hbelow {d : Char} (hcd : c ≤ d) (hd : d.toNat < 0x80) : c.toNat < 0x80 :=
      Nat.lt_of_le_of_lt hcd hd
    rcases isNameChar_iff.1 h with (⟨-, hc⟩ | ⟨-, hc⟩ | ⟨-, hc⟩) | rfl | rfl | rfl
    · exact hbelow hc (by decide)
    · exact hbelow hc (by decide)
    · exact hbelow hc (by decide)
    all_goals decide
  have hkeeps := hall c.toNat hlt
  rw [Char.ofNat_toNat] at hkeeps
  exact ⟨hlt, hkeeps h⟩

/-! ### Repositories -/

theorem isSegment_iff {s : String} : isSegment s.toList = true ↔ Segment s := by
  have hdot : s.toList = ['.'] ↔ s = "." := by rw [← String.toList_inj]; rfl
  have hdots : s.toList = ['.', '.'] ↔ s = ".." := by rw [← String.toList_inj]; rfl
  simp only [isSegment, Bool.and_eq_true, Bool.not_eq_true', List.isEmpty_eq_false_iff, bne_iff_ne,
    List.all_eq_true, isNameChar_iff, ne_eq, String.toList_eq_nil_iff, hdot, hdots]
  constructor
  · rintro ⟨⟨⟨hempty, hsingle⟩, hdouble⟩, hall⟩
    exact ⟨hempty, hsingle, hdouble, hall⟩
  · rintro ⟨hempty, hsingle, hdouble, hall⟩
    exact ⟨⟨⟨hempty, hsingle⟩, hdouble⟩, hall⟩

theorem slash_notMem_of_segment {s : String} (h : Segment s) : '/' ∉ s.toList :=
  fun hmem => (isNameChar_imp_ne (isNameChar_iff.2 (h.characters _ hmem))).2.2.2 rfl

theorem joinWith_toList (nameSpace : String) (rest : List String) :
    (Text.joinWith "/" (nameSpace :: rest)).toList =
      ['/'].intercalate (nameSpace.toList :: rest.map String.toList) := String.toList_intercalate

/-- **The check takes exactly the repositories of the grammar**, with the namespace in front. -/
theorem repositoryIn_iff {nameSpace repo : String} :
    RepositoryIn nameSpace repo ↔ Grammar.Repository nameSpace repo := by
  constructor
  · rintro ⟨hrepo, rest, hcut⟩
    obtain ⟨htext, hslash⟩ := Text.cutAt_eq_some_iff.1 hcut
    rw [isRepository, htext, List.splitOn_append_cons_self, List.splitOn_eq_singleton hslash,
      List.all_eq_true] at hrepo
    refine ⟨(rest.toList.splitOn '/').map String.ofList, ?_, ?_, ?_⟩
    · rw [ne_eq, List.map_eq_nil_iff]
      exact List.splitOn_ne_nil '/' _
    · rw [← String.toList_inj, joinWith_toList, List.map_map, htext]
      have hid : String.toList ∘ String.ofList = id := funext fun l => String.toList_ofList
      obtain ⟨first, more, hmore⟩ :=
        List.exists_cons_of_ne_nil (List.splitOn_ne_nil '/' rest.toList)
      rw [hid, List.map_id, hmore, List.intercalate_cons_cons, ← hmore, List.intercalate_splitOn]
      simp
    · intro s hs
      refine isSegment_iff.1 (hrepo _ ?_)
      rcases List.mem_cons.1 hs with rfl | hs
      · simp
      · obtain ⟨l, hl, rfl⟩ := List.mem_map.1 hs
        rw [String.toList_ofList]
        exact List.mem_append_right _ hl
  · rintro ⟨rest, hrest, rfl, hall⟩
    have htext := joinWith_toList nameSpace rest
    have hsplit : (Text.joinWith "/" (nameSpace :: rest)).toList.splitOn '/' =
        nameSpace.toList :: rest.map String.toList := by
      rw [htext]
      refine List.splitOn_intercalate '/' (fun l hl => ?_) (List.cons_ne_nil _ _)
      obtain ⟨s, hs, rfl⟩ : ∃ s ∈ nameSpace :: rest, s.toList = l := List.mem_map.1 hl
      exact slash_notMem_of_segment (hall s hs)
    constructor
    · rw [isRepository, hsplit, List.all_eq_true]
      intro l hl
      obtain ⟨s, hs, rfl⟩ : ∃ s ∈ nameSpace :: rest, s.toList = l := List.mem_map.1 hl
      exact isSegment_iff.2 (hall s hs)
    · obtain ⟨second, more, rfl⟩ := List.exists_cons_of_ne_nil hrest
      refine ⟨Text.joinWith "/" (second :: more), Text.cutAt_eq_some_iff.2 ⟨?_, ?_⟩⟩
      · rw [htext, joinWith_toList, List.map_cons, List.intercalate_cons_cons]
        simp
      · exact slash_notMem_of_segment (hall nameSpace List.mem_cons_self)

/-! ### Tags -/

/-- **The check takes exactly the tags of the grammar.**  It counts bytes and the grammar counts
characters, which is the same for what a name is written with. -/
theorem isTag_iff {tag : String} : isTag tag = true ↔ Grammar.Tag tag := by
  cases hchars : tag.toList with
  | nil => simp [isTag, Grammar.Tag, hchars]
  | cons first rest =>
    have hsize (hfirst : Alphanumeric first ∨ first = '_') (hrest : ∀ c ∈ rest, NameCharacter c) :
        tag.utf8ByteSize = rest.length + 1 := by
      have hname : NameCharacter first := hfirst.imp_right fun h => .inr (.inl h)
      rw [Utf8.utf8ByteSize_of_lt fun c hc => ?_, hchars, List.length_cons]
      rw [hchars] at hc
      exact (kept_of_isNameChar (isNameChar_iff.2
        ((List.forall_mem_cons.2 ⟨hname, hrest⟩) c hc))).1
    simp only [isTag, hchars, Bool.and_eq_true, Bool.or_eq_true, isAlphanum_iff, beq_iff_eq,
      decide_eq_true_eq, List.all_eq_true, isNameChar_iff]
    constructor
    · rintro ⟨⟨hfirst, hlength⟩, hrest⟩
      rw [hsize hfirst hrest] at hlength
      exact ⟨first, rest, hchars, hfirst, by omega, hrest⟩
    · rintro ⟨first', rest', heq, hfirst, hlength, hrest⟩
      obtain ⟨rfl, rfl⟩ := List.cons.inj (hchars.symm.trans heq)
      refine ⟨⟨hfirst, ?_⟩, hrest⟩
      rw [hsize hfirst hrest]
      omega

/-! ### What is sent -/

theorem all_keeps_of_isRepository {repo : String} (h : isRepository repo = true) :
    repo.toList.all UrlPath.keeps = true := by
  rw [isRepository, List.all_eq_true] at h
  rw [List.all_eq_true]
  intro c hc
  rcases UrlPath.eq_or_mem_of_mem hc with rfl | ⟨s, hs, hcs⟩
  · decide
  · have hsegment := h s hs
    simp only [isSegment, Bool.and_eq_true, List.all_eq_true] at hsegment
    exact (kept_of_isNameChar (hsegment.2 c hcs)).2

/-- **A name is sent below the path of the registry as it is written.** -/
theorem sent_below {text : String} {root : Url} (hroot : Url.parse text = .ok root)
    (hnormal : root.render = text) (hhttp : root.isHttp = true) (hquery : root.query = none)
    (hfragment : root.fragment = none) (window : Nat) {path : String}
    (hpath : isRepository path = true) :
    ∃ url, Url.parse ((Client.ofText text window).url path) = .ok url ∧
      url.scheme = root.scheme ∧ url.authority = root.authority ∧
      url.pathText = Text.trimEnd '/' root.pathText ++ "/v2/" ++ path ∧
      url.query = none ∧ url.fragment = none := by
  have hv2 : isRepository ("v2" ++ "/" ++ path) = true := by
    rw [isRepository_append, hpath]
    decide
  obtain ⟨url, hread, hscheme, hauthority, hpathText, hsent⟩ :=
    Url.parse_kept_below_root (Url.isNormal_of_parseChars hroot hhttp) hquery hfragment
      (plainText_of_isRepository hv2) (all_keeps_of_isRepository hv2)
  rw [Text.toList_slash] at hread hpathText
  refine ⟨url, ?_, hscheme, hauthority, ?_, hsent⟩
  · rw [Url.parse, Registry.url_toList, Client.ofText, ← hnormal]
    exact hread
  · rw [← String.toList_inj, Registry.below_toList, hpathText]

/-- **What a client names is taken if and only if the grammar has it, and sent as it is named.**  A
repository and a tag are taken exactly if both are in the grammar once the blanks around them are
gone.  Then they are taken without these blanks, with the first segment of the repository as the
namespace, and taken again they stay the same; and for every base URL for HTTP in normal form,
without query and fragment, the request for the manifest goes to the path of the base, without the
slashes at its end, and behind it `/v2/`, the repository and the tag, character by character, with
neither query nor fragment. -/
theorem sent_as_named (rawRepo rawTag : String) :
    ((∃ name, TagName.ofRaw rawRepo rawTag = .ok name) ↔
      (∃ nameSpace, Grammar.Repository nameSpace (Text.trim rawRepo)) ∧
        Grammar.Tag (Text.trim rawTag)) ∧
    ∀ name, TagName.ofRaw rawRepo rawTag = .ok name →
      (name.repository.repo = Text.trim rawRepo ∧ name.tag = Text.trim rawTag ∧
        Grammar.Repository name.repository.nameSpace name.repository.repo) ∧
      TagName.ofRaw name.repository.repo name.tag = .ok name ∧
      ∀ text root window, Url.parse text = .ok root → root.render = text → root.isHttp = true →
        root.query = none → root.fragment = none →
        ∃ url, (∀ method headers, (Client.ofText text window).call? method
            (Client.manifestPath name.repository.repo name.tag) headers =
              some ⟨.follow, .make method url headers []⟩) ∧
          url.scheme = root.scheme ∧ url.authority = root.authority ∧
          url.pathText = Text.trimEnd '/' root.pathText ++ "/v2/" ++ name.repository.repo ++
            "/manifests/" ++ name.tag ∧
          url.query = none ∧ url.fragment = none := by
  constructor
  · constructor
    · rintro ⟨name, hname⟩
      obtain ⟨htag, hisTag, hrepo, hin⟩ := ofRaw_eq_ok_iff.1 hname
      rw [htag, isTag_iff] at hisTag
      rw [hrepo, repositoryIn_iff] at hin
      exact ⟨⟨_, hin⟩, hisTag⟩
    · rintro ⟨⟨nameSpace, hrepo⟩, htag⟩
      exact ⟨⟨⟨Text.trim rawRepo, nameSpace⟩, Text.trim rawTag⟩,
        ofRaw_eq_ok_iff.2 ⟨rfl, isTag_iff.2 htag, rfl, repositoryIn_iff.2 hrepo⟩⟩
  · intro name hname
    obtain ⟨htag, hisTag, hrepo, hin⟩ := ofRaw_eq_ok_iff.1 hname
    refine ⟨⟨hrepo, htag, repositoryIn_iff.1 hin⟩, ?_, ?_⟩
    · refine ofRaw_eq_ok_iff.2 ⟨?_, hisTag, ?_, hin⟩
      · rw [htag, Text.trim_trim]
      · rw [hrepo, Text.trim_trim]
    · intro text root window hroot hnormal hhttp hquery hfragment
      have hmanifest : isRepository (Client.manifestPath name.repository.repo name.tag) = true := by
        obtain ⟨rest, hpath, hrest⟩ := exists_eq_append_of_named hisTag
          (show Client.manifestPath name.repository.repo name.tag ∈
            [Client.tagsPath name.repository.repo, _] from
              List.mem_cons_of_mem _ List.mem_cons_self)
        rw [hpath, isRepository_append, hin.1, hrest]
        rfl
      obtain ⟨url, hread, hscheme, hauthority, htext, hsent⟩ :=
        sent_below hroot hnormal hhttp hquery hfragment window hmanifest
      have hurl : url.isHttp = true := by
        rw [Url.isHttp, hscheme]
        exact hhttp
      refine ⟨url, fun method headers => ?_, hscheme, hauthority, ?_, hsent⟩
      · rw [Client.call?, hread]
        exact if_pos hurl
      · rw [htext, Client.manifestPath]
        simp only [String.append_assoc]

/-- Names with blanks around them, below a base with slashes at its end. -/
theorem sent_as_named_with_blanks :
    let text := "https://gate@registry:5000/mirror%20one//"
    let root : Url := {
      scheme := "https".toList
      authority := some ⟨"gate".toList, [], .name "registry".toList, some 5000⟩
      path := .segments ["mirror%20one".toList, [], []]
      query := none
      fragment := none }
    Url.parse text = .ok root ∧ root.render = text ∧
      TagName.ofRaw "\u00a0team1/..a/app " "\tv1.2_\n" =
        .ok ⟨⟨"team1/..a/app", "team1"⟩, "v1.2_"⟩ ∧
      ∃ url, (Client.ofText text 1).call? .get (Client.manifestPath "team1/..a/app" "v1.2_") [] =
          some ⟨.follow, .make .get url [] []⟩ ∧
        url.pathText = "/mirror%20one/v2/team1/..a/app/manifests/v1.2_" := by
  intro text root
  have hroot : Url.parse text = .ok root := by decide +kernel
  have hnormal : root.render = text := by decide +kernel
  have hname : TagName.ofRaw "\u00a0team1/..a/app " "\tv1.2_\n" =
      .ok ⟨⟨"team1/..a/app", "team1"⟩, "v1.2_"⟩ := by decide +kernel
  obtain ⟨-, htaken⟩ := sent_as_named "\u00a0team1/..a/app " "\tv1.2_\n"
  obtain ⟨-, -, hsent⟩ := htaken _ hname
  obtain ⟨url, hcall, -, -, hpath, -⟩ := hsent text root 1 hroot hnormal rfl rfl rfl
  exact ⟨hroot, hnormal, hname, url, hcall .get [], hpath.trans (by decide +kernel)⟩

end Api

end ImageGateway
