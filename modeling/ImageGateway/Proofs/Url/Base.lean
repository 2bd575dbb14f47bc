import ImageGateway.Proofs.Except
import ImageGateway.Proofs.Text.Cut
import ImageGateway.Proofs.Url.Segments
import ImageGateway.Url.Parser
import Mathlib.Data.List.DropRight

/-!
# URLs below a base

A path is put behind the text of a base URL, and the whole is read as one URL.  The reader knows
nothing of the seam: it cleans the whole text, cuts it at the first `?` or `#`, and resolves the dot
segments of both parts together.  Still the reading can be told part by part, since a slash stands
at the seam, which no step of the reader takes away.

* `clean_append` : cleaning stops at the seam from both sides.
* `parts_of_parseChars` : what the reader makes of a text.
* `path_below` : **the segments below a base are those of the base and then the pieces of what was
  put behind it**, resolved together.
* `path_below_of_marked` : behind a base with a `?` or `#` in it, a path is no part of the path.
-/

namespace ImageGateway

namespace Url

open Text (dropWhile_append rdropWhile_append)
open UrlPath (SlashFree isPlain keeps)

/-! ### Cleaning -/

/-- A space or a control character. -/
def isBlank (c : Char) : Bool := decide (c.toNat ≤ 0x20)

theorem isBlank_of_any {s : List Char} (h : s.any isBlank = false) :
    ∀ c ∈ s, isBlank c = false := by
  simpa using h

/-- The text without tabs and line ends. -/
def unwrapped (s : List Char) : List Char := s.filter fun c => c != '\t' && c != '\n' && c != '\r'

/-- A text as it is cleaned in front of other text. -/
def opening (s : List Char) : List Char := unwrapped (s.dropWhile isBlank)

/-- A text as it is cleaned behind other text. -/
def tidy (s : List Char) : List Char := unwrapped (s.rdropWhile isBlank)

theorem clean_eq (s : List Char) : clean s = unwrapped ((s.dropWhile isBlank).rdropWhile isBlank) :=
  rfl

theorem unwrapped_append (s t : List Char) : unwrapped (s ++ t) = unwrapped s ++ unwrapped t :=
  List.filter_append ..

theorem mem_unwrapped_iff {c : Char} {s : List Char} (h : isBlank c = false) :
    c ∈ unwrapped s ↔ c ∈ s := by
  rw [unwrapped, List.mem_filter, and_iff_left_iff_imp]
  have hne (d : Char) (hd : isBlank d = true) : (c != d) = true := by
    rw [bne_iff_ne]
    rintro rfl
    rw [h] at hd
    cases hd
  exact fun _ => by rw [hne '\t' rfl, hne '\n' rfl, hne '\r' rfl]; rfl

theorem unwrapped_cons {c : Char} (h : isBlank c = false) (s : List Char) :
    unwrapped (c :: s) = c :: unwrapped s := by
  have hc : c ∈ unwrapped [c] := (mem_unwrapped_iff h).2 List.mem_cons_self
  rw [← List.singleton_append, unwrapped_append, unwrapped, List.filter_eq_self.2]
  · rfl
  · rintro d hd
    obtain rfl := List.mem_singleton.1 hd
    exact (List.mem_filter.1 hc).2

/-- **Cleaning stops at a character that stays, from both sides.** -/
theorem clean_append {c : Char} (h : isBlank c = false) (t s : List Char) :
    clean (t ++ c :: s) = opening t ++ c :: tidy s := by
  rw [clean_eq, dropWhile_append h, rdropWhile_append h, unwrapped_append, unwrapped_cons h]
  rfl

theorem opening_append {c : Char} (h : isBlank c = false) (t s : List Char) :
    opening (t ++ c :: s) = opening t ++ c :: unwrapped s := by
  rw [opening, dropWhile_append h, unwrapped_append, unwrapped_cons h]
  rfl

theorem unwrapped_eq_self {s : List Char} (h : ∀ c ∈ s, isBlank c = false) : unwrapped s = s := by
  induction s with
  | nil => rfl
  | cons c s ih =>
    rw [List.forall_mem_cons] at h
    rw [unwrapped_cons h.1, ih h.2]

theorem tidy_append {c : Char} (h : isBlank c = false) {t : List Char}
    (ht : ∀ d ∈ t, isBlank d = false) (s : List Char) : tidy (t ++ c :: s) = t ++ c :: tidy s := by
  rw [tidy, rdropWhile_append h, unwrapped_append, unwrapped_cons h,
    unwrapped_eq_self ht]
  rfl

/-- At the end of the whole text, blanks are lost besides. -/
theorem opening_eq (t : List Char) :
    ∃ blanks, (∀ c ∈ blanks, isBlank c = true) ∧ opening t = clean t ++ blanks := by
  refine ⟨unwrapped ((t.dropWhile isBlank).rtakeWhile isBlank), fun c hc => ?_, ?_⟩
  · exact List.mem_rtakeWhile_imp (List.mem_of_mem_filter hc)
  · rw [clean_eq, ← unwrapped_append, List.rdropWhile_append_rtakeWhile]
    rfl

theorem mem_opening_iff {c : Char} (h : isBlank c = false) {t : List Char} :
    c ∈ opening t ↔ c ∈ t := by
  rw [opening, mem_unwrapped_iff h]
  constructor
  · exact fun hc => (List.dropWhile_suffix isBlank).subset hc
  · intro hc
    rw [← List.takeWhile_append_dropWhile (p := isBlank) (l := t), List.mem_append] at hc
    rcases hc with hc | hc
    · rw [List.mem_takeWhile_imp hc] at h
      cases h
    · exact hc

/-! ### The scheme -/

theorem takeWhile_dropWhile_append {α : Type} {p : α → Bool} {t : List α} (s : List α)
    (h : t.dropWhile p ≠ []) :
    (t ++ s).takeWhile p = t.takeWhile p ∧ (t ++ s).dropWhile p = t.dropWhile p ++ s := by
  induction t with
  | nil => exact absurd rfl h
  | cons a t ih =>
    by_cases ha : p a = true
    · rw [List.dropWhile_cons_of_pos ha] at h
      simp [ha, ih h]
    · simp [ha]

theorem cutScheme?_eq_some {t scheme rest : List Char} (h : cutScheme? t = some (scheme, rest)) :
    ∃ name, t = name ++ ':' :: rest ∧ ∀ c ∈ name, isSchemeChar c = true := by
  unfold cutScheme? at h
  split at h
  · rename_i c name rest' htake hdrop
    split_ifs at h
    cases h
    refine ⟨t.takeWhile isSchemeChar, ?_, fun c => List.mem_takeWhile_imp⟩
    rw [← hdrop, List.takeWhile_append_dropWhile]
  · cases h

theorem cutScheme?_append {t : List Char} (s : List Char) (h : t.dropWhile isSchemeChar ≠ []) :
    cutScheme? (t ++ s) = (cutScheme? t).map fun parts => (parts.1, parts.2 ++ s) := by
  obtain ⟨htake, hdrop⟩ := takeWhile_dropWhile_append s h
  obtain ⟨d, ds, hds⟩ := List.exists_cons_of_ne_nil h
  unfold cutScheme?
  rw [htake, hdrop, hds, List.cons_append]
  cases t.takeWhile isSchemeChar with
  | nil => simp
  | cons c name =>
    by_cases hcolon : d = ':'
    · subst hcolon
      by_cases hc : c.isAlpha = true <;> simp [hc]
    · split
      · rename_i heq
        exact absurd (List.cons.inj heq).1 hcolon
      · simp [hcolon]

theorem cutScheme?_append_of_some {t scheme rest : List Char} (s : List Char)
    (h : cutScheme? t = some (scheme, rest)) : cutScheme? (t ++ s) = some (scheme, rest ++ s) := by
  rw [cutScheme?_append, h]
  · rfl
  · obtain ⟨name, rfl, hname⟩ := cutScheme?_eq_some h
    rw [List.dropWhile_append_of_pos hname, List.dropWhile_cons_of_neg (by decide)]
    exact List.cons_ne_nil _ _

/-- A scheme ends in front of the first slash. -/
theorem cutScheme?_append_slash (t s : List Char) : cutScheme? (t ++ '/' :: s) =
    (cutScheme? t).map fun parts => (parts.1, parts.2 ++ '/' :: s) := by
  by_cases h : t.dropWhile isSchemeChar = []
  -- all of `t` could be a scheme, and the slash is no colon
  · have hdrop : (t ++ '/' :: s).dropWhile isSchemeChar = '/' :: s := by
      rw [List.dropWhile_append_of_pos (List.dropWhile_eq_nil_iff.1 h),
        List.dropWhile_cons_of_neg (by decide)]
    simp [cutScheme?, h, hdrop]
  · exact cutScheme?_append _ h

/-! ### The front -/

/-- A character that ends neither authority nor path. -/
def isFront (c : Char) : Bool := c != '?' && c != '#'

theorem cutMark_fst (mark : Char) (s : List Char) :
    (cutMark mark s).1 = s.takeWhile (· != mark) := by
  unfold cutMark
  split
  · rename_i h
    rw [List.takeWhile_eq_self_iff.2 (List.dropWhile_eq_nil_iff.1 h)]
  · rfl

/-- Authority and path end at the first `?` or `#`. -/
theorem Tail.ofChars_front (s : List Char) : (Tail.ofChars s).front = s.takeWhile isFront := by
  simp only [Tail.ofChars, cutMark_fst, List.takeWhile_takeWhile]
  refine congrArg (List.takeWhile · s) (funext fun c => ?_)
  rw [Bool.eq_iff_iff]
  simp [isFront]

theorem takeWhile_append_of_mem {α : Type} {p : α → Bool} {a : α} {x : List α} (y : List α)
    (ha : a ∈ x) (h : p a = false) : (x ++ y).takeWhile p = x.takeWhile p := by
  refine (takeWhile_dropWhile_append y fun hdrop => ?_).1
  rw [List.dropWhile_eq_nil_iff.1 hdrop a ha] at h
  cases h

theorem mem_takeWhile_append {α : Type} {p : α → Bool} {a : α} (x : List α) {y : List α} :
    (a ∈ x.takeWhile p → a ∈ (x ++ y).takeWhile p) ∧
      (a ∈ (x ++ y).takeWhile p → a ∈ x.takeWhile p ∨ a ∈ y) := by
  rw [List.takeWhile_append]
  split_ifs with hall
  · rw [(List.takeWhile_prefix p).eq_of_length hall]
    exact ⟨fun ha => List.mem_append_left _ ha, fun ha =>
      (List.mem_append.1 ha).imp_right fun ha => (List.takeWhile_prefix p).subset ha⟩
  · exact ⟨id, .inl⟩

/-- What stands behind the authority. -/
def afterAuthority (front : List Char) : List Char :=
  (front.dropWhile isSlash).dropWhile (!isSlash ·)

/-- The pieces of the path, in the text behind the colon of a scheme. -/
def pathPieces (rest : List Char) : List (List Char) :=
  segmentsOf isSlash (afterAuthority (rest.takeWhile isFront))

/-- The text behind the colon of a scheme names an authority. -/
def HasAuthority (rest : List Char) : Prop := ∃ c ∈ rest.takeWhile isFront, isSlash c = false

theorem dropWhile_ne_nil_of_hasAuthority {rest : List Char} (h : HasAuthority rest) :
    rest.dropWhile isSlash ≠ [] := by
  obtain ⟨c, hc, hslash⟩ := h
  intro hnil
  rw [List.dropWhile_eq_nil_iff.1 hnil c ((List.takeWhile_prefix _).subset hc)] at hslash
  cases hslash

theorem ofServerText_nil {scheme : List Char} {tail : Tail} (h : isServerScheme scheme = true) :
    ofServerText scheme tail [] = .error .emptyHost := by
  have : authorityOf scheme [] = .error .emptyHost := by
    simp [authorityOf, cutLastAt, Text.cutWhere, authorityWith, cutHost, hostOf, h, bind,
      Except.bind]
  rw [ofServerText, List.takeWhile_nil, this]
  rfl

theorem ofServerText_path {scheme text : List Char} {tail : Tail} {url : Url}
    (h : ofServerText scheme tail text = .ok url) : url.scheme = scheme ∧
      url.path =
        .segments (UrlPath.ofSegments (segmentsOf isSlash (text.dropWhile (!isSlash ·)))) := by
  obtain ⟨a, -, hurl⟩ := bind_eq_ok_iff.1 h
  rw [← Except.ok.inj hurl]
  exact ⟨rfl, rfl⟩

theorem ofScheme_scheme {scheme rest : List Char} {url : Url} (h : ofScheme scheme rest = .ok url) :
    url.scheme = scheme := by
  unfold ofScheme at h
  dsimp only at h
  split_ifs at h
  · exact (ofServerText_path h).1
  · obtain ⟨parts, -, hurl⟩ := bind_eq_ok_iff.1 h
    rw [← Except.ok.inj hurl]
  · obtain ⟨parts, -, hurl⟩ := bind_eq_ok_iff.1 h
    rw [← Except.ok.inj hurl]

theorem isServerScheme_of_isHttp {url : Url} (h : url.isHttp = true) :
    isServerScheme url.scheme = true := by
  simp only [isHttp, Bool.or_eq_true, beq_iff_eq] at h
  rcases h with h | h <;> rw [h] <;> decide

/-- **What the reader makes of a text**: behind the scheme, where that is one for HTTP, an authority
and then the pieces of the path. -/
theorem parts_of_parseChars {s : List Char} {url : Url} (h : parseChars s = .ok url) :
    ∃ rest, cutScheme? (clean s) = some (url.scheme, rest) ∧ (url.isHttp = true →
      HasAuthority rest ∧ url.path = .segments (UrlPath.ofSegments (pathPieces rest))) := by
  unfold parseChars at h
  split at h
  · rename_i scheme rest hcut
    obtain rfl := ofScheme_scheme h
    refine ⟨rest, hcut, fun hhttp => ?_⟩
    have hserver := isServerScheme_of_isHttp hhttp
    simp only [ofScheme, hserver, if_true, Tail.ofChars_front] at h
    refine ⟨?_, (ofServerText_path h).2⟩
    by_contra hnone
    -- nothing but slashes: the reader finds no host
    have hempty : (rest.takeWhile isFront).dropWhile isSlash = [] := by
      rw [List.dropWhile_eq_nil_iff]
      intro c hc
      by_contra hslash
      exact hnone ⟨c, hc, by simpa using hslash⟩
    rw [hempty, ofServerText_nil hserver] at h
    cases h
  · cases h

/-! ### The seam -/

/-- The text has a `?` or a `#` in it. -/
def Marked (t : List Char) : Prop := ∃ c ∈ t, isFront c = false

instance (t : List Char) : Decidable (Marked t) := inferInstanceAs (Decidable (∃ c ∈ t, _))

theorem not_marked_iff {t : List Char} : ¬ Marked t ↔ ∀ c ∈ t, isFront c = true := by
  simp [Marked]

/-- The pieces of a path that goes on with a slash. -/
def openPieces : List Char → List (List Char)
  | [] => []
  | _ :: path => path.splitOnP isSlash

/-- The path of a base, as it is written. -/
def basePath (t : List Char) : List Char :=
  match cutScheme? (opening t) with
  | none => []
  | some (_, rest) => afterAuthority rest

/-- The pieces of the path of a base. -/
def basePieces (t : List Char) : List (List Char) := openPieces (basePath t)

/-- The pieces of a text that is put behind a base. -/
def pieces (s : List Char) : List (List Char) := ((tidy s).takeWhile isFront).splitOnP isSlash

theorem slashFree_pieces (s : List Char) : SlashFree (pieces s) :=
  fun _ hp hslash => nomatch UrlPath.eq_false_of_mem_splitOnP hp '/' hslash

theorem slashFree_openPieces (path : List Char) : SlashFree (openPieces path) := by
  cases path with
  | nil => exact fun _ hp => nomatch hp
  | cons c path => exact fun _ hp hslash => nomatch UrlPath.eq_false_of_mem_splitOnP hp '/' hslash

/-- A segment in front of a slash is a piece of its own. -/
theorem pieces_append_slash {name : List Char}
    (h : ∀ c ∈ name, isBlank c = false ∧ isFront c = true ∧ isSlash c = false) (s : List Char) :
    pieces (name ++ '/' :: s) = name :: pieces s := by
  rw [pieces, tidy_append (by rfl) fun c hc => (h c hc).1,
    List.takeWhile_append_of_pos fun c hc => (h c hc).2.1, List.takeWhile_cons_of_pos (by decide),
    List.splitOnP_append_cons_of_forall_mem (fun c hc => (h c hc).2.2) '/' (by rfl)]
  rfl

theorem isBlank_of_isFront {c : Char} (h : isFront c = false) : isBlank c = false := by
  simp only [isFront, Bool.and_eq_false_iff, bne_eq_false_iff_eq] at h
  rcases h with rfl | rfl <;> rfl

theorem isFront_of_isSchemeChar {c : Char} (h : isSchemeChar c = true) : isFront c = true := by
  rw [← Bool.not_eq_false]
  intro hmark
  simp only [isFront, Bool.and_eq_false_iff, bne_eq_false_iff_eq] at hmark
  rcases hmark with rfl | rfl <;> cases h

/-- The marks of a base stand behind its scheme. -/
theorem marked_iff {t scheme rest : List Char} (h : cutScheme? (opening t) = some (scheme, rest)) :
    Marked t ↔ Marked rest := by
  obtain ⟨name, hname, hscheme⟩ := cutScheme?_eq_some h
  refine exists_congr fun c => and_congr_left fun hc => ?_
  rw [← mem_opening_iff (isBlank_of_isFront hc), hname, List.mem_append, List.mem_cons]
  constructor
  · rintro (hmem | rfl | hmem)
    · rw [isFront_of_isSchemeChar (hscheme c hmem)] at hc
      cases hc
    · cases hc
    · exact hmem
  · exact fun hmem => .inr (.inr hmem)

theorem pathPieces_append_of_marked {rest : List Char} (s : List Char) (h : Marked rest) :
    pathPieces (rest ++ s) = pathPieces rest := by
  obtain ⟨c, hc, hmark⟩ := h
  rw [pathPieces, pathPieces, takeWhile_append_of_mem s hc hmark]

theorem segmentsOf_append_slash (path s : List Char) :
    segmentsOf isSlash (path ++ '/' :: s) = openPieces path ++ s.splitOnP isSlash := by
  cases path with
  | nil => rfl
  | cons c path => exact List.splitOnP_append_cons path s (by rfl)

/-- A path without text has an empty segment in it. -/
theorem segmentsOf_eq (path : List Char) :
    ∃ j, segmentsOf isSlash path = openPieces path ++ List.replicate j [] := by
  cases path with
  | nil => exact ⟨1, rfl⟩
  | cons c path => exact ⟨0, (List.append_nil _).symm⟩

/-- Where there is an authority, a slash behind it belongs to the path. -/
theorem afterAuthority_append_slash {rest : List Char} (s : List Char)
    (h : rest.dropWhile isSlash ≠ []) :
    afterAuthority (rest ++ '/' :: s) = afterAuthority rest ++ '/' :: s := by
  rw [afterAuthority, afterAuthority, (takeWhile_dropWhile_append _ h).2, List.dropWhile_append]
  split_ifs with hnil
  · rw [List.isEmpty_iff.1 hnil]
    rfl
  · rfl

variable {t s : List Char} {k : Nat} {root url : Url}

/-- What stands in front of the seam, as far as the base itself tells. -/
theorem parts_of_base (hroot : parseChars (t ++ List.replicate k '/') = .ok root) :
    ∃ rest, cutScheme? (opening t) = some (root.scheme, rest) ∧ (root.isHttp = true →
      HasAuthority rest ∧
        (Marked t → root.path = .segments (UrlPath.ofSegments (pathPieces rest)))) := by
  obtain ⟨rest', hcut, hparts⟩ := parts_of_parseChars hroot
  cases k with
  | zero =>
    -- the reader has cleaned blanks away that stay in front of the seam
    obtain ⟨blanks, hblanks, hopening⟩ := opening_eq t
    rw [List.replicate_zero, List.append_nil] at hcut
    have hcut' := cutScheme?_append_of_some blanks hcut
    rw [← hopening] at hcut'
    refine ⟨rest' ++ blanks, hcut', fun hhttp => ?_⟩
    obtain ⟨⟨c, hc, hslash⟩, hpath⟩ := hparts hhttp
    refine ⟨⟨c, (mem_takeWhile_append rest').1 hc, hslash⟩, fun hmarked => ?_⟩
    obtain ⟨d, hd, hmark⟩ := (marked_iff hcut').1 hmarked
    rcases List.mem_append.1 hd with hd | hd
    · rw [hpath, pathPieces_append_of_marked blanks ⟨d, hd, hmark⟩]
    · have := hblanks d hd
      rw [isBlank_of_isFront hmark] at this
      cases this
  | succ k =>
    rw [List.replicate_succ, clean_append (by rfl), cutScheme?_append_slash] at hcut
    obtain ⟨⟨scheme, rest⟩, hcut', heq⟩ := Option.map_eq_some_iff.1 hcut
    obtain ⟨rfl, rfl⟩ := Prod.mk.inj heq
    refine ⟨rest, hcut', fun hhttp => ?_⟩
    obtain ⟨⟨c, hc, hslash⟩, hpath⟩ := hparts hhttp
    refine ⟨⟨c, ?_, hslash⟩, fun hmarked => ?_⟩
    · -- the slashes at the end of the base name no authority
      refine ((mem_takeWhile_append rest).2 hc).resolve_right fun hslashes => ?_
      have hone : ∀ d ∈ tidy (List.replicate k '/'), d = '/' := fun d hd =>
        List.eq_of_mem_replicate (List.rdropWhile_prefix _ _ |>.subset (List.mem_of_mem_filter hd))
      rcases List.mem_cons.1 hslashes with rfl | hslashes
      · cases hslash
      · rw [hone c hslashes] at hslash
        cases hslash
    · rw [hpath, pathPieces_append_of_marked _ ((marked_iff hcut').1 hmarked)]

/-- A URL below a base has the scheme of the base. -/
theorem scheme_of_below (hroot : parseChars (t ++ List.replicate k '/') = .ok root)
    (hurl : parseChars (t ++ '/' :: s) = .ok url) : url.scheme = root.scheme := by
  obtain ⟨rest, hcut, -⟩ := parts_of_base hroot
  obtain ⟨rest', hcut', -⟩ := parts_of_parseChars hurl
  rw [clean_append (by rfl), cutScheme?_append_slash, hcut] at hcut'
  exact (Prod.mk.inj (Option.some.inj hcut')).1.symm

theorem isHttp_of_below (hroot : parseChars (t ++ List.replicate k '/') = .ok root)
    (hurl : parseChars (t ++ '/' :: s) = .ok url) (hhttp : url.isHttp = true) :
    root.isHttp = true := by
  rwa [isHttp, ← scheme_of_below hroot hurl]

/-- Both sides of the seam together. -/
theorem parts_of_below (hroot : parseChars (t ++ List.replicate k '/') = .ok root)
    (hurl : parseChars (t ++ '/' :: s) = .ok url) (hhttp : url.isHttp = true) :
    ∃ rest, cutScheme? (opening t) = some (root.scheme, rest) ∧ HasAuthority rest ∧
      (Marked t → root.path = .segments (UrlPath.ofSegments (pathPieces rest))) ∧
      url.path = .segments (UrlPath.ofSegments (pathPieces (rest ++ '/' :: tidy s))) := by
  obtain ⟨rest, hcut, hbase⟩ := parts_of_base hroot
  obtain ⟨hauthority, hpath⟩ := hbase (isHttp_of_below hroot hurl hhttp)
  obtain ⟨rest', hcut', hparts⟩ := parts_of_parseChars hurl
  rw [clean_append (by rfl), cutScheme?_append_slash, hcut] at hcut'
  obtain ⟨-, rfl⟩ := Prod.mk.inj (Option.some.inj hcut')
  exact ⟨rest, hcut, hauthority, hpath, (hparts hhttp).2⟩

/-- A `?` or `#` in the base takes all that is put behind it out of the path. -/
theorem path_below_of_marked (hroot : parseChars (t ++ List.replicate k '/') = .ok root)
    (hurl : parseChars (t ++ '/' :: s) = .ok url) (hhttp : url.isHttp = true) (ht : Marked t) :
    url.path = root.path := by
  obtain ⟨rest, hcut, -, hpath, hpath'⟩ := parts_of_below hroot hurl hhttp
  rw [hpath', hpath ht, pathPieces_append_of_marked _ ((marked_iff hcut).1 ht)]

/-- **The segments below a base** are those of the base and then the pieces of what was put behind
it, resolved together. -/
theorem path_below (hroot : parseChars (t ++ List.replicate k '/') = .ok root)
    (hurl : parseChars (t ++ '/' :: s) = .ok url) (hhttp : url.isHttp = true) (ht : ¬ Marked t) :
    url.path = .segments (UrlPath.ofSegments (basePieces t ++ pieces s)) := by
  obtain ⟨rest, hcut, hauthority, -, hpath⟩ := parts_of_below hroot hurl hhttp
  -- all of the base is front, and its authority ends before the seam
  have hfront := not_marked_iff.1 (mt (marked_iff hcut).2 ht)
  rw [hpath, pathPieces, List.takeWhile_append_of_pos hfront,
    List.takeWhile_cons_of_pos (by decide),
    afterAuthority_append_slash _ (dropWhile_ne_nil_of_hasAuthority hauthority),
    segmentsOf_append_slash, basePieces, basePath, hcut]
  rfl

/-! ### Plain texts -/

/-- The reader takes the text as it is written: there is nothing to clean, to cut or to resolve. -/
structure PlainText (s : List Char) : Prop where
  chars : ∀ c ∈ s, isBlank c = false ∧ isFront c = true ∧ c ≠ '\\'
  segments : ∀ segment ∈ s.splitOn '/', isPlain segment = true

namespace PlainText

theorem unwrapped_eq (hs : PlainText s) : unwrapped s = s :=
  unwrapped_eq_self fun c hc => (hs.chars c hc).1

theorem dropWhile_eq (hs : PlainText s) : s.dropWhile isBlank = s := by
  cases s with
  | nil => rfl
  | cons c s => exact List.dropWhile_cons_of_neg (by simp [(hs.chars c List.mem_cons_self).1])

theorem opening_eq (hs : PlainText s) : opening s = s := by
  rw [opening, hs.dropWhile_eq, hs.unwrapped_eq]

theorem tidy_eq (hs : PlainText s) : tidy s = s := by
  rw [tidy, List.rdropWhile_eq_self_iff.2, hs.unwrapped_eq]
  intro hne
  simp [(hs.chars _ (List.getLast_mem hne)).1]

theorem clean_eq (hs : PlainText s) : clean s = s := by
  rw [Url.clean_eq, hs.dropWhile_eq]
  exact hs.tidy_eq

theorem takeWhile_eq (hs : PlainText s) : s.takeWhile isFront = s :=
  List.takeWhile_eq_self_iff.2 fun c hc => (hs.chars c hc).2.1

theorem splitOnP_eq {l : List Char} (h : ∀ c ∈ l, c ≠ '\\') :
    l.splitOnP isSlash = l.splitOn '/' := by
  rw [List.splitOn_eq_splitOnP]
  induction l with
  | nil => rfl
  | cons c l ih =>
    rw [List.forall_mem_cons] at h
    have hc : isSlash c = (c == '/') := by simp [isSlash, h.1]
    rw [List.splitOnP_cons_eq_if_modifyHead, List.splitOnP_cons_eq_if_modifyHead, ih h.2, hc]

theorem pieces_eq (hs : PlainText s) : pieces s = s.splitOn '/' := by
  rw [pieces, hs.tidy_eq, hs.takeWhile_eq, splitOnP_eq fun c hc => (hs.chars c hc).2.2]

theorem not_marked (hs : PlainText s) : ¬ Marked s :=
  not_marked_iff.2 fun c hc => (hs.chars c hc).2.1

/-- The path of a plain base is its end. -/
theorem basePath_suffix (ht : PlainText t) : basePath t <:+ t := by
  unfold basePath
  rw [ht.opening_eq]
  split
  · exact List.nil_suffix
  · rename_i rest hcut
    obtain ⟨name, hname, -⟩ := cutScheme?_eq_some hcut
    refine ((List.dropWhile_suffix _).trans (List.dropWhile_suffix _)).trans ?_
    exact ⟨name ++ [':'], by rw [hname]; simp⟩

theorem eq_slash_of_mem_head? (ht : PlainText t) : ∀ c ∈ (basePath t).head?, c = '/' := by
  intro c hc
  have hslash : isSlash c = true := by
    unfold basePath at hc
    split at hc
    · cases hc
    · rename_i rest _
      have hstop := List.head?_dropWhile_not (!isSlash ·) (rest.dropWhile isSlash)
      rw [afterAuthority, Option.mem_def] at hc
      rw [hc] at hstop
      simpa using hstop
  have hbackslash := (ht.chars c (ht.basePath_suffix.subset (List.mem_of_mem_head? hc))).2.2
  simpa [isSlash, hbackslash] using hslash

/-- The pieces of a plain base are the segments of its path. -/
theorem basePieces_eq (ht : PlainText t) : SlashFree (basePieces t) ∧
    (UrlPath.segments (basePieces t)).render = basePath t ∧
    ∀ p ∈ basePieces t, isPlain p = true := by
  have hsuffix := ht.basePath_suffix
  have hhead := ht.eq_slash_of_mem_head?
  refine ⟨slashFree_openPieces _, ?_⟩
  unfold basePieces
  cases hpath : basePath t with
  | nil => exact ⟨rfl, fun _ hp => nomatch hp⟩
  | cons c path =>
    rw [hpath] at hsuffix hhead
    obtain rfl : c = '/' := hhead c rfl
    obtain ⟨front, hfront⟩ := hsuffix
    have hsplit : path.splitOnP isSlash = path.splitOn '/' := splitOnP_eq fun c hc =>
      (ht.chars c (by rw [← hfront]; simp [hc])).2.2
    rw [openPieces, hsplit, UrlPath.render_splitOn]
    refine ⟨rfl, fun p hp => ht.segments p ?_⟩
    rw [← hfront, List.splitOn_append_cons_self]
    exact List.mem_append_right _ hp

end PlainText

theorem isPlain_nil : isPlain [] = true := by decide

theorem pieces_replicate (k : Nat) :
    pieces (List.replicate k '/') = List.replicate (k + 1) [] := by
  induction k with
  | zero => rfl
  | succ k ih =>
    rw [List.replicate_succ, List.replicate_succ, ← ih]
    exact @pieces_append_slash [] (fun _ hc => nomatch hc) (List.replicate k '/')

/-- The path of a plain base is sent as it is written, but for slashes at its end. -/
theorem path_of_plain (hroot : parseChars (t ++ List.replicate k '/') = .ok root)
    (hhttp : root.isHttp = true) (ht : PlainText t) :
    ∃ j, root.path =
      .segments ((basePieces t).map (Percent.encode keeps) ++ List.replicate j []) := by
  obtain ⟨-, -, hplain⟩ := ht.basePieces_eq
  have hsegments (j : Nat) : UrlPath.ofSegments (basePieces t ++ List.replicate j []) =
      (basePieces t).map (Percent.encode keeps) ++ List.replicate j [] := by
    have hall : ∀ p ∈ basePieces t ++ List.replicate j [], isPlain p = true := by
      intro p hp
      rcases List.mem_append.1 hp with hp | hp
      · exact hplain p hp
      · rw [List.eq_of_mem_replicate hp, isPlain_nil]
    rw [UrlPath.ofSegments, UrlPath.resolve_eq_self hall, List.map_append, List.map_replicate]
    rfl
  cases k with
  | zero =>
    rw [List.replicate_zero, List.append_nil] at hroot
    obtain ⟨rest, hcut, hparts⟩ := parts_of_parseChars hroot
    obtain ⟨-, hpath⟩ := hparts hhttp
    rw [ht.clean_eq] at hcut
    obtain ⟨name, hname, -⟩ := cutScheme?_eq_some hcut
    have hfront : rest.takeWhile isFront = rest := List.takeWhile_eq_self_iff.2 fun c hc =>
      (ht.chars c (by rw [hname]; simp [hc])).2.1
    have hbase : basePath t = afterAuthority rest := by rw [basePath, ht.opening_eq, hcut]
    obtain ⟨j, hj⟩ := segmentsOf_eq (basePath t)
    refine ⟨j, ?_⟩
    rw [hpath, pathPieces, hfront, ← hbase, hj]
    exact congrArg UrlPath.segments (hsegments j)
  | succ k =>
    refine ⟨k + 1, ?_⟩
    rw [path_below hroot hroot hhttp ht.not_marked, pieces_replicate, hsegments]

/-- What is left of it without these slashes. -/
theorem pathText_of_plain (hroot : parseChars (t ++ List.replicate k '/') = .ok root)
    (hhttp : root.isHttp = true) (ht : PlainText t) (hlast : t.getLast? ≠ some '/') :
    (Text.trimEnd '/' root.pathText).toList =
      (UrlPath.segments ((basePieces t).map (Percent.encode keeps))).render := by
  obtain ⟨-, hrender, -⟩ := ht.basePieces_eq
  obtain ⟨j, hpath⟩ := path_of_plain hroot hhttp ht
  have hend : (Percent.encode keeps (basePath t)).getLast? ≠ some '/' := by
    refine UrlPath.getLast?_encode_ne fun h => hlast ?_
    obtain ⟨front, hfront⟩ := ht.basePath_suffix
    rw [← hfront, List.getLast?_append, h]
    rfl
  rw [Text.trimEnd_toList, pathText, String.toList_ofList, hpath, UrlPath.render_append,
    UrlPath.render_replicate, UrlPath.render_map_encode, hrender,
    Text.rdropWhile_append_replicate hend]

end Url

end ImageGateway
