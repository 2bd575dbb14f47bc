import ImageGateway.Proofs.Access.Gate
import ImageGateway.Proofs.Codec.Percent
import ImageGateway.Proofs.Url.Segments

/-!
# What a registry reads in a path that the gate allows

A registry percent-decodes the path before it splits it, while the gate splits the path as it is
written.  The gate denies exactly those segments that are read as dot segments, whatever the mix of
plain and encoded full stops.  What it does not see is a slash that is written as a triple: such a
segment is one segment for the gate and for the URL parser, and several for the registry.

* `isDotSegment_iff` : **the gate denies the segments that are read as dot segments.**
* `hasDots_decodeText_iff` : a dot segment of the decoded path comes from one segment of the path.
* `decoded_of_authorize` : **what is read in a path that is allowed**: it lies in the namespace, and
  a dot segment can only stand in it where a segment has a slash encoded in it.
* `not_forall_decoded` : this happens, and the namespace itself may be read as another one.
-/

namespace ImageGateway

namespace Access

open Percent (decodeText digits?)

/-! ### Dot segments -/

/-- The segment of a decoded path stands for a directory. -/
def IsDots (segment : Bytes) : Prop := segment = [0x2e] ∨ segment = [0x2e, 0x2e]

instance : DecidablePred IsDots := fun _ => inferInstanceAs (Decidable (_ ∨ _))

/-- Some segment of a decoded path stands for a directory. -/
def HasDots (path : Bytes) : Prop := ∃ segment ∈ path.splitOn 0x2f, IsDots segment

instance : DecidablePred HasDots := fun path =>
  inferInstanceAs (Decidable (∃ segment ∈ path.splitOn 0x2f, IsDots segment))

/-- A slash stands in the segment as a triple. -/
def EncodesSlash (segment : List Char) : Prop :=
  "%2f".toList <:+: segment ∨ "%2F".toList <:+: segment

instance : DecidablePred EncodesSlash := fun _ => inferInstanceAs (Decidable (_ ∨ _))

theorem digits?_eq_dot_iff {high low : Char} :
    digits? high low = some 0x2e ↔ high = '2' ∧ (low = 'e' ∨ low = 'E') := by
  simp only [Percent.digits?_eq_some_iff, Text.hexValue?_eq_some_iff, ← Char.toNat_inj,
    UInt8.reduceToNat, Char.reduceToNat]
  omega

/-- A full stop is read at the front of a text where one of its forms stands. -/
theorem decodeText_eq_dot_cons_iff {s : List Char} {bytes : Bytes} :
    decodeText s = 0x2e :: bytes ↔
      ∃ form ∈ UrlPath.dotForms, ∃ t, s = form ++ t ∧ decodeText t = bytes := by
  constructor
  · intro h
    rcases Percent.decodeText_cases s with
      rfl | ⟨high, low, t, value, rfl, hvalue, heq⟩ | ⟨c, t, rfl, heq⟩
    · simp at h
    · -- a triple at the front is one of a full stop
      rw [heq] at h
      obtain ⟨rfl, hbytes⟩ := List.cons.inj h
      obtain ⟨rfl, rfl | rfl⟩ := digits?_eq_dot_iff.1 hvalue
      · exact ⟨"%2e".toList, by decide, t, rfl, hbytes⟩
      · exact ⟨"%2E".toList, by decide, t, rfl, hbytes⟩
    · -- a character at the front is a full stop
      obtain ⟨first, rest, hc⟩ :=
        List.exists_cons_of_ne_nil (String.utf8EncodeChar_ne_nil (c := c))
      rw [heq, hc, List.cons_append] at h
      obtain ⟨rfl, hbytes⟩ := List.cons.inj h
      obtain rfl : c = '.' := by
        rw [← Char.toNat_inj, Utf8.toNat_of_mem (b := 0x2e) (by decide) (hc ▸ List.mem_cons_self)]
        rfl
      obtain ⟨-, rfl⟩ := List.cons.inj hc
      exact ⟨".".toList, by decide, t, rfl, hbytes⟩
  · rintro ⟨form, hform, t, rfl, rfl⟩
    simp only [UrlPath.dotForms, List.map_cons, List.map_nil, List.mem_cons, List.not_mem_nil,
      or_false] at hform
    rcases hform with rfl | rfl | rfl
    · exact Percent.decodeText_cons (c := '.') fun h => absurd h (by decide)
    · exact Percent.decodeText_escape (by decide) t
    · exact Percent.decodeText_escape (by decide) t

theorem decodeText_eq_nil_iff {s : List Char} : decodeText s = [] ↔ s = [] := by
  rcases Percent.decodeText_cases s with
    rfl | ⟨high, low, t, value, rfl, -, heq⟩ | ⟨c, t, rfl, heq⟩
  · simp
  · simp [heq]
  · simp [heq, String.utf8EncodeChar_ne_nil]

/-- **The gate denies the segments that are read as dot segments.** -/
theorem isDotSegment_iff {s : List Char} : isDotSegment s = true ↔ IsDots (decodeText s) := by
  simp only [isDotSegment_eq, IsDots, decodeText_eq_dot_cons_iff, decodeText_eq_nil_iff,
    Bool.or_eq_true, UrlPath.isSingleDot, UrlPath.singleDots, UrlPath.isDoubleDot,
    UrlPath.doubleDots, List.contains_iff_mem, List.mem_flatMap, List.mem_map]
  refine or_congr ?_ ?_
  · simp
  · constructor
    · rintro ⟨a, ha, b, hb, rfl⟩
      exact ⟨a, ha, b, rfl, b, hb, [], (List.append_nil b).symm, rfl⟩
    · rintro ⟨a, ha, _, rfl, b, hb, _, rfl, rfl⟩
      exact ⟨a, ha, b, hb, by rw [List.append_nil]⟩

theorem not_isDots_of_hasDotSegment {path : String} (h : hasDotSegment path = false) :
    ∀ segment ∈ path.toList.splitOn '/', ¬ IsDots (decodeText segment) := by
  intro segment hsegment hdots
  rw [hasDotSegment, List.any_eq_false] at h
  exact h segment hsegment (isDotSegment_iff.2 hdots)

/-- A dot segment of a decoded path comes from one segment of the path. -/
theorem hasDots_decodeText_iff {s : List Char} :
    HasDots (decodeText s) ↔ ∃ segment ∈ s.splitOn '/', HasDots (decodeText segment) := by
  unfold HasDots
  rw [Percent.splitOn_decodeText]
  simp only [List.mem_flatMap]
  constructor
  · rintro ⟨part, ⟨segment, hsegment, hpart⟩, hdots⟩
    exact ⟨segment, hsegment, part, hpart, hdots⟩
  · rintro ⟨segment, hsegment, part, hpart, hdots⟩
    exact ⟨part, ⟨segment, hsegment, hpart⟩, hdots⟩

/-- A segment in which dot segments are read without its being one has a slash encoded in it. -/
theorem encodesSlash_of_hasDots {segment : List Char} (hslash : '/' ∉ segment)
    (hplain : ¬ IsDots (decodeText segment)) (h : HasDots (decodeText segment)) :
    EncodesSlash segment := by
  by_contra hnone
  have hmem : 0x2f ∉ decodeText segment := by
    rw [Percent.slash_mem_decodeText_iff]
    exact fun hread => hread.elim hslash hnone
  obtain ⟨part, hpart, hdots⟩ := h
  rw [List.splitOn_eq_singleton hmem, List.mem_singleton] at hpart
  exact hplain (hpart ▸ hdots)

/-! ### Namespaces -/

/-- The decoded path lies below `front`, with the protocol root or without. -/
def IsBelow (front path : Bytes) : Prop :=
  ∃ root ∈ ["/v2/", "/"], Utf8.encode root ++ front ++ [0x2f] <+: path

theorem exists_root_of_liesIn {nameSpace path : String} (h : liesIn nameSpace path = true) :
    ∃ root ∈ ["/v2", ""], ∃ rest : List Char,
      path.toList = root.toList ++ '/' :: (nameSpace.toList ++ '/' :: rest) := by
  have hlist {s : String} (h : Text.beginsWith ("/" ++ nameSpace ++ "/") s = true) :
      ∃ rest : List Char, s.toList = '/' :: (nameSpace.toList ++ '/' :: rest) := by
    obtain ⟨rest, rfl⟩ := Text.beginsWith_iff.1 h
    exact ⟨rest.toList, by simp⟩
  unfold liesIn scopedPath at h
  cases hdrop : Text.dropStart? protocolRoot path with
  | none =>
    rw [hdrop, Option.getD_none] at h
    obtain ⟨rest, hrest⟩ := hlist h
    exact ⟨"", by simp, rest, hrest⟩
  | some below =>
    rw [hdrop, Option.getD_some] at h
    obtain ⟨rest, hrest⟩ := hlist h
    refine ⟨"/v2", by simp, rest, ?_⟩
    rw [Text.dropStart?_eq_some_iff.1 hdrop, String.toList_append, hrest]
    rfl

/-- A path in a namespace is read below what the namespace is read as. -/
theorem isBelow_of_liesIn {nameSpace path : String} (h : liesIn nameSpace path = true) :
    IsBelow (decodeText nameSpace.toList) (decodeText path.toList) := by
  obtain ⟨root, hroot, rest, hpath⟩ := exists_root_of_liesIn h
  rw [hpath, Percent.decodeText_append_slash, Percent.decodeText_append_slash]
  have hread : ∃ front ∈ ["/v2/", "/"], decodeText root.toList ++ [0x2f] = Utf8.encode front := by
    simp only [List.mem_cons, List.not_mem_nil, or_false] at hroot
    rcases hroot with rfl | rfl
    · exact ⟨"/v2/", by simp, rfl⟩
    · exact ⟨"/", by simp, rfl⟩
  obtain ⟨front, hfront, hread⟩ := hread
  refine ⟨front, hfront, decodeText rest, ?_⟩
  rw [← hread]
  simp only [List.append_assoc, List.cons_append, List.nil_append]

/-! ### Decisions -/

/-- **What a registry reads in a path that is allowed.**  Unless the path is a ping path, what is
read lies below what the namespace is read as, which is the namespace itself where no triple stands
in it.  No segment of the path is read as a dot segment, and one is read in the path exactly where a
segment with an encoded slash hides it. -/
theorem decoded_of_authorize {g : Grant} {m : Http.Method} {path : String}
    (hping : path ∉ ["/v2", "/v2/"]) (h : authorize g m path = .ok ()) :
    let sent := decodeText path.toList
    IsBelow (decodeText g.nameSpace.toList) sent ∧
      (decodeText g.nameSpace.toList = Utf8.encode g.nameSpace →
        IsBelow (Utf8.encode g.nameSpace) sent) ∧
      (∀ segment ∈ path.toList.splitOn '/', ¬ IsDots (decodeText segment)) ∧
      (HasDots sent ↔ ∃ segment ∈ path.toList.splitOn '/',
        EncodesSlash segment ∧ HasDots (decodeText segment)) := by
  intro sent
  have hnotPing : isPing path ≠ true := by
    simpa [isPing, pingPath, protocolRoot, and_comm] using hping
  obtain ⟨hdots, hlies, -⟩ := (authorize_eq_ok_iff.1 h).resolve_left hnotPing
  have hbelow : IsBelow (decodeText g.nameSpace.toList) sent := isBelow_of_liesIn hlies
  have hplain := not_isDots_of_hasDotSegment hdots
  refine ⟨hbelow, fun hread => hread ▸ hbelow, hplain, hasDots_decodeText_iff.trans ?_⟩
  constructor
  · rintro ⟨segment, hsegment, hhas⟩
    have hslash := UrlPath.sep_notMem_of_mem_splitOn hsegment
    exact ⟨segment, hsegment,
      encodesSlash_of_hasDots hslash (hplain segment hsegment) hhas, hhas⟩
  · rintro ⟨segment, hsegment, -, hhas⟩
    exact ⟨segment, hsegment, hhas⟩

/-- Segments with encoded slashes, in one of which dot segments are hidden. -/
theorem decoded_of_encoded_slashes :
    let g : Grant := ⟨"team1_r", "team1", true, false⟩
    let sent := decodeText "/v2/team1/app%2F...%2f%252e/blobs/sha256:0a".toList
    let crossing := decodeText "/team1/..%2F%2e.%2fteam2/app/tags/list".toList
    (IsBelow (Utf8.encode g.nameSpace) sent ∧ ¬ HasDots sent) ∧
      IsBelow (Utf8.encode g.nameSpace) crossing ∧ HasDots crossing := by
  intro g sent crossing
  have hread : decodeText g.nameSpace.toList = Utf8.encode g.nameSpace := by decide +kernel
  have hsent : authorize g .get "/v2/team1/app%2F...%2f%252e/blobs/sha256:0a" = .ok () := by
    decide +kernel
  have hcrossing : authorize g .head "/team1/..%2F%2e.%2fteam2/app/tags/list" = .ok () := by
    decide +kernel
  obtain ⟨-, hbelow, -, hdots⟩ := decoded_of_authorize (by decide +kernel) hsent
  obtain ⟨-, hbelow', -, hdots'⟩ := decoded_of_authorize (by decide +kernel) hcrossing
  exact ⟨⟨hbelow hread, mt hdots.1 (by decide +kernel)⟩, hbelow' hread,
    hdots'.2 (by decide +kernel)⟩

/-- Dot segments behind an encoded slash are allowed, and so is a namespace that is read as
another one. -/
theorem not_forall_decoded :
    (¬ ∀ (g : Grant) (m : Http.Method) (path : String), path ∉ ["/v2", "/v2/"] →
      authorize g m path = .ok () → ¬ HasDots (decodeText path.toList)) ∧
    ¬ ∀ (g : Grant) (m : Http.Method) (path : String), path ∉ ["/v2", "/v2/"] →
      authorize g m path = .ok () →
        ∃ root ∈ ["/v2/", "/"],
          Utf8.encode (root ++ g.nameSpace ++ "/") <+: decodeText path.toList := by
  refine ⟨fun h => ?_, fun h => ?_⟩
  · exact h ⟨"team1_r", "team1", true, false⟩ .get
      "/v2/team1/..%2f..%2fteam2/app/manifests/v1" (by decide +kernel) (by decide +kernel)
      (by decide +kernel)
  · exact absurd (h ⟨"team%31_r", "team%31", true, false⟩ .get "/v2/team%31/app/tags/list"
      (by decide +kernel) (by decide +kernel)) (by decide +kernel)

end Access

end ImageGateway
