import ImageGateway.Codec.Percent
import ImageGateway.Proofs.Text.Character
import ImageGateway.Proofs.Text.Utf8
import Mathlib.Data.List.Basic

/-!
# Percent-encoding

A triple consists of a percent sign and digits, and wherever these may stand in a text a triple may.
So an encoded text has nothing left to encode.

* `all_encode` : what was encoded has nothing left to encode.
* `decode_eq_self` : without a percent sign there is nothing to decode.
* `mem_decode` : what stands in no triple stays.
* `decode_append_cons` : a triple does not reach over a byte that is no digit.
* `decodeText_cases` : how a text is decoded from its front.
* `splitOn_decodeText` : **a text may be decoded segment by segment**, and a segment may decode to
  several.
* `slash_mem_decodeText_iff` : where a slash is read.
-/

namespace ImageGateway

namespace Percent

/-- The class holds the characters that triples consist of. -/
def KeepsTriples (keep : Char → Bool) : Prop := keep '%' = true ∧ ∀ n < 16,
  keep (Text.hexDigitUpper n) = true

instance (keep : Char → Bool) : Decidable (KeepsTriples keep) :=
  inferInstanceAs (Decidable (_ ∧ _))

theorem mem_escapeChar {c d : Char} (h : d ∈ escapeChar c) :
    d = '%' ∨ ∃ n < 16, d = Text.hexDigitUpper n := by
  obtain ⟨b, -, hd⟩ := List.mem_flatMap.1 h
  have hb : b.toNat < 256 := b.toNat_lt
  simp only [escapeByte, Text.hexByteUpper, List.mem_cons, List.not_mem_nil, or_false] at hd
  rcases hd with rfl | rfl | rfl
  · exact .inl rfl
  · exact .inr ⟨_, by omega, rfl⟩
  · exact .inr ⟨_, by omega, rfl⟩

/-- **An encoded text consists of characters that are kept.** -/
theorem all_encode {keep : Char → Bool} (hkeep : KeepsTriples keep) (s : List Char) :
    (encode keep s).all keep = true := by
  rw [List.all_eq_true]
  intro d hd
  obtain ⟨c, -, hd⟩ := List.mem_flatMap.1 hd
  split_ifs at hd with hc
  · rwa [List.mem_singleton.1 hd]
  · rcases mem_escapeChar hd with rfl | ⟨n, hn, rfl⟩
    · exact hkeep.1
    · exact hkeep.2 n hn

theorem decode_eq_self {bytes : Bytes} (h : 0x25 ∉ bytes) : decode bytes = bytes := by
  unfold decode
  induction bytes with
  | nil => rfl
  | cons b bytes ih =>
    rw [List.mem_cons, not_or] at h
    rw [decodeFrom, if_neg (Ne.symm h.1), ih h.2]

/-- A byte that belongs to no triple stays. -/
theorem mem_decode {b : UInt8} (hpercent : b ≠ 0x25) (hdigit : Text.hexValue? b.toNat = none)
    {bytes : Bytes} (h : b ∈ bytes) : b ∈ decode bytes := by
  have hdrop (skip : Nat) (bytes : Bytes) (h : b ∈ bytes.drop skip) :
      b ∈ decodeFrom skip bytes := by
    fun_induction decodeFrom skip bytes with
    | case1 skip => simp at h
    | case2 skip _ rest ih => exact ih h
    | case3 rest value htriple ih =>
      have hrest : b ∈ rest := (List.mem_cons.1 h).resolve_left hpercent
      refine List.mem_cons_of_mem _ (ih ?_)
      match rest, htriple with
      | high :: low :: rest, hbyte =>
        obtain ⟨x, hx, hbyte⟩ := Option.bind_eq_some_iff.1 hbyte
        obtain ⟨y, hy, -⟩ := Option.bind_eq_some_iff.1 hbyte
        rcases List.mem_cons.1 hrest with rfl | hrest
        · rw [hdigit] at hx
          cases hx
        · rcases List.mem_cons.1 hrest with rfl | hrest
          · rw [hdigit] at hy
            cases hy
          · exact hrest
    | case4 rest _ ih =>
      exact List.mem_cons_of_mem _ (ih ((List.mem_cons.1 h).resolve_left hpercent))
    | case5 c rest _ ih =>
      rcases List.mem_cons.1 h with rfl | h
      · exact List.mem_cons_self
      · exact List.mem_cons_of_mem _ (ih h)
  exact hdrop 0 bytes h

/-- A triple at the end of a text does not reach over a byte that is no digit. -/
theorem triple?_append {x y : Bytes} {b : UInt8} (hdigit : Text.hexValue? b.toNat = none) :
    triple? (x ++ b :: y) = triple? x := by
  match x with
  | [] =>
    cases y with
    | nil => rfl
    | cons c y => simp [triple?, byte?, hdigit]
  | [a] => cases h : Text.hexValue? a.toNat <;> simp [triple?, byte?, hdigit, h]
  | a :: c :: x => rfl

theorem length_of_triple? {x : Bytes} {value : UInt8} (h : triple? x = some value) :
    2 ≤ x.length := by
  match x, h with
  | _ :: _ :: x, _ => exact Nat.le_add_left 2 x.length

/-- **A triple does not reach over a byte that is no digit**: decoding begins anew there. -/
theorem decode_append_cons {b : UInt8} (hdigit : Text.hexValue? b.toNat = none) (x y : Bytes) :
    decode (x ++ b :: y) = decode x ++ decode (b :: y) := by
  have hfrom (skip : Nat) (x : Bytes) (hskip : skip ≤ x.length) :
      decodeFrom skip (x ++ b :: y) = decodeFrom skip x ++ decodeFrom 0 (b :: y) := by
    fun_induction decodeFrom skip x with
    | case1 skip =>
      obtain rfl : skip = 0 := Nat.le_zero.1 hskip
      rw [List.nil_append, List.nil_append]
    | case2 skip _ rest ih => exact ih (Nat.le_of_succ_le_succ hskip)
    | case3 rest value htriple ih =>
      rw [List.cons_append, decodeFrom, if_pos rfl, triple?_append hdigit, htriple,
        List.cons_append, ih (length_of_triple? htriple)]
    | case4 rest htriple ih =>
      rw [List.cons_append, decodeFrom, if_pos rfl, triple?_append hdigit, htriple,
        List.cons_append, ih (Nat.zero_le _)]
    | case5 c rest hc ih =>
      rw [List.cons_append, decodeFrom, if_neg hc, List.cons_append, ih (Nat.zero_le _)]
  exact hfrom 0 x (Nat.zero_le _)

theorem decode_append_of_notMem {x : Bytes} (h : 0x25 ∉ x) (y : Bytes) :
    decode (x ++ y) = x ++ decode y := by
  unfold decode
  induction x with
  | nil => rfl
  | cons b x ih =>
    rw [List.mem_cons, not_or] at h
    rw [List.cons_append, decodeFrom, if_neg (Ne.symm h.1), ih h.2, List.cons_append]

/-! ### Texts -/

/-- The bytes of a text, percent-decoded once. -/
def decodeText (s : List Char) : Bytes := decode (Utf8.encode (String.ofList s))

theorem decodeText_eq (s : List Char) :
    decodeText s = decode (s.flatMap String.utf8EncodeChar) := by
  rw [decodeText, Utf8.encode_ofList]

@[simp] theorem decodeText_nil : decodeText [] = [] := by
  rw [decodeText_eq]
  rfl

/-- The byte that two digits of a text write. -/
def digits? (high low : Char) : Option UInt8 := do
  let x ← Text.hexValue? high.toNat
  let y ← Text.hexValue? low.toNat
  some (UInt8.ofNat (x * 16 + y))

theorem lt_of_hexValue? {n x : Nat} (h : Text.hexValue? n = some x) : n < 0x80 := by
  unfold Text.hexValue? at h
  split_ifs at h <;> omega

/-- The first byte of a text, if it is one of ASCII, is its first character. -/
theorem encode_eq_cons {s : List Char} {b : UInt8} {bytes : Bytes} (hb : b.toNat < 0x80)
    (h : s.flatMap String.utf8EncodeChar = b :: bytes) :
    ∃ c t, s = c :: t ∧ c.toNat = b.toNat ∧ t.flatMap String.utf8EncodeChar = bytes := by
  cases s with
  | nil => cases h
  | cons c t =>
    obtain ⟨first, rest, hc⟩ :=
      List.exists_cons_of_ne_nil (String.utf8EncodeChar_ne_nil (c := c))
    rw [List.flatMap_cons, hc, List.cons_append] at h
    obtain ⟨rfl, hrest⟩ := List.cons.inj h
    have hcode := Utf8.toNat_of_mem hb (hc ▸ List.mem_cons_self)
    rw [Utf8.utf8EncodeChar_of_lt (hcode ▸ hb)] at hc
    obtain ⟨-, rfl⟩ := List.cons.inj hc
    exact ⟨c, t, rfl, hcode, hrest⟩

theorem triple?_encode_eq_some_iff {s : List Char} {value : UInt8} :
    triple? (s.flatMap String.utf8EncodeChar) = some value ↔
      ∃ high low t, s = high :: low :: t ∧ digits? high low = some value := by
  constructor
  · intro h
    rcases hs : s.flatMap String.utf8EncodeChar with _ | ⟨high, _ | ⟨low, bytes⟩⟩ <;> rw [hs] at h
    · cases h
    · cases h
    · obtain ⟨x, hx, hvalue⟩ := Option.bind_eq_some_iff.1 h
      obtain ⟨y, hy, -⟩ := Option.bind_eq_some_iff.1 hvalue
      obtain ⟨c, t, rfl, hc, ht⟩ := encode_eq_cons (lt_of_hexValue? hx) hs
      obtain ⟨d, t, rfl, hd, -⟩ := encode_eq_cons (lt_of_hexValue? hy) ht
      refine ⟨c, d, t, rfl, ?_⟩
      rw [digits?, hc, hd]
      exact h
  · rintro ⟨high, low, t, rfl, h⟩
    obtain ⟨x, hx, h⟩ := Option.bind_eq_some_iff.1 h
    obtain ⟨y, hy, h⟩ := Option.bind_eq_some_iff.1 h
    have hhigh := lt_of_hexValue? hx
    have hlow := lt_of_hexValue? hy
    simp only [List.flatMap_cons, Utf8.utf8EncodeChar_of_lt hhigh, Utf8.utf8EncodeChar_of_lt hlow,
      List.cons_append, List.nil_append, triple?, byte?, Utf8.toNat_ofNat_of_lt hhigh,
      Utf8.toNat_ofNat_of_lt hlow, hx, hy]
    exact h

theorem utf8EncodeChar_percent : String.utf8EncodeChar '%' = [0x25] := rfl

/-- A triple of a text is read as one byte. -/
theorem decodeText_escape {high low : Char} {value : UInt8} (h : digits? high low = some value)
    (s : List Char) : decodeText ('%' :: high :: low :: s) = value :: decodeText s := by
  have htriple := triple?_encode_eq_some_iff.2 ⟨high, low, s, rfl, h⟩
  obtain ⟨x, hx, h⟩ := Option.bind_eq_some_iff.1 h
  obtain ⟨y, hy, -⟩ := Option.bind_eq_some_iff.1 h
  rw [decodeText_eq, decodeText_eq, List.flatMap_cons, utf8EncodeChar_percent,
    List.singleton_append, decode, decodeFrom, if_pos rfl, htriple, List.flatMap_cons,
    List.flatMap_cons, Utf8.utf8EncodeChar_of_lt (lt_of_hexValue? hx),
    Utf8.utf8EncodeChar_of_lt (lt_of_hexValue? hy)]
  rfl

/-- A character that begins no triple stays. -/
theorem decodeText_cons {c : Char} {s : List Char}
    (h : c = '%' → ∀ high low t, s = high :: low :: t → digits? high low = none) :
    decodeText (c :: s) = String.utf8EncodeChar c ++ decodeText s := by
  rw [decodeText_eq, decodeText_eq, List.flatMap_cons]
  by_cases hc : c = '%'
  · subst hc
    have htriple : triple? (s.flatMap String.utf8EncodeChar) = none := by
      rw [Option.eq_none_iff_forall_ne_some]
      intro value hvalue
      obtain ⟨high, low, t, hs, hdigits⟩ := triple?_encode_eq_some_iff.1 hvalue
      rw [h rfl high low t hs] at hdigits
      cases hdigits
    rw [utf8EncodeChar_percent, List.singleton_append, decode, decodeFrom, if_pos rfl, htriple]
    rfl
  · refine decode_append_of_notMem (fun hmem => hc ?_) _
    rw [← Char.toNat_inj, Utf8.toNat_of_mem (by decide) hmem]
    rfl

/-- How the text of a path is read from its front. -/
theorem decodeText_cases (s : List Char) : s = [] ∨
    (∃ high low t value, s = '%' :: high :: low :: t ∧ digits? high low = some value ∧
      decodeText s = value :: decodeText t) ∨
    ∃ c t, s = c :: t ∧ decodeText s = String.utf8EncodeChar c ++ decodeText t := by
  rcases s with _ | ⟨c, s⟩
  · exact .inl rfl
  · by_cases h : ∃ high low t value, c = '%' ∧ s = high :: low :: t ∧ digits? high low = some value
    · obtain ⟨high, low, t, value, rfl, rfl, hvalue⟩ := h
      exact .inr (.inl ⟨high, low, t, value, rfl, hvalue, decodeText_escape hvalue t⟩)
    · refine .inr (.inr ⟨c, s, rfl, decodeText_cons fun hc high low t hs => ?_⟩)
      rw [Option.eq_none_iff_forall_ne_some]
      exact fun value hvalue => h ⟨high, low, t, value, hc, hs, hvalue⟩

theorem digits?_eq_some_iff {high low : Char} {value : UInt8} : digits? high low = some value ↔
    Text.hexValue? high.toNat = some (value.toNat / 16) ∧
      Text.hexValue? low.toNat = some (value.toNat % 16) := by
  constructor
  · intro h
    obtain ⟨x, hx, h⟩ := Option.bind_eq_some_iff.1 h
    obtain ⟨y, hy, h⟩ := Option.bind_eq_some_iff.1 h
    have hxlt := Text.hexValue?_lt hx
    have hylt := Text.hexValue?_lt hy
    have hvalue : value.toNat = x * 16 + y := by
      rw [← Option.some.inj h, UInt8.toNat_ofNat', Nat.mod_eq_of_lt (by omega)]
    rw [hx, hy, hvalue]
    exact ⟨congrArg some (by omega), congrArg some (by omega)⟩
  · rintro ⟨hx, hy⟩
    rw [digits?, hx, hy]
    exact congrArg some (by rw [Nat.div_add_mod', UInt8.ofNat_toNat])

/-- Decoding begins anew at a character that is no digit. -/
theorem decodeText_append_cons {c : Char} (hc : c.toNat < 0x80)
    (hdigit : Text.hexValue? c.toNat = none) (x y : List Char) :
    decodeText (x ++ c :: y) = decodeText x ++ decodeText (c :: y) := by
  rw [decodeText_eq, decodeText_eq, decodeText_eq, List.flatMap_append, List.flatMap_cons,
    Utf8.utf8EncodeChar_of_lt hc, List.singleton_append,
    decode_append_cons (by rw [Utf8.toNat_ofNat_of_lt hc, hdigit])]

theorem decodeText_append_slash (x y : List Char) :
    decodeText (x ++ '/' :: y) = decodeText x ++ 0x2f :: decodeText y := by
  rw [decodeText_append_cons (by decide) (by decide), decodeText_cons fun h => absurd h (by decide)]
  rfl

/-- The parts around the slashes of a decoded text come from the segments of the text one by one;
a segment may give several. -/
theorem splitOn_decodeText (s : List Char) : (decodeText s).splitOn 0x2f =
    (s.splitOn '/').flatMap fun segment => (decodeText segment).splitOn 0x2f := by
  have hjoin {segments : List (List Char)} (hne : segments ≠ []) :
      (decodeText (['/'].intercalate segments)).splitOn 0x2f =
        segments.flatMap fun segment => (decodeText segment).splitOn 0x2f := by
    induction segments with
    | nil => exact absurd rfl hne
    | cons segment segments ih =>
      cases segments with
      | nil => simp
      | cons next segments =>
        rw [List.intercalate_cons_cons, List.append_assoc, List.singleton_append,
          decodeText_append_slash, List.splitOn_append_cons_self, ih (List.cons_ne_nil _ _)]
        rfl
  rw [← hjoin (List.splitOn_ne_nil '/' s), List.intercalate_splitOn]

theorem digits?_eq_slash_iff {high low : Char} :
    digits? high low = some 0x2f ↔ high = '2' ∧ (low = 'f' ∨ low = 'F') := by
  simp only [digits?_eq_some_iff, Text.hexValue?_eq_some_iff, ← Char.toNat_inj, UInt8.reduceToNat,
    Char.reduceToNat]
  omega

/-- A slash is read where one stands, plain or as a triple. -/
theorem slash_mem_decodeText_iff (s : List Char) : 0x2f ∈ decodeText s ↔
    '/' ∈ s ∨ "%2f".toList <:+: s ∨ "%2F".toList <:+: s := by
  constructor
  · intro h
    induction hn : s.length using Nat.strongRecOn generalizing s with
    | ind n ih =>
      subst hn
      -- what stands in the rest of a text stands in the text
      have rest {t : List Char} (hlt : t.length < s.length) (ht : t <:+ s)
          (h : 0x2f ∈ decodeText t) : '/' ∈ s ∨ "%2f".toList <:+: s ∨ "%2F".toList <:+: s :=
        (ih t.length hlt t h rfl).imp (ht.mem ·) (Or.imp (·.trans ht.isInfix) (·.trans ht.isInfix))
      rcases decodeText_cases s with
        rfl | ⟨high, low, t, value, rfl, hvalue, heq⟩ | ⟨c, t, rfl, heq⟩
      · simp at h
      · rw [heq, List.mem_cons] at h
        rcases h with rfl | h
        · obtain ⟨rfl, rfl | rfl⟩ := digits?_eq_slash_iff.1 hvalue
          · exact .inr (.inl ⟨[], t, rfl⟩)
          · exact .inr (.inr ⟨[], t, rfl⟩)
        · exact rest (by simp only [List.length_cons]; omega) ⟨['%', high, low], rfl⟩ h
      · rw [heq, List.mem_append] at h
        rcases h with h | h
        · obtain rfl : c = '/' := by
            rw [← Char.toNat_inj, Utf8.toNat_of_mem (by decide) h]
            rfl
          exact .inl List.mem_cons_self
        · exact rest (Nat.lt_succ_self _) (List.suffix_cons c t) h
  · have hescape {low : Char} (hlow : digits? '2' low = some 0x2f)
        (h : ['%', '2', low] <:+: s) : 0x2f ∈ decodeText s := by
      obtain ⟨x, y, rfl⟩ := h
      rw [List.append_assoc, List.cons_append, decodeText_append_cons (by decide) (by decide),
        List.cons_append, List.cons_append, List.nil_append, decodeText_escape hlow]
      exact List.mem_append_right _ List.mem_cons_self
    rintro (h | h | h)
    · obtain ⟨x, y, rfl⟩ := List.append_of_mem h
      rw [decodeText_append_slash]
      exact List.mem_append_right _ List.mem_cons_self
    · exact hescape (by decide) h
    · exact hescape (by decide) h

end Percent

end ImageGateway
