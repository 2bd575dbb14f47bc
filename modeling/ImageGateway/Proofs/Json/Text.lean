import ImageGateway.Proofs.Json.Token
import ImageGateway.Proofs.Text.Utf8

/-!
# Strings and what they spell

* `RawText.decode?_of_spells` : **a string is decoded to the text that it spells**, with any of its
  characters written out, escaped or given by a code.
* `RawText.raw_of_spells` : what spells a text may stand between quotation marks.
* `RawText.spells_ofText` : every text is spelled, by what the gateway writes for it.
-/

namespace ImageGateway

namespace Json

namespace RawText

variable {raw : RawText} {s : List Char}

theorem unescape?_plain {b : UInt8} (h : b ≠ 0x5c) :
    unescape? (b :: raw) = (unescape? raw).map (b :: ·) := by
  rw [unescape?.eq_def]
  simp [h]

theorem unescape?_append {front : Bytes} (h : ∀ b ∈ front, b ≠ 0x5c) :
    unescape? (front ++ raw) = (unescape? raw).map (front ++ ·) := by
  induction front with
  | nil => simp
  | cons b front ih =>
    rw [List.forall_mem_cons] at h
    rw [List.cons_append, unescape?_plain h.1, ih h.2, Option.map_map]
    rfl

theorem unescape?_short {e b : UInt8} (h : (e, b) ∈ shortEscapes) :
    unescape? (0x5c :: e :: raw) = (unescape? raw).map (b :: ·) := by
  obtain ⟨hcode, hlookup⟩ := lookup_shortEscapes h
  rw [unescape?.eq_def]
  simp only [if_true, if_neg hcode, hlookup, Option.bind_eq_bind, Option.bind_some]
  cases unescape? raw <;> rfl

theorem unescape?_code {d₁ d₂ d₃ d₄ : UInt8} {c : Char}
    (h : fourDigits? [d₁, d₂, d₃, d₄] = some c.toNat) :
    unescape? (0x5c :: 0x75 :: d₁ :: d₂ :: d₃ :: d₄ :: raw) =
      (unescape? raw).map (String.utf8EncodeChar c ++ ·) := by
  -- no character has the code of half of a pair
  have hvalid : c.toNat < 0xd800 ∨ (0xdfff < c.toNat ∧ c.toNat < 0x110000) := c.valid
  have hhalves : isHighHalf c.toNat = false ∧ isLowHalf c.toNat = false := by
    simp only [isHighHalf, isLowHalf, Bool.and_eq_false_iff, decide_eq_false_iff_not]
    omega
  rw [unescape?.eq_3]
  simp only [if_true, fourDigits?_append, h, Option.bind_eq_bind, Option.bind_some, hhalves,
    Bool.false_eq_true, if_false, Char.ofNat_toNat]
  cases unescape? raw <;> rfl

theorem unescape?_pair {d₁ d₂ d₃ d₄ e₁ e₂ e₃ e₄ : UInt8} {high low : Nat}
    (hhigh : fourDigits? [d₁, d₂, d₃, d₄] = some high) (hhighHalf : isHighHalf high = true)
    (hlow : fourDigits? [e₁, e₂, e₃, e₄] = some low) (hlowHalf : isLowHalf low = true) :
    unescape?
        (0x5c :: 0x75 :: d₁ :: d₂ :: d₃ :: d₄ :: 0x5c :: 0x75 :: e₁ :: e₂ :: e₃ :: e₄ :: raw) =
      (unescape? raw).map (String.utf8EncodeChar (joinHalves high low) ++ ·) := by
  rw [unescape?.eq_3]
  simp only [if_true, fourDigits?_append, hhigh, Option.bind_eq_bind, Option.bind_some, hhighHalf,
    hlow, hlowHalf]
  cases unescape? raw <;> rfl

theorem utf8EncodeChar_of_mem_shortEscapes {e b : UInt8} (h : (e, b) ∈ shortEscapes) :
    String.utf8EncodeChar (Char.ofNat b.toNat) = [b] := by
  have hall : shortEscapes.all (fun p => String.utf8EncodeChar (Char.ofNat p.2.toNat) = [p.2]) =
      true := by decide
  exact of_decide_eq_true (List.all_eq_true.1 hall _ h)

theorem ne_of_mem_utf8EncodeChar {c : Char} (h : c ≠ '\\') :
    ∀ b ∈ String.utf8EncodeChar c, b ≠ 0x5c := by
  rintro b hb rfl
  exact h (Char.toNat_inj.1 (Utf8.toNat_of_mem (by decide) hb))

theorem unescape?_of_spells (h : Spells raw s) :
    unescape? raw = some (s.flatMap String.utf8EncodeChar) := by
  induction h with
  | nil => rfl
  | plain hcontrol hquote hslash _ ih =>
    rw [unescape?_append (ne_of_mem_utf8EncodeChar hslash), ih]
    rfl
  | short he _ ih =>
    rw [unescape?_short he, ih, List.flatMap_cons, utf8EncodeChar_of_mem_shortEscapes he]
    rfl
  | code hdigits _ ih =>
    rw [unescape?_code hdigits, ih]
    rfl
  | pair hhigh hhighHalf hlow hlowHalf _ ih =>
    rw [unescape?_pair hhigh (by simpa [isHighHalf] using hhighHalf) hlow
      (by simpa [isLowHalf] using hlowHalf), ih]
    rfl

/-- **A string is decoded to the text that it spells.** -/
theorem decode?_of_spells (h : Spells raw s) : decode? raw = some (String.ofList s) := by
  rw [decode?, unescape?_of_spells h, Option.bind_some, ← Utf8.encode_ofList, Utf8.decode?_encode]

/-! ### Every text is spelled -/

theorem raw_append {front : Bytes} (h : ∀ b ∈ front, 0x20 ≤ b ∧ b ≠ 0x22 ∧ b ≠ 0x5c)
    (hraw : Raw raw) : Raw (front ++ raw) := by
  induction front with
  | nil => exact hraw
  | cons b front ih =>
    rw [List.forall_mem_cons] at h
    exact .plain h.1.1 h.1.2.1 h.1.2.2 (ih h.2)

theorem raw_of_spells (h : Spells raw s) : Raw raw := by
  induction h with
  | nil => exact .nil
  | @plain c raw s hcontrol hquote hslash _ ih =>
    refine raw_append (fun b hb => ⟨?_, ?_, ne_of_mem_utf8EncodeChar hslash b hb⟩) ih
    · by_contra hlt
      rw [UInt8.not_le, UInt8.lt_iff_toNat_lt] at hlt
      have hcode := Utf8.toNat_of_mem (Nat.lt_trans hlt (by decide)) hb
      have hle : 0x20 ≤ c.toNat := hcontrol
      rw [hcode] at hle
      exact Nat.not_le.2 hlt hle
    · rintro rfl
      exact hquote (Char.toNat_inj.1 (Utf8.toNat_of_mem (by decide) hb))
  | short he _ ih => exact .short he ih
  | code hdigits _ ih => exact .code hdigits ih
  | pair hhigh _ hlow _ _ ih => exact .code hhigh (.code hlow ih)

/-- A control character without a short escape is written with its code. -/
theorem fourDigits?_hexByte {b : UInt8} (h : b < 0x20) :
    fourDigits? ([0x30, 0x30] ++ (Text.hexByte b).map fun c => UInt8.ofNat c.toNat) =
      some (Char.ofNat b.toNat).toNat := by
  have hall : ∀ n < 0x20, fourDigits? ([0x30, 0x30] ++ (Text.hexByte (UInt8.ofNat n)).map
      fun c => UInt8.ofNat c.toNat) = some (Char.ofNat n).toNat := by decide
  simpa using hall b.toNat h

theorem spells_escapeByte {b : UInt8} (hb : b < 0x80) (h : Spells raw s) :
    Spells (escapeByte b ++ raw) (Char.ofNat b.toNat :: s) := by
  unfold escapeByte
  split_ifs with hquote hslash _ _ _ _ _ hcontrol
  iterate 7
    · subst b
      exact .short (by decide) h
  · exact .code (fourDigits?_hexByte hcontrol) h
  · have hcode : (Char.ofNat b.toNat).toNat = b.toNat := Utf8.toNat_char_of_lt hb
    have hbytes : [b] = String.utf8EncodeChar (Char.ofNat b.toNat) := by
      rw [Utf8.utf8EncodeChar_of_lt (by rw [hcode]; exact hb), hcode, UInt8.ofNat_toNat]
    have hne {c : Char} (hc : b.toNat ≠ c.toNat) : Char.ofNat b.toNat ≠ c := fun heq =>
      hc (by rw [← heq, hcode])
    rw [hbytes]
    refine .plain ?_ (hne fun heq => hquote (UInt8.toNat_inj.1 heq))
      (hne fun heq => hslash (UInt8.toNat_inj.1 heq)) h
    show 0x20 ≤ (Char.ofNat b.toNat).toNat
    rw [hcode]
    exact UInt8.not_lt.1 hcontrol

theorem escapeByte_of_le {b : UInt8} (h : 0x80 ≤ b) : escapeByte b = [b] := by
  have hne {c : UInt8} (hc : c < 0x80) : b ≠ c := by
    rintro rfl
    exact UInt8.not_lt.2 h hc
  have hcontrol : ¬ b < 0x20 := UInt8.not_lt.2 (UInt8.le_trans (by decide) h)
  unfold escapeByte
  simp [hne, hcontrol]

/-- **Every text is spelled**, by what the gateway writes for it. -/
theorem spells_ofText (t : String) : Spells (ofText t) t.toList := by
  rw [ofText, ← String.ofList_toList (s := t), Utf8.encode_ofList, String.toList_ofList]
  induction t.toList with
  | nil => exact .nil
  | cons c s ih =>
    rw [List.flatMap_cons, List.flatMap_append]
    by_cases hc : c.toNat < 0x80
    · rw [Utf8.utf8EncodeChar_of_lt hc, List.flatMap_singleton]
      have hbyte := Utf8.toNat_ofNat_of_lt hc
      have hspells := spells_escapeByte (b := UInt8.ofNat c.toNat)
        (UInt8.lt_iff_toNat_lt.2 (by rw [hbyte]; exact hc)) ih
      rwa [hbyte, Char.ofNat_toNat] at hspells
    · -- the bytes of other characters are above those that are escaped
      have hhigh (b : UInt8) (hb : b ∈ String.utf8EncodeChar c) : 0x80 ≤ b := by
        by_contra hlt
        rw [UInt8.not_le, UInt8.lt_iff_toNat_lt] at hlt
        exact hc (Utf8.toNat_of_mem hlt hb ▸ hlt)
      have hne {d : Char} (hd : d.toNat < 0x80) : c ≠ d := by
        rintro rfl
        exact hc hd
      rw [List.flatMap_congr fun b hb => escapeByte_of_le (hhigh b hb), List.flatMap_singleton']
      have hcontrol : 0x20 ≤ c.toNat := by omega
      exact .plain hcontrol (hne (by decide)) (hne (by decide)) ih

end RawText

end Json

end ImageGateway
