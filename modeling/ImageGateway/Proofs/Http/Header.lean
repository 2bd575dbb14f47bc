import ImageGateway.Http.Header
import ImageGateway.Proofs.Text.Utf8

/-!
# Field values that are text

A field value is read as text only if it consists of visible characters of ASCII, blanks and tabs,
and then each byte is one character.

* `Http.isTextByte_iff`, `Http.IsTextChar` : of what such values consist.
* `Http.valueText?_eq_some_iff` : **a value is read as a text exactly if it is the text in bytes**.
-/

namespace ImageGateway

namespace Http

/-- A visible character of ASCII, a blank or a tab. -/
def IsTextChar (c : Char) : Prop := c.toNat = 9 ∨ 0x20 ≤ c.toNat ∧ c.toNat < 0x7f

theorem IsTextChar.toNat_lt {c : Char} (h : IsTextChar c) : c.toNat < 0x80 := by
  unfold IsTextChar at h
  omega

theorem isTextByte_iff {b : UInt8} :
    isTextByte b = true ↔ b.toNat = 9 ∨ 0x20 ≤ b.toNat ∧ b.toNat < 0x7f := by
  simp [isTextByte, ← UInt8.toNat_inj, UInt8.le_iff_toNat_le, UInt8.lt_iff_toNat_lt]

theorem isTextByte_ofNat_iff {c : Char} (h : c.toNat < 0x80) :
    isTextByte (UInt8.ofNat c.toNat) = true ↔ IsTextChar c := by
  rw [isTextByte_iff, Utf8.toNat_ofNat_of_lt h, IsTextChar]

/-- The character of a byte of a text has the code of the byte. -/
theorem toNat_ofNat_of_isTextByte {b : UInt8} (h : isTextByte b = true) :
    (Char.ofNat b.toNat).toNat = b.toNat := by
  rw [isTextByte_iff] at h
  exact Utf8.toNat_char_of_lt (by omega)

/-- **A value is read as a text exactly if it is the text in bytes**, and the text consists of
visible characters, blanks and tabs. -/
theorem valueText?_eq_some_iff {value : Bytes} {s : String} :
    valueText? value = some s ↔ value = Utf8.encode s ∧ ∀ c ∈ s.toList, IsTextChar c := by
  unfold valueText?
  constructor
  · intro h
    split_ifs at h with hall
    cases h
    rw [List.all_eq_true] at hall
    have hchars : ∀ c ∈ value.map fun b => Char.ofNat b.toNat, IsTextChar c := by
      rw [List.forall_mem_map]
      intro b hb
      rw [IsTextChar, toNat_ofNat_of_isTextByte (hall b hb)]
      exact isTextByte_iff.1 (hall b hb)
    rw [String.toList_ofList, Utf8.encode_of_lt fun c hc => (hchars c hc).toNat_lt, List.map_map]
    refine ⟨?_, hchars⟩
    calc value = value.map id := (List.map_id value).symm
      _ = value.map _ := List.map_congr_left fun b hb => by
        simp [toNat_ofNat_of_isTextByte (hall b hb)]
  · rintro ⟨rfl, h⟩
    rw [← String.ofList_toList (s := s), Utf8.encode_of_lt fun c hc => (h c hc).toNat_lt,
      List.map_map, if_pos]
    · congr 2
      calc s.toList.map _ = s.toList.map id := List.map_congr_left fun c hc => by
            simp [Utf8.toNat_ofNat_of_lt (h c hc).toNat_lt]
        _ = s.toList := List.map_id _
    · rw [List.all_map, List.all_eq_true]
      exact fun c hc => (isTextByte_ofNat_iff (h c hc).toNat_lt).2 (h c hc)

end Http

end ImageGateway
