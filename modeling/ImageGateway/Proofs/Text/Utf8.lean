import ImageGateway.Text.Utf8
import Mathlib.Data.List.Basic

/-!
# Characters of ASCII in UTF-8

A byte below 0x80 stands for itself wherever it stands: it is no part of a longer form.

* `Utf8.toNat_of_mem` : the character whose form holds such a byte.
* `Utf8.mem_encode_iff` : **a character of ASCII stands in the bytes of a text where it stands in
  the text.**
* `Utf8.encode_of_lt`, `Utf8.utf8ByteSize_of_lt` : a text of ASCII has one byte for each character.
-/

namespace ImageGateway

namespace Utf8

theorem encode_ofList (l : List Char) :
    encode (String.ofList l) = l.flatMap String.utf8EncodeChar := by
  simp [encode, String.toUTF8, List.utf8Encode]

theorem encode_append (s t : String) : encode (s ++ t) = encode s ++ encode t := by
  simp [encode, String.toUTF8]

theorem toNat_ofNat_of_lt {n : Nat} (h : n < 0x80) : (UInt8.ofNat n).toNat = n :=
  UInt8.toNat_ofNat_of_lt' (Nat.lt_trans h (by decide))

theorem toNat_char_of_lt {n : Nat} (h : n < 0x80) : (Char.ofNat n).toNat = n := by
  rw [Char.ofNat, dif_pos (.inl (by omega))]
  rfl

theorem utf8EncodeChar_of_lt {c : Char} (h : c.toNat < 0x80) :
    String.utf8EncodeChar c = [UInt8.ofNat c.toNat] := if_pos (Nat.le_of_lt_succ h)

/-- The character whose form holds a byte of ASCII. -/
theorem toNat_of_mem {c : Char} {b : UInt8} (hb : b.toNat < 0x80)
    (h : b ∈ String.utf8EncodeChar c) : c.toNat = b.toNat := by
  -- all other bytes of the forms have their highest bit set
  have hhigh {n : Nat} (hn : 0x80 ≤ n) (hlt : n < 256) (heq : b = UInt8.ofNat n) : False := by
    rw [heq, UInt8.toNat_ofNat', Nat.mod_eq_of_lt (by omega)] at hb
    omega
  have hcode : c.toNat = c.val.toNat := rfl
  simp only [String.utf8EncodeChar] at h
  split_ifs at h with hone
  · rw [List.mem_singleton.1 h, UInt8.toNat_ofNat', Nat.mod_eq_of_lt (by omega), hcode]
  all_goals simp only [List.mem_cons, List.not_mem_nil, or_false] at h
  · rcases h with h | h <;> exact (hhigh (by omega) (by omega) h).elim
  · rcases h with h | h | h <;> exact (hhigh (by omega) (by omega) h).elim
  · rcases h with h | h | h | h <;> exact (hhigh (by omega) (by omega) h).elim

theorem mem_encode_iff {c : Char} (hc : c.toNat < 0x80) (l : List Char) :
    UInt8.ofNat c.toNat ∈ encode (String.ofList l) ↔ c ∈ l := by
  have hcode := toNat_ofNat_of_lt hc
  rw [encode_ofList, List.mem_flatMap]
  constructor
  · rintro ⟨d, hd, hmem⟩
    have := toNat_of_mem (by omega) hmem
    rw [hcode, Char.toNat_inj] at this
    rwa [← this]
  · exact fun h => ⟨c, h, by simp [utf8EncodeChar_of_lt hc]⟩

/-- A text of ASCII has the codes of its characters for bytes. -/
theorem encode_of_lt {l : List Char} (h : ∀ c ∈ l, c.toNat < 0x80) :
    encode (String.ofList l) = l.map fun c => UInt8.ofNat c.toNat := by
  rw [encode_ofList, List.map_eq_flatMap]
  exact List.flatMap_congr fun c hc => utf8EncodeChar_of_lt (h c hc)

/-- A text of ASCII has as many bytes as characters. -/
theorem utf8ByteSize_of_lt {s : String} (h : ∀ c ∈ s.toList, c.toNat < 0x80) :
    s.utf8ByteSize = s.toList.length := by
  have hencode : s.utf8ByteSize = (encode s).length := rfl
  rw [hencode, ← String.ofList_toList (s := s), encode_of_lt h, List.length_map,
    String.toList_ofList]

end Utf8

end ImageGateway
