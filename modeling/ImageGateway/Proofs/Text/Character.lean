import ImageGateway.Text.Hex
import Mathlib.Data.List.Basic
import Mathlib.Data.List.Induction

/-!
# Letters and digits

A letter that is made small is no capital letter, and a number that is written is read back, in
hexadecimal digits as in decimal ones.

* `toNat_toLower` : the code of a letter that is made small.
* `hexNumber?_hexDigits` : the hexadecimal digits of a number write the number.
* `foldl_toDigits` : the decimal digits of a number add up to the number.
-/

namespace ImageGateway

namespace Text

/-! ### Letters -/

theorem isUpper_iff {c : Char} : c.isUpper = true ↔ 65 ≤ c.toNat ∧ c.toNat ≤ 90 := by
  show decide (c.val ≥ 'A'.val ∧ c.val ≤ 'Z'.val) = true ↔ _
  simp [ge_iff_le, UInt32.le_iff_toNat_le]

theorem toNat_toLower (c : Char) :
    c.toLower.toNat = if 65 ≤ c.toNat ∧ c.toNat ≤ 90 then c.toNat + 32 else c.toNat := by
  have hc : (c.val ≥ 'A'.val ∧ c.val ≤ 'Z'.val) ↔ 65 ≤ c.toNat ∧ c.toNat ≤ 90 := by
    rw [ge_iff_le, UInt32.le_iff_toNat_le, UInt32.le_iff_toNat_le]
    rfl
  unfold Char.toLower
  split_ifs with h h' h'
  · show (c.val + 32).toNat = c.val.toNat + 32
    have : c.val.toNat ≤ 90 := h'.2
    rw [UInt32.toNat_add]
    exact Nat.mod_eq_of_lt (by simp only [UInt32.reduceToNat]; omega)
  · exact absurd (hc.1 h) h'
  · exact absurd (hc.2 h') h
  · rfl

theorem isUpper_toLower (c : Char) : c.toLower.isUpper = false := by
  rw [← Bool.not_eq_true, isUpper_iff, toNat_toLower]
  split_ifs <;> omega

theorem toLower_of_not_isUpper {c : Char} (h : c.isUpper = false) : c.toLower = c := by
  rw [← Bool.not_eq_true, isUpper_iff] at h
  rw [← Char.toNat_inj, toNat_toLower, if_neg h]

/-- A number past the characters stands for the first of them. -/
theorem toNat_ofNat (n : Nat) : (Char.ofNat n).toNat = n ∨ (Char.ofNat n).toNat = 0 := by
  by_cases h : n.isValidChar
  · left
    rw [Char.ofNat, dif_pos h]
    rfl
  · right
    rw [Char.ofNat, dif_neg h]
    rfl

/-! ### Hexadecimal digits -/

theorem hexValue?_hexDigit : ∀ n < 16, hexValue? (hexDigit n).toNat = some n := by decide

theorem hexValue?_lt {n value : Nat} (h : hexValue? n = some value) : value < 16 := by
  unfold hexValue? at h
  split_ifs at h <;> cases h <;> omega

theorem hexValue?_eq_some_iff {n value : Nat} : hexValue? n = some value ↔
    (0x30 ≤ n ∧ n ≤ 0x39 ∧ n = value + 0x30) ∨ (0x61 ≤ n ∧ n ≤ 0x66 ∧ n = value + 0x57) ∨
      0x41 ≤ n ∧ n ≤ 0x46 ∧ n = value + 0x37 := by
  unfold hexValue?
  split_ifs <;> simp only [Option.some.injEq, false_iff] <;> omega

theorem hexNumber?_concat (digits : List Char) (c : Char) : hexNumber? (digits ++ [c]) =
    (hexNumber? digits).bind fun n => (hexValue? c.toNat).map (n * 16 + ·) := by
  rw [hexNumber?, List.foldl_append, ← hexNumber?]
  cases hexNumber? digits with
  | none => rfl
  | some n => cases h : hexValue? c.toNat <;> simp [h]

/-- **The digits of a number write the number.** -/
theorem hexNumber?_hexDigits (n : Nat) : hexNumber? (hexDigits n) = some n := by
  fun_induction hexDigits n with
  | case1 n h =>
    rw [← List.nil_append [hexDigit n], hexNumber?_concat, hexValue?_hexDigit n h]
    simp [hexNumber?]
  | case2 n h ih =>
    rw [hexNumber?_concat, ih, hexValue?_hexDigit (n % 16) (Nat.mod_lt n (by omega)),
      Option.bind_some, Option.map_some, Nat.div_add_mod' n 16]

theorem hexDigits_ne_nil (n : Nat) : hexDigits n ≠ [] := by
  fun_induction hexDigits n <;> simp

theorem length_hexDigits_le {n k : Nat} (h : n < Nat.pow 16 (k + 1)) :
    (hexDigits n).length ≤ k + 1 := by
  fun_induction hexDigits n generalizing k with
  | case1 => simp
  | case2 n hn ih =>
    cases k with
    | zero => exact absurd h hn
    | succ k =>
      have hdiv : n / 16 < Nat.pow 16 (k + 1) := by
        rw [Nat.div_lt_iff_lt_mul (by omega)]
        exact h
      have := ih hdiv
      rw [List.length_append, List.length_singleton]
      omega

theorem mem_hexDigits {n : Nat} {c : Char} (h : c ∈ hexDigits n) : ∃ k < 16, c = hexDigit k := by
  fun_induction hexDigits n with
  | case1 n hn => exact ⟨n, hn, List.mem_singleton.1 h⟩
  | case2 n _ ih =>
    rcases List.mem_append.1 h with h | h
    · exact ih h
    · exact ⟨n % 16, Nat.mod_lt n (by omega), List.mem_singleton.1 h⟩

/-- So many digits write no larger number. -/
theorem lt_of_hexNumber? {digits : List Char} {n : Nat} (h : hexNumber? digits = some n) :
    n < Nat.pow 16 digits.length := by
  induction digits using List.reverseRecOn generalizing n with
  | nil =>
    cases h
    exact Nat.one_pos
  | append_singleton digits c ih =>
    rw [hexNumber?_concat] at h
    obtain ⟨front, hfront, h⟩ := Option.bind_eq_some_iff.1 h
    obtain ⟨last, hlast, rfl⟩ := Option.map_eq_some_iff.1 h
    have hlt := ih hfront
    have hdigit := hexValue?_lt hlast
    rw [List.length_append, List.length_singleton]
    change front * 16 + last < Nat.pow 16 digits.length * 16
    omega

/-! ### Decimal digits -/

theorem toString_toList (n : Nat) : (toString n).toList = Nat.toDigits 10 n := by
  rw [Nat.toString_eq_ofList_toDigits, String.toList_ofList]

/-- **The digits of a number add up to the number.** -/
theorem foldl_toDigits (n : Nat) :
    (Nat.toDigits 10 n).foldl (fun n c => n * 10 + (c.toNat - 0x30)) 0 = n := by
  have hfold := Nat.ofDigitChars_ten_toDigits (n := n)
  rw [Nat.ofDigitChars_eq_foldl] at hfold
  simp only [Nat.mul_comm 10] at hfold
  exact hfold

theorem isDigit_of_mem_toDigits {n : Nat} {c : Char} (h : c ∈ Nat.toDigits 10 n) :
    c.isDigit = true := Nat.isDigit_of_mem_toDigits (by omega) (by omega) h

/-- Only the number zero begins with a zero. -/
theorem head?_toDigits {n : Nat} (h : 0 < n) : (Nat.toDigits 10 n).head? ≠ some '0' := by
  induction n using Nat.strongRecOn with
  | ind n ih =>
    by_cases hn : n < 10
    · have hall : ∀ n < 10, 0 < n → (Nat.toDigits 10 n).head? ≠ some '0' := by decide
      exact hall n hn h
    · rw [Nat.toDigits_of_base_le (by omega) (Nat.not_lt.1 hn),
        List.head?_append_of_ne_nil _ Nat.toDigits_ne_nil]
      exact ih (n / 10) (by omega) (by omega)

end Text

end ImageGateway
