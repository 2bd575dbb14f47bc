import ImageGateway.Codec.Base64
import Mathlib.Data.List.Basic

/-!
# Reading and writing Base64

Every byte string has exactly one written form.  A text is read in groups of four characters, and
the last group may be padded; what is shown for each kind of group is that only the characters that
are written for some bytes are read, and that they are read as those bytes.

* `Base64.value?_eq_some_iff` : the digits and their values.
* `Base64.decodeTwo?_eq_some_iff`, `Base64.decodeThree?_eq_some_iff`,
  `Base64.decodeFour?_eq_some_iff` : the groups of one, two and three bytes.
* `Base64.decode?_eq_some_iff` : **a text is read as a byte string exactly if it is the written form
  of the byte string**.
* `Base64.encode_subset` : of which characters written forms consist.
-/

namespace ImageGateway

namespace Base64

variable {a b c d : Char} {t rest : List Char} {bytes : Bytes}

/-! ### Digits -/

theorem value?_digit : ∀ n < 64, value? (digit n) = some n := by decide +kernel

theorem value?_eq_some_iff {n : Nat} : value? c = some n ↔ n < 64 ∧ c = digit n := by
  constructor
  · intro h
    obtain ⟨hlt, hc, -⟩ := List.findIdx?_eq_some_iff_getElem.1 h
    refine ⟨hlt, ?_⟩
    rw [digit, List.getD_eq_getElem?_getD, List.getElem?_eq_getElem hlt]
    exact (beq_iff_eq.1 hc).symm
  · rintro ⟨hlt, rfl⟩
    exact value?_digit n hlt

theorem digit_mem (n : Nat) : digit n ∈ alphabet := by
  rw [digit, List.getD_eq_getElem?_getD]
  cases h : alphabet[n]? with
  | none => exact (by decide : 'A' ∈ alphabet)
  | some c => exact List.mem_of_getElem? h

/-- The padding is no digit. -/
theorem digit_ne_pad (n : Nat) : digit n ≠ '=' := fun h =>
  (by decide : '=' ∉ alphabet) (h ▸ digit_mem n)

/-! ### Groups

A group writes one number: in bytes as digits to the base 256, in characters to the base 64. -/

theorem sum_octets (n : Nat) : n / 65536 * 65536 + n / 256 % 256 * 256 + n % 256 = n := by omega

theorem sum_sextets (n : Nat) :
    n / 262144 * 262144 + n / 4096 % 64 * 4096 + n / 64 % 64 * 64 + n % 64 = n := by omega

theorem sum_two_octets {n : Nat} (h : n % 4 = 0) :
    n / 1024 * 1024 + n / 4 % 256 * 4 = n := by omega

theorem sum_three_sextets (n : Nat) : n / 4096 * 4096 + n / 64 % 64 * 64 + n % 64 = n := by omega

theorem decodeTwo?_eq_some_iff :
    decodeTwo? a b = some bytes ↔ ∃ x, bytes = [x] ∧ [a, b, '=', '='] = encode [x] := by
  simp only [decodeTwo?, Option.bind_eq_bind, Option.bind_eq_some_iff, value?_eq_some_iff]
  constructor
  · rintro ⟨x, ⟨hx, rfl⟩, y, ⟨hy, rfl⟩, h⟩
    split_ifs at h with hzero
    cases h
    have hbyte : (UInt8.ofNat (x * 4 + y / 16)).toNat = x * 4 + y / 16 :=
      UInt8.toNat_ofNat_of_lt' (by show _ < 256; omega)
    refine ⟨_, rfl, ?_⟩
    rw [encode, hbyte, show (x * 4 + y / 16) / 4 = x by omega,
      show (x * 4 + y / 16) % 4 * 16 = y by omega]
  · rintro ⟨x, rfl, h⟩
    have hlt : x.toNat < 256 := x.toNat_lt
    simp only [encode, List.cons.injEq, and_true] at h
    obtain ⟨rfl, rfl⟩ := h
    refine ⟨_, ⟨by omega, rfl⟩, _, ⟨by omega, rfl⟩, ?_⟩
    rw [if_pos (by omega), show x.toNat / 4 * 4 + x.toNat % 4 * 16 / 16 = x.toNat by omega,
      UInt8.ofNat_toNat]

theorem decodeThree?_eq_some_iff :
    decodeThree? a b c = some bytes ↔ ∃ x y, bytes = [x, y] ∧ [a, b, c, '='] = encode [x, y] := by
  simp only [decodeThree?, Option.bind_eq_bind, Option.bind_eq_some_iff, value?_eq_some_iff]
  constructor
  · rintro ⟨x, ⟨hx, rfl⟩, y, ⟨hy, rfl⟩, z, ⟨hz, rfl⟩, h⟩
    split_ifs at h with hzero
    cases h
    generalize hn : x * 4096 + y * 64 + z = n at *
    have hfirst : (UInt8.ofNat (n / 1024)).toNat = n / 1024 :=
      UInt8.toNat_ofNat_of_lt' (by show _ < 256; omega)
    have hsecond : (UInt8.ofNat (n / 4 % 256)).toNat = n / 4 % 256 :=
      UInt8.toNat_ofNat_of_lt' (by show _ < 256; omega)
    refine ⟨_, _, rfl, ?_⟩
    rw [encode, hfirst, hsecond, sum_two_octets (by omega),
      show n / 4096 = x by omega, show n / 64 % 64 = y by omega, show n % 64 = z by omega]
  · rintro ⟨x, y, rfl, h⟩
    have hx : x.toNat < 256 := x.toNat_lt
    have hy : y.toNat < 256 := y.toNat_lt
    simp only [encode, List.cons.injEq, and_true] at h
    obtain ⟨rfl, rfl, rfl⟩ := h
    generalize hn : x.toNat * 1024 + y.toNat * 4 = n
    refine ⟨_, ⟨by omega, rfl⟩, _, ⟨by omega, rfl⟩, _, ⟨by omega, rfl⟩, ?_⟩
    rw [if_pos (by omega), sum_three_sextets,
      show n / 1024 = x.toNat by omega, show n / 4 % 256 = y.toNat by omega, UInt8.ofNat_toNat,
      UInt8.ofNat_toNat]

theorem decodeFour?_eq_some_iff :
    decodeFour? a b c d = some bytes ↔
      ∃ x y z, bytes = [x, y, z] ∧ [a, b, c, d] = encode [x, y, z] := by
  simp only [decodeFour?, Option.bind_eq_bind, Option.bind_eq_some_iff, value?_eq_some_iff]
  constructor
  · rintro ⟨x, ⟨hx, rfl⟩, y, ⟨hy, rfl⟩, z, ⟨hz, rfl⟩, w, ⟨hw, rfl⟩, h⟩
    cases h
    generalize hn : x * 262144 + y * 4096 + z * 64 + w = n
    have hfirst : (UInt8.ofNat (n / 65536)).toNat = n / 65536 :=
      UInt8.toNat_ofNat_of_lt' (by show _ < 256; omega)
    have hsecond : (UInt8.ofNat (n / 256 % 256)).toNat = n / 256 % 256 :=
      UInt8.toNat_ofNat_of_lt' (by show _ < 256; omega)
    have hthird : (UInt8.ofNat (n % 256)).toNat = n % 256 :=
      UInt8.toNat_ofNat_of_lt' (by show _ < 256; omega)
    refine ⟨_, _, _, rfl, ?_⟩
    rw [encode, encode, hfirst, hsecond, hthird,
      sum_octets,
      show n / 262144 = x by omega, show n / 4096 % 64 = y by omega,
      show n / 64 % 64 = z by omega, show n % 64 = w by omega]
  · rintro ⟨x, y, z, rfl, h⟩
    have hx : x.toNat < 256 := x.toNat_lt
    have hy : y.toNat < 256 := y.toNat_lt
    have hz : z.toNat < 256 := z.toNat_lt
    simp only [encode, List.cons.injEq, and_true] at h
    obtain ⟨rfl, rfl, rfl, rfl⟩ := h
    generalize hn : x.toNat * 65536 + y.toNat * 256 + z.toNat = n
    refine ⟨_, ⟨by omega, rfl⟩, _, ⟨by omega, rfl⟩, _, ⟨by omega, rfl⟩, _, ⟨by omega, rfl⟩, ?_⟩
    rw [sum_sextets,
      show n / 65536 = x.toNat by omega, show n / 256 % 256 = y.toNat by omega,
      show n % 256 = z.toNat by omega, UInt8.ofNat_toNat, UInt8.ofNat_toNat, UInt8.ofNat_toNat]

/-! ### Whole texts -/

theorem encode_cons (x y z : UInt8) (bytes : Bytes) :
    encode (x :: y :: z :: bytes) = encode [x, y, z] ++ encode bytes := by
  simp [encode]

/-- A group that does not end in padding is read as three bytes. -/
theorem decode?_cons (h : (rest.isEmpty && d == '=') = false) :
    decode? (a :: b :: c :: d :: rest) =
      (decodeFour? a b c d).bind fun front => (decode? rest).map (front ++ ·) := by
  rw [decode?, if_neg (by simp [h])]
  cases decodeFour? a b c d <;> cases decode? rest <;> rfl

theorem decode?_encode (bytes : Bytes) : decode? (encode bytes) = some bytes := by
  fun_induction encode bytes with
  | case1 x y z bytes n ih =>
    have hgroup : decodeFour? _ _ _ _ = some [x, y, z] :=
      decodeFour?_eq_some_iff.2 ⟨x, y, z, rfl, rfl⟩
    rw [decode?_cons (by simp [digit_ne_pad]), hgroup, ih]
    rfl
  | case2 x y n =>
    have hgroup : decodeThree? _ _ _ = some [x, y] :=
      decodeThree?_eq_some_iff.2 ⟨x, y, rfl, rfl⟩
    simp only [decode?, List.isEmpty_nil, beq_self_eq_true, Bool.and_self, if_true, beq_iff_eq,
      if_neg (digit_ne_pad _)]
    exact hgroup
  | case3 x => exact decodeTwo?_eq_some_iff.2 ⟨x, rfl, rfl⟩
  | case4 => rfl

theorem encode_of_decode? (h : decode? t = some bytes) : t = encode bytes := by
  fun_induction decode? t generalizing bytes with
  | case1 =>
    cases h
    rfl
  | case2 a b c d rest hend hc =>
    obtain ⟨hrest, rfl⟩ : rest = [] ∧ d = '=' := by simpa using hend
    obtain rfl : c = '=' := by simpa using hc
    obtain ⟨x, rfl, hgroup⟩ := decodeTwo?_eq_some_iff.1 h
    rw [hrest, hgroup]
  | case3 a b c d rest hend hc =>
    obtain ⟨hrest, rfl⟩ : rest = [] ∧ d = '=' := by simpa using hend
    obtain ⟨x, y, rfl, hgroup⟩ := decodeThree?_eq_some_iff.1 h
    rw [hrest, hgroup]
  | case4 a b c d rest hmore ih =>
    obtain ⟨front, hfront, h⟩ := Option.bind_eq_some_iff.1 h
    obtain ⟨back, hback, h⟩ := Option.bind_eq_some_iff.1 h
    cases h
    obtain ⟨x, y, z, rfl, hgroup⟩ := decodeFour?_eq_some_iff.1 hfront
    rw [List.cons_append, List.cons_append, List.cons_append, List.nil_append, encode_cons,
      ← hgroup, ih hback]
    rfl
  | case5 => cases h

/-- **A text is read as a byte string exactly if it is the written form of the byte string.** -/
theorem decode?_eq_some_iff : decode? t = some bytes ↔ t = encode bytes :=
  ⟨encode_of_decode?, fun h => h ▸ decode?_encode bytes⟩

/-- A written form consists of digits and padding. -/
theorem encode_subset (bytes : Bytes) : encode bytes ⊆ '=' :: alphabet := by
  induction bytes using encode.induct with
  | case1 x y z bytes ih => simp [encode, digit_mem, ih]
  | case2 x y => simp [encode, digit_mem]
  | case3 x => simp [encode, digit_mem]
  | case4 => exact List.nil_subset _

end Base64

end ImageGateway
