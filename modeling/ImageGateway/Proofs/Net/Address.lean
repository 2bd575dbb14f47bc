import ImageGateway.Net.Address
import ImageGateway.Proofs.Text.Character
import Mathlib.Data.List.TakeWhile

/-!
# Addresses and their written forms

A version 6 address has many written forms.  The one that is chosen leaves out a row of zeros, which
the reader puts back: it counts the pieces on both sides of the double colon, and since the row was
all that was left out, as many zeros are missing.

* `IsIpv6` : eight pieces of sixteen bits.
* `isIpv6_of_ipv6?` : what is read from a text is such an address.
* `longestZeroRow_spec` : a row that is found is one of zeros, inside the address.
* `ipv6?_renderIpv6` : **the written form of an address is read as that address.**
-/

namespace ImageGateway

namespace Net

open Text (hexDigits)

/-! ### What is read -/

/-- The pieces of a version 6 address. -/
structure IsIpv6 (pieces : Ipv6) : Prop where
  length_eq : pieces.length = 8
  lt : ∀ n ∈ pieces, n < 65536

theorem octet?_le {digits : List Char} {n : Nat} (h : octet? digits = some n) : n ≤ 255 := by
  obtain ⟨m, -, h⟩ := Option.bind_eq_some_iff.1 h
  split_ifs at h with hm
  cases h
  simp only [Bool.and_eq_true, decide_eq_true_eq] at hm
  exact hm.1.2

theorem mem_of_mapM {α β : Type} {f : α → Option β} {l : List α} {found : List β}
    (h : l.mapM f = some found) : ∀ b ∈ found, ∃ a ∈ l, f a = some b := by
  induction l generalizing found with
  | nil =>
    cases h
    simp
  | cons a l ih =>
    rw [List.mapM_cons] at h
    obtain ⟨b, hb, h⟩ := Option.bind_eq_some_iff.1 h
    obtain ⟨rest, hrest, h⟩ := Option.bind_eq_some_iff.1 h
    cases h
    rintro c (_ | ⟨_, hc⟩)
    · exact ⟨a, List.mem_cons_self, hb⟩
    · obtain ⟨d, hd, hfd⟩ := ih hrest c hc
      exact ⟨d, List.mem_cons_of_mem a hd, hfd⟩

theorem ipv4?_le {s : List Char} {bytes : Ipv4} (h : ipv4? s = some bytes) :
    ∀ n ∈ bytes, n ≤ 255 := by
  unfold ipv4? at h
  dsimp only at h
  split_ifs at h
  intro n hn
  obtain ⟨digits, -, hdigits⟩ := mem_of_mapM h n hn
  exact octet?_le hdigits

theorem piece?_lt {digits : List Char} {n : Nat} (h : piece? digits = some n) : n < 65536 := by
  unfold piece? at h
  split_ifs at h with hlength
  have hlt := Text.lt_of_hexNumber? h
  simp only [Bool.and_eq_true, decide_eq_true_eq] at hlength
  have hbound : Nat.pow 16 digits.length ≤ Nat.pow 16 4 :=
    Nat.pow_le_pow_right (by omega) hlength.2
  exact Nat.lt_of_lt_of_le hlt hbound

theorem pieces?_lt {dotted : Bool} {parts : List (List Char)} {pieces : List Nat}
    (h : pieces? dotted parts = some pieces) : ∀ n ∈ pieces, n < 65536 := by
  fun_induction pieces? dotted parts generalizing pieces with
  | case1 =>
    cases h
    simp
  | case2 part n hn =>
    cases h
    simpa using piece?_lt hn
  | case3 part _ _ a b c d hbytes =>
    cases h
    have hle := ipv4?_le hbytes
    simp only [List.mem_cons, List.not_mem_nil, or_false, forall_eq_or_imp, forall_eq] at hle ⊢
    omega
  | case4 => cases h
  | case5 => cases h
  | case6 part parts _ ih =>
    obtain ⟨n, hn, h⟩ := Option.bind_eq_some_iff.1 h
    obtain ⟨rest, hrest, h⟩ := Option.bind_eq_some_iff.1 h
    cases h
    rw [List.forall_mem_cons]
    exact ⟨piece?_lt hn, ih hrest⟩

theorem side?_lt {dotted : Bool} {s : List Char} {pieces : List Nat}
    (h : side? dotted s = some pieces) : ∀ n ∈ pieces, n < 65536 := by
  unfold side? at h
  split_ifs at h
  · cases h
    simp
  · exact pieces?_lt h

/-- **What is read from a text is an address.** -/
theorem isIpv6_of_ipv6? {s : List Char} {pieces : Ipv6} (h : ipv6? s = some pieces) :
    IsIpv6 pieces := by
  unfold ipv6? at h
  split at h
  · obtain ⟨all, hall, h⟩ := Option.bind_eq_some_iff.1 h
    split_ifs at h with hlength
    cases h
    exact ⟨hlength, pieces?_lt hall⟩
  · obtain ⟨front, hfront, h⟩ := Option.bind_eq_some_iff.1 h
    obtain ⟨back, hback, h⟩ := Option.bind_eq_some_iff.1 h
    dsimp only at h
    split_ifs at h with hcount
    cases h
    refine ⟨by simp; omega, fun n hn => ?_⟩
    simp only [List.mem_append, List.mem_replicate] at hn
    rcases hn with (hn | ⟨-, rfl⟩) | hn
    · exact side?_lt hfront n hn
    · omega
    · exact side?_lt hback n hn

/-! ### What is written -/

theorem piece?_hexDigits {n : Nat} (h : n < 65536) : piece? (hexDigits n) = some n := by
  have hpos := List.length_pos_iff.2 (Text.hexDigits_ne_nil n)
  have hle : (hexDigits n).length ≤ 4 := Text.length_hexDigits_le (k := 3) h
  rw [piece?, if_pos (by simp; omega), Text.hexNumber?_hexDigits]

theorem pieces?_hexDigits (dotted : Bool) {pieces : List Nat} (h : ∀ n ∈ pieces, n < 65536) :
    pieces? dotted (pieces.map hexDigits) = some pieces := by
  induction pieces with
  | nil => rfl
  | cons n pieces ih =>
    rw [List.forall_mem_cons] at h
    cases pieces with
    | nil => simp [pieces?, piece?_hexDigits h.1]
    | cons m pieces =>
      have hrest := ih h.2
      rw [List.map_cons] at hrest
      simp [pieces?, piece?_hexDigits h.1, hrest]

theorem colon_notMem_hexDigits (n : Nat) : ':' ∉ hexDigits n := by
  intro h
  obtain ⟨k, hk, heq⟩ := Text.mem_hexDigits h
  have hne : ∀ k < 16, ':' ≠ Text.hexDigit k := by decide
  exact hne k hk heq

theorem renderPieces_toList (pieces : List Nat) :
    (renderPieces pieces).toList = [':'].intercalate (pieces.map hexDigits) := by
  rw [renderPieces, String.toList_intercalate, List.map_map]
  simp only [Function.comp_def, String.toList_ofList]
  rfl

theorem splitOn_renderPieces {pieces : List Nat} (h : pieces ≠ []) :
    (renderPieces pieces).toList.splitOn ':' = pieces.map hexDigits := by
  rw [renderPieces_toList, List.splitOn_intercalate]
  · simp only [List.forall_mem_map]
    exact fun n _ => colon_notMem_hexDigits n
  · simpa using h

theorem side?_renderPieces (dotted : Bool) {pieces : List Nat} (h : ∀ n ∈ pieces, n < 65536) :
    side? dotted (renderPieces pieces).toList = some pieces := by
  cases pieces with
  | nil => rfl
  | cons n pieces =>
    have hne : (renderPieces (n :: pieces)).toList ≠ [] := by
      rw [renderPieces_toList, List.map_cons]
      cases pieces <;> simp [Text.hexDigits_ne_nil]
    rw [side?, if_neg (by simpa using hne), splitOn_renderPieces (List.cons_ne_nil n pieces),
      pieces?_hexDigits dotted h]

/-! ### The double colon -/

theorem cutDoubleColon_append {s : List Char} (h : ':' ∉ s) (tail : List Char) :
    cutDoubleColon (s ++ tail) = (cutDoubleColon tail).map fun (x, y) => (s ++ x, y) := by
  induction s with
  | nil => simp
  | cons c s ih =>
    simp only [List.mem_cons, not_or] at h
    have hstep : cutDoubleColon (c :: (s ++ tail)) =
        (cutDoubleColon (s ++ tail)).map fun (x, y) => (c :: x, y) := by
      rw [cutDoubleColon]
      rintro rest heq -
      exact h.1 heq.symm
    rw [List.cons_append, hstep, ih h.2, Option.map_map]
    rfl

theorem cutDoubleColon_colon {c : Char} (h : c ≠ ':') (s : List Char) :
    cutDoubleColon (':' :: c :: s) = (cutDoubleColon (c :: s)).map fun (x, y) => (':' :: x, y) := by
  rw [cutDoubleColon]
  rintro rest - heq
  exact h (List.cons.inj heq).1

/-- Between the pieces there are single colons. -/
theorem cutDoubleColon_renderPieces (pieces : List Nat) (tail : List Char) :
    cutDoubleColon ((renderPieces pieces).toList ++ tail) =
      (cutDoubleColon tail).map fun (x, y) => ((renderPieces pieces).toList ++ x, y) := by
  simp only [renderPieces_toList]
  induction pieces with
  | nil => simp
  | cons n pieces ih =>
    cases pieces with
    | nil =>
      rw [List.map_cons, List.map_nil, List.intercalate_singleton,
        cutDoubleColon_append (colon_notMem_hexDigits n)]
    | cons m pieces =>
      rw [List.map_cons, List.map_cons, List.intercalate_cons_cons, ← List.map_cons]
      simp only [List.append_assoc, List.cons_append, List.nil_append]
      -- the piece behind the colon is not empty
      obtain ⟨c, s, hs⟩ : ∃ c s, [':'].intercalate ((m :: pieces).map hexDigits) = c :: s ∧
          c ≠ ':' := by
        obtain ⟨d, digits, hdigits⟩ := List.exists_cons_of_ne_nil (Text.hexDigits_ne_nil m)
        have hd : d ≠ ':' := by
          rintro rfl
          exact colon_notMem_hexDigits m (hdigits ▸ List.mem_cons_self)
        cases pieces with
        | nil => exact ⟨d, digits, by simp [hdigits], hd⟩
        | cons k pieces =>
          refine ⟨d, digits ++ ([':'] ++ [':'].intercalate ((k :: pieces).map hexDigits)), ?_, hd⟩
          rw [List.map_cons, List.map_cons, List.intercalate_cons_cons, hdigits]
          simp
      rw [cutDoubleColon_append (colon_notMem_hexDigits n), hs.1, List.cons_append,
        cutDoubleColon_colon hs.2, ← List.cons_append, ← hs.1, ih, Option.map_map, Option.map_map]
      rfl

/-! ### The row of zeros -/

theorem take_zeroRow (pieces : List Nat) :
    pieces.take (zeroRow pieces) = List.replicate (zeroRow pieces) 0 := by
  have htake : pieces.take (zeroRow pieces) = pieces.takeWhile (· == 0) :=
    List.prefix_iff_eq_take.1 (List.takeWhile_prefix _) |>.symm
  rw [List.eq_replicate_iff, htake]
  exact ⟨rfl, fun n hn => by simpa using List.mem_takeWhile_imp hn⟩

theorem zeroRow_le (pieces : List Nat) : zeroRow pieces ≤ pieces.length :=
  (List.takeWhile_prefix _).length_le

/-- **A row that is found is one of zeros**, and it lies inside the list. -/
theorem longestZeroRow_spec (start : Nat) (pieces : List Nat) :
    ∃ skipped, (longestZeroRow start pieces).1 = start + skipped ∧
      skipped + (longestZeroRow start pieces).2 ≤ pieces.length ∧
      (pieces.drop skipped).take (longestZeroRow start pieces).2 =
        List.replicate (longestZeroRow start pieces).2 0 := by
  induction pieces generalizing start with
  | nil => exact ⟨0, rfl, Nat.le_refl 0, rfl⟩
  | cons n pieces ih =>
    rw [longestZeroRow]
    split_ifs
    · obtain ⟨skipped, hstart, hle, hzeros⟩ := ih (start + 1)
      refine ⟨skipped + 1, by omega, ?_, hzeros⟩
      rw [List.length_cons]
      omega
    · exact ⟨0, rfl, by rw [Nat.zero_add]; exact zeroRow_le (n :: pieces), take_zeroRow _⟩

/-- A list is the two sides of a row of zeros and the row. -/
theorem take_replicate_drop {pieces : List Nat} {start length : Nat}
    (h : (pieces.drop start).take length = List.replicate length 0) :
    pieces.take start ++ List.replicate length 0 ++ pieces.drop (start + length) = pieces := by
  rw [← h, ← List.drop_drop, List.append_assoc, List.take_append_drop, List.take_append_drop]

theorem ipv6?_renderPieces {pieces : Ipv6} (h : IsIpv6 pieces) :
    ipv6? (renderPieces pieces).toList = some pieces := by
  have hne : pieces ≠ [] := by
    rintro rfl
    cases h.length_eq
  have hcut := cutDoubleColon_renderPieces pieces []
  rw [List.append_nil] at hcut
  rw [ipv6?, hcut]
  simp [cutDoubleColon, splitOn_renderPieces hne, pieces?_hexDigits true h.lt, h.length_eq]

/-- A row of zeros may be left out. -/
theorem ipv6?_elided {pieces : Ipv6} (h : IsIpv6 pieces) {first length : Nat} (hpos : 0 < length)
    (hle : first + length ≤ 8)
    (hzeros : (pieces.drop first).take length = List.replicate length 0) :
    ipv6? (renderPieces (pieces.take first) ++ "::" ++
      renderPieces (pieces.drop (first + length))).toList = some pieces := by
  have htext : (renderPieces (pieces.take first) ++ "::" ++
        renderPieces (pieces.drop (first + length))).toList =
      (renderPieces (pieces.take first)).toList ++
        ':' :: ':' :: (renderPieces (pieces.drop (first + length))).toList := by
    simp
  have hcut : cutDoubleColon (renderPieces (pieces.take first) ++ "::" ++
        renderPieces (pieces.drop (first + length))).toList =
      some ((renderPieces (pieces.take first)).toList,
        (renderPieces (pieces.drop (first + length))).toList) := by
    rw [htext, cutDoubleColon_renderPieces]
    simp [cutDoubleColon]
  have hfront : side? false (renderPieces (pieces.take first)).toList = some (pieces.take first) :=
    side?_renderPieces false fun n hn => h.lt n (List.mem_of_mem_take hn)
  have hback : side? true (renderPieces (pieces.drop (first + length))).toList =
      some (pieces.drop (first + length)) :=
    side?_renderPieces true fun n hn => h.lt n (List.mem_of_mem_drop hn)
  have hmissing : 8 - ((pieces.take first).length + (pieces.drop (first + length)).length) =
      length := by
    rw [List.length_take, List.length_drop, h.length_eq]
    omega
  rw [ipv6?, hcut]
  dsimp only
  rw [hfront, hback]
  simp only [Option.bind_eq_bind, Option.bind_some, hmissing]
  rw [if_pos, take_replicate_drop hzeros]
  rw [List.length_take, List.length_drop, h.length_eq]
  omega

/-- **The written form of an address is read as that address.** -/
theorem ipv6?_renderIpv6 {pieces : Ipv6} (h : IsIpv6 pieces) :
    ipv6? (renderIpv6 pieces).toList = some pieces := by
  obtain ⟨start, hstart, hle, hzeros⟩ := longestZeroRow_spec 0 pieces
  generalize hrow : longestZeroRow 0 pieces = row at hstart hle hzeros
  obtain ⟨first, length⟩ := row
  obtain rfl : first = start := by simpa using hstart
  dsimp only at hle hzeros
  rw [h.length_eq] at hle
  rw [renderIpv6, hrow]
  dsimp only
  split_ifs with hshort
  · exact ipv6?_renderPieces h
  · exact ipv6?_elided h (by omega) hle hzeros

/-! ### Version 4 -/

theorem renderIpv4_toList (bytes : Ipv4) :
    (renderIpv4 bytes).toList = ['.'].intercalate (bytes.map (Nat.toDigits 10)) := by
  rw [renderIpv4, String.toList_intercalate, List.map_map]
  simp only [Function.comp_def, Text.toString_toList]
  rfl

end Net

end ImageGateway
