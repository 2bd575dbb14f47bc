import ImageGateway.Proofs.Codec.Percent
import ImageGateway.Proofs.Net.Address
import ImageGateway.Proofs.Text.Utf8
import ImageGateway.Url.Host
import Mathlib.Data.List.Basic

/-!
# Hosts in normal form

The host of a URL has many spellings: capital letters, percent-encoding, characters outside ASCII,
addresses in other bases or with a part left out.  Reading brings all of them to one form, and that
form is read as itself.

* `Domain.isNormal` : the characters of a domain in its ASCII form.
* `Domain.isNormal_of_ofEncoded?`, `Domain.ofEncoded?_eq_self` : a name is brought to these
  characters, and a name that consists of them stays.
* `Host.IsNormal` : the hosts that reading yields.
* `Host.ofDomain_render` : **a host in normal form is read as itself.**
-/

namespace ImageGateway

/-! ### Domains -/

theorem forall_mem_intercalate {α : Type} {p : α → Prop} {sep : α} {parts : List (List α)}
    (hsep : p sep) (h : ∀ part ∈ parts, ∀ a ∈ part, p a) :
    ∀ a ∈ [sep].intercalate parts, p a := by
  induction parts with
  | nil => simp
  | cons part parts ih =>
    rw [List.forall_mem_cons] at h
    cases parts with
    | nil => simpa using h.1
    | cons next parts =>
      rw [List.intercalate_cons_cons]
      simp only [List.mem_append, List.mem_singleton]
      rintro a ((ha | rfl) | ha)
      · exact h.1 a ha
      · exact hsep
      · exact ih h.2 a ha

theorem mem_intercalate {α : Type} {sep a : α} {parts : List (List α)} {part : List α}
    (h : part ∈ parts) (ha : a ∈ part) : a ∈ [sep].intercalate parts := by
  induction parts with
  | nil => cases h
  | cons first parts ih =>
    cases parts with
    | nil =>
      obtain rfl := List.mem_singleton.1 h
      simpa using ha
    | cons next parts =>
      rw [List.intercalate_cons_cons]
      rcases List.mem_cons.1 h with rfl | h
      · simp [ha]
      · exact List.mem_append_right _ (ih h)

namespace Domain

/-- A character of a domain in its ASCII form. -/
def isNormal (c : Char) : Bool := c.toNat < 0x80 && !isForbidden c && !c.isUpper

theorem isNormal_iff {c : Char} :
    isNormal c = true ↔ c.toNat < 0x80 ∧ isForbidden c = false ∧ c.isUpper = false := by
  simp [isNormal, and_assoc]

theorem isNormal_imp_ne {c d : Char} (h : isNormal c = true) (hd : isForbidden d = true) :
    c ≠ d := by
  rintro rfl
  rw [(isNormal_iff.1 h).2.1] at hd
  cases hd

theorem normalForm_of_lt {c : Char} (hlt : c.toNat < 0x80) (hupper : c.isUpper = false) :
    normalForm c = c := by
  have hlow : normalForm c = c.toLower := by
    unfold normalForm
    simp only [Bool.or_eq_true, beq_iff_eq, Bool.and_eq_true, decide_eq_true_eq]
    rw [if_neg (by omega), if_neg (by omega), if_pos hlt]
  rw [hlow, Text.toLower_of_not_isUpper hupper]

theorem isIgnored_of_lt {c : Char} (hlt : c.toNat < 0x80) : isIgnored c = false := by
  simp only [isIgnored, Bool.or_eq_false_iff, Bool.and_eq_false_iff, beq_eq_false_iff_ne,
    decide_eq_false_iff_not]
  omega

theorem isDisallowed_of_isNormal {c : Char} (h : isNormal c = true) : isDisallowed c = false := by
  have hlt := (isNormal_iff.1 h).1
  simp only [isDisallowed, Bool.or_eq_false_iff, Bool.and_eq_false_iff, decide_eq_false_iff_not]
  omega

theorem asciiLabel_of_isNormal {label : List Char} (h : ∀ c ∈ label, isNormal c = true) :
    asciiLabel label = label := by
  rw [asciiLabel, if_pos]
  rw [List.all_eq_true]
  exact fun c hc => decide_eq_true (isNormal_iff.1 (h c hc)).1

theorem mem_of_mem_splitOn {sep c : Char} {l part : List Char} (h : part ∈ l.splitOn sep)
    (hc : c ∈ part) : c ∈ l := by
  have hmem := @mem_intercalate Char sep _ _ _ h hc
  rwa [List.intercalate_splitOn] at hmem

/-- **A name in its ASCII form stays as it is.** -/
theorem toAscii?_eq_self {name : List Char} (h : ∀ c ∈ name, isNormal c = true) :
    toAscii? name = some name := by
  have hfilter : name.filter (!isIgnored ·) = name :=
    List.filter_eq_self.2 fun c hc => by simp [isIgnored_of_lt (isNormal_iff.1 (h c hc)).1]
  have hmap : name.map normalForm = name :=
    (List.map_congr_left fun c hc => normalForm_of_lt (isNormal_iff.1 (h c hc)).1
      (isNormal_iff.1 (h c hc)).2.2).trans (List.map_id' name)
  have hlabels : (name.splitOn '.').map asciiLabel = name.splitOn '.' :=
    (List.map_congr_left fun label hlabel => asciiLabel_of_isNormal fun c hc =>
      h c (mem_of_mem_splitOn hlabel hc)).trans (List.map_id' _)
  have hallowed : (name.any fun c => isForbidden c || isDisallowed c) = false := by
    rw [List.any_eq_false]
    intro c hc
    simp [(isNormal_iff.1 (h c hc)).2.1, isDisallowed_of_isNormal (h c hc)]
  simp only [toAscii?, hfilter, hmap, hallowed, hlabels, List.intercalate_splitOn]
  rfl

theorem ofEncoded?_eq_self {name : List Char} (h : ∀ c ∈ name, isNormal c = true) :
    ofEncoded? name = some name := by
  have hdecode : Percent.decode (Utf8.encode (String.ofList name)) =
      Utf8.encode (String.ofList name) :=
    Percent.decode_eq_self ((Utf8.mem_encode_iff (c := '%') (by decide) name).not.2 fun hmem =>
      isNormal_imp_ne (h _ hmem) (by decide) rfl)
  simp [ofEncoded?, hdecode, Utf8.decode?_encode, toAscii?_eq_self h]

theorem isUpper_ofNat_lowerPoint {n : Nat} (h : 0x80 ≤ n) :
    (Char.ofNat (lowerPoint n)).isUpper = false := by
  have hle : n ≤ lowerPoint n := by
    unfold lowerPoint
    simp only [Bool.or_eq_true, Bool.and_eq_true, decide_eq_true_eq, bne_iff_ne]
    split_ifs <;> omega
  rw [← Bool.not_eq_true, Text.isUpper_iff]
  rcases Text.toNat_ofNat (lowerPoint n) with hcode | hcode <;> omega

theorem isUpper_normalForm (c : Char) : (normalForm c).isUpper = false := by
  unfold normalForm
  dsimp only
  split_ifs with hstop hwide hascii
  · rfl
  · exact Text.isUpper_toLower _
  · exact Text.isUpper_toLower _
  · exact isUpper_ofNat_lowerPoint (by omega)

end Domain

/-! ### Punycode -/

namespace Punycode

open Domain (isNormal)

theorem isNormal_digit : ∀ n < 36, isNormal (digit n) = true := by decide

theorem threshold_le (k bias : Nat) : threshold k bias ≤ 26 := by
  unfold threshold
  split_ifs <;> omega

theorem isNormal_of_mem_digits {bias k distance : Nat} :
    ∀ c ∈ digits bias k distance, isNormal c = true := by
  fun_induction digits bias k distance with
  | case1 k distance t h =>
    have := threshold_le k bias
    rw [List.forall_mem_singleton]
    exact isNormal_digit _ (by omega)
  | case2 k distance t h ih =>
    have hle : t ≤ 26 := threshold_le k bias
    have hpos : 1 ≤ t := threshold_pos k bias
    have hmod : (distance - t) % (36 - t) < 36 - t := Nat.mod_lt _ (by omega)
    rw [List.forall_mem_cons]
    exact ⟨isNormal_digit _ (by omega), ih⟩

/-- Passing over a character writes digits or nothing. -/
theorem isNormal_written_pass {basic point : Nat} {p : Progress} (c : Char)
    (h : ∀ c ∈ p.written, isNormal c = true) :
    ∀ d ∈ (p.pass basic point c).written, isNormal d = true := by
  unfold Progress.pass
  split_ifs
  · exact h
  · exact List.forall_mem_append.2 ⟨h, isNormal_of_mem_digits⟩
  · exact h

theorem isNormal_written_foldl {basic point : Nat} (label : List Char) {p : Progress}
    (h : ∀ c ∈ p.written, isNormal c = true) :
    ∀ d ∈ (label.foldl (Progress.pass basic point) p).written, isNormal d = true := by
  induction label generalizing p with
  | nil => exact h
  | cons c label ih => exact ih (isNormal_written_pass c h)

theorem isNormal_written_placeAll (label : List Char) {basic : Nat} {points : List Nat}
    {next : Nat} {p : Progress} (h : ∀ c ∈ p.written, isNormal c = true) :
    ∀ d ∈ (placeAll label basic points next p).written, isNormal d = true := by
  induction points generalizing next p with
  | nil => exact h
  | cons point points ih =>
    have hstep : ∀ d ∈ (label.foldl (Progress.pass basic point)
        { p with distance := p.distance + (point - next) * (p.placed + 1) }).written,
        isNormal d = true := isNormal_written_foldl label h
    exact ih hstep

/-- The ASCII form of a label consists of its own ASCII characters, hyphens and digits. -/
theorem isNormal_of_mem_encode {label : List Char}
    (h : ∀ c ∈ label, c.toNat < 0x80 → isNormal c = true) :
    ∀ c ∈ encode label, isNormal c = true := by
  refine isNormal_written_placeAll label ?_
  dsimp only
  split_ifs
  · simp
  · refine List.forall_mem_append.2 ⟨fun c hc => ?_, List.forall_mem_singleton.2 (by decide)⟩
    obtain ⟨hc, hlt⟩ := List.mem_filter.1 hc
    exact h c hc (by simpa using hlt)

end Punycode

namespace Domain

/-- **A name is brought to its ASCII form.** -/
theorem isNormal_of_toAscii? {name ascii : List Char} (h : toAscii? name = some ascii) :
    ∀ c ∈ ascii, isNormal c = true := by
  unfold toAscii? at h
  dsimp only at h
  split_ifs at h with hallowed
  cases h
  simp only [Bool.not_eq_true, List.any_eq_false, Bool.or_eq_true, not_or] at hallowed
  have hchars : ∀ c ∈ (name.filter (!isIgnored ·)).map normalForm,
      c.toNat < 0x80 → isNormal c = true := by
    intro c hc hlt
    obtain ⟨d, -, rfl⟩ := List.mem_map.1 hc
    exact isNormal_iff.2 ⟨hlt, by simpa using (hallowed _ hc).1, isUpper_normalForm d⟩
  refine forall_mem_intercalate (by decide) fun label hlabel => ?_
  obtain ⟨part, hpart, rfl⟩ := List.mem_map.1 hlabel
  have hpartChars : ∀ c ∈ part, c.toNat < 0x80 → isNormal c = true :=
    fun c hc => hchars c (mem_of_mem_splitOn hpart hc)
  unfold asciiLabel
  split_ifs with hascii
  · rw [List.all_eq_true] at hascii
    exact fun c hc => hpartChars c hc (by simpa using hascii c hc)
  · exact List.forall_mem_append.2
      ⟨List.all_eq_true.1 (by decide), Punycode.isNormal_of_mem_encode hpartChars⟩

theorem isNormal_of_ofEncoded? {name ascii : List Char} (h : ofEncoded? name = some ascii) :
    ∀ c ∈ ascii, isNormal c = true := by
  obtain ⟨text, -, htext⟩ := Option.bind_eq_some_iff.1 h
  exact isNormal_of_toAscii? htext

/-- A name has no spaces and no control characters. -/
theorem lt_toNat_of_toAscii? {name ascii : List Char} (h : toAscii? name = some ascii) :
    ∀ c ∈ name, 0x20 < c.toNat := by
  unfold toAscii? at h
  dsimp only at h
  split_ifs at h with hallowed
  intro c hc
  by_contra hle
  have hlt : c.toNat < 0x80 := by omega
  have hupper : c.isUpper = false := by
    rw [← Bool.not_eq_true, Text.isUpper_iff]
    omega
  -- the character reaches the check as it is
  have hmem : c ∈ (name.filter (!isIgnored ·)).map normalForm :=
    List.mem_map.2 ⟨c, List.mem_filter.2 ⟨hc, by simp [isIgnored_of_lt hlt]⟩,
      normalForm_of_lt hlt hupper⟩
  refine hallowed (List.any_eq_true.2 ⟨c, hmem, ?_⟩)
  simp [isForbidden, Nat.not_lt.1 hle]

theorem lt_toNat_of_ofEncoded? {name ascii : List Char} (h : ofEncoded? name = some ascii) :
    ∀ c ∈ name, 0x20 < c.toNat := by
  obtain ⟨text, hdecode, htext⟩ := Option.bind_eq_some_iff.1 h
  intro c hc
  by_contra hle
  have hlt : c.toNat < 0x80 := by omega
  have hcode := Utf8.toNat_ofNat_of_lt hlt
  have hdigits : ∀ n ≤ 0x20, Text.hexValue? n = none := by decide
  -- nor does it get lost in decoding
  have hmem : UInt8.ofNat c.toNat ∈ Utf8.encode text := by
    rw [Utf8.encode_of_decode? hdecode]
    refine Percent.mem_decode ?_ ?_ ((Utf8.mem_encode_iff hlt name).2 hc)
    · intro heq
      rw [heq] at hcode
      have : c.toNat = 0x25 := hcode.symm
      omega
    · rw [hcode]
      exact hdigits _ (Nat.not_lt.1 hle)
  rw [← String.ofList_toList (s := text), Utf8.mem_encode_iff hlt] at hmem
  exact hle (lt_toNat_of_toAscii? htext c hmem)

end Domain

/-! ### Hosts -/

namespace Host

/-- A host in normal form: a name in its ASCII form that is no address, or an address. -/
inductive IsNormal : Host → Prop
  | name {text : List Char} (hne : text ≠ []) (hchars : ∀ c ∈ text, Domain.isNormal c = true)
    (hend : endsInNumber text = false) : IsNormal (.name text)
  | v4 {a b c d : Nat} (h : a < 256 ∧ b < 256 ∧ c < 256 ∧ d < 256) : IsNormal (.v4 [a, b, c, d])
  | v6 {pieces : Net.Ipv6} (h : Net.IsIpv6 pieces) : IsNormal (.v6 pieces)

theorem isNormal_of_bracketed {text : List Char} {host : Host} (h : bracketed text = .ok host) :
    host.IsNormal := by
  unfold bracketed at h
  split at h
  · rename_i pieces _ hpieces
    cases h
    exact .v6 (Net.isIpv6_of_ipv6? hpieces)
  · cases h

theorem isNormal_of_ipv4OfName? {name : List Char} {address : Net.Ipv4}
    (h : ipv4OfName? name = some address) : (Host.v4 address).IsNormal := by
  obtain ⟨numbers, -, h⟩ := Option.bind_eq_some_iff.1 h
  obtain ⟨last, -, h⟩ := Option.bind_eq_some_iff.1 h
  dsimp only at h
  split_ifs at h
  cases h
  refine .v4 ⟨?_, ?_, ?_, ?_⟩ <;> exact Nat.mod_lt _ (by omega)

/-- **Reading yields a host in normal form.** -/
theorem isNormal_of_ofDomain {text : List Char} {host : Host} (h : ofDomain text = .ok host) :
    host.IsNormal := by
  unfold ofDomain at h
  split at h
  · exact isNormal_of_bracketed h
  split at h
  · cases h
  · cases h
  rename_i ascii hempty hascii
  split_ifs at h with hend
  · split at h
    · rename_i address haddress
      cases h
      exact isNormal_of_ipv4OfName? haddress
    · cases h
  · cases h
    refine .name ?_ (Domain.isNormal_of_ofEncoded? hascii) (by simpa using hend)
    rintro rfl
    exact hempty rfl

/-- The text of a host ends in no blank. -/
theorem lt_toNat_of_ofDomain {text : List Char} {host : Host} (h : ofDomain text = .ok host) :
    ∀ c ∈ text.getLast?, 0x20 < c.toNat := by
  unfold ofDomain at h
  split at h
  · rename_i text
    unfold bracketed at h
    split at h
    · rename_i hlast _
      intro c hc
      rw [List.getLast?_cons, hlast] at hc
      cases hc
      decide
    · cases h
  · split at h
    · cases h
    · cases h
    · rename_i hascii
      exact fun c hc => Domain.lt_toNat_of_ofEncoded? hascii c (List.mem_of_mem_getLast? hc)

/-- The reader takes a name in its ASCII form as it is written. -/
theorem ofDomain_of_isNormal {text : List Char} (hne : text ≠ [])
    (h : ∀ c ∈ text, Domain.isNormal c = true) : ofDomain text =
      if endsInNumber text then
        match ipv4OfName? text with
        | some address => .ok (.v4 address)
        | none => .error .invalidIpv4
      else .ok (.name text) := by
  obtain ⟨c, text, rfl⟩ := List.exists_cons_of_ne_nil hne
  have hbracket : c ≠ '[' := Domain.isNormal_imp_ne (h c List.mem_cons_self) (by decide)
  unfold ofDomain
  split
  · rename_i heq
    exact absurd (List.cons.inj heq).1 hbracket
  · have hread := Domain.ofEncoded?_eq_self h
    generalize Domain.ofEncoded? (c :: text) = read at hread ⊢
    cases hread
    rfl

/-! ### Addresses -/

theorem isNormal_of_isDigit {c : Char} (h : c.isDigit = true) : Domain.isNormal c = true := by
  have hrange : 48 ≤ c.toNat ∧ c.toNat ≤ 57 := by
    simpa [Char.isDigit, ge_iff_le, UInt32.le_iff_toNat_le] using h
  have hdigits : ∀ n < 58, 48 ≤ n → Domain.isNormal (Char.ofNat n) = true := by decide
  rw [← Char.ofNat_toNat c]
  exact hdigits c.toNat (by omega) hrange.1

theorem isNormal_of_mem_renderIpv4 {bytes : Net.Ipv4} :
    ∀ c ∈ (Net.renderIpv4 bytes).toList, Domain.isNormal c = true := by
  rw [Net.renderIpv4_toList]
  refine forall_mem_intercalate (by decide) ?_
  simp only [List.forall_mem_map]
  exact fun n _ c hc => isNormal_of_isDigit (Text.isDigit_of_mem_toDigits hc)

theorem addressPart?_toDigits {n : Nat} (h : n < 256) :
    addressPart? (Nat.toDigits 10 n) = some n := by
  have hall : ∀ n < 256, addressPart? (Nat.toDigits 10 n) = some n := by decide +kernel
  exact hall n h

theorem nameParts_renderIpv4 (a b c d : Nat) :
    nameParts (Net.renderIpv4 [a, b, c, d]).toList = [a, b, c, d].map (Nat.toDigits 10) := by
  have hsplit : (Net.renderIpv4 [a, b, c, d]).toList.splitOn '.' =
      [a, b, c, d].map (Nat.toDigits 10) := by
    rw [Net.renderIpv4_toList, List.splitOn_intercalate]
    · simp only [List.forall_mem_map]
      intro n _ hdot
      cases Text.isDigit_of_mem_toDigits hdot
    · simp
  rw [nameParts, hsplit]
  simp [Nat.toDigits_ne_nil]

theorem endsInNumber_renderIpv4 (a b c d : Nat) :
    endsInNumber (Net.renderIpv4 [a, b, c, d]).toList = true := by
  have hdigits : (Nat.toDigits 10 d).all Char.isDigit = true :=
    List.all_eq_true.2 fun _ => Text.isDigit_of_mem_toDigits
  rw [endsInNumber, nameParts_renderIpv4]
  simp [hdigits, Nat.toDigits_ne_nil]

theorem ipv4OfName?_renderIpv4 {a b c d : Nat} (h : a < 256 ∧ b < 256 ∧ c < 256 ∧ d < 256) :
    ipv4OfName? (Net.renderIpv4 [a, b, c, d]).toList = some [a, b, c, d] := by
  obtain ⟨ha, hb, hc, hd⟩ := h
  have hparts : ([a, b, c, d].map (Nat.toDigits 10)).mapM addressPart? = some [a, b, c, d] := by
    simp [addressPart?_toDigits, ha, hb, hc, hd]
  have hbytes : addressBytes (((a * 256 + b) * 256 + c) * 256 + d) = [a, b, c, d] := by
    simp only [addressBytes, List.cons.injEq, and_true]
    omega
  rw [ipv4OfName?, nameParts_renderIpv4, hparts]
  simp [hbytes, Nat.le_of_lt_succ ha, Nat.le_of_lt_succ hb, Nat.le_of_lt_succ hc, hd]

theorem renderIpv4_ne_nil {bytes : Net.Ipv4} (h : bytes ≠ []) :
    (Net.renderIpv4 bytes).toList ≠ [] := by
  obtain ⟨n, bytes, rfl⟩ := List.exists_cons_of_ne_nil h
  rw [Net.renderIpv4_toList]
  cases bytes <;> simp [Nat.toDigits_ne_nil]

/-- **A host in normal form is read as itself.** -/
theorem ofDomain_render {host : Host} (h : host.IsNormal) : ofDomain host.render = .ok host := by
  cases h with
  | name hne hchars hend =>
    rw [render, ofDomain_of_isNormal hne hchars, hend]
    rfl
  | @v4 a b c d h =>
    rw [render, ofDomain_of_isNormal (renderIpv4_ne_nil (by simp)) isNormal_of_mem_renderIpv4,
      endsInNumber_renderIpv4, ipv4OfName?_renderIpv4 h]
    rfl
  | @v6 pieces h =>
    rw [render, List.cons_append, ofDomain, bracketed, List.getLast?_concat, List.dropLast_concat,
      Net.ipv6?_renderIpv6 h]
    rfl

end Host

end ImageGateway
