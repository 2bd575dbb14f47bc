import ImageGateway.Directory.Filter
import ImageGateway.Proofs.Text.Character
import ImageGateway.Proofs.Text.Replace
import ImageGateway.Proofs.Text.Utf8

/-!
# Identities inside of filters

The filter of the search for a user is a template into which the identity of the user is put, and
an identity is any text.  It is put in as a value that stands for it: nothing in it has a meaning of
its own, a reader of filters stops behind it and not inside of it, and what is read is the identity.
The places are those of the template alone, so that different identities never give the same filter.

* `eq_backslash_of_mem_escapeValue`, `backslashesEscape_escapeValue` : of what a value consists.
* `Filter.value?_escapeValue` : **a value is read as the text that it was written for**, whatever
  ends it.
* `userFilter_of_cutInto` : the value stands between the pieces of the template.
* `identity_stays_value` : all of this together.
-/

namespace ImageGateway

namespace Directory

/-- A hexadecimal digit, with small letters. -/
def IsHexDigit (c : Char) : Prop := c ∈ "0123456789abcdef".toList

/-- Every backslash in the text is the first of three characters that write a byte. -/
def BackslashesEscape (s : List Char) : Prop :=
  ∀ x y, s = x ++ '\\' :: y → ∃ a b z, y = a :: b :: z ∧ IsHexDigit a ∧ IsHexDigit b

variable {c : Char} {s : List Char}

/-! ### The characters of a value -/

theorem isSpecial_iff :
    isSpecial c = true ↔ c = '\\' ∨ c = '*' ∨ c = '(' ∨ c = ')' ∨ c = '\x00' := by
  simp [isSpecial, or_assoc]

/-- A special character is one of ASCII. -/
theorem toNat_lt_of_isSpecial (h : isSpecial c = true) : c.toNat < 0x80 := by
  rcases isSpecial_iff.1 h with rfl | rfl | rfl | rfl | rfl <;> decide

theorem hexDigit_spec : ∀ n < 16, IsHexDigit (Text.hexDigit n) ∧
    (Text.hexDigit n).toNat < 0x80 ∧ isSpecial (Text.hexDigit n) = false := by
  unfold IsHexDigit
  decide

theorem escapeChar_of_special (h : isSpecial c = true) :
    escapeChar c = ['\\', Text.hexDigit (c.toNat / 16), Text.hexDigit (c.toNat % 16)] := by
  rw [escapeChar, if_pos h, Text.hexByte, Utf8.toNat_ofNat_of_lt (toNat_lt_of_isSpecial h)]

theorem escapeChar_of_plain (h : isSpecial c = false) : escapeChar c = [c] := by
  simp [escapeChar, h]

/-- The digits of a special character. -/
theorem digits_of_special (h : isSpecial c = true) : c.toNat / 16 < 16 ∧ c.toNat % 16 < 16 := by
  have := toNat_lt_of_isSpecial h
  omega

/-- **Of the special characters only the backslash stands in a value.** -/
theorem eq_backslash_of_mem_escapeValue {identity : String}
    (hc : c ∈ (escapeValue identity).toList) (h : isSpecial c = true) : c = '\\' := by
  rw [escapeValue, String.toList_ofList] at hc
  obtain ⟨d, -, hd⟩ := List.mem_flatMap.1 hc
  cases hspecial : isSpecial d with
  | false =>
    rw [escapeChar_of_plain hspecial, List.mem_singleton] at hd
    rw [hd, hspecial] at h
    cases h
  | true =>
    obtain ⟨hhigh, hlow⟩ := digits_of_special hspecial
    rw [escapeChar_of_special hspecial] at hd
    simp only [List.mem_cons, List.not_mem_nil, or_false] at hd
    rcases hd with rfl | rfl | rfl
    · rfl
    · rw [(hexDigit_spec _ hhigh).2.2] at h
      cases h
    · rw [(hexDigit_spec _ hlow).2.2] at h
      cases h

theorem backslashesEscape_cons (hc : c ≠ '\\') (h : BackslashesEscape s) :
    BackslashesEscape (c :: s) := by
  intro x y hxy
  cases x with
  | nil => exact absurd (List.cons.inj hxy).1 hc
  | cons d x => exact h x y (List.cons.inj hxy).2

/-- **Every backslash in a value begins an escape.** -/
theorem backslashesEscape_escapeValue (identity : String) :
    BackslashesEscape (escapeValue identity).toList := by
  rw [escapeValue, String.toList_ofList]
  induction identity.toList with
  | nil => exact fun x y h => by simp at h
  | cons c s ih =>
    rw [List.flatMap_cons]
    cases hspecial : isSpecial c with
    | false =>
      rw [escapeChar_of_plain hspecial]
      refine backslashesEscape_cons ?_ ih
      rintro rfl
      cases hspecial
    | true =>
      obtain ⟨hhigh, hlow⟩ := digits_of_special hspecial
      have hdigit {n : Nat} (hn : n < 16) : Text.hexDigit n ≠ '\\' := fun h => by
        have := (hexDigit_spec n hn).2.2
        rw [h] at this
        cases this
      rw [escapeChar_of_special hspecial]
      intro x y hxy
      cases x with
      | nil =>
        obtain ⟨-, rfl⟩ := List.cons.inj hxy
        exact ⟨_, _, _, rfl, (hexDigit_spec _ hhigh).1, (hexDigit_spec _ hlow).1⟩
      | cons d x =>
        exact backslashesEscape_cons (hdigit hhigh) (backslashesEscape_cons (hdigit hlow) ih) x y
          (List.cons.inj hxy).2

/-! ### Reading a value -/

namespace Filter

/-- The text does not go on with a value. -/
def EndsValue (rest : Bytes) : Prop :=
  ∀ b, rest.head? = some b → isValueByte b = false ∧ b ≠ 0x5c

variable {rest : Bytes}

theorem value?_of_endsValue (h : EndsValue rest) : value? rest = some ([], rest) := by
  cases rest with
  | nil => rfl
  | cons b rest =>
    obtain ⟨hend, hslash⟩ := h b rfl
    rw [value?.eq_2 _ _ fun _ _ _ heq => absurd heq hslash]
    simp [hend, hslash]

theorem value?_cons {b : UInt8} (h : isValueByte b = true) :
    value? (b :: rest) = (value? rest).map fun r => (b :: r.1, r.2) := by
  have hslash : b ≠ 0x5c := by
    rintro rfl
    cases h
  rw [value?.eq_2 _ _ fun _ _ _ heq => absurd heq hslash]
  cases value? rest <;> simp [h, hslash]

theorem value?_append {front : Bytes} (h : ∀ b ∈ front, isValueByte b = true) :
    value? (front ++ rest) = (value? rest).map fun r => (front ++ r.1, r.2) := by
  induction front with
  | nil => simp
  | cons b front ih =>
    rw [List.forall_mem_cons] at h
    rw [List.cons_append, value?_cons h.1, ih h.2, Option.map_map]
    rfl

/-- The bytes of a character that is not special stand for themselves. -/
theorem isValueByte_of_plain (h : isSpecial c = false) :
    ∀ b ∈ String.utf8EncodeChar c, isValueByte b = true := by
  intro b hb
  by_contra hvalue
  have hbyte : b = 0x5c ∨ b = 0x2a ∨ b = 0x28 ∨ b = 0x29 ∨ b = 0 := by
    simp only [isValueByte, Bool.and_eq_true, bne_iff_ne, not_and_or, not_not] at hvalue
    tauto
  rw [← Bool.not_eq_true, isSpecial_iff] at h
  refine h ?_
  simp only [← Char.toNat_inj]
  rcases hbyte with rfl | rfl | rfl | rfl | rfl <;>
    simp [Utf8.toNat_of_mem (by decide) hb]

/-- A character is read as the bytes that it is written with, escaped or not. -/
theorem value?_escapeChar (c : Char) (rest : Bytes) :
    value? ((escapeChar c).flatMap String.utf8EncodeChar ++ rest) =
      (value? rest).map fun r => (String.utf8EncodeChar c ++ r.1, r.2) := by
  cases hspecial : isSpecial c with
  | false =>
    rw [escapeChar_of_plain hspecial, List.flatMap_singleton]
    exact value?_append (isValueByte_of_plain hspecial)
  | true =>
    have hlt := toNat_lt_of_isSpecial hspecial
    obtain ⟨hhigh, hlow⟩ := digits_of_special hspecial
    have hdigit {n : Nat} (hn : n < 16) :
        Text.hexValue? (UInt8.ofNat (Text.hexDigit n).toNat).toNat = some n := by
      rw [Utf8.toNat_ofNat_of_lt (hexDigit_spec n hn).2.1, Text.hexValue?_hexDigit n hn]
    rw [escapeChar_of_special hspecial, List.flatMap_cons, List.flatMap_cons,
      List.flatMap_singleton, Utf8.utf8EncodeChar_of_lt (by decide),
      Utf8.utf8EncodeChar_of_lt (hexDigit_spec _ hhigh).2.1,
      Utf8.utf8EncodeChar_of_lt (hexDigit_spec _ hlow).2.1, Utf8.utf8EncodeChar_of_lt hlt]
    show value? (0x5c :: UInt8.ofNat _ :: UInt8.ofNat _ :: rest) = _
    rw [value?.eq_1, hdigit hhigh, hdigit hlow]
    simp only [Option.bind_eq_bind, Option.bind_some, Nat.div_add_mod']
    cases value? rest <;> rfl

/-- **A value is read as the text that it was written for**, up to what ends it. -/
theorem value?_escapeValue (identity : String) (h : EndsValue rest) :
    value? (Utf8.encode (escapeValue identity) ++ rest) = some (Utf8.encode identity, rest) := by
  rw [escapeValue, ← String.ofList_toList (s := identity), String.toList_ofList,
    Utf8.encode_ofList, Utf8.encode_ofList]
  induction identity.toList with
  | nil => exact value?_of_endsValue h
  | cons c s ih =>
    rw [List.flatMap_cons, List.flatMap_append, List.append_assoc, value?_escapeChar, ih]
    rfl

end Filter

/-- A value tells what it was written for. -/
theorem escapeValue_injective {a b : String} (h : escapeValue a = escapeValue b) : a = b := by
  have hend : Filter.EndsValue [] := fun b hb => nomatch hb
  have hread := Filter.value?_escapeValue a hend
  rw [h, Filter.value?_escapeValue b hend] at hread
  have hbytes : Utf8.encode b = Utf8.encode a := congrArg Prod.fst (Option.some.inj hread)
  have htext := Utf8.decode?_encode a
  rw [← hbytes, Utf8.decode?_encode] at htext
  exact (Option.some.inj htext).symm

/-! ### Templates -/

/-- The text is cut at the places for an identity: these stand between the pieces, and in none. -/
def CutInto (template : String) (pieces : List String) : Prop :=
  template = Text.joinWith "%s" pieces ∧ pieces ≠ [] ∧
    ∀ piece ∈ pieces, ¬ "%s".toList <:+: piece.toList

theorem exists_cutInto (template : String) : ∃ pieces, CutInto template pieces := by
  obtain ⟨pieces, hne, hclean, hcut⟩ :=
    Text.exists_pieces (List.cons_ne_nil '%' ['s']) template.toList
  refine ⟨pieces.map String.ofList, ?_, by simpa using hne, ?_⟩
  · rw [← String.toList_inj, Text.joinWith, String.toList_intercalate, List.map_map, hcut]
    congr 1
    simp
  · rw [List.forall_mem_map]
    intro piece hpiece
    have hchars : (String.ofList piece).toList = piece := String.toList_ofList
    rw [hchars]
    exact hclean piece hpiece

/-- **The value stands between the pieces of the template.** -/
theorem userFilter_of_cutInto {template : String} {pieces : List String}
    (h : CutInto template pieces) (identity : String) :
    userFilter template identity = Text.joinWith (escapeValue identity) pieces := by
  obtain ⟨rfl, -, hclean⟩ := h
  rw [userFilter, Text.replaceAll, Text.joinWith, Text.joinWith, ← String.toList_inj,
    String.toList_ofList, String.toList_intercalate, String.toList_intercalate]
  have honce : '%' ∉ ['s'] := by decide
  exact Text.replaceFrom_intercalate honce (List.forall_mem_map.2 hclean)

/-- A template with a place for the identity has two pieces at least. -/
theorem two_le_length_of_cutInto {template : String} {pieces : List String}
    (h : CutInto template pieces) (hplace : "%s".toList <:+: template.toList) :
    2 ≤ pieces.length := by
  obtain ⟨rfl, hne, hclean⟩ := h
  match pieces with
  | [piece] =>
    rw [Text.joinWith, String.intercalate_singleton] at hplace
    exact absurd hplace (hclean piece List.mem_cons_self)
  | _ :: _ :: _ => simp

/-- **An identity stays a value.**  A template is cut at its places for the identity, and whatever
the identity is, the filter has the same text at all of them and is the template otherwise.  That
text has no asterisk, parenthesis or NUL in it, and a backslash only in front of the two digits of a
byte; a reader of filters reads it as the identity and stops behind it, and so two identities give
different filters if there is a place for them. -/
theorem identity_stays_value (template : String) :
    ∃ pieces, CutInto template pieces ∧ ∀ identity,
      userFilter template identity = Text.joinWith (escapeValue identity) pieces ∧
      (∀ c ∈ (escapeValue identity).toList, c ≠ '*' ∧ c ≠ '(' ∧ c ≠ ')' ∧ c ≠ '\x00') ∧
      BackslashesEscape (escapeValue identity).toList ∧
      (∀ rest, Filter.EndsValue rest →
        Filter.value? (Utf8.encode (escapeValue identity) ++ rest) =
          some (Utf8.encode identity, rest)) ∧
      ("%s".toList <:+: template.toList →
        ∀ other, userFilter template identity = userFilter template other → identity = other) := by
  obtain ⟨pieces, hcut⟩ := exists_cutInto template
  refine ⟨pieces, hcut, fun identity => ⟨userFilter_of_cutInto hcut identity, fun c hc => ?_,
    backslashesEscape_escapeValue identity, fun rest => Filter.value?_escapeValue identity,
    fun hplace other h => ?_⟩⟩
  · have hspecial (heq : isSpecial c = true) := eq_backslash_of_mem_escapeValue hc heq
    refine ⟨?_, ?_, ?_, ?_⟩ <;>
    · rintro rfl
      exact absurd (hspecial (by decide)) (by decide)
  · rw [userFilter_of_cutInto hcut, userFilter_of_cutInto hcut, Text.joinWith, Text.joinWith,
      ← String.toList_inj, String.toList_intercalate, String.toList_intercalate] at h
    have hlength := two_le_length_of_cutInto hcut hplace
    rw [← List.length_map (f := String.toList)] at hlength
    exact escapeValue_injective (String.toList_inj.1 (Text.intercalate_inj hlength h))

/-- An identity that looks escaped and has a place for another one in it. -/
theorem identity_stays_value_of_parenthesis :
    let template := "(|(uid=%s)(mail=%%s))"
    let identity := "a*)(uid=\\2a%s"
    "%s".toList <:+: template.toList ∧
      userFilter template identity =
        "(|(uid=a\\2a\\29\\28uid=\\5c2a%s)(mail=%a\\2a\\29\\28uid=\\5c2a%s))" ∧
      Filter.EndsValue (Utf8.encode ")") ∧
      Filter.value? (Utf8.encode (escapeValue identity) ++ Utf8.encode ")") =
        some (Utf8.encode identity, Utf8.encode ")") ∧
      userFilter template identity ≠ userFilter template "a*)(uid=*%s" := by
  intro template identity
  have hplace : "%s".toList <:+: template.toList := by decide
  have hend : Filter.EndsValue (Utf8.encode ")") := by
    intro b hb
    obtain rfl : 0x29 = b := Option.some.inj hb
    decide
  obtain ⟨pieces, -, h⟩ := identity_stays_value template
  obtain ⟨-, -, -, hread, hinjective⟩ := h identity
  exact ⟨hplace, by decide +kernel, hend, hread _ hend, fun heq =>
    absurd (hinjective hplace _ heq) (by decide)⟩

end Directory

end ImageGateway
