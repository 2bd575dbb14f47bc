import ImageGateway.Proofs.Json.Record
import ImageGateway.Proofs.Text.Character
import Mathlib.Data.List.Forall2

/-!
# Values of fields

How texts, integers and lists are written in the fields of a record, and that they are decoded to
what was written.  An integer is written as its numeral, which is read digit by digit.

* `Value.IsText`, `Value.IsInteger`, `Value.IsList`, `Value.Field` : how a field is written.
* `Value.text?_of_isText`, `Value.integer?_of_isInteger`, `Value.list?_of_isList`,
  `Value.field?_of_field` : **what is written is decoded**.
* `Value.writable_array`, `exists_jsonText` : there are texts of all of them.
-/

namespace ImageGateway

namespace Json

namespace Value

variable {names : List String} {v w : Value}

/-! ### Texts and lists -/

/-- The slot has a value that writes what the field is, or the field is left out and has its
default. -/
def Field {α : Type} (default : α) (writes : α → Value → Prop) (a : α) : Option Value → Prop
  | none => a = default
  | some v => writes a v

/-- The value spells the text. -/
def IsText (s : String) (v : Value) : Prop := ∃ raw, v = .string raw ∧ Spells raw s.toList

/-- The value is the numeral of the 64-bit integer.  A number with a fraction or an exponent is no
numeral, and neither is `-0`: these are floating-point numbers. -/
def IsInteger (n : Int) (v : Value) : Prop := fits n = true ∧ v = integer n

/-- The value is an array of values that write the members of the list. -/
def IsList {α : Type} (writes : α → Value → Prop) (l : List α) (v : Value) : Prop :=
  ∃ items, v = .array items ∧ List.Forall₂ writes l items

variable {α : Type} {writes : α → Value → Prop} {decode : Value → Option α}

theorem field?_of_field {default a : α} {slot : Option Value} (h : Field default writes a slot)
    (hdecode : ∀ {a v}, writes a v → decode v = some a) :
    field? default decode slot = some a := by
  cases slot with
  | none => exact congrArg some (Eq.symm h)
  | some v => exact hdecode h

theorem list?_of_isList {l : List α} (h : IsList writes l v)
    (hdecode : ∀ {a v}, writes a v → decode v = some a) : v.list? decode = some l := by
  obtain ⟨items, rfl, hitems⟩ := h
  rw [list?, mapM_eq_some_iff]
  induction hitems with
  | nil => rfl
  | cons hfirst _ ih => rw [List.map_cons, List.map_cons, hdecode hfirst, ih]

/-- A member that cannot be decoded makes the whole list so. -/
theorem list?_eq_none {items : List Value} (hmem : w ∈ items) (h : decode w = none) :
    list? decode (.array items) = none := by
  by_contra hsome
  obtain ⟨l, hl⟩ := Option.ne_none_iff_exists'.1 hsome
  have hmap := List.mem_map_of_mem (f := decode) hmem
  rw [mapM_eq_some_iff.1 hl, h] at hmap
  simp at hmap

theorem text?_of_isText {s : String} (h : IsText s v) : v.text? = some s := by
  obtain ⟨raw, rfl, hraw⟩ := h
  rw [text?, RawText.decode?_of_spells hraw, String.ofList_toList]

/-! ### Numerals -/

theorem le_of_mem_toDigits {n : Nat} {c : Char} (h : c ∈ Nat.toDigits 10 n) :
    0x30 ≤ c.toNat ∧ c.toNat ≤ 0x39 := by
  have hdigit := Text.isDigit_of_mem_toDigits h
  rw [Char.isDigit, Bool.and_eq_true] at hdigit
  exact ⟨UInt32.le_iff_toNat_le.1 (of_decide_eq_true hdigit.1),
    UInt32.le_iff_toNat_le.1 (of_decide_eq_true hdigit.2)⟩

theorem encode_toString (n : Nat) :
    Utf8.encode (toString n) = (Nat.toDigits 10 n).map fun c => UInt8.ofNat c.toNat := by
  rw [← Text.toString_toList, ← Utf8.encode_of_lt, String.ofList_toList]
  intro c hc
  have := le_of_mem_toDigits (Text.toString_toList n ▸ hc)
  omega

/-- The byte of a digit has its code. -/
theorem toNat_of_mem_toDigits {n : Nat} {c : Char} (h : c ∈ Nat.toDigits 10 n) :
    (UInt8.ofNat c.toNat).toNat = c.toNat :=
  Utf8.toNat_ofNat_of_lt (by have := le_of_mem_toDigits h; omega)

theorem digits_toString (n : Nat) : Digits (Utf8.encode (toString n)) := by
  rw [encode_toString, Digits, List.forall_mem_map]
  refine ⟨by simp [Nat.toDigits_ne_nil], fun c hc => ?_⟩
  rw [UInt8.le_iff_toNat_le, UInt8.le_iff_toNat_le, toNat_of_mem_toDigits hc]
  exact le_of_mem_toDigits hc

theorem digitsValue_toString (n : Nat) : digitsValue (Utf8.encode (toString n)) = n := by
  rw [encode_toString, digitsValue, List.foldl_map]
  refine Eq.trans (List.foldl_ext _ _ _ fun sum c hc => ?_) (Text.foldl_toDigits n)
  rw [toNat_of_mem_toDigits hc]

theorem encode_toString_negSucc (n : Nat) :
    Utf8.encode (toString (Int.negSucc n)) = 0x2d :: Utf8.encode (toString (n + 1)) :=
  Utf8.encode_append "-" (toString (n + 1))

theorem integerPart_toString (n : Nat) : IntegerPart (Utf8.encode (toString n)) := by
  refine ⟨digits_toString n, fun hhead => ?_⟩
  rw [encode_toString, List.head?_map] at hhead
  obtain ⟨c, hc, hzero⟩ := Option.map_eq_some_iff.1 hhead
  cases n with
  | zero => decide
  | succ n =>
    have hcode := toNat_of_mem_toDigits (List.mem_of_head? hc)
    rw [hzero] at hcode
    obtain rfl : '0' = c := Char.toNat_inj.1 hcode
    exact absurd hc (Text.head?_toDigits (Nat.succ_pos n))

/-- A numeral is a number of the grammar. -/
theorem number_toString (n : Int) : Number (Utf8.encode (toString n)) := by
  cases n with
  | ofNat n =>
    exact ⟨[], _, [], [], by simp; rfl, .inl rfl, integerPart_toString n, .inl rfl, .inl rfl⟩
  | negSucc n =>
    rw [encode_toString_negSucc]
    exact ⟨[0x2d], _, [], [], by simp, .inr rfl, integerPart_toString (n + 1), .inl rfl, .inl rfl⟩

theorem integerWritten?_of_digits {digits : Bytes} (h : digits.all isDigitByte = true) :
    integerWritten? digits = some (digitsValue digits) := by
  rw [integerWritten?.eq_def]
  split
  · cases h
  · exact if_pos h

theorem integerWritten?_toString (n : Int) :
    integerWritten? (Utf8.encode (toString n)) = some n := by
  have hall (n : Nat) : (Utf8.encode (toString n)).all isDigitByte = true :=
    (digits_iff.1 (digits_toString n)).2
  cases n with
  | ofNat n =>
    show integerWritten? (Utf8.encode (toString n)) = _
    rw [integerWritten?_of_digits (hall n), digitsValue_toString]
    rfl
  | negSucc n =>
    have hzero : (Utf8.encode (toString (n + 1)) != [0x30]) = true := by
      rw [bne_iff_ne]
      intro heq
      have hvalue := digitsValue_toString (n + 1)
      rw [heq] at hvalue
      cases hvalue
    rw [encode_toString_negSucc, integerWritten?, if_pos (by rw [hall, hzero]; rfl),
      digitsValue_toString]
    rfl

theorem integer?_of_isInteger {n : Int} (h : IsInteger n v) : v.integer? = some n := by
  obtain ⟨hfits, rfl⟩ := h
  rw [integer, integer?, integerWritten?_toString, Option.filter_some, if_pos hfits]

/-! ### Every field is written by something -/

/-- Some bytes write the value. -/
def Writable (v : Value) : Prop := ∃ s, Writes v s

theorem isText_text (s : String) : IsText s (text s) := ⟨_, rfl, RawText.spells_ofText s⟩

theorem writable_text (s : String) : Writable (text s) :=
  ⟨_, .string (RawText.raw_of_spells (RawText.spells_ofText s))⟩

theorem writable_integer (n : Int) : Writable (integer n) := ⟨_, .number (number_toString n)⟩

theorem writable_array {items : List Value} (h : ∀ v ∈ items, Writable v) :
    Writable (.array items) := by
  obtain ⟨written, hvalues, hspaced, hwrites⟩ : ∃ written : List Item,
      written.map Item.value = items ∧ (∀ i ∈ written, i.Spaced) ∧
        ∀ i ∈ written, Writes i.value i.text := by
    induction items with
    | nil => exact ⟨[], rfl, by simp, by simp⟩
    | cons v items ih =>
      rw [List.forall_mem_cons] at h
      obtain ⟨text, htext⟩ := h.1
      obtain ⟨written, rfl, hspaced, hwrites⟩ := ih h.2
      refine ⟨⟨[], v, text, []⟩ :: written, rfl, ?_, ?_⟩
      · exact List.forall_mem_cons.2 ⟨⟨blanks_nil, blanks_nil⟩, hspaced⟩
      · exact List.forall_mem_cons.2 ⟨htext, hwrites⟩
  subst hvalues
  by_cases hne : written = []
  · subst hne
    exact ⟨_, .emptyArray blanks_nil⟩
  · exact ⟨_, .array hne hspaced hwrites⟩

/-- The members of a list are written if each of them is. -/
theorem exists_isList {l : List α} (h : ∀ a ∈ l, ∃ v, writes a v ∧ Writable v) :
    ∃ v, IsList writes l v ∧ Writable v := by
  obtain ⟨items, hitems, hwritable⟩ :
      ∃ items, List.Forall₂ writes l items ∧ ∀ v ∈ items, Writable v := by
    induction l with
    | nil => exact ⟨[], .nil, by simp⟩
    | cons a l ih =>
      rw [List.forall_mem_cons] at h
      obtain ⟨v, hv, hwritable⟩ := h.1
      obtain ⟨items, hitems, hrest⟩ := ih h.2
      exact ⟨v :: items, .cons hv hitems, List.forall_mem_cons.2 ⟨hwritable, hrest⟩⟩
  exact ⟨_, ⟨items, rfl, hitems⟩, writable_array hwritable⟩

/-- A record may be written as the array of all its fields. -/
theorem gives_array {items : List Value} (h : items.length = names.length) :
    (Value.array items).Gives names (items.map some) := by
  have hgives := @Gives.array names items 0 h
  rwa [List.replicate_zero, List.append_nil] at hgives

end Value

theorem exists_jsonText {v : Value} (h : v.Writable) : ∃ s, JsonText v s := by
  obtain ⟨text, htext⟩ := h
  exact ⟨text, [], text, [], by simp, blanks_nil, htext, blanks_nil⟩

end Json

end ImageGateway
