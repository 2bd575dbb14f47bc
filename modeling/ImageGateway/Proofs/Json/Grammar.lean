import ImageGateway.Json.Basic

/-!
# The grammar of JSON texts

Which bytes write a value, told by the parts that they are put together from, without reading
anything.  A value may be written with any blanks around its tokens, and then all that is said of it
is in the tree: strings and numbers stand there as they are written.

* `Blanks`, `Number`, `Raw` : what stands between tokens, the numbers, and what may stand between
  quotation marks.
* `Writes` : **the bytes write the value**, with no blanks around it.
* `JsonText` : the bytes write the value and maybe blanks around it.
* `Spells` : the text that is meant by what stands between quotation marks.
-/

namespace ImageGateway

namespace Json

/-! ### Blanks and numbers -/

/-- Blanks, which may stand around every token. -/
def Blanks (s : Bytes) : Prop := ∀ b ∈ s, b = 0x20 ∨ b = 0x0a ∨ b = 0x0d ∨ b = 0x09

theorem blanks_nil : Blanks [] := fun _ h => nomatch h

/-- Decimal digits, at least one. -/
def Digits (s : Bytes) : Prop := s ≠ [] ∧ ∀ b ∈ s, 0x30 ≤ b ∧ b ≤ 0x39

/-- Digits of which only a single one may begin with a zero. -/
def IntegerPart (s : Bytes) : Prop := Digits s ∧ (s.head? = some 0x30 → s = [0x30])

/-- A full stop and digits, or nothing. -/
def Fraction (s : Bytes) : Prop := s = [] ∨ ∃ digits, s = 0x2e :: digits ∧ Digits digits

/-- A letter `e`, maybe a sign, and digits, or nothing. -/
def Exponent (s : Bytes) : Prop :=
  s = [] ∨ ∃ e sign digits, s = e :: (sign ++ digits) ∧ (e = 0x65 ∨ e = 0x45) ∧
    (sign = [] ∨ sign = [0x2b] ∨ sign = [0x2d]) ∧ Digits digits

/-- A number. -/
def Number (s : Bytes) : Prop :=
  ∃ sign integer fraction exponent, s = sign ++ (integer ++ (fraction ++ exponent)) ∧
    (sign = [] ∨ sign = [0x2d]) ∧ IntegerPart integer ∧ Fraction fraction ∧ Exponent exponent

/-! ### Strings -/

/-- What may stand between quotation marks. -/
inductive Raw : RawText → Prop where
  | nil : Raw []
  /-- A byte that stands for itself. -/
  | plain {b : UInt8} {raw : RawText} (hcontrol : 0x20 ≤ b) (hquote : b ≠ 0x22)
      (hslash : b ≠ 0x5c) (hraw : Raw raw) : Raw (b :: raw)
  /-- A backslash and one byte. -/
  | short {e b : UInt8} {raw : RawText} (he : (e, b) ∈ shortEscapes) (hraw : Raw raw) :
      Raw (0x5c :: e :: raw)
  /-- A backslash, a letter `u` and four digits. -/
  | code {d₁ d₂ d₃ d₄ : UInt8} {n : Nat} {raw : RawText}
      (hdigits : fourDigits? [d₁, d₂, d₃, d₄] = some n) (hraw : Raw raw) :
      Raw (0x5c :: 0x75 :: d₁ :: d₂ :: d₃ :: d₄ :: raw)

/-- The characters that are meant by what stands between quotation marks. -/
inductive Spells : RawText → List Char → Prop where
  | nil : Spells [] []
  /-- A character that stands for itself. -/
  | plain {c : Char} {raw : RawText} {s : List Char} (hcontrol : ' ' ≤ c) (hquote : c ≠ '"')
      (hslash : c ≠ '\\') (hraw : Spells raw s) : Spells (String.utf8EncodeChar c ++ raw) (c :: s)
  /-- A character that is escaped with one byte. -/
  | short {e b : UInt8} {raw : RawText} {s : List Char} (he : (e, b) ∈ shortEscapes)
      (hraw : Spells raw s) : Spells (0x5c :: e :: raw) (Char.ofNat b.toNat :: s)
  /-- A character that is given by its code. -/
  | code {d₁ d₂ d₃ d₄ : UInt8} {c : Char} {raw : RawText} {s : List Char}
      (hdigits : fourDigits? [d₁, d₂, d₃, d₄] = some c.toNat) (hraw : Spells raw s) :
      Spells (0x5c :: 0x75 :: d₁ :: d₂ :: d₃ :: d₄ :: raw) (c :: s)
  /-- A character that is given by a surrogate pair. -/
  | pair {d₁ d₂ d₃ d₄ e₁ e₂ e₃ e₄ : UInt8} {high low : Nat} {raw : RawText} {s : List Char}
      (hhigh : fourDigits? [d₁, d₂, d₃, d₄] = some high) (hhighHalf : 0xd800 ≤ high ∧ high < 0xdc00)
      (hlow : fourDigits? [e₁, e₂, e₃, e₄] = some low) (hlowHalf : 0xdc00 ≤ low ∧ low < 0xe000)
      (hraw : Spells raw s) :
      Spells (0x5c :: 0x75 :: d₁ :: d₂ :: d₃ :: d₄ :: 0x5c :: 0x75 :: e₁ :: e₂ :: e₃ :: e₄ :: raw)
        (Char.ofNat (0x10000 + (high - 0xd800) * 0x400 + (low - 0xdc00)) :: s)

/-! ### Values -/

/-- An item of an array as it is written: a value and the blanks around it. -/
structure Item where
  before : Bytes
  value : Value
  text : Bytes
  after : Bytes

namespace Item

/-- The bytes of an item. -/
def written (i : Item) : Bytes := i.before ++ (i.text ++ i.after)

/-- There are only blanks around the value. -/
def Spaced (i : Item) : Prop := Blanks i.before ∧ Blanks i.after

end Item

/-- A member of an object as it is written: a key between blanks, a colon and an item. -/
structure Member where
  before : Bytes
  key : RawText
  gap : Bytes
  item : Item

namespace Member

/-- The bytes of a member. -/
def written (m : Member) : Bytes :=
  m.before ++ (Value.quoted m.key ++ (m.gap ++ 0x3a :: m.item.written))

/-- The key is one, and there are only blanks around it and around the value. -/
def Spaced (m : Member) : Prop := Blanks m.before ∧ Raw m.key ∧ Blanks m.gap ∧ m.item.Spaced

end Member

/-- The bytes write the value. -/
inductive Writes : Value → Bytes → Prop where
  | null : Writes .null (Utf8.encode "null")
  | yes : Writes (.boolean true) (Utf8.encode "true")
  | no : Writes (.boolean false) (Utf8.encode "false")
  | number {s : Bytes} (h : Number s) : Writes (.number s) s
  | string {raw : RawText} (h : Raw raw) : Writes (.string raw) (Value.quoted raw)
  | emptyArray {gap : Bytes} (h : Blanks gap) : Writes (.array []) (0x5b :: (gap ++ [0x5d]))
  | array {items : List Item} (hne : items ≠ []) (hspaced : ∀ i ∈ items, i.Spaced)
      (hvalues : ∀ i ∈ items, Writes i.value i.text) :
      Writes (.array (items.map Item.value))
        (0x5b :: ([0x2c].intercalate (items.map Item.written) ++ [0x5d]))
  | emptyObject {gap : Bytes} (h : Blanks gap) : Writes (.object []) (0x7b :: (gap ++ [0x7d]))
  | object {members : List Member} (hne : members ≠ []) (hspaced : ∀ m ∈ members, m.Spaced)
      (hvalues : ∀ m ∈ members, Writes m.item.value m.item.text) :
      Writes (.object (members.map fun m => (m.key, m.item.value)))
        (0x7b :: ([0x2c].intercalate (members.map Member.written) ++ [0x7d]))

/-- The bytes write the value and maybe blanks around it. -/
def JsonText (v : Value) (s : Bytes) : Prop :=
  ∃ before text after, s = before ++ (text ++ after) ∧ Blanks before ∧ Writes v text ∧ Blanks after

end Json

end ImageGateway
