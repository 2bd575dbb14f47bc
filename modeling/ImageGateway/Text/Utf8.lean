/-!
# UTF-8

Byte strings are lists of bytes.  `Utf8.encode` and the strict `Utf8.decode?` are core's coding;
`Utf8.decodeLossy` reads any bytes and puts U+FFFD in the place of each maximal piece that is not
UTF-8, as the Unicode standard recommends.

* `Utf8.decode?_encode` : what is written is read back.
* `Utf8.encode_of_decode?` : only the encoding of a text is read as that text.
-/

namespace ImageGateway

/-- A byte string. -/
abbrev Bytes := List UInt8

namespace Utf8

/-- The bytes of a text. -/
def encode (s : String) : Bytes := s.toUTF8.data.toList

/-- The text with these bytes, if there is one. -/
def decode? (bytes : Bytes) : Option String := String.fromUTF8? ⟨bytes.toArray⟩

/-- The character that stands for bytes that are not UTF-8. -/
def replacement : Char := Char.ofNat 0xfffd

/-- A byte that continues a character, in the range that is left for it. -/
def isContinuation (low high : UInt8) (b : UInt8) : Bool := low ≤ b && b ≤ high

/-- The code point of a lead byte's payload and the payloads of its continuations. -/
def assemble (lead : Nat) (rest : List UInt8) : Char :=
  Char.ofNat (rest.foldl (fun n b => n * 64 + (b.toNat - 0x80)) lead)

/-- The character at the front of nonempty bytes and the number of bytes that it takes; the
replacement character stands for a piece of one to three bytes that no character begins with. -/
def front (b : UInt8) (rest : Bytes) : Char × Nat :=
  let two (low high : UInt8) (lead : Nat) (width : Nat) : Char × Nat :=
    match width, rest with
    | 2, c :: _ => if isContinuation low high c then (assemble lead [c], 2) else (replacement, 1)
    | 3, c :: d :: _ =>
      if !isContinuation low high c then (replacement, 1)
      else if isContinuation 0x80 0xbf d then (assemble lead [c, d], 3) else (replacement, 2)
    | 3, [c] => (replacement, if isContinuation low high c then 2 else 1)
    | 4, c :: d :: e :: _ =>
      if !isContinuation low high c then (replacement, 1)
      else if !isContinuation 0x80 0xbf d then (replacement, 2)
      else if isContinuation 0x80 0xbf e then (assemble lead [c, d, e], 4) else (replacement, 3)
    | 4, [c, d] =>
      (replacement, if !isContinuation low high c then 1
        else if isContinuation 0x80 0xbf d then 3 else 2)
    | 4, [c] => (replacement, if isContinuation low high c then 2 else 1)
    | _, _ => (replacement, 1)
  if b < 0x80 then (Char.ofNat b.toNat, 1)
  else if b < 0xc2 then (replacement, 1)
  else if b < 0xe0 then two 0x80 0xbf (b.toNat - 0xc0) 2
  else if b == 0xe0 then two 0xa0 0xbf 0 3
  else if b == 0xed then two 0x80 0x9f 0xd 3
  else if b < 0xf0 then two 0x80 0xbf (b.toNat - 0xe0) 3
  else if b == 0xf0 then two 0x90 0xbf 0 4
  else if b < 0xf4 then two 0x80 0xbf (b.toNat - 0xf0) 4
  else if b == 0xf4 then two 0x80 0x8f 4 4
  else (replacement, 1)

/-- The characters of bytes that need not be UTF-8. -/
def decodeLossyChars : Bytes → List Char
  | [] => []
  | b :: rest =>
    let (c, n) := front b rest
    c :: decodeLossyChars (rest.drop (n - 1))
termination_by bytes => bytes.length
decreasing_by simp only [List.length_drop, List.length_cons]; omega

/-- The text of bytes that need not be UTF-8. -/
def decodeLossy (bytes : Bytes) : String := String.ofList (decodeLossyChars bytes)

theorem decode?_encode (s : String) : decode? (encode s) = some s := by
  simp [decode?, encode, String.fromUTF8?, String.fromUTF8, String.toUTF8, s.isValidUTF8]

theorem encode_of_decode? {bytes : Bytes} {s : String} (h : decode? bytes = some s) :
    encode s = bytes := by
  simp only [decode?, String.fromUTF8?] at h
  split at h
  · cases h
    simp [encode, String.fromUTF8, String.toUTF8]
  · contradiction

end Utf8

end ImageGateway
