import ImageGateway.Text.Utf8

/-!
# Punycode

The ASCII form of a domain label with characters outside ASCII.  The ASCII characters come first;
then, for each other code point in increasing order, the distance from the place before is written
as a number of variable length, whose digits have thresholds that follow the sizes of the earlier
distances.
-/

namespace ImageGateway

namespace Punycode

/-- The digit of a value below 36: the letters come before the decimal digits. -/
def digit (n : Nat) : Char := Char.ofNat (if n < 26 then 0x61 + n else 0x30 + (n - 26))

/-- The threshold of the digit at position `k`. -/
def threshold (k bias : Nat) : Nat :=
  if k ≤ bias then 1 else if bias + 26 ≤ k then 26 else k - bias

theorem threshold_pos (k bias : Nat) : 1 ≤ threshold k bias := by
  unfold threshold
  split
  · omega
  · split <;> omega

/-- The digits of a distance from position `k` on. -/
def digits (bias k distance : Nat) : List Char :=
  let t := threshold k bias
  if distance < t then [digit distance]
  else digit (t + (distance - t) % (36 - t)) :: digits bias (k + 36) ((distance - t) / (36 - t))
termination_by distance
decreasing_by
  have := threshold_pos k bias
  have := Nat.div_le_self (distance - threshold k bias) (36 - threshold k bias)
  omega

/-- Shrinks a distance and counts the digits that it loses. -/
def shrink (distance k : Nat) : Nat × Nat :=
  if 455 < distance then shrink (distance / 35) (k + 36) else (distance, k)
termination_by distance
decreasing_by omega

/-- The bias behind a distance, when `count` characters are placed. -/
def adapt (distance count : Nat) (first : Bool) : Nat :=
  let scaled := if first then distance / 700 else distance / 2
  let (rest, k) := shrink (scaled + scaled / count) 0
  k + 36 * rest / (rest + 38)

/-- How far the writing of a label has come. -/
structure Progress where
  written : List Char
  distance : Nat
  bias : Nat
  /-- The number of characters that are placed. -/
  placed : Nat

/-- Passes over the character `c` of the label while the code point `point` is placed. -/
def Progress.pass (basic point : Nat) (p : Progress) (c : Char) : Progress :=
  if c.toNat < point then { p with distance := p.distance + 1 }
  else if c.toNat = point then
    { written := p.written ++ digits p.bias 36 p.distance
      distance := 0
      bias := adapt p.distance (p.placed + 1) (p.placed == basic)
      placed := p.placed + 1 }
  else p

/-- Places the code points of the list, which are in increasing order and not below `next`. -/
def placeAll (label : List Char) (basic : Nat) : List Nat → Nat → Progress → Progress
  | [], _, p => p
  | point :: points, next, p =>
    -- a code point that the label does not have could go before or behind each placed character
    let p := { p with distance := p.distance + (point - next) * (p.placed + 1) }
    let p := label.foldl (Progress.pass basic point) p
    placeAll label basic points (point + 1) { p with distance := p.distance + 1 }

/-- A number put in its place in a strictly increasing list. -/
def insertPoint (n : Nat) : List Nat → List Nat
  | [] => [n]
  | m :: l => if n < m then n :: m :: l else if n = m then m :: l else m :: insertPoint n l

/-- The ASCII form of a label. -/
def encode (label : List Char) : List Char :=
  let basic := label.filter fun c => c.toNat < 0x80
  let points := (label.filter fun c => 0x80 ≤ c.toNat).foldr (fun c => insertPoint c.toNat) []
  let start := if basic.isEmpty then [] else basic ++ ['-']
  (placeAll label basic.length points 0x80 ⟨start, 0, 72, basic.length⟩).written

end Punycode

end ImageGateway
