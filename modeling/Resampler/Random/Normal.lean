import Resampler.Random.Keystream
import Resampler.Random.Layers

/-!
# Normal numbers

A standard normal number is found by rejection. A layer under the density is
picked and a point across it; most points lie under the density and are taken
at once, the others are compared with the density, and a point in the lowest
layer beyond its edge is replaced by one from the tail. The chance that a
round ends without a number is about one in a hundred, so a bound of many
rounds is never met; the bound is there to make the search a total function.
-/

namespace Resampler

namespace Ziggurat

/-- How many rounds are tried at most. -/
def rounds : Nat := 4096

/-- The `i`-th edge. -/
def edge (i : Nat) : Float := Float.ofBits (edgeBits.getD i 0)

/-- The height of the density over the `i`-th edge. -/
def height (i : Nat) : Float := Float.ofBits (heightBits.getD i 0)

/-- The edge of the lowest layer. -/
def tailEdge : Float := edge 1

/-- The number whose exponent bits are `exponent` and whose other bits are the
upper 52 of a word. -/
def withExponent (exponent : Nat) (word : Nat) : Float :=
  Float.ofBits (exponent * Nat.pow 2 52 + word / Nat.pow 2 12).toUInt64

/-- A number above zero and below one. -/
def openUnit (word : Nat) : Float :=
  withExponent 1023 word - Float.ofBits 0x3fefffffffffffff

/-- A number from zero on and below one. -/
def unit (word : Nat) : Float :=
  (word / Nat.pow 2 11).toUInt64.toFloat * Float.ofBits 0x3ca0000000000000

/-- The density, scaled to one at its top. -/
def density (x : Float) : Float := Float.exp (-x * x / 2.0)

/-- A point of the tail, on the side of the sign of `u`. -/
def tail (u : Float) : Nat → Keystream → Float × Keystream
  | 0, s => (tailEdge, s)
  | n + 1, s =>
    let (v, s) := s.word64
    let (w, s) := s.word64
    let a := Float.log (openUnit v) / tailEdge
    let c := Float.log (openUnit w)
    if -2.0 * c < a * a then tail u n s
    else if u < 0.0 then (a - tailEdge, s) else (tailEdge - a, s)

/-- Rounds of the search, at most `n` of them. -/
def search : Nat → Keystream → Float × Keystream
  | 0, s => (0.0, s)
  | n + 1, s =>
    let (b, s) := s.word64
    let i := b % 256
    let u := withExponent 1024 b - 3.0
    let x := u * edge i
    if Float.abs x < edge (i + 1) then (x, s)
    else if i = 0 then tail u rounds s
    else
      let (w, s) := s.word64
      if height (i + 1) + (height i - height (i + 1)) * unit w < density x then
        (x, s)
      else search n s

/-- **A standard normal number** from the words of a keystream. -/
def draw (s : Keystream) : Float × Keystream := search rounds s

end Ziggurat

end Resampler
