/-!
# The fewest digits that read back

A floating-point number is written with as few decimal digits as tell it from
every other floating-point number, and among decimals with that few digits by
the nearest one.

A positive finite number is `m · 2 ^ q`. The decimals that are nearer to it
than to its neighbours fill an interval; its ends belong to it if `m` is even,
for then a tie is resolved towards it. The multiples of `10 ^ k` are a grid,
and the coarsest grid with a point in the interval gives the digits. If any
point of a grid is in the interval, one of the two points next to the number
is, so only these two are looked at. Every number is a multiple of
`10 ^ (-1074)`, so the search has ended when it comes to that grid.
-/

namespace Resampler

namespace Decimal

/-- **A positive binary number with its interval of rounding**, over a common
denominator: the decimals `d` with `low ≤ d · scale ≤ high`, the ends included
only if `closed`. -/
structure Interval where
  /-- The lower end. -/
  low : Nat
  /-- The number itself. -/
  centre : Nat
  /-- The upper end. -/
  high : Nat
  /-- The denominator of the three. -/
  scale : Nat
  /-- Whether the ends belong to the interval. -/
  closed : Bool

/-- The interval of `m · 2 ^ q`. Below a power of two the next number is only
half as far, which `halfBelow` says. -/
def Interval.ofBinary (m : Nat) (q : Int) (halfBelow : Bool) : Interval :=
  let up := Nat.pow 2 (q - 2).toNat
  { low := (4 * m - (if halfBelow then 1 else 2)) * up
    centre := 4 * m * up
    high := (4 * m + 2) * up
    scale := Nat.pow 2 (2 - q).toNat
    closed := m % 2 = 0 }

/-- Whether the point `d · 10 ^ k` lies in the interval. -/
def Interval.holds (i : Interval) (d : Nat) (k : Int) : Bool :=
  let point := d * Nat.pow 10 k.toNat * i.scale
  let unit := Nat.pow 10 (-k).toNat
  if i.closed then i.low * unit ≤ point && point ≤ i.high * unit
  else i.low * unit < point && point < i.high * unit

/-- The number counted in steps of `10 ^ k`, as quotient, remainder and
divisor. -/
def Interval.steps (i : Interval) (k : Int) : Nat × Nat × Nat :=
  let step := i.scale * Nat.pow 10 k.toNat
  let n := i.centre * Nat.pow 10 (-k).toNat
  (n / step, n % step, step)

/-- The point of the grid `10 ^ k` that lies in the interval and is nearest to
the number, if there is one; a tie goes to the even point. -/
def Interval.onGrid (i : Interval) (k : Int) : Option Nat :=
  let (d, rest, step) := i.steps k
  let below := 0 < d && i.holds d k
  let above := i.holds (d + 1) k
  if below && above then
    if 2 * rest < step || (2 * rest = step && d % 2 = 0) then some d
    else some (d + 1)
  else if below then some d
  else if above then some (d + 1)
  else none

/-- **The coarsest grid from `10 ^ k` downwards with a point in the
interval**, and that point. -/
def Interval.coarsest (i : Interval) : Nat → Int → Nat × Int
  | 0, k => ((i.steps k).1, k)
  | bound + 1, k =>
    match i.onGrid k with
    | some d => (d, k)
    | none => i.coarsest bound (k - 1)

/-- An exponent `e` such that the number is below `10 ^ e`. -/
def Interval.ceiling (i : Interval) : Int :=
  if i.scale ≤ i.centre then
    (Nat.toDigits 10 (i.centre / i.scale)).length
  else
    1 - (Nat.toDigits 10 ((i.scale - 1) / i.centre)).length

/-- How many grids there are from `10 ^ k` down to one that holds every
number. -/
def gridsFrom (k : Int) : Nat := k.toNat + 1075

/-- Mantissa and binary exponent of a finite number, given by its 64 bits. -/
def binaryParts (bits : Nat) : Nat × Int :=
  let exponent : Nat := bits / Nat.pow 2 52 % Nat.pow 2 11
  let fraction := bits % Nat.pow 2 52
  if exponent = 0 then (fraction, -1074)
  else (fraction + Nat.pow 2 52, (exponent : Int) - 1075)

/-- **The shortest decimal of a positive finite number**: an integer and the
power of ten it is multiplied by. -/
def shortest (bits : Nat) : Nat × Int :=
  let (m, q) := binaryParts bits
  let halfBelow := bits % Nat.pow 2 52 = 0 && 1 < bits / Nat.pow 2 52 % Nat.pow 2 11
  let i := Interval.ofBinary m q halfBelow
  i.coarsest (gridsFrom i.ceiling) i.ceiling

/-- **Where a decimal is written out and where it takes an exponent.** -/
structure Layout where
  /-- The least exponent of the first digit that is written out. -/
  least : Int
  /-- The exponent of the first digit from which on there is an exponent. -/
  beyond : Int

/-- The text of an exponent: its sign always, and no leading zero. -/
def exponentText (e : Int) : List Char :=
  'e' :: (if e < 0 then '-' else '+') :: Nat.toDigits 10 e.natAbs

/-- The digits of a decimal with the point set: `ds · 10 ^ k`. A number that
is written out always has a fraction. -/
def Layout.place (l : Layout) (ds : List Char) (k : Int) : List Char :=
  let e := k + ds.length - 1
  if l.least ≤ e ∧ e < l.beyond then
    if 0 ≤ k then ds ++ List.replicate k.toNat '0' ++ ['.', '0']
    else if 0 ≤ e then
      ds.take (e.toNat + 1) ++ '.' :: ds.drop (e.toNat + 1)
    else '0' :: '.' :: (List.replicate (-e - 1).toNat '0' ++ ds)
  else
    match ds with
    | [] => exponentText e
    | [d] => d :: exponentText e
    | d :: rest => d :: '.' :: (rest ++ exponentText e)

/-- **The text of a finite floating-point number**, the sign of zero kept. -/
def Layout.text (l : Layout) (x : Float) : List Char :=
  let bits := x.toBits.toNat
  let magnitude := bits % Nat.pow 2 63
  let sign := if bits = magnitude then [] else ['-']
  if magnitude = 0 then sign ++ ['0', '.', '0']
  else
    let (d, k) := shortest magnitude
    sign ++ l.place (Nat.toDigits 10 d) k

end Decimal

end Resampler
