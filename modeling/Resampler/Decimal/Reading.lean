/-!
# Reading decimals

A decimal text denotes a sign, digits before and after the point and a power
of ten. It is read as a floating-point number in one of two ways.

`Numeral.nearest` is the floating-point number nearest to the decimal.

`Numeral.scaled` is quicker and not always the nearest: the digits are
collected into an integer of 64 bits while they fit, that integer is rounded
once, and one multiplication or division by a power of ten rounds again. It
fails on a decimal that is too large.
-/

namespace Resampler

/-- **The parts of a decimal text.** -/
structure Numeral where
  /-- Whether a minus sign stands in front. -/
  negative : Bool
  /-- The digits before the point. -/
  whole : List Nat
  /-- The digits after the point, if there is one. -/
  fraction : Option (List Nat)
  /-- Whether the exponent is negative, and its digits, if there is one. -/
  exponent : Option (Bool × List Nat)
deriving DecidableEq

namespace Numeral

/-- The number that a list of digits denotes. -/
def ofDigits (digits : List Nat) : Nat := digits.foldl (fun n d => 10 * n + d) 0

/-- The decimal digit that a character is. -/
def digit? (c : Char) : Option Nat :=
  if '0' ≤ c ∧ c ≤ '9' then some (c.toNat - '0'.toNat) else none

/-- The digits at the start of a text, and what follows them. -/
def digits : List Char → List Nat × List Char
  | [] => ([], [])
  | c :: rest =>
    match digit? c with
    | some d => (d :: (digits rest).1, (digits rest).2)
    | none => ([], c :: rest)

/-- An exponent at the start of a text, if the text ends with it. -/
def exponentOnly? (sign : Bool) (text : List Char) : Option (Bool × List Nat) :=
  match digits text with
  | ([], _) => none
  | (ds, []) => some (sign, ds)
  | _ => none

/-- The exponent that makes up a whole text, which may be empty. -/
def exponent? : List Char → Option (Option (Bool × List Nat))
  | [] => some none
  | c :: rest =>
    if c = 'e' ∨ c = 'E' then
      match rest with
      | '-' :: text => (exponentOnly? true text).map some
      | '+' :: text => (exponentOnly? false text).map some
      | text => (exponentOnly? false text).map some
    else none

/-- The parts of an unsigned decimal. -/
def unsigned? (negative : Bool) (text : List Char) : Option Numeral :=
  match digits text with
  | ([], _) => none
  | (whole, '.' :: rest) =>
    match digits rest with
    | ([], _) => none
    | (fraction, rest) =>
      (exponent? rest).map fun e => ⟨negative, whole, some fraction, e⟩
  | (whole, rest) => (exponent? rest).map fun e => ⟨negative, whole, none, e⟩

/-- The parts of a decimal text: digits, then possibly a point with digits,
then possibly an exponent; a minus sign may stand in front. -/
def ofChars? : List Char → Option Numeral
  | '-' :: text => unsigned? true text
  | text => unsigned? false text

/-- A numeral has no needless zero in front. -/
def isPlain (n : Numeral) : Bool :=
  match n.whole with
  | 0 :: _ :: _ => false
  | _ => true

/-- The value of the exponent. -/
def exponentValue (n : Numeral) : Int :=
  match n.exponent with
  | none => 0
  | some (negative, ds) =>
    if negative then -(ofDigits ds : Int) else ofDigits ds

/-- The number with the sign of the numeral. -/
def signed (n : Numeral) (x : Float) : Float := if n.negative then -x else x

/-! ## The nearest floating-point number -/

/-- **The floating-point number nearest to a numeral.** A decimal that is far
out of range is infinite or zero, whatever its digits. -/
def nearest (n : Numeral) : Float :=
  let fraction := n.fraction.getD []
  let significand := ofDigits (n.whole ++ fraction)
  let e := n.exponentValue - fraction.length
  let size := e + (Nat.toDigits 10 significand).length
  n.signed <|
    if significand = 0 ∨ size < -400 then Float.ofBits 0
    else if 400 < size then Float.ofBits 0x7ff0000000000000
    else Float.ofScientific significand (decide (e < 0)) e.natAbs

/-! ## The scaled reading -/

/-- The largest unsigned integer of 64 bits. -/
def wordMax : Nat := Nat.pow 2 64 - 1

/-- The largest exponent that is read as it stands. -/
def exponentMax : Nat := Nat.pow 2 31 - 1

/-- Append digits to an integer while it fits 64 bits: the integer, and how
many digits were left over. -/
def collect (n : Nat) : List Nat → Nat × Nat
  | [] => (n, 0)
  | d :: rest =>
    if 10 * n + d ≤ wordMax then collect (10 * n + d) rest
    else (n, rest.length + 1)

/-- A power of ten, rounded to the nearest. -/
def powerOfTen (e : Nat) : Float := Float.ofScientific 1 false e

/-- Divide by `10 ^ 308` until the exponent is within reach or nothing is left
of the number, then divide once more. -/
def scaleDown : Nat → Float → Nat → Float
  | 0, f, _ => f
  | bound + 1, f, e =>
    if e ≤ 308 then f / powerOfTen e
    else if f == Float.ofBits 0 then f
    else scaleDown bound (f / powerOfTen 308) (e - 308)

/-- An integer of 64 bits times a power of ten, in floating-point arithmetic;
`none` if it is too large. -/
def scale (significand : Nat) (e : Int) : Option Float :=
  let f := significand.toUInt64.toFloat
  match e with
  | .ofNat e =>
    if 308 < e then if f == Float.ofBits 0 then some f else none
    else
      let r := f * powerOfTen e
      if r.isInf then none else some r
  | .negSucc e => some (scaleDown (e + 1) f (e + 1))

/-- **The scaled reading of a numeral**; `none` if it is too large. -/
def scaled (n : Numeral) : Option Float :=
  let (whole, dropped) := collect 0 n.whole
  let fraction := n.fraction.getD []
  let (significand, ignored) := collect whole fraction
  let kept := fraction.length - ignored
  let shift := (dropped : Int) - kept
  match n.exponent with
  | some (negative, ds) =>
    if exponentMax < ofDigits ds then
      if significand ≠ 0 ∧ negative = false then none
      else some (n.signed (Float.ofBits 0))
    else (scale significand (shift + n.exponentValue)).map n.signed
  | none => (scale significand shift).map n.signed

end Numeral

end Resampler
