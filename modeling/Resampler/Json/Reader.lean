import Resampler.Json.Basic
import Resampler.Json.Tree

/-!
# Reading JSON values

A well-formed text denotes a value if its strings are made of characters, its
numbers are in range and it is not nested too deeply. Code units of a string
that are escaped by number must be characters or pairs of a high and a low
surrogate. A number without point and exponent is an integer if it fits 64
bits; every other number is a floating-point number, read by the scaled
reading.
-/

namespace Resampler

namespace Json

/-- The deepest nesting of arrays and objects that is read. -/
def depthMax : Nat := 127

/-- Whether a code unit is the first half of a surrogate pair. -/
def isHighSurrogate (n : Nat) : Bool := 0xd800 ≤ n && n < 0xdc00

/-- Whether a code unit is the second half of a surrogate pair. -/
def isLowSurrogate (n : Nat) : Bool := 0xdc00 ≤ n && n < 0xe000

/-- **The characters that the letters of a string make up**, if they do. -/
def decode? : List Letter → Option (List Char)
  | [] => some []
  | .char c :: rest => (decode? rest).map (c :: ·)
  | .unit n :: rest =>
    if isHighSurrogate n then
      match rest with
      | .unit m :: rest =>
        if isLowSurrogate m then
          (decode? rest).map
            (Char.ofNat (0x10000 + (n - 0xd800) * 0x400 + (m - 0xdc00)) :: ·)
        else none
      | _ => none
    else if isLowSurrogate n then none
    else (decode? rest).map (Char.ofNat n :: ·)

/-- The string that the letters of a written string make up. -/
def stringOf? (letters : List Letter) : Option String :=
  (decode? letters).map String.ofList

/-- **The number that a numeral denotes**, if it is in range. A minus sign
before zero makes it a floating-point number. -/
def numberOf? (n : Numeral) : Option Json :=
  match n.fraction, n.exponent with
  | none, none =>
    let magnitude := Numeral.ofDigits n.whole
    if n.negative then
      if magnitude ≠ 0 ∧ magnitude ≤ Nat.pow 2 63 then some (.ofInt (-magnitude))
      else n.scaled.map .ofFloat
    else if magnitude ≤ Numeral.wordMax then some (.ofNat magnitude)
    else n.scaled.map .ofFloat
  | _, _ => n.scaled.map .ofFloat

mutual

/-- **The value of a tree** whose nesting is at most `depth`. -/
def Tree.value? : Nat → Tree → Option Json
  | _, .null => some .null
  | _, .bool b => some (.bool b)
  | _, .number n => numberOf? n
  | _, .string s => (stringOf? s).map .string
  | 0, .array _ => none
  | depth + 1, .array items => (itemsOf? depth items).map .array
  | 0, .object _ => none
  | depth + 1, .object members => (membersOf? depth members).map object

/-- The values of the items of an array. -/
def itemsOf? : Nat → List Tree → Option (List Json)
  | _, [] => some []
  | depth, t :: ts =>
    match t.value? depth with
    | none => none
    | some v => (itemsOf? depth ts).map (v :: ·)

/-- The values of the members of an object, with their names. -/
def membersOf? : Nat → List (List Letter × Tree) → Option (List (String × Json))
  | _, [] => some []
  | depth, (name, t) :: ts =>
    match stringOf? name, t.value? depth with
    | some name, some v => (membersOf? depth ts).map ((name, v) :: ·)
    | _, _ => none

end

/-- **The value that a text denotes**, if it does. -/
def ofChars? (text : List Char) : Option Json :=
  (Tree.ofChars? text).bind (Tree.value? depthMax)

/-- The value that a text denotes, if it does. -/
def ofText? (text : String) : Option Json := ofChars? text.toList

end Json

end Resampler
