import Resampler.Json.Basic
import Resampler.Decimal.Shortest

/-!
# The text of a JSON value

A value is written without blanks. Inside a string a quotation mark, a
backslash and the control characters are escaped, every other character stands
for itself. Integers are written in decimal; a floating-point number is
written with the fewest digits that read back, with a point or an exponent, so
that it is never mistaken for an integer.
-/

namespace Resampler

namespace Json

/-- Numbers from `0.00001` up to below `10 ^ 16` are written out. -/
def numberLayout : Decimal.Layout := ⟨-5, 16⟩

/-- The digit of a number below sixteen. -/
def hexDigit (n : Nat) : Char := Nat.digitChar n

/-- **The written form of a character** inside a string. -/
def escape (c : Char) : List Char :=
  if c = '"' then ['\\', '"']
  else if c = '\\' then ['\\', '\\']
  else if c = '\x08' then ['\\', 'b']
  else if c = '\t' then ['\\', 't']
  else if c = '\n' then ['\\', 'n']
  else if c = '\x0c' then ['\\', 'f']
  else if c = '\r' then ['\\', 'r']
  else if c < ' ' then
    ['\\', 'u', '0', '0', hexDigit (c.toNat / 16), hexDigit (c.toNat % 16)]
  else [c]

/-- A string in quotation marks. -/
def quote (s : String) : List Char :=
  '"' :: (s.toList.flatMap escape ++ ['"'])

/-- The text of an integer. -/
def intChars : Int → List Char
  | .ofNat n => Nat.toDigits 10 n
  | .negSucc n => '-' :: Nat.toDigits 10 (n + 1)

/-- The text of a number. -/
def numberChars : JsonNumber → List Char
  | .integer i _ => intChars i
  | .real x _ => numberLayout.text x

mutual

/-- **The characters of a value.** -/
def chars : Json → List Char
  | .null => ['n', 'u', 'l', 'l']
  | .bool true => ['t', 'r', 'u', 'e']
  | .bool false => ['f', 'a', 'l', 's', 'e']
  | .number n => numberChars n
  | .string s => quote s
  | .array [] => ['[', ']']
  | .array (v :: vs) => '[' :: (v.chars ++ itemsChars vs)
  | .objectOf [] => ['\x7b', '\x7d']
  | .objectOf ((name, v) :: ms) =>
    '\x7b' :: (quote name ++ ':' :: (v.chars ++ membersChars ms))

/-- The characters of the further items of an array, each after a comma, and
of its end. -/
def itemsChars : List Json → List Char
  | [] => [']']
  | v :: vs => ',' :: (v.chars ++ itemsChars vs)

/-- The characters of the further members of an object, each after a comma,
and of its end. -/
def membersChars : List (String × Json) → List Char
  | [] => ['\x7d']
  | (name, v) :: ms =>
    ',' :: (quote name ++ ':' :: (v.chars ++ membersChars ms))

end

/-- **The text of a value.** -/
def text (v : Json) : String := String.ofList v.chars

end Json

end Resampler
