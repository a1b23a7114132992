import Resampler.Text.GraphemeExtend
import Resampler.Text.Printable

/-!
# Quoted text

A quoted text stands between double quotes and shows every character of it. A
character that would end the quotes, break the line, melt into its neighbours
or not be seen at all is escaped; every other one stands for itself.
-/

namespace Resampler

namespace Quoted

/-- The letter that stands for a character after a backslash. -/
def letter? (c : Char) : Option Char :=
  if c = '"' || c = '\\' then some c
  else if c = '\t' then some 't'
  else if c = '\n' then some 'n'
  else if c = '\r' then some 'r'
  else if c = '\x00' then some '0'
  else none

/-- The halfwidth sound marks. They extend a grapheme, but have a place of
their own beside it. -/
def halfwidthMarks : CodeTable := ⟨[(0xff9e, 0xff9f)]⟩

/-- Whether a character is drawn on the one before it. -/
def isJoined (c : Char) : Bool :=
  CodeTable.graphemeExtend.contains c && !halfwidthMarks.contains c

/-- Whether a character stands for itself, unless it has a letter. -/
def isPlain (c : Char) : Bool := isPrintable c && !isIgnorable c && !isJoined c

/-- The number of a character to the base sixteen, in braces. -/
def numbered (c : Char) : List Char :=
  ['\\', 'u', '\x7b'] ++ Nat.toDigits 16 c.toNat ++ ['\x7d']

/-- **The form of a character between quotes.** -/
def form (c : Char) : List Char :=
  match letter? c with
  | some l => ['\\', l]
  | none => if isPlain c then [c] else numbered c

/-- **A text between quotes.** -/
def ofText (text : String) : String :=
  String.ofList ('"' :: (text.toList.flatMap form ++ ['"']))

end Quoted

end Resampler
