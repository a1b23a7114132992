import Resampler.Text.Unassigned

/-!
# Printable characters

A character is printable if it has a form on paper: it is a letter, a mark, a
number, a punctuation mark or a symbol, or the space. The other general
categories of the Unicode standard, version 17, are tabled here: controls,
formats, separators, and code points for private use or without a character.
-/

namespace Resampler

namespace CodeTable

/-- The controls. -/
def controls : CodeTable := ⟨[
    (0x0, 0x1f), (0x7f, 0x9f)]⟩

/-- The format characters. -/
def formats : CodeTable := ⟨[
    (0xad, 0xad), (0x600, 0x605), (0x61c, 0x61c), (0x6dd, 0x6dd), (0x70f, 0x70f),
    (0x890, 0x891), (0x8e2, 0x8e2), (0x180e, 0x180e), (0x200b, 0x200f), (0x202a, 0x202e),
    (0x2060, 0x2064), (0x2066, 0x206f), (0xfeff, 0xfeff), (0xfff9, 0xfffb),
    (0x110bd, 0x110bd), (0x110cd, 0x110cd), (0x13430, 0x1343f), (0x1bca0, 0x1bca3),
    (0x1d173, 0x1d17a), (0xe0001, 0xe0001), (0xe0020, 0xe007f)]⟩

/-- The spaces and the separators of lines and paragraphs. -/
def separators : CodeTable := ⟨[
    (0x20, 0x20), (0xa0, 0xa0), (0x1680, 0x1680), (0x2000, 0x200a), (0x2028, 0x2029),
    (0x202f, 0x202f), (0x205f, 0x205f), (0x3000, 0x3000)]⟩

/-- The code points for private use. -/
def privateUse : CodeTable := ⟨[
    (0xe000, 0xf8ff), (0xf0000, 0xffffd), (0x100000, 0x10fffd)]⟩

/-- The characters that are not shown, whether or not they are printable. -/
def defaultIgnorable : CodeTable := ⟨[
    (0xad, 0xad), (0x34f, 0x34f), (0x61c, 0x61c), (0x115f, 0x1160), (0x17b4, 0x17b5),
    (0x180b, 0x180f), (0x200b, 0x200f), (0x202a, 0x202e), (0x2060, 0x206f),
    (0x3164, 0x3164), (0xfe00, 0xfe0f), (0xfeff, 0xfeff), (0xffa0, 0xffa0),
    (0xfff0, 0xfff8), (0x1bca0, 0x1bca3), (0x1d173, 0x1d17a), (0xe0000, 0xe0fff)]⟩

end CodeTable

/-- **Whether a character is printable.** Of the spaces only the common one is. -/
def isPrintable (c : Char) : Bool :=
  c = ' ' || !(CodeTable.controls.contains c || CodeTable.formats.contains c
    || CodeTable.separators.contains c || CodeTable.privateUse.contains c
    || CodeTable.unassigned.contains c)

/-- Whether a character leaves no trace where it is written. -/
def isIgnorable (c : Char) : Bool := CodeTable.defaultIgnorable.contains c

end Resampler
