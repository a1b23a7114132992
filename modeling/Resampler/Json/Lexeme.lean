import Resampler.Decimal.Reading

/-!
# The lexemes of a JSON text

A text is taken apart by an automaton that looks at one character at a time,
so that reading ends because the text does. Between lexemes it skips blanks;
a word or a number goes on until a character comes that cannot belong to it;
a string ends at its closing quotation mark.

A string is kept as it is written, up to the escapes for single characters:
an escape by number stands for a code unit, and whether the units of a string
make up characters is not asked here.
-/

namespace Resampler

namespace Json

/-- **A letter of a written string.** -/
inductive Letter where
  /-- A character that stands for itself or is escaped by name. -/
  | char (c : Char)
  /-- A code unit of sixteen bits, escaped by number. -/
  | unit (n : Nat)
deriving DecidableEq

/-- **A lexeme**: a mark, a word, a number or a string. -/
inductive Lexeme where
  | openArray
  | closeArray
  | openObject
  | closeObject
  | comma
  | colon
  | null
  | bool (value : Bool)
  | number (value : Numeral)
  | string (letters : List Letter)
deriving DecidableEq

/-- **What the automaton is in the middle of.** Texts are kept with the last
character first. -/
inductive Scanning where
  /-- Between two lexemes. -/
  | between
  /-- In a word. -/
  | word (typed : List Char)
  /-- In a number. -/
  | number (typed : List Char)
  /-- In a string. -/
  | string (letters : List Letter)
  /-- After a backslash in a string. -/
  | escape (letters : List Letter)
  /-- In an escape by number, with the digits still to come. -/
  | code (letters : List Letter) (missing : Nat) (value : Nat)
deriving DecidableEq

/-- **The state of the automaton.** -/
structure Scanner where
  /-- The lexemes read so far, the last first. -/
  read : List Lexeme
  /-- The lexeme it is in the middle of. -/
  scanning : Scanning
deriving DecidableEq

namespace Scanner

/-- Nothing read yet. -/
def start : Scanner := ⟨[], .between⟩

/-- The blanks that may stand between lexemes. -/
def isBlank (c : Char) : Bool := c = ' ' || c = '\t' || c = '\n' || c = '\r'

/-- The characters of a word. -/
def isWordChar (c : Char) : Bool := 'a' ≤ c && c ≤ 'z'

/-- The characters of a number, of which it starts with a digit or a minus
sign. -/
def isNumberChar (c : Char) : Bool :=
  ('0' ≤ c && c ≤ '9') || c = '-' || c = '+' || c = '.' || c = 'e' || c = 'E'

/-- The lexeme that a single character is. -/
def mark? (c : Char) : Option Lexeme :=
  if c = '[' then some .openArray
  else if c = ']' then some .closeArray
  else if c = '\x7b' then some .openObject
  else if c = '\x7d' then some .closeObject
  else if c = ',' then some .comma
  else if c = ':' then some .colon
  else none

/-- The lexeme that a word is. -/
def word? (typed : List Char) : Option Lexeme :=
  if typed = ['n', 'u', 'l', 'l'] then some .null
  else if typed = ['t', 'r', 'u', 'e'] then some (.bool true)
  else if typed = ['f', 'a', 'l', 's', 'e'] then some (.bool false)
  else none

/-- The lexeme that a number is; needless zeros in front are refused. -/
def number? (typed : List Char) : Option Lexeme :=
  match Numeral.ofChars? typed with
  | some n => if n.isPlain then some (.number n) else none
  | none => none

/-- The character that an escape by name stands for. -/
def named? (c : Char) : Option Char :=
  if c = '"' || c = '\\' || c = '/' then some c
  else if c = 'b' then some '\x08'
  else if c = 'f' then some '\x0c'
  else if c = 'n' then some '\n'
  else if c = 'r' then some '\r'
  else if c = 't' then some '\t'
  else none

/-- The value of a hexadecimal digit. -/
def hexValue? (c : Char) : Option Nat :=
  if '0' ≤ c ∧ c ≤ '9' then some (c.toNat - '0'.toNat)
  else if 'a' ≤ c ∧ c ≤ 'f' then some (c.toNat - 'a'.toNat + 10)
  else if 'A' ≤ c ∧ c ≤ 'F' then some (c.toNat - 'A'.toNat + 10)
  else none

/-- Finish the word or number that the automaton is in. -/
def flush (s : Scanner) : Option Scanner :=
  match s.scanning with
  | .word typed => (word? typed.reverse).map fun t => ⟨t :: s.read, .between⟩
  | .number typed =>
    (number? typed.reverse).map fun t => ⟨t :: s.read, .between⟩
  | _ => some s

/-- Take a character between two lexemes. -/
def begin? (read : List Lexeme) (c : Char) : Option Scanner :=
  if isBlank c then some ⟨read, .between⟩
  else if c = '"' then some ⟨read, .string []⟩
  else if isWordChar c then some ⟨read, .word [c]⟩
  else if c = '-' || ('0' ≤ c && c ≤ '9') then some ⟨read, .number [c]⟩
  else (mark? c).map fun t => ⟨t :: read, .between⟩

/-- **Take one character.** -/
def step (s : Scanner) (c : Char) : Option Scanner :=
  match s.scanning with
  | .between => begin? s.read c
  | .word typed =>
    if isWordChar c then some ⟨s.read, .word (c :: typed)⟩
    else s.flush.bind fun s => begin? s.read c
  | .number typed =>
    if isNumberChar c then some ⟨s.read, .number (c :: typed)⟩
    else s.flush.bind fun s => begin? s.read c
  | .string letters =>
    if c = '"' then some ⟨.string letters.reverse :: s.read, .between⟩
    else if c = '\\' then some ⟨s.read, .escape letters⟩
    else if c < ' ' then none
    else some ⟨s.read, .string (.char c :: letters)⟩
  | .escape letters =>
    if c = 'u' then some ⟨s.read, .code letters 4 0⟩
    else (named? c).map fun d => ⟨s.read, .string (.char d :: letters)⟩
  | .code letters missing value =>
    (hexValue? c).map fun d =>
      match missing with
      | missing + 2 => ⟨s.read, .code letters (missing + 1) (16 * value + d)⟩
      | _ => ⟨s.read, .string (.unit (16 * value + d) :: letters)⟩

/-- Take the characters of a text one after the other. -/
def run (s : Scanner) : List Char → Option Scanner
  | [] => some s
  | c :: rest => (s.step c).bind fun s => s.run rest

/-- The lexemes of a text that ends here. -/
def finish (s : Scanner) : Option (List Lexeme) :=
  s.flush.bind fun s =>
    match s.scanning with
    | .between => some s.read.reverse
    | _ => none

theorem run_append (s : Scanner) (a b : List Char) :
    s.run (a ++ b) = (s.run a).bind fun s => s.run b := by
  induction a generalizing s with
  | nil => rfl
  | cons c a ih =>
    rw [List.cons_append, run, run]
    cases s.step c with
    | none => rfl
    | some s' => exact ih s'

end Scanner

/-- **The lexemes of a text**, if it is made of lexemes. -/
def lexemes? (text : List Char) : Option (List Lexeme) :=
  (Scanner.start.run text).bind Scanner.finish

end Json

end Resampler
