import Resampler.Json.Lexeme

/-!
# The tree of a JSON text

A text that follows the grammar of JSON has a tree: which values it holds and
how they are nested. What the numbers and the strings in it denote is left
open, so that a text can be well formed though a number in it is out of range,
or a string is no sequence of characters, or the nesting is too deep for a
reader.

The tree is built from the lexemes by an automaton, one lexeme at a time. Where
it stands is a place in the tree: the value being read inside the arrays and
objects that enclose it.
-/

namespace Resampler

namespace Json

/-- **The tree of a well-formed text.** -/
inductive Tree where
  | null
  | bool (value : Bool)
  | number (value : Numeral)
  | string (letters : List Letter)
  | array (items : List Tree)
  | object (members : List (List Letter × Tree))

namespace Tree

/-- **What encloses a value**: an array with the items before it, or an object
with the members before it and its name, each again enclosed. Items and
members stand with the last first. -/
inductive Enclosure where
  | top
  | item (before : List Tree) (outer : Enclosure)
  | member (before : List (List Letter × Tree)) (name : List Letter)
    (outer : Enclosure)

/-- **Where the automaton stands.** -/
inductive Place where
  /-- Before a value. -/
  | value (enclosure : Enclosure)
  /-- Right after the opening bracket of an array. -/
  | firstItem (outer : Enclosure)
  /-- After a value. -/
  | done (value : Tree) (enclosure : Enclosure)
  /-- Right after the opening brace of an object. -/
  | firstName (outer : Enclosure)
  /-- Before a name. -/
  | name (before : List (List Letter × Tree)) (outer : Enclosure)
  /-- After a name. -/
  | colon (before : List (List Letter × Tree)) (name : List Letter)
    (outer : Enclosure)

namespace Place

/-- Take a lexeme that begins a value. -/
def begin? (e : Enclosure) : Lexeme → Option Place
  | .null => some (.done .null e)
  | .bool b => some (.done (.bool b) e)
  | .number n => some (.done (.number n) e)
  | .string s => some (.done (.string s) e)
  | .openArray => some (.firstItem e)
  | .openObject => some (.firstName e)
  | _ => none

/-- Take a lexeme after a value. -/
def go? (v : Tree) : Enclosure → Lexeme → Option Place
  | .item before outer, .comma => some (.value (.item (v :: before) outer))
  | .item before outer, .closeArray =>
    some (.done (.array (before.reverse ++ [v])) outer)
  | .member before label outer, .comma =>
    some (.name ((label, v) :: before) outer)
  | .member before label outer, .closeObject =>
    some (.done (.object (before.reverse ++ [(label, v)])) outer)
  | _, _ => none

/-- **Take one lexeme.** -/
def step : Place → Lexeme → Option Place
  | .value e, t => begin? e t
  | .firstItem outer, .closeArray => some (.done (.array []) outer)
  | .firstItem outer, t => begin? (.item [] outer) t
  | .done v e, t => go? v e t
  | .firstName outer, .string s => some (.colon [] s outer)
  | .firstName outer, .closeObject => some (.done (.object []) outer)
  | .name before outer, .string s => some (.colon before s outer)
  | .colon before label outer, .colon =>
    some (.value (.member before label outer))
  | _, _ => none

/-- Take lexemes one after the other. -/
def run (p : Place) : List Lexeme → Option Place
  | [] => some p
  | t :: rest => (p.step t).bind fun p => p.run rest

/-- The tree, if the text may end here. -/
def finish : Place → Option Tree
  | .done v .top => some v
  | _ => none

theorem run_append (p : Place) (a b : List Lexeme) :
    p.run (a ++ b) = (p.run a).bind fun p => p.run b := by
  induction a generalizing p with
  | nil => rfl
  | cons t a ih =>
    rw [List.cons_append, run, run]
    cases p.step t with
    | none => rfl
    | some p' => exact ih p'

end Place

/-- **The tree of a text**, if it is well formed. -/
def ofChars? (text : List Char) : Option Tree :=
  ((lexemes? text).bind (Place.value .top).run).bind Place.finish

end Tree

end Json

end Resampler
