import Resampler.Json.Reader
import Resampler.Json.Printer

/-!
# Records of a log

A log keeps one record a line: a number of 64 bits and a text. A record is
written as an object with the members `key` and `value`. Reading is more
liberal: blanks may stand anywhere between tokens, the members may come in any
order and among others, which are passed over whatever they hold, and the pair
of key and value may be written as an array. A repeated or missing member is
refused.
-/

namespace Resampler

/-- **A record**: a text under a number. -/
structure Record where
  /-- The number. -/
  key : Nat
  /-- The text. -/
  value : String
deriving DecidableEq

namespace Record

open Json (Tree Letter)

/-- The characters of a record. -/
def chars (r : Record) : List Char :=
  '\x7b' :: (Json.quote "key" ++ ':' :: Nat.toDigits 10 r.key
    ++ ',' :: Json.quote "value" ++ ':' :: Json.quote r.value ++ ['\x7d'])

/-- The key that a tree stands for: an unsigned integer of 64 bits. -/
def keyOf? : Tree → Option Nat
  | .number ⟨false, whole, none, none⟩ =>
    let n := Numeral.ofDigits whole
    if n ≤ Numeral.wordMax then some n else none
  | _ => none

/-- The value that a tree stands for: a string of characters. -/
def valueOf? : Tree → Option String
  | .string letters => Json.stringOf? letters
  | _ => none

/-- Read the members of an object, given the key and the value that earlier
members held. -/
def ofMembers? : Option Nat → Option String → List (List Letter × Tree) →
    Option Record
  | some key, some value, [] => some ⟨key, value⟩
  | _, _, [] => none
  | key, value, (name, t) :: rest =>
    match Json.stringOf? name with
    | none => none
    | some name =>
      if name = "key" then
        match key, keyOf? t with
        | none, some k => ofMembers? (some k) value rest
        | _, _ => none
      else if name = "value" then
        match value, valueOf? t with
        | none, some v => ofMembers? key (some v) rest
        | _, _ => none
      else ofMembers? key value rest

/-- The record that a tree stands for. -/
def ofTree? : Tree → Option Record
  | .object members => ofMembers? none none members
  | .array [k, v] =>
    match keyOf? k, valueOf? v with
    | some key, some value => some ⟨key, value⟩
    | _, _ => none
  | _ => none

/-- **The record that a line stands for**, if it does. -/
def ofChars? (line : List Char) : Option Record :=
  (Tree.ofChars? line).bind ofTree?

end Record

end Resampler
