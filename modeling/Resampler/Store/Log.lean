import Resampler.OrderedMap
import Resampler.Store.Record
import Resampler.Text.Blank
import Resampler.Text.Utf8

/-!
# The log behind a durable store

A durable store is the sequence of its records, a line each, in the order of
insertion. Reading a log takes its lines one after the other; blank lines are
counted and skipped, and of two records under one key the first counts, as it
did when the records were inserted. A line that is no text or no record makes
the log unreadable.

A carriage return before a line feed needs no care, for it is a blank both to
a blank line and to a record.
-/

namespace Resampler

namespace Log

/-- The entries of a store: texts under numbers. -/
abbrev Entries := OrderedMap Nat String

/-- **Why a log cannot be read.** -/
inductive Fault where
  /-- Its bytes are no text. -/
  | unreadable
  /-- A line, counted from one, is no record. -/
  | corrupt (line : Nat)
deriving DecidableEq

/-- What stands between line feeds; after the last of them possibly
nothing. -/
def lines : List UInt8 → List (List UInt8)
  | [] => [[]]
  | b :: rest =>
    if b = 10 then [] :: lines rest
    else
      match lines rest with
      | [] => [[b]]
      | l :: ls => (b :: l) :: ls

/-- Take one line, the `n`-th. -/
def takeLine (n : Nat) (entries : Entries) (line : List UInt8) :
    Except Fault Entries :=
  match Utf8.decode? line with
  | none => .error .unreadable
  | some text =>
    if text.all isBlank then .ok entries
    else
      match Record.ofChars? text with
      | none => .error (.corrupt n)
      | some r => .ok (entries.insertIfAbsent r.key r.value)

/-- Take lines one after the other, the first of them the `n`-th. -/
def takeLines : Nat → Entries → List (List UInt8) → Except Fault Entries
  | _, entries, [] => .ok entries
  | n, entries, line :: rest =>
    match takeLine n entries line with
    | .error fault => .error fault
    | .ok entries => takeLines (n + 1) entries rest

/-- **The entries of a log.** -/
def read (content : List UInt8) : Except Fault Entries :=
  takeLines 1 .empty (lines content)

/-- **A log with one more record**, on a line of its own at the end. -/
def append (content : List UInt8) (r : Record) : List UInt8 :=
  content ++ Utf8.encode (r.chars ++ ['\n'])

end Log

end Resampler
