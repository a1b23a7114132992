import Resampler.Random.Key

/-!
# The random words of a key

A key yields an endless sequence of words: the keystream of ChaCha with eight
rounds under the digest of the key. The state of the cipher is four rows of
four words; a round mixes the columns, and every second round does so after
the rows are turned against each other, which mixes the diagonals.

Larger numbers are put together from words in their order, and a number below
a bound is the upper half of a product, corrected by a second product when the
lower half says that it may be off.
-/

namespace Resampler

namespace ChaCha

/-- **A row of four words.** -/
structure Row where
  (a b c d : UInt32)

namespace Row

/-- Combine two rows word by word. -/
def zip (f : UInt32 → UInt32 → UInt32) (r s : Row) : Row :=
  ⟨f r.a s.a, f r.b s.b, f r.c s.c, f r.d s.d⟩

/-- Add two rows. -/
def add (r s : Row) : Row := r.zip (· + ·) s

/-- The exclusive or of two rows, every word then rotated to the left. -/
def xorRotate (r s : Row) (n : UInt32) : Row :=
  r.zip (fun x y => (x ^^^ y) <<< n ||| (x ^^^ y) >>> (32 - n)) s

/-- Turn a row by one place. -/
def turn (r : Row) : Row := ⟨r.b, r.c, r.d, r.a⟩

/-- The words of a row. -/
def toList (r : Row) : List UInt32 := [r.a, r.b, r.c, r.d]

end Row

/-- **The four rows of the state.** -/
structure State where
  (first second third fourth : Row)

namespace State

/-- Mix every column. -/
def columns (s : State) : State :=
  let a := s.first.add s.second
  let d := s.fourth.xorRotate a 16
  let c := s.third.add d
  let b := s.second.xorRotate c 12
  let a := a.add b
  let d := d.xorRotate a 8
  let c := c.add d
  let b := b.xorRotate c 7
  ⟨a, b, c, d⟩

/-- Turn the rows so that diagonals become columns. -/
def slant (s : State) : State :=
  ⟨s.first, s.second.turn, s.third.turn.turn, s.fourth.turn.turn.turn⟩

/-- Turn the rows back. -/
def straighten (s : State) : State :=
  ⟨s.first, s.second.turn.turn.turn, s.third.turn.turn, s.fourth.turn⟩

/-- Two rounds: one on the columns, one on the diagonals. -/
def doubleRound (s : State) : State := s.columns.slant.columns.straighten

/-- Add two states. -/
def add (s t : State) : State :=
  ⟨s.first.add t.first, s.second.add t.second, s.third.add t.third,
    s.fourth.add t.fourth⟩

/-- The words of a state in order. -/
def toList (s : State) : List UInt32 :=
  s.first.toList ++ s.second.toList ++ s.third.toList ++ s.fourth.toList

end State

/-- Four bytes as a word, the first byte the lowest. -/
def word (bytes : List UInt8) : UInt32 := UInt32.ofNat (Sha256.littleEndian bytes)

/-- The row that sixteen bytes make up. -/
def row (bytes : List UInt8) : Row :=
  ⟨word (bytes.take 4), word ((bytes.drop 4).take 4),
    word ((bytes.drop 8).take 4), word ((bytes.drop 12).take 4)⟩

/-- The state before the rounds of a block. -/
def initial (seed : List UInt8) (block : Nat) : State :=
  { first := ⟨0x61707865, 0x3320646e, 0x79622d32, 0x6b206574⟩
    second := row (seed.take 16)
    third := row (seed.drop 16)
    fourth := ⟨UInt32.ofNat (block % Nat.pow 2 32),
      UInt32.ofNat (block / Nat.pow 2 32), 0, 0⟩ }

/-- **A block of the keystream**, sixteen words. -/
def block (seed : List UInt8) (n : Nat) : List UInt32 :=
  let s := initial seed n
  (s.doubleRound.doubleRound.doubleRound.doubleRound.add s).toList

end ChaCha

/-- **A keystream that has been read up to some word.** -/
structure Keystream where
  /-- The bytes that the keystream is made from. -/
  seed : List UInt8
  /-- The number of the next block. -/
  next : Nat
  /-- The words of the last block that are still to be read. -/
  ready : List UInt32

namespace Keystream

/-- The keystream of a key from its first word on. -/
def ofKey (k : RandomKey) : Keystream := ⟨k.seedBytes, 0, []⟩

/-- **The next word**, and the keystream after it. -/
def word32 (s : Keystream) : Nat × Keystream :=
  match s.ready with
  | w :: rest => (w.toNat, { s with ready := rest })
  | [] =>
    match ChaCha.block s.seed s.next with
    | w :: rest => (w.toNat, { s with next := s.next + 1, ready := rest })
    | [] => (0, s)

/-- The next two words as a number, the lower one first. -/
def word64 (s : Keystream) : Nat × Keystream :=
  let (low, s) := s.word32
  let (high, s) := s.word32
  (high * Nat.pow 2 32 + low, s)

/-- The next `n` numbers of 64 bits. -/
def words64 : Nat → Keystream → List Nat × Keystream
  | 0, s => ([], s)
  | n + 1, s =>
    let (w, s) := s.word64
    let (ws, s) := words64 n s
    (w :: ws, s)

/-- A number below `n` from numbers below `size`: the upper half of a product,
and one more if the lower half, with the upper half of a second product,
overflows. -/
def scaled (size : Nat) (draw : Keystream → Nat × Keystream) (n : Nat)
    (s : Keystream) : Nat × Keystream :=
  let (x, s) := draw s
  let high := x * n / size
  let low := x * n % size
  if size - n < low then
    let (y, s) := draw s
    if size ≤ low + y * n / size then (high + 1, s) else (high, s)
  else (high, s)

/-- **A number below `n`**; `none` if there is no such number. Bounds that fit
32 bits take single words, larger ones take two at a time. -/
def below? (n : Nat) (s : Keystream) : Option (Nat × Keystream) :=
  if n = 0 then none
  else if n < Nat.pow 2 32 then some (s.scaled (Nat.pow 2 32) word32 n)
  else some (s.scaled (Nat.pow 2 64) word64 n)

end Keystream

end Resampler
