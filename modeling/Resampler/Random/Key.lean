import Resampler.Hash.Sha256
import Resampler.Text.Utf8

/-!
# Splittable random keys

A random key names a place in an infinite tree. A key is split into the first
of its children, the *deeper* half, and its next sibling, the *incremented*
half. Whoever holds a key gives the deeper half away and keeps the
incremented one, so that a key held for long grows in its counter and not in
its depth.

A key is written as nested pairs, the parent before the counter, and `null`
stands for the parent of a key at the top. Whatever is random about a key is
taken from the digest of that text.
-/

namespace Resampler

/-- **A place in the tree of keys.** -/
inductive RandomKey where
  /-- A key at the top. -/
  | top (head : Nat)
  /-- A key below another. -/
  | under (parent : RandomKey) (head : Nat)
deriving DecidableEq, Inhabited

namespace RandomKey

/-- The first key at the top. -/
def root : RandomKey := .top 0

/-- The key at the top with a given number. -/
def ofSeed (seed : Nat) : RandomKey := .top seed

/-- The first child of a key. -/
def deeper (k : RandomKey) : RandomKey := .under k 0

/-- The next sibling of a key. -/
def incremented : RandomKey → RandomKey
  | .top n => .top (n + 1)
  | .under p n => .under p (n + 1)

/-- **Split a key** into its deeper and its incremented half. -/
def split (k : RandomKey) : RandomKey × RandomKey := (k.deeper, k.incremented)

/-- The counter of a key among its siblings. -/
def head : RandomKey → Nat
  | .top n => n
  | .under _ n => n

/-- How many keys a key is under. -/
def depth : RandomKey → Nat
  | .top _ => 0
  | .under p _ => p.depth + 1

/-- **The canonical text of a key**: the pair of its parent and its counter. -/
def chars : RandomKey → List Char
  | .top n => ['[', 'n', 'u', 'l', 'l', ','] ++ Nat.toDigits 10 n ++ [']']
  | .under p n => '[' :: p.chars ++ ',' :: Nat.toDigits 10 n ++ [']']

/-- The canonical text of a key. -/
def canonical (k : RandomKey) : String := String.ofList k.chars

/-- The bytes from which all that is random about a key is taken. -/
def seedBytes (k : RandomKey) : List UInt8 := Sha256.digest (Utf8.encode k.chars)

/-- The key as a number of 64 bits. -/
def digest (k : RandomKey) : Nat := Sha256.littleEndian (k.seedBytes.take 8)

@[simp] theorem depth_deeper (k : RandomKey) : k.deeper.depth = k.depth + 1 := rfl

@[simp] theorem depth_incremented (k : RandomKey) :
    k.incremented.depth = k.depth := by
  cases k <;> rfl

@[simp] theorem head_incremented (k : RandomKey) :
    k.incremented.head = k.head + 1 := by
  cases k <;> rfl

end RandomKey

end Resampler
