import Resampler.Outcome
import Resampler.Json.Printer
import Resampler.Random.Key

/-!
# Distributions

A distribution answers a random key with a value, and it describes itself.
Nothing else is known of it: the interpreters that cache draws take two
distributions for the same if their descriptions are the same.
-/

namespace Resampler

/-- **A distribution**: what it answers a key, and how it describes itself.
Sampling may fail with a text, and it may panic. -/
structure Distribution where
  /-- The description, by which caches tell distributions apart. -/
  describe : Json
  /-- The answer to a key. -/
  sample : RandomKey → Outcome String Json

namespace Distribution

instance : Inhabited Distribution := ⟨⟨.null, fun _ => .value .null⟩⟩

/-- The characters of the description. -/
def identityChars (d : Distribution) : List Char := d.describe.chars

/-- **The identity of a distribution**: the text of its description. -/
def identity (d : Distribution) : String := d.describe.text

/-- The characters from which the number of a persisted draw is taken: the
identity and the canonical text of the key, with a zero between them. -/
def cacheChars (d : Distribution) (k : RandomKey) : List Char :=
  d.identityChars ++ '\x00' :: k.chars

/-- **The number under which the draw of a distribution under a key is
persisted.** -/
def cacheKey (d : Distribution) (k : RandomKey) : Nat :=
  Sha256.digest64 (Utf8.encode (d.cacheChars k))

end Distribution

end Resampler
