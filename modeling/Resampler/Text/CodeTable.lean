/-!
# Tables of code points

The properties that the Unicode standard gives to characters are kept as
tables: ranges of code points, ascending and apart from each other.
-/

namespace Resampler

/-- **A table of code points.** -/
structure CodeTable where
  /-- The first and the last code point of each range. -/
  ranges : List (Nat × Nat)

namespace CodeTable

/-- **Whether a character is in a table.** -/
def contains (t : CodeTable) (c : Char) : Bool :=
  t.ranges.any fun r => r.1 ≤ c.toNat && c.toNat ≤ r.2

end CodeTable

end Resampler
