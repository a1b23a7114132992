import Mathlib.Algebra.Order.Field.Rat
import Mathlib.Algebra.Order.Field.Power
import Mathlib.Tactic.FieldSimp
import Mathlib.Tactic.Linarith
import Mathlib.Tactic.NormNum
import Mathlib.Tactic.Ring
import Resampler.Proofs.Decimal.Numeral

/-!
# Distinct numbers have distinct texts

A floating-point number is written as a decimal from its interval of rounding. These
intervals follow one another without a gap: the upper end of one is the lower end of the
next, half way between the two numbers. That end belongs to the one whose significand is
even, and of two neighbours only one is. So no decimal lies in the intervals of two numbers,
and from the numeral that a number is written as, wherever the point has been set in it and
whether it has an exponent, the number can be told.
-/

namespace Resampler

/-- A power of a natural number, with the exponent of either sign. -/
theorem zpow_eq_div {b : Nat} (hb : 0 < b) (k : Int) :
    (b : ℚ) ^ k = (Nat.pow b k.toNat : ℚ) / (Nat.pow b (-k).toNat : ℚ) := by
  have hb' : (b : ℚ) ≠ 0 := Nat.cast_ne_zero.mpr hb.ne'
  rcases Int.le_total 0 k with hk | hk
  · obtain ⟨n, rfl⟩ := Int.eq_ofNat_of_zero_le hk
    simp
  · obtain ⟨n, hn⟩ := Int.eq_ofNat_of_zero_le (Int.neg_nonneg_of_nonpos hk)
    obtain rfl : k = -(n : Int) := by omega
    simp

namespace Numeral

/-! ## What a numeral is worth -/

/-- **The number that a numeral denotes**, up to its sign. -/
def size (n : Numeral) : ℚ :=
  (ofDigits (n.whole ++ n.fraction.getD []) : ℚ)
    * (10 : ℚ) ^ (n.exponentValue - ((n.fraction.getD []).length : Int))

theorem ofDigits_append (a b : List Nat) :
    ofDigits (a ++ b) = ofDigits a * 10 ^ b.length + ofDigits b := by
  unfold ofDigits
  rw [List.foldl_append]
  generalize a.foldl (fun n d => 10 * n + d) 0 = m
  induction b generalizing m with
  | nil => simp
  | cons d b ih =>
    rw [List.foldl_cons, ih, List.foldl_cons, ih (10 * 0 + d), List.length_cons, pow_succ]
    ring

@[simp] theorem ofDigits_replicate (n : Nat) : ofDigits (List.replicate n 0) = 0 := by
  induction n with
  | zero => rfl
  | succ n ih =>
    rw [List.replicate_succ, ← List.singleton_append, ofDigits_append, ih]
    simp [ofDigits]

end Numeral

namespace Decimal

open Numeral

/-- **Digits that are laid out denote what they did before**, wherever the point is set. -/
theorem Layout.size_placed (l : Layout) (negative : Bool) {ds : List Nat} (hne : ds ≠ [])
    (k : Int) : (l.placed negative ds k).size = (ofDigits ds : ℚ) * (10 : ℚ) ^ k := by
  have hlen := List.length_pos_iff.mpr hne
  unfold Layout.placed
  dsimp only
  split
  · split
    · next hk =>
      -- The zeros that are filled in are those of the power of ten.
      obtain ⟨n, rfl⟩ := Int.eq_ofNat_of_zero_le hk
      have hvalue : ofDigits (ds ++ List.replicate n 0 ++ [0]) = ofDigits ds * 10 ^ n * 10 := by
        rw [ofDigits_append, ofDigits_append, ofDigits_replicate]
        simp [ofDigits]
      simp only [size, exponentValue, Option.getD_some, Int.toNat_natCast, hvalue,
        List.length_singleton]
      push_cast
      rw [zpow_natCast, zpow_neg_one]
      ring
    · split
      · next hk he =>
        have hfraction : (ds.drop ((k + ds.length - 1).toNat + 1)).length = (-k).toNat := by
          rw [List.length_drop]
          omega
        simp only [size, exponentValue, Option.getD_some, List.take_append_drop, hfraction]
        congr 2
        omega
      · next hk he =>
        have hvalue : ofDigits ([0] ++ (List.replicate (-(k + ds.length - 1) - 1).toNat 0 ++ ds))
            = ofDigits ds := by
          rw [ofDigits_append, ofDigits_append, ofDigits_replicate]
          simp [ofDigits]
        simp only [size, exponentValue, Option.getD_some, hvalue, List.length_append,
          List.length_replicate]
        congr 2
        omega
  · have hfraction : (if ds.drop 1 = [] then none else some (ds.drop 1)).getD [] = ds.drop 1 := by
      split
      · next hnil => exact hnil.symm
      · rfl
    have hexponent : (if (k + ds.length - 1 < 0) then
          -(ofDigits (digitsOf (k + ds.length - 1).natAbs) : Int)
        else ofDigits (digitsOf (k + ds.length - 1).natAbs)) = k + ds.length - 1 := by
      rw [ofDigits_digitsOf]
      split <;> omega
    simp only [size, exponentValue, hfraction, List.take_append_drop, List.length_drop,
      decide_eq_true_eq, hexponent]
    congr 2
    omega

/-! ## Intervals of rounding -/

namespace Interval

/-- The least decimal that may be read back. -/
def least (i : Interval) : ℚ := i.low / i.scale

/-- The largest decimal that may be read back. -/
def greatest (i : Interval) : ℚ := i.high / i.scale

/-- **A decimal in an interval.** -/
structure Covers (i : Interval) (p : ℚ) : Prop where
  above : i.least ≤ p
  below : p ≤ i.greatest
  inner : i.closed = false → i.least < p ∧ p < i.greatest

variable {i : Interval} {d : Nat} {k : Int}

/-- **The check for a point of a grid** finds those in the interval. -/
theorem covers_of_holds (hscale : 0 < i.scale) (h : i.holds d k = true) :
    i.Covers ((d : ℚ) * (10 : ℚ) ^ k) := by
  have hs : (0 : ℚ) < i.scale := Nat.cast_pos.mpr hscale
  have hunit : (0 : ℚ) < (Nat.pow 10 (-k).toNat : ℚ) :=
    Nat.cast_pos.mpr (Nat.pow_pos (by decide))
  have hpoint : (d : ℚ) * (10 : ℚ) ^ k
      = (d * Nat.pow 10 k.toNat * i.scale : ℚ) / (Nat.pow 10 (-k).toNat * i.scale : ℚ) := by
    rw [show (10 : ℚ) = ((10 : Nat) : ℚ) from rfl, zpow_eq_div (by decide)]
    field_simp
  have hends : ∀ end' : Nat, ((end' : ℚ) / i.scale)
      = (end' * Nat.pow 10 (-k).toNat : ℚ) / (Nat.pow 10 (-k).toNat * i.scale : ℚ) := by
    intro end'
    field_simp
  have hden := mul_pos hunit hs
  unfold holds at h
  dsimp only at h
  rw [hpoint]
  split at h
  · next hclosed =>
    simp only [Bool.and_eq_true, decide_eq_true_eq] at h
    refine ⟨?_, ?_, fun hopen => ?_⟩
    · rw [least, hends]
      exact div_le_div_of_nonneg_right (by exact_mod_cast h.1) hden.le
    · rw [greatest, hends]
      exact div_le_div_of_nonneg_right (by exact_mod_cast h.2) hden.le
    · rw [hopen] at hclosed
      cases hclosed
  · simp only [Bool.and_eq_true, decide_eq_true_eq] at h
    have habove : i.least < (d * Nat.pow 10 k.toNat * i.scale : ℚ)
        / (Nat.pow 10 (-k).toNat * i.scale : ℚ) := by
      rw [least, hends]
      exact div_lt_div_of_pos_right (by exact_mod_cast h.1) hden
    have hbelow : (d * Nat.pow 10 k.toNat * i.scale : ℚ)
        / (Nat.pow 10 (-k).toNat * i.scale : ℚ) < i.greatest := by
      rw [greatest, hends]
      exact div_lt_div_of_pos_right (by exact_mod_cast h.2) hden
    exact ⟨habove.le, hbelow.le, fun _ => ⟨habove, hbelow⟩⟩

/-- The number itself is in its interval. -/
theorem covers_centre (hscale : 0 < i.scale) (hlow : i.low < i.centre)
    (hhigh : i.centre < i.high) : i.Covers ((i.centre : ℚ) / i.scale) := by
  have hs : (0 : ℚ) < i.scale := Nat.cast_pos.mpr hscale
  have habove : i.least < (i.centre : ℚ) / i.scale :=
    div_lt_div_of_pos_right (Nat.cast_lt.mpr hlow) hs
  have hbelow : (i.centre : ℚ) / i.scale < i.greatest :=
    div_lt_div_of_pos_right (Nat.cast_lt.mpr hhigh) hs
  exact ⟨habove.le, hbelow.le, fun _ => ⟨habove, hbelow⟩⟩

/-- The point that is looked for on a grid is in the interval. -/
theorem holds_of_onGrid (h : i.onGrid k = some d) : i.holds d k = true := by
  unfold onGrid at h
  generalize i.steps k = out at h
  obtain ⟨d', rest, step⟩ := out
  dsimp only at h
  split at h
  · next hboth =>
    simp only [Bool.and_eq_true] at hboth
    split at h
    · cases h
      exact hboth.1.2
    · cases h
      exact hboth.2
  · split at h
    · next hbelow =>
      cases h
      exact ((Bool.and_eq_true _ _).mp hbelow).2
    · split at h
      · next habove =>
        cases h
        exact habove
      · cases h

/-- A number that is a multiple of the grid is the point that it is counted as. -/
theorem steps_of_dvd (hscale : 0 < i.scale) (hk : k ≤ 0)
    (hdvd : i.scale ∣ i.centre * Nat.pow 10 (-k).toNat) :
    ((i.steps k).1 : ℚ) * (10 : ℚ) ^ k = (i.centre : ℚ) / i.scale := by
  obtain ⟨n, hn⟩ := hdvd
  have hs : (i.scale : ℚ) ≠ 0 := Nat.cast_ne_zero.mpr hscale.ne'
  have hunit : (Nat.pow 10 (-k).toNat : ℚ) ≠ 0 :=
    Nat.cast_ne_zero.mpr (Nat.pow_pos (by decide)).ne'
  have hsteps : (i.steps k).1 = n := by
    show i.centre * Nat.pow 10 (-k).toNat / (i.scale * Nat.pow 10 k.toNat) = n
    rw [Int.toNat_of_nonpos hk, show Nat.pow 10 0 = 1 from rfl, Nat.mul_one, hn,
      Nat.mul_div_cancel_left _ hscale]
  have hn' : (i.centre * Nat.pow 10 (-k).toNat : ℚ) = i.scale * n := by exact_mod_cast hn
  have hgrid : (10 : ℚ) ^ k = 1 / (Nat.pow 10 (-k).toNat : ℚ) := by
    rw [show (10 : ℚ) = ((10 : Nat) : ℚ) from rfl, zpow_eq_div (by decide),
      Int.toNat_of_nonpos hk, show Nat.pow 10 0 = 1 from rfl, Nat.cast_one]
  rw [hsteps, hgrid, mul_one_div, div_eq_div_iff hunit hs, hn', mul_comm]

/-- **The search ends in the interval**: on some grid, or with the number itself. -/
theorem covers_coarsest (hscale : 0 < i.scale) (hlow : i.low < i.centre)
    (hhigh : i.centre < i.high)
    (hdvd : ∀ k ≤ -1075, i.scale ∣ i.centre * Nat.pow 10 (-k).toNat) (bound : Nat) (k : Int)
    (hk : k - bound ≤ -1075) :
    i.Covers (((i.coarsest bound k).1 : ℚ) * (10 : ℚ) ^ (i.coarsest bound k).2) := by
  induction bound generalizing k with
  | zero =>
    have hk' : k ≤ -1075 := by simpa using hk
    show i.Covers (((i.steps k).1 : ℚ) * (10 : ℚ) ^ k)
    rw [steps_of_dvd hscale (by omega) (hdvd k hk')]
    exact covers_centre hscale hlow hhigh
  | succ bound ih =>
    unfold coarsest
    split
    · next d hd => exact covers_of_holds hscale (holds_of_onGrid hd)
    · exact ih (k - 1) (by omega)

end Interval

/-! ## The intervals of all numbers -/

/-- Whether the number below is nearer than the one above. -/
def isHalfBelow (bits : Nat) : Bool :=
  bits % Nat.pow 2 52 = 0 && 1 < bits / Nat.pow 2 52 % Nat.pow 2 11

/-- **The interval of a positive number**, given by its bits. -/
def intervalOf (bits : Nat) : Interval :=
  .ofBinary (binaryParts bits).1 (binaryParts bits).2 (isHalfBelow bits)

theorem shortest_eq (bits : Nat) : shortest bits
    = (intervalOf bits).coarsest (gridsFrom (intervalOf bits).ceiling) (intervalOf bits).ceiling :=
  rfl

/-- The scale of an interval divides every number on a grid that is fine enough. -/
theorem dvd_of_fine {m : Nat} {q : Int} {halfBelow : Bool} (hq : -1074 ≤ q) (k : Int)
    (hk : k ≤ -1075) : (Interval.ofBinary m q halfBelow).scale
      ∣ (Interval.ofBinary m q halfBelow).centre * Nat.pow 10 (-k).toNat := by
  show Nat.pow 2 (2 - q).toNat ∣ 4 * m * Nat.pow 2 (q - 2).toNat * Nat.pow 10 (-k).toNat
  have hfour : (2 : Nat) ^ (2 - q).toNat ∣ 4 * 10 ^ (-k).toNat := by
    have hten : (2 : Nat) ^ (-k).toNat ∣ 10 ^ (-k).toNat := pow_dvd_pow_of_dvd (by decide) _
    calc (2 : Nat) ^ (2 - q).toNat ∣ 2 ^ (2 + (-k).toNat) := pow_dvd_pow 2 (by omega)
      _ = 4 * 2 ^ (-k).toNat := pow_add 2 2 _
      _ ∣ 4 * 10 ^ (-k).toNat := Nat.mul_dvd_mul_left 4 hten
  have hsplit : 4 * m * Nat.pow 2 (q - 2).toNat * Nat.pow 10 (-k).toNat
      = 4 * 10 ^ (-k).toNat * (m * 2 ^ (q - 2).toNat) := by
    simp only [Nat.pow_eq]
    ring
  rw [hsplit]
  exact Dvd.dvd.mul_right hfour _

/-- **A number is written as a decimal from its interval.** -/
theorem covers_shortest {bits : Nat} (h : 0 < bits) (hbits : bits < Nat.pow 2 63) :
    (intervalOf bits).Covers (((shortest bits).1 : ℚ) * (10 : ℚ) ^ (shortest bits).2) := by
  obtain ⟨hm, hq⟩ := binaryParts_pos h hbits
  have hup : 0 < Nat.pow 2 ((binaryParts bits).2 - 2).toNat := Nat.pow_pos (by decide)
  rw [shortest_eq]
  refine Interval.covers_coarsest (Nat.pow_pos (by decide)) ?_ ?_ (fun k hk => dvd_of_fine hq k hk)
    _ _ (by unfold gridsFrom; omega)
  · exact Nat.mul_lt_mul_of_pos_right (by split <;> omega) hup
  · exact Nat.mul_lt_mul_of_pos_right (by omega) hup

/-! ## Intervals follow one another -/

theorem least_ofBinary (m : Nat) (q : Int) (halfBelow : Bool) :
    (Interval.ofBinary m q halfBelow).least
      = ((4 * m - (if halfBelow then 1 else 2) : Nat) : ℚ) * (2 : ℚ) ^ (q - 2) := by
  rw [show (2 : ℚ) = ((2 : Nat) : ℚ) from rfl, zpow_eq_div (by decide), neg_sub, ← mul_div_assoc]
  show (((4 * m - (if halfBelow then 1 else 2)) * Nat.pow 2 (q - 2).toNat : Nat) : ℚ)
    / (Nat.pow 2 (2 - q).toNat : Nat) = _
  push_cast
  rfl

theorem greatest_ofBinary (m : Nat) (q : Int) (halfBelow : Bool) :
    (Interval.ofBinary m q halfBelow).greatest
      = ((4 * m + 2 : Nat) : ℚ) * (2 : ℚ) ^ (q - 2) := by
  rw [show (2 : ℚ) = ((2 : Nat) : ℚ) from rfl, zpow_eq_div (by decide), neg_sub, ← mul_div_assoc]
  show (((4 * m + 2) * Nat.pow 2 (q - 2).toNat : Nat) : ℚ) / (Nat.pow 2 (2 - q).toNat : Nat) = _
  push_cast
  rfl

variable {e f : Nat}

/-- The parts of a number, given by its exponent and its fraction. -/
theorem binaryParts_eq (he : e < 2048) (hf : f < 4503599627370496) :
    binaryParts (e * 4503599627370496 + f)
      = if e = 0 then (f, -1074) else (f + 4503599627370496, (e : Int) - 1075) := by
  have hdiv : (e * 4503599627370496 + f) / Nat.pow 2 52 % Nat.pow 2 11 = e := by
    show (e * 4503599627370496 + f) / 4503599627370496 % 2048 = e
    omega
  have hmod : (e * 4503599627370496 + f) % Nat.pow 2 52 = f := by
    show (e * 4503599627370496 + f) % 4503599627370496 = f
    omega
  unfold binaryParts
  rw [hdiv, hmod]

theorem isHalfBelow_eq (he : e < 2048) (hf : f < 4503599627370496) :
    isHalfBelow (e * 4503599627370496 + f) = (decide (f = 0) && decide (1 < e)) := by
  have hdiv : (e * 4503599627370496 + f) / Nat.pow 2 52 % Nat.pow 2 11 = e := by
    show (e * 4503599627370496 + f) / 4503599627370496 % 2048 = e
    omega
  have hmod : (e * 4503599627370496 + f) % Nat.pow 2 52 = f := by
    show (e * 4503599627370496 + f) % 4503599627370496 = f
    omega
  unfold isHalfBelow
  rw [hdiv, hmod]

/-- **The interval of a number ends where that of the next begins**, half way between
them. -/
theorem greatest_eq_least_succ {bits : Nat} (hbits : bits + 1 < 9223372036854775808) :
    (intervalOf bits).greatest = (intervalOf (bits + 1)).least := by
  obtain ⟨e, f, hf, rfl⟩ : ∃ e f, f < 4503599627370496 ∧ bits = e * 4503599627370496 + f :=
    ⟨bits / 4503599627370496, bits % 4503599627370496, Nat.mod_lt _ (by decide), by omega⟩
  have he : e < 2048 := by omega
  unfold intervalOf
  rw [greatest_ofBinary, least_ofBinary, binaryParts_eq he hf]
  by_cases hnext : f + 1 < 4503599627370496
  · -- The next number has the same exponent, and a significand that is larger by one.
    have hf' : ¬ f + 1 = 0 := Nat.succ_ne_zero f
    rw [Nat.add_assoc, binaryParts_eq he hnext, isHalfBelow_eq he hnext, decide_eq_false hf',
      Bool.false_and, if_neg Bool.false_ne_true]
    split
    · have hm : 4 * f + 2 = 4 * (f + 1) - 2 := by omega
      rw [hm]
    · have hm : 4 * (f + 4503599627370496) + 2 = 4 * (f + 1 + 4503599627370496) - 2 := by omega
      rw [hm]
  · -- The next number is a power of two: the first one that is not subnormal, or one whose
    -- neighbour below is half as far as that above.
    have hcarry : e * 4503599627370496 + f + 1 = (e + 1) * 4503599627370496 + 0 := by omega
    have he' : e + 1 < 2048 := by omega
    obtain rfl : f = 4503599627370495 := by omega
    rw [hcarry, binaryParts_eq he' (by decide), isHalfBelow_eq he' (by decide)]
    have hne : ¬ e + 1 = 0 := by omega
    by_cases h : e = 0
    · subst h
      norm_num
    · have hone : 1 < e + 1 := by omega
      simp only [h, hne, hone, if_false, if_true, decide_true, Bool.and_self]
      have hexp : ((e + 1 : Nat) : Int) - 1075 - 2 = (e : Int) - 1075 - 2 + 1 := by omega
      rw [hexp, zpow_add_one₀ (by norm_num)]
      push_cast
      ring

theorem least_lt_greatest {bits : Nat} (h : 0 < bits) (hbits : bits < 9223372036854775808) :
    (intervalOf bits).least < (intervalOf bits).greatest := by
  have hm := (binaryParts_pos h hbits).1
  unfold intervalOf
  rw [least_ofBinary, greatest_ofBinary]
  refine mul_lt_mul_of_pos_right (Nat.cast_lt.mpr ?_) (zpow_pos (by norm_num) _)
  split <;> omega

/-- The ends belong to the interval of a number just if its last bit is not set. -/
theorem closed_intervalOf {bits : Nat} (hbits : bits < 9223372036854775808) :
    (intervalOf bits).closed = decide (bits % 2 = 0) := by
  obtain ⟨e, f, hf, rfl⟩ : ∃ e f, f < 4503599627370496 ∧ bits = e * 4503599627370496 + f :=
    ⟨bits / 4503599627370496, bits % 4503599627370496, Nat.mod_lt _ (by decide), by omega⟩
  have he : e < 2048 := by omega
  show decide ((binaryParts _).1 % 2 = 0) = _
  rw [binaryParts_eq he hf]
  congr 1
  split
  · rw [eq_iff_iff]
    omega
  · rw [eq_iff_iff]
    omega

/-- The interval of a number ends before that of a larger one begins. -/
theorem greatest_le_least {a b : Nat} (h : a < b) (hb : b < 9223372036854775808) :
    (intervalOf a).greatest ≤ (intervalOf b).least := by
  induction b, h using Nat.le_induction with
  | base => exact (greatest_eq_least_succ hb).le
  | succ b hab ih =>
    rw [← greatest_eq_least_succ hb]
    exact (ih (by omega)).trans (least_lt_greatest (by omega) (by omega)).le

/-- **No decimal lies in the intervals of two numbers.** -/
theorem not_covers_of_lt {a b : Nat} {p : ℚ} (hab : a < b) (hb : b < 9223372036854775808)
    (hap : (intervalOf a).Covers p) (hbp : (intervalOf b).Covers p) : False := by
  have hgap := greatest_le_least hab hb
  have ha : (intervalOf a).greatest = p := le_antisymm (hgap.trans hbp.above) hap.below
  have hb' : (intervalOf b).least = p := le_antisymm hbp.above (hap.below.trans hgap)
  -- The decimal is an end of both, so both are closed, and there is a number in between.
  have haclosed : (intervalOf a).closed = true := by
    by_contra hopen
    exact absurd ha (hap.inner (Bool.eq_false_iff.mpr hopen)).2.ne'
  have hbclosed : (intervalOf b).closed = true := by
    by_contra hopen
    exact absurd hb' (hbp.inner (Bool.eq_false_iff.mpr hopen)).1.ne
  rw [closed_intervalOf (by omega), decide_eq_true_eq] at haclosed
  rw [closed_intervalOf hb, decide_eq_true_eq] at hbclosed
  have hbetween : a + 1 < b := by omega
  have hlt : (intervalOf a).greatest < (intervalOf b).least :=
    calc (intervalOf a).greatest = (intervalOf (a + 1)).least := greatest_eq_least_succ (by omega)
      _ < (intervalOf (a + 1)).greatest := least_lt_greatest (by omega) (by omega)
      _ ≤ (intervalOf b).least := greatest_le_least hbetween hb
  rw [ha, hb'] at hlt
  exact lt_irrefl p hlt

/-- **Numbers with the same shortest decimal are the same.** -/
theorem eq_of_shortest {a b : Nat} (ha : 0 < a) (ha' : a < 9223372036854775808) (hb : 0 < b)
    (hb' : b < 9223372036854775808)
    (h : ((shortest a).1 : ℚ) * (10 : ℚ) ^ (shortest a).2
      = ((shortest b).1 : ℚ) * (10 : ℚ) ^ (shortest b).2) : a = b := by
  have hacovers := covers_shortest ha ha'
  have hbcovers := covers_shortest hb hb'
  rw [← h] at hbcovers
  rcases Nat.lt_trichotomy a b with hlt | rfl | hlt
  · exact (not_covers_of_lt hlt hb' hacovers hbcovers).elim
  · rfl
  · exact (not_covers_of_lt hlt ha' hbcovers hacovers).elim

/-! ## From the numeral back to the number -/

/-- What the numeral of a number is worth. -/
theorem Layout.size_numeral (l : Layout) (x : Float) :
    (l.numeral x).size
      = if x.toBits.toNat % Nat.pow 2 63 = 0 then 0
        else ((shortest (x.toBits.toNat % Nat.pow 2 63)).1 : ℚ)
          * (10 : ℚ) ^ (shortest (x.toBits.toNat % Nat.pow 2 63)).2 := by
  unfold Layout.numeral
  dsimp only
  split
  · simp [size, ofDigits]
  · rw [size_placed l _ (digitsOf_ne_nil _), ofDigits_digitsOf]

theorem Layout.negative_numeral (l : Layout) (x : Float) :
    (l.numeral x).negative = decide (x.toBits.toNat ≠ x.toBits.toNat % Nat.pow 2 63) := by
  unfold Layout.numeral Layout.placed
  dsimp only
  split
  · rfl
  · split
    · split
      · rfl
      · split <;> rfl
    · rfl

theorem eq_of_toBits_eq {x y : Float} (h : x.toBits = y.toBits) : x = y := by
  obtain ⟨⟨a, ha⟩⟩ := x
  obtain ⟨⟨b, hb⟩⟩ := y
  change a = b at h
  subst h
  rfl

/-- **Distinct floating-point numbers are written as distinct numerals.** -/
theorem Layout.numeral_injective (l : Layout) : Function.Injective l.numeral := by
  intro x y h
  have hsize := congrArg Numeral.size h
  have hnegative := congrArg Numeral.negative h
  rw [l.size_numeral, l.size_numeral] at hsize
  rw [l.negative_numeral, l.negative_numeral, decide_eq_decide] at hnegative
  have hx : x.toBits.toNat < 18446744073709551616 := x.toBits.toNat_lt
  have hy : y.toBits.toNat < 18446744073709551616 := y.toBits.toNat_lt
  refine eq_of_toBits_eq (UInt64.toNat_inj.mp ?_)
  generalize x.toBits.toNat = a at hsize hnegative hx ⊢
  generalize y.toBits.toNat = b at hsize hnegative hy ⊢
  change ¬ a = a % 9223372036854775808 ↔ ¬ b = b % 9223372036854775808 at hnegative
  change (if a % 9223372036854775808 = 0 then _ else _)
    = (if b % 9223372036854775808 = 0 then _ else _) at hsize
  have hpos : ∀ {bits : Nat}, bits % 9223372036854775808 ≠ 0 →
      (0 : ℚ) < ((shortest (bits % 9223372036854775808)).1 : ℚ)
        * (10 : ℚ) ^ (shortest (bits % 9223372036854775808)).2 := fun hne =>
    mul_pos (Nat.cast_pos.mpr (shortest_pos (Nat.pos_of_ne_zero hne) (Nat.mod_lt _ (by decide))))
      (zpow_pos (by norm_num) _)
  have hmagnitude : a % 9223372036854775808 = b % 9223372036854775808 := by
    split at hsize
    · next hazero =>
      split at hsize
      · next hbzero => rw [hazero, hbzero]
      · next hbne => exact absurd hsize (hpos hbne).ne
    · next hane =>
      split at hsize
      · exact absurd hsize (hpos hane).ne'
      · next hbne =>
        exact eq_of_shortest (Nat.pos_of_ne_zero hane) (Nat.mod_lt _ (by decide))
          (Nat.pos_of_ne_zero hbne) (Nat.mod_lt _ (by decide)) hsize
  omega

end Decimal

end Resampler
