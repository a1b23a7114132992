import Resampler.Decimal.Reading
import Resampler.Decimal.Shortest

/-!
# The numeral that a number is written as

The text of a number is a sign, digits, possibly a point with more digits, and
possibly an exponent; these are the parts of a `Numeral`. `Numeral.chars`
writes the parts down, and reading them gives the same parts back
(`ofChars?_chars`), if there are digits wherever there have to be some.

`Decimal.Layout.numeral` says which numeral a floating-point number is written
as. It has a fraction or an exponent, always, and no needless zero in front.
The latter rests on the fewest digits that read back not being zero, which no
positive number has.
-/

namespace Resampler

namespace Numeral

/-! ## Digits -/

/-- The characters of digits. -/
def digitChars (ds : List Nat) : List Char := ds.map Nat.digitChar

/-- The decimal digits of a number. -/
def digitsOf (n : Nat) : List Nat := (Nat.toDigits 10 n).map fun c => c.toNat - '0'.toNat

theorem digit?_digitChar : ∀ d < 10, digit? d.digitChar = some d := by decide

theorem digitChar_digit : ∀ d < 10, ∀ c : Char, c = d.digitChar →
    (c.toNat - '0'.toNat).digitChar = c ∧ c.toNat - '0'.toNat < 10 := by
  rintro d hd c rfl
  have hall : ∀ d < 10, (d.digitChar.toNat - '0'.toNat).digitChar = d.digitChar
      ∧ d.digitChar.toNat - '0'.toNat < 10 := by decide
  exact hall d hd

/-- A character of a number is the character of a digit. -/
theorem exists_digitChar {n : Nat} {c : Char} (h : c ∈ Nat.toDigits 10 n) :
    ∃ d < 10, c = d.digitChar := by
  induction n using Nat.strongRecOn with
  | ind n ih =>
    rw [Nat.toDigits_eq_if (by decide)] at h
    split at h
    · next hn => exact ⟨n, hn, List.mem_singleton.mp h⟩
    · next hn =>
      rcases List.mem_append.mp h with h | h
      · exact ih (n / 10) (by omega) h
      · exact ⟨n % 10, Nat.mod_lt _ (by decide), List.mem_singleton.mp h⟩

theorem digitChars_digitsOf (n : Nat) : digitChars (digitsOf n) = Nat.toDigits 10 n := by
  unfold digitChars digitsOf
  rw [List.map_map]
  refine (List.map_congr_left fun c hc => ?_).trans (List.map_id _)
  obtain ⟨d, hd, hcd⟩ := exists_digitChar hc
  exact (digitChar_digit d hd c hcd).1

theorem lt_of_mem_digitsOf {n d : Nat} (h : d ∈ digitsOf n) : d < 10 := by
  obtain ⟨c, hc, rfl⟩ := List.mem_map.mp h
  obtain ⟨d, hd, hcd⟩ := exists_digitChar hc
  exact (digitChar_digit d hd c hcd).2

theorem digitsOf_ne_nil (n : Nat) : digitsOf n ≠ [] := by
  intro h
  exact Nat.toDigits_ne_nil (List.map_eq_nil_iff.mp h)

/-- **The digits of a number denote it.** -/
theorem ofDigits_digitsOf (n : Nat) : ofDigits (digitsOf n) = n := by
  unfold ofDigits digitsOf
  rw [List.foldl_map]
  refine Eq.trans ?_ (Nat.ofDigitChars_ten_toDigits (n := n))
  exact (Nat.ofDigitChars_eq_foldl).symm

/-- The first digit of a positive number is not zero. -/
theorem head?_digitsOf {n : Nat} (h : 0 < n) : (digitsOf n).head? ≠ some 0 := by
  induction n using Nat.strongRecOn with
  | ind n ih =>
    unfold digitsOf at ih ⊢
    rw [Nat.toDigits_eq_if (by decide)]
    split
    · next hn =>
      have hdigit : ∀ d < 10, 0 < d → d.digitChar.toNat - '0'.toNat ≠ 0 := by decide
      intro hzero
      exact hdigit n hn h (Option.some.inj hzero)
    · next hn =>
      have ih := ih (n / 10) (by omega) (by omega)
      rw [List.map_append, List.head?_append]
      cases hds : (Nat.toDigits 10 (n / 10)).map (fun c => c.toNat - '0'.toNat) with
      | nil => exact absurd hds (digitsOf_ne_nil (n / 10))
      | cons d ds =>
        rw [hds] at ih
        exact ih

/-- **Digits are read as long as there are some.** -/
theorem digits_append {ds : List Nat} (h : ∀ d ∈ ds, d < 10) {rest : List Char}
    (hrest : ∀ c ∈ rest.head?, digit? c = none) :
    digits (digitChars ds ++ rest) = (ds, rest) := by
  induction ds with
  | nil =>
    cases rest with
    | nil => rfl
    | cons c rest =>
      have hc : digit? c = none := hrest c rfl
      simp [digitChars, digits, hc]
  | cons d ds ih =>
    have hd := digit?_digitChar d (h d List.mem_cons_self)
    have ih := ih fun d hd => h d (List.mem_cons_of_mem _ hd)
    show digits (d.digitChar :: (digitChars ds ++ rest)) = (d :: ds, rest)
    rw [digits, hd]
    simp only [ih]

/-! ## Writing a numeral -/

/-- The characters of a fraction. -/
def fractionChars : Option (List Nat) → List Char
  | none => []
  | some ds => '.' :: digitChars ds

/-- The characters of an exponent, its sign always among them. -/
def exponentChars : Option (Bool × List Nat) → List Char
  | none => []
  | some (negative, ds) => 'e' :: (if negative then '-' else '+') :: digitChars ds

/-- **The characters of a numeral.** -/
def chars (n : Numeral) : List Char :=
  (if n.negative then ['-'] else [])
    ++ (digitChars n.whole ++ (fractionChars n.fraction ++ exponentChars n.exponent))

/-- **A numeral with digits where they have to be.** -/
structure IsProper (n : Numeral) : Prop where
  whole : n.whole ≠ [] ∧ ∀ d ∈ n.whole, d < 10
  fraction : ∀ ds, n.fraction = some ds → ds ≠ [] ∧ ∀ d ∈ ds, d < 10
  exponent : ∀ negative ds, n.exponent = some (negative, ds) → ds ≠ [] ∧ ∀ d ∈ ds, d < 10

theorem exponentOnly?_digitChars {ds : List Nat} (hne : ds ≠ []) (h : ∀ d ∈ ds, d < 10)
    (negative : Bool) : exponentOnly? negative (digitChars ds) = some (negative, ds) := by
  have hds : digits (digitChars ds ++ []) = (ds, []) := digits_append h nofun
  rw [List.append_nil] at hds
  unfold exponentOnly?
  rw [hds]
  cases ds with
  | nil => exact absurd rfl hne
  | cons d ds => rfl

theorem exponent?_exponentChars {e : Option (Bool × List Nat)}
    (h : ∀ negative ds, e = some (negative, ds) → ds ≠ [] ∧ ∀ d ∈ ds, d < 10) :
    exponent? (exponentChars e) = some e := by
  match e, h with
  | none, _ => rfl
  | some (true, ds), h =>
    obtain ⟨hne, hlt⟩ := h true ds rfl
    show (exponentOnly? true (digitChars ds)).map some = _
    rw [exponentOnly?_digitChars hne hlt]
    rfl
  | some (false, ds), h =>
    obtain ⟨hne, hlt⟩ := h false ds rfl
    show (exponentOnly? false (digitChars ds)).map some = _
    rw [exponentOnly?_digitChars hne hlt]
    rfl

/-- No digit stands where an exponent starts. -/
theorem digit?_head_exponentChars (e : Option (Bool × List Nat)) :
    ∀ c ∈ (exponentChars e).head?, digit? c = none := by
  match e with
  | none => exact fun _ hc => nomatch hc
  | some (negative, ds) =>
    rintro c hc
    cases hc
    decide

theorem unsigned?_chars {n : Numeral} (h : n.IsProper) :
    unsigned? n.negative (digitChars n.whole
      ++ (fractionChars n.fraction ++ exponentChars n.exponent)) = some n := by
  obtain ⟨negative, whole, fraction, exponent⟩ := n
  obtain ⟨⟨hne, hwhole⟩, hfraction, hexponent⟩ := h
  have hexp := exponent?_exponentChars hexponent
  have hhead := digit?_head_exponentChars exponent
  dsimp only at hne hwhole hfraction ⊢
  unfold unsigned?
  cases whole with
  | nil => exact absurd rfl hne
  | cons d whole =>
    cases fraction with
    | none =>
      rw [fractionChars, List.nil_append, digits_append hwhole hhead]
      cases exponent with
      | none => rfl
      | some e =>
        obtain ⟨sign, ds⟩ := e
        rw [exponentChars] at hexp ⊢
        refine Eq.trans (b := (exponent? _).map _) rfl ?_
        rw [hexp]
        rfl
    | some ds =>
      obtain ⟨hds, hlt⟩ := hfraction ds rfl
      have hpoint : ∀ c ∈ (fractionChars (some ds) ++ exponentChars exponent).head?,
          digit? c = none := by
        rintro c hc
        cases hc
        decide
      have hrest := digits_append hlt hhead
      rw [digits_append hwhole hpoint, fractionChars, List.cons_append]
      cases ds with
      | nil => exact absurd rfl hds
      | cons d' ds =>
        simp only [hrest]
        rw [hexp]
        rfl

/-- **A numeral is read back from its characters.** -/
theorem ofChars?_chars {n : Numeral} (h : n.IsProper) : ofChars? n.chars = some n := by
  have hread := unsigned?_chars h
  obtain ⟨negative, whole, fraction, exponent⟩ := n
  cases negative with
  | true => exact hread
  | false =>
    refine Eq.trans ?_ hread
    cases whole with
    | nil => exact absurd rfl h.whole.1
    | cons d whole =>
      have hd := digit?_digitChar d (h.whole.2 d List.mem_cons_self)
      have hne : d.digitChar ≠ '-' := by
        intro he
        rw [he, show digit? '-' = none by decide] at hd
        cases hd
      show ofChars? (d.digitChar :: _) = unsigned? false (d.digitChar :: _)
      unfold ofChars?
      split
      · next heq => exact absurd (List.cons.inj heq).1 hne
      · rfl

end Numeral

/-! ## The numeral of a floating-point number -/

namespace Decimal

open Numeral

/-- The numeral that digits are laid out as, `ds · 10 ^ k`. -/
def Layout.placed (l : Layout) (negative : Bool) (ds : List Nat) (k : Int) : Numeral :=
  let e := k + ds.length - 1
  if l.least ≤ e ∧ e < l.beyond then
    if 0 ≤ k then ⟨negative, ds ++ List.replicate k.toNat 0, some [0], none⟩
    else if 0 ≤ e then ⟨negative, ds.take (e.toNat + 1), some (ds.drop (e.toNat + 1)), none⟩
    else ⟨negative, [0], some (List.replicate (-e - 1).toNat 0 ++ ds), none⟩
  else
    ⟨negative, ds.take 1, if ds.drop 1 = [] then none else some (ds.drop 1),
      some (decide (e < 0), digitsOf e.natAbs)⟩

/-- **The numeral that a finite floating-point number is written as.** -/
def Layout.numeral (l : Layout) (x : Float) : Numeral :=
  let bits := x.toBits.toNat
  let magnitude := bits % Nat.pow 2 63
  let negative := decide (bits ≠ magnitude)
  if magnitude = 0 then ⟨negative, [0], some [0], none⟩
  else l.placed negative (digitsOf (shortest magnitude).1) (shortest magnitude).2

theorem exponentText_eq (e : Int) :
    exponentText e = exponentChars (some (decide (e < 0), digitsOf e.natAbs)) := by
  show 'e' :: (if e < 0 then '-' else '+') :: Nat.toDigits 10 e.natAbs
    = 'e' :: (if decide (e < 0) = true then '-' else '+') :: digitChars (digitsOf e.natAbs)
  rw [digitChars_digitsOf]
  simp only [decide_eq_true_eq]

/-- Digits that are laid out are the characters of the numeral that they are laid
out as. -/
theorem Layout.chars_placed (l : Layout) (negative : Bool) {ds : List Nat} (h : ds ≠ []) (k : Int) :
    (l.placed negative ds k).chars
      = (if negative then ['-'] else []) ++ l.place (digitChars ds) k := by
  have hlen : (digitChars ds).length = ds.length := List.length_map _
  unfold Layout.placed Layout.place
  simp only [hlen]
  split
  · split
    · simp [Numeral.chars, fractionChars, exponentChars, digitChars]
      rfl
    · split
      · simp [Numeral.chars, fractionChars, exponentChars, digitChars]
      · simp [Numeral.chars, fractionChars, exponentChars, digitChars]
  · obtain ⟨d, ds, rfl⟩ := List.exists_cons_of_ne_nil h
    cases ds with
    | nil =>
      simp [Numeral.chars, fractionChars, digitChars, exponentText_eq]
    | cons d' ds =>
      simp [Numeral.chars, fractionChars, digitChars, exponentText_eq]

/-- **A floating-point number is written as its numeral.** -/
theorem Layout.text_eq (l : Layout) (x : Float) : l.text x = (l.numeral x).chars := by
  unfold Layout.text Layout.numeral
  dsimp only
  generalize x.toBits.toNat = bits
  generalize bits % Nat.pow 2 63 = magnitude
  have hsign : (if bits = magnitude then [] else ['-'])
      = if decide (bits ≠ magnitude) = true then ['-'] else [] := by
    by_cases h : bits = magnitude <;> simp [h]
  rw [hsign]
  split
  · rfl
  · rw [Layout.chars_placed l _ (digitsOf_ne_nil _), digitChars_digitsOf]

/-! ### The fewest digits are not zero -/

/-- A point of a grid that lies in an interval is taken only if it is positive. -/
theorem Interval.onGrid_pos {i : Interval} {k : Int} {d : Nat} (h : i.onGrid k = some d) :
    0 < d := by
  unfold Interval.onGrid at h
  generalize i.steps k = out at h
  obtain ⟨d', rest, step⟩ := out
  dsimp only at h
  split at h
  · next hbelow =>
    split at h
    · cases h
      simp only [Bool.and_eq_true, decide_eq_true_eq] at hbelow
      exact hbelow.1.1
    · cases h
      exact Nat.succ_pos _
  · split at h
    · next hbelow =>
      cases h
      simp only [Bool.and_eq_true, decide_eq_true_eq] at hbelow
      exact hbelow.1
    · split at h
      · cases h
        exact Nat.succ_pos _
      · cases h

/-- On a grid that is fine enough the number itself is some steps away from zero. -/
theorem Interval.steps_pos {i : Interval} {k : Int} {n : Nat} (hcentre : 0 < i.centre)
    (hscale : i.scale = Nat.pow 2 n) (hn : n ≤ 1076) (hk : k ≤ -1075) :
    0 < (i.steps k).1 := by
  have hzero : k.toNat = 0 := by omega
  have hfine : i.scale ≤ Nat.pow 10 (-k).toNat :=
    calc i.scale = Nat.pow 2 n := hscale
      _ ≤ Nat.pow 2 (2 * (-k).toNat) := Nat.pow_le_pow_right (by decide) (by omega)
      _ = Nat.pow (Nat.pow 2 2) (-k).toNat := Nat.pow_mul 2 2 _
      _ ≤ Nat.pow 10 (-k).toNat := Nat.pow_le_pow_left (by decide) _
  show 0 < i.centre * Nat.pow 10 (-k).toNat / (i.scale * Nat.pow 10 k.toNat)
  rw [hzero, show Nat.pow 10 0 = 1 from rfl, Nat.mul_one]
  refine Nat.div_pos ?_ (hscale ▸ Nat.pow_pos (by decide))
  exact Nat.le_trans hfine (Nat.le_mul_of_pos_left _ hcentre)

theorem Interval.coarsest_pos {i : Interval} {n : Nat} (hcentre : 0 < i.centre)
    (hscale : i.scale = Nat.pow 2 n) (hn : n ≤ 1076) (bound : Nat) (k : Int)
    (hk : k - bound ≤ -1075) : 0 < (i.coarsest bound k).1 := by
  induction bound generalizing k with
  | zero => exact steps_pos hcentre hscale hn (by simpa using hk)
  | succ bound ih =>
    unfold Interval.coarsest
    split
    · next d hd => exact onGrid_pos hd
    · exact ih (k - 1) (by omega)

theorem binaryParts_pos {bits : Nat} (h : 0 < bits) (hbits : bits < Nat.pow 2 63) :
    0 < (binaryParts bits).1 ∧ -1074 ≤ (binaryParts bits).2 := by
  unfold binaryParts
  simp only [Nat.pow_eq] at hbits ⊢
  split
  · next hexp =>
    have hlow : bits / 2 ^ 52 < 2 ^ 11 := by omega
    rw [Nat.mod_eq_of_lt hlow] at hexp
    exact ⟨by dsimp only; omega, Int.le_refl _⟩
  · exact ⟨by dsimp only; omega, by dsimp only; omega⟩

/-- **The shortest decimal of a positive number is not zero.** -/
theorem shortest_pos {bits : Nat} (h : 0 < bits) (hbits : bits < Nat.pow 2 63) :
    0 < (shortest bits).1 := by
  obtain ⟨hm, hq⟩ := binaryParts_pos h hbits
  unfold shortest
  generalize binaryParts bits = parts at hm hq ⊢
  obtain ⟨m, q⟩ := parts
  dsimp only at hm hq ⊢
  generalize (decide (bits % Nat.pow 2 52 = 0)
    && decide (1 < bits / Nat.pow 2 52 % Nat.pow 2 11)) = halfBelow
  have hcentre : 0 < (Interval.ofBinary m q halfBelow).centre :=
    Nat.mul_pos (by omega) (Nat.pow_pos (by decide))
  refine Interval.coarsest_pos hcentre rfl (by omega) _ _ ?_
  unfold gridsFrom
  omega

/-! ### The numeral is fit to be read -/

theorem isPlain_of_head? {n : Numeral} (h : n.whole.head? ≠ some 0) : n.isPlain = true := by
  unfold Numeral.isPlain
  split
  · next heq =>
    rw [heq] at h
    exact absurd rfl h
  · rfl

variable {l : Layout} {negative : Bool} {ds : List Nat} {k : Int}

theorem Layout.isProper_placed (hne : ds ≠ []) (h : ∀ d ∈ ds, d < 10) :
    (l.placed negative ds k).IsProper := by
  have hzeros : ∀ n, ∀ d ∈ List.replicate n 0, d < 10 := by
    intro n d hd
    rw [(List.mem_replicate.mp hd).2]
    decide
  have hlen := List.length_pos_iff.mpr hne
  unfold Layout.placed
  dsimp only
  split
  · split
    · refine ⟨⟨by simp [hne], fun d hd => ?_⟩, ?_, nofun⟩
      · rcases List.mem_append.mp hd with hd | hd
        · exact h d hd
        · exact hzeros _ d hd
      · rintro _ ⟨⟩
        exact ⟨by simp, by simp⟩
    · split
      · refine ⟨⟨by simp [hne], fun d hd => h d (List.mem_of_mem_take hd)⟩, ?_, nofun⟩
        rintro _ ⟨⟩
        exact ⟨by simp; omega, fun d hd => h d (List.mem_of_mem_drop hd)⟩
      · refine ⟨⟨by simp, by simp⟩, ?_, nofun⟩
        rintro _ ⟨⟩
        refine ⟨by simp [hne], fun d hd => ?_⟩
        rcases List.mem_append.mp hd with hd | hd
        · exact hzeros _ d hd
        · exact h d hd
  · refine ⟨⟨by simp [hne], fun d hd => h d (List.mem_of_mem_take hd)⟩, ?_, ?_⟩
    · intro fraction hfraction
      dsimp only at hfraction
      split at hfraction
      · cases hfraction
      · next hdrop =>
        cases hfraction
        exact ⟨hdrop, fun d hd => h d (List.mem_of_mem_drop hd)⟩
    · rintro _ _ ⟨⟩
      exact ⟨digitsOf_ne_nil _, fun d hd => lt_of_mem_digitsOf hd⟩

theorem Layout.isPlain_placed (hne : ds ≠ []) (h : ds.head? ≠ some 0) :
    (l.placed negative ds k).isPlain = true := by
  obtain ⟨d, ds, rfl⟩ := List.exists_cons_of_ne_nil hne
  unfold Layout.placed
  dsimp only
  split
  · split
    · exact isPlain_of_head? h
    · split
      · exact isPlain_of_head? h
      · rfl
  · exact isPlain_of_head? h

/-- Digits that are laid out have a fraction or an exponent. -/
theorem Layout.parts_placed :
    (l.placed negative ds k).fraction ≠ none ∨ (l.placed negative ds k).exponent ≠ none := by
  unfold Layout.placed
  dsimp only
  split
  · left
    split
    · nofun
    · split <;> nofun
  · exact .inr nofun

/-- **A written numeral has digits where they have to be**, and no needless zero in
front. -/
theorem Layout.fit_numeral (l : Layout) (x : Float) :
    (l.numeral x).IsProper ∧ (l.numeral x).isPlain = true := by
  have hbound : x.toBits.toNat % Nat.pow 2 63 < Nat.pow 2 63 := Nat.mod_lt _ (by decide)
  unfold Layout.numeral
  dsimp only
  generalize x.toBits.toNat % Nat.pow 2 63 = magnitude at hbound
  split
  · refine ⟨⟨⟨by simp, by simp⟩, ?_, nofun⟩, rfl⟩
    rintro _ ⟨⟩
    exact ⟨by simp, by simp⟩
  · next hpos =>
    have hd := shortest_pos (Nat.pos_of_ne_zero hpos) hbound
    exact ⟨isProper_placed (digitsOf_ne_nil _) fun d hd => lt_of_mem_digitsOf hd,
      isPlain_placed (digitsOf_ne_nil _) (head?_digitsOf hd)⟩

/-- **A written numeral is never mistaken for an integer.** -/
theorem Layout.parts_numeral (l : Layout) (x : Float) :
    (l.numeral x).fraction ≠ none ∨ (l.numeral x).exponent ≠ none := by
  unfold Layout.numeral
  dsimp only
  split
  · exact .inl nofun
  · exact parts_placed

end Decimal

end Resampler
