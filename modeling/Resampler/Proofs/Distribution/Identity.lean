import Mathlib.Data.List.Basic
import Resampler.Distribution.Catalogue
import Resampler.Proofs.Distribution.Arithmetic
import Resampler.Proofs.Json.Distinct
import Resampler.Proofs.Text.Utf8

/-!
# No two draws share an entry

A cache keeps a draw under the text of the description of its distribution and its key, a
store under a number that is digested from that text, a zero, and the text of the key. The
first theorem says that these bytes, and the entry of a cache, can be taken apart again: the
description has no zero in it, whatever texts are part of it, values are told apart by their
texts, and so are keys.

That the same draw is the same answer is then a question about distributions. Those of the
catalogue are told apart by their descriptions as far as it matters: all normal
distributions whose mean is no finite number have one description, and all that they ever
answer is `null`. It stays so if the two floating-point zeros, which are equal as numbers,
are not told apart in the descriptions, nor in the answers.
-/

namespace Resampler

open Numeral

namespace RandomKey

/-! ## The text of a key -/

/-- The digits of a number end where a bracket comes. -/
theorem toDigits_bracket_inj {n m : Nat} {a b : List Char}
    (h : Nat.toDigits 10 n ++ ']' :: a = Nat.toDigits 10 m ++ ']' :: b) : n = m ∧ a = b := by
  have hread : ∀ (n : Nat) (a : List Char),
      digits (Nat.toDigits 10 n ++ ']' :: a) = (digitsOf n, ']' :: a) := by
    intro n a
    rw [← digitChars_digitsOf]
    refine digits_append (fun d hd => lt_of_mem_digitsOf hd) ?_
    rintro c ⟨⟩
    decide
  have hboth := hread n a
  rw [h, hread] at hboth
  obtain ⟨hdigits, hrest⟩ := Prod.mk.inj hboth
  exact ⟨by rw [← ofDigits_digitsOf n, ← hdigits, ofDigits_digitsOf], (List.cons.inj hrest).2.symm⟩

theorem chars_ne_null (k : RandomKey) (a b : List Char) : k.chars ++ a ≠ 'n' :: b := by
  cases k <;> exact fun h => absurd (List.cons.inj h).1 (by decide)

/-- **The text of a key ends where it ends**, whatever comes after it. -/
theorem chars_append_inj {k k' : RandomKey} {a b : List Char}
    (h : k.chars ++ a = k'.chars ++ b) : k = k' ∧ a = b := by
  induction k generalizing k' a b with
  | top n =>
    cases k' with
    | top m =>
      simp only [chars, List.append_assoc, List.cons_append, List.nil_append, List.cons.injEq,
        true_and] at h
      obtain ⟨rfl, rfl⟩ := toDigits_bracket_inj h
      exact ⟨rfl, rfl⟩
    | under p m =>
      simp only [chars, List.append_assoc, List.cons_append, List.nil_append, List.cons.injEq,
        true_and] at h
      exact absurd h.symm (p.chars_ne_null _ _)
  | under p n ih =>
    cases k' with
    | top m =>
      simp only [chars, List.append_assoc, List.cons_append, List.nil_append, List.cons.injEq,
        true_and] at h
      exact absurd h (p.chars_ne_null _ _)
    | under p' m =>
      simp only [chars, List.append_assoc, List.cons_append, List.nil_append, List.cons.injEq,
        true_and] at h
      obtain ⟨rfl, hrest⟩ := ih h
      obtain ⟨rfl, rfl⟩ := toDigits_bracket_inj (List.cons.inj hrest).2
      exact ⟨rfl, rfl⟩

/-- **Distinct keys have distinct texts.** -/
theorem chars_injective : Function.Injective chars := fun k k' h =>
  (chars_append_inj (k := k) (a := []) (b := []) (by rw [h])).1

/-- The text of a key has no control characters. -/
theorem shows_chars (k : RandomKey) : Json.Shows k.chars := by
  have hdigits : ∀ n, Json.Shows (Nat.toDigits 10 n) := by
    intro n c hc
    obtain ⟨d, hd, rfl⟩ := exists_digitChar hc
    have hall : ∀ d < 10, 32 ≤ (Nat.digitChar d).toNat := by decide
    exact hall d hd
  have hends : Json.Shows [']'] ∧ Json.Shows ['[', 'n', 'u', 'l', 'l', ','] :=
    ⟨Json.shows_of_all (by decide), Json.shows_of_all (by decide)⟩
  induction k with
  | top n => exact Json.shows_append (Json.shows_append hends.2 (hdigits n)) hends.1
  | under p n ih =>
    exact Json.shows_cons (by decide) (Json.shows_append (Json.shows_append ih
      (Json.shows_cons (by decide) (hdigits n))) hends.1)

end RandomKey

namespace Distribution

/-! ## What draws are kept under -/

variable {d d' : Distribution} {k k' : RandomKey}

/-- **The bytes that a draw is numbered by** tell the description and the key. -/
theorem encode_cacheChars_iff : Utf8.encode (d.cacheChars k) = Utf8.encode (d'.cacheChars k')
    ↔ d.describe = d'.describe ∧ k = k' := by
  have hno : ∀ {text : List Char}, Json.Shows text → '\x00' ∉ text := fun hshows hzero =>
    absurd (hshows _ hzero) (by decide)
  refine ⟨fun h => ?_, fun ⟨hd, hk⟩ => ?_⟩
  · obtain ⟨hd, -, hk⟩ := (List.append_cons_inj_of_notMem (hno (Json.shows_chars d.describe))
      (hno k.shows_chars)).mp (Utf8.encode_injective h)
    exact ⟨Json.chars_injective hd, RandomKey.chars_injective hk⟩
  · unfold cacheChars identityChars
    rw [hd, hk]

/-- **The entry of a cache** tells the description and the key. -/
theorem entry_iff : (d.identity, k) = (d'.identity, k') ↔ d.describe = d'.describe ∧ k = k' := by
  rw [Prod.mk.injEq]
  exact and_congr_left fun _ => ⟨fun h => Json.text_injective h, congrArg Json.text⟩

end Distribution

/-! ## The same description, the same answers -/

namespace Distribution

/-- **The distributions that the library ships**, with any parameters. -/
inductive IsShipped : Distribution → Prop where
  | uniformHash (seed : String) : IsShipped (.uniformHash seed)
  | normal (mean std : Float) : IsShipped (.normal mean std)
  | categorical (choices : List Json) : IsShipped (.categorical choices)
  | fallible (message : String) : IsShipped (.fallible message)

theorem describe_uniformHash (seed : String) : (uniformHash seed).describe
    = .objectOf [("seed", .string seed), ("type", .string "UniformHash")] :=
  rfl

theorem describe_normal (mean std : Float) : (normal mean std).describe
    = .objectOf [("mean", .ofFloat mean), ("std", .ofFloat std), ("type", .string "Normal")] :=
  rfl

theorem describe_categorical (choices : List Json) : (categorical choices).describe
    = .objectOf [("choices", .array choices), ("type", .string "Categorical")] :=
  rfl

theorem describe_fallible (message : String) : (fallible message).describe
    = .objectOf [("message", .string message), ("type", .string "Fallible")] :=
  rfl

/-- **Distributions of the catalogue with one description**, up to the zeros: they are of one
kind, and their parameters are described alike. -/
inductive Shares : Distribution → Distribution → Prop where
  | uniformHash (seed : String) : Shares (.uniformHash seed) (.uniformHash seed)
  | normal {mean std mean' std' : Float}
    (means : (Json.ofFloat mean).same (Json.ofFloat mean') = true)
    (deviations : (Json.ofFloat std).same (Json.ofFloat std') = true) :
    Shares (.normal mean std) (.normal mean' std')
  | categorical {choices choices' : List Json}
    (items : Json.sameItems choices choices' = true) :
    Shares (.categorical choices) (.categorical choices')
  | fallible (message : String) : Shares (.fallible message) (.fallible message)

theorem IsShipped.shares {d d' : Distribution} (hd : d.IsShipped) (hd' : d'.IsShipped)
    (h : d.describe.same d'.describe = true) : Shares d d' := by
  cases hd with
  | uniformHash seed =>
    rw [describe_uniformHash] at h
    cases hd' with
    | uniformHash seed' =>
      rw [describe_uniformHash] at h
      simp only [Json.same, Json.sameMembers, decide_true, Bool.true_and, Bool.and_true,
        decide_eq_true_eq] at h
      exact h ▸ .uniformHash seed
    | _ => simp [describe_normal, describe_categorical, describe_fallible, Json.same,
        Json.sameMembers] at h
  | normal mean std =>
    rw [describe_normal] at h
    cases hd' with
    | normal mean' std' =>
      rw [describe_normal] at h
      simp only [Json.same, Json.sameMembers, decide_true, Bool.true_and, Bool.and_true,
        Bool.and_eq_true] at h
      exact .normal h.1 h.2
    | _ => simp [describe_uniformHash, describe_categorical, describe_fallible, Json.same,
        Json.sameMembers] at h
  | categorical choices =>
    rw [describe_categorical] at h
    cases hd' with
    | categorical choices' =>
      rw [describe_categorical] at h
      simp only [Json.same, Json.sameMembers, decide_true, Bool.true_and, Bool.and_true] at h
      exact .categorical h
    | _ => simp [describe_uniformHash, describe_normal, describe_fallible, Json.same,
        Json.sameMembers] at h
  | fallible message =>
    rw [describe_fallible] at h
    cases hd' with
    | fallible message' =>
      rw [describe_fallible] at h
      simp only [Json.same, Json.sameMembers, decide_true, Bool.true_and, Bool.and_true,
        decide_eq_true_eq] at h
      exact h ▸ .fallible message
    | _ => simp [describe_uniformHash, describe_normal, describe_categorical, Json.same,
        Json.sameMembers] at h

open Arithmetic

/-- Normal distributions with the same description answer alike: without a finite deviation
both fail, and without a finite mean both answer `null`. -/
theorem sample_normal_eq {mean std mean' std' : Float}
    (hmean : Json.ofFloat mean = Json.ofFloat mean') (hstd : Json.ofFloat std = Json.ofFloat std') :
    (normal mean std).sample = (normal mean' std').sample := by
  funext k
  unfold normal
  dsimp only
  rcases eq_or_of_ofFloat hstd with rfl | ⟨hs, hs'⟩
  · rcases eq_or_of_ofFloat hmean with rfl | ⟨hm, hm'⟩
    · rfl
    · rw [ofFloat_of_not_isFinite (isFinite_add hm _), ofFloat_of_not_isFinite (isFinite_add hm' _)]
  · rw [hs, hs', if_neg Bool.false_ne_true, if_neg Bool.false_ne_true]

/-- **Distributions of the catalogue with the same description** answer every key alike. -/
theorem IsShipped.sample_eq {d d' : Distribution} (hd : d.IsShipped) (hd' : d'.IsShipped)
    (h : d.describe = d'.describe) : d.sample = d'.sample := by
  cases hd.shares hd' (h ▸ d.describe.same_self) with
  | uniformHash seed => rfl
  | normal means deviations =>
    simp only [describe_normal, Json.objectOf.injEq, List.cons.injEq, Prod.mk.injEq, true_and,
      and_true] at h
    exact sample_normal_eq h.1 h.2
  | categorical items =>
    simp only [describe_categorical, Json.objectOf.injEq, List.cons.injEq, Prod.mk.injEq,
      Json.array.injEq, true_and, and_true] at h
    rw [h]
  | fallible message => rfl

/-- **The same answer**, the two floating-point zeros being equal. -/
def SameAnswer : Outcome String Json → Outcome String Json → Prop
  | .value v, .value w => v.same w = true
  | .failure e, .failure e' => e = e'
  | .panic p, .panic p' => p = p'
  | _, _ => False

theorem SameAnswer.refl (o : Outcome String Json) : SameAnswer o o := by
  cases o with
  | value v => exact v.same_self
  | failure e => rfl
  | panic p => rfl

theorem sample_normal_same {mean std mean' std' : Float}
    (hmean : (Json.ofFloat mean).same (Json.ofFloat mean') = true)
    (hstd : (Json.ofFloat std).same (Json.ofFloat std') = true) (k : RandomKey) :
    SameAnswer ((normal mean std).sample k) ((normal mean' std').sample k) := by
  unfold normal
  dsimp only
  rcases alike_or_of_ofFloat_same hstd with ⟨hs, hs', hstd⟩ | ⟨hs, hs'⟩
  · rw [hs, hs', if_pos rfl, if_pos rfl]
    rcases alike_or_of_ofFloat_same hmean with ⟨-, -, hmean⟩ | ⟨hm, hm'⟩
    · exact ofFloat_same (alike_add_mul hmean hstd _)
    · rw [ofFloat_of_not_isFinite (isFinite_add hm _), ofFloat_of_not_isFinite (isFinite_add hm' _)]
      exact Json.same_self _
  · rw [hs, hs', if_neg Bool.false_ne_true, if_neg Bool.false_ne_true]
    exact .refl _

/-- Lists of choices that are equal as values are of one length, and hold equal values. -/
theorem getD_of_sameItems {vs ws : List Json} (h : Json.sameItems vs ws = true) :
    vs.length = ws.length ∧ ∀ i, (vs.getD i .null).same (ws.getD i .null) = true := by
  induction vs generalizing ws with
  | nil =>
    cases ws with
    | nil => exact ⟨rfl, fun _ => Json.same_self _⟩
    | cons w ws => simp [Json.sameItems] at h
  | cons v vs ih =>
    cases ws with
    | nil => simp [Json.sameItems] at h
    | cons w ws =>
      simp only [Json.sameItems, Bool.and_eq_true] at h
      obtain ⟨hlength, hget⟩ := ih h.2
      refine ⟨congrArg (· + 1) hlength, fun i => ?_⟩
      cases i with
      | zero => exact h.1
      | succ i => exact hget i

theorem sample_categorical_same {choices choices' : List Json}
    (h : Json.sameItems choices choices' = true) (k : RandomKey) :
    SameAnswer ((categorical choices).sample k) ((categorical choices').sample k) := by
  obtain ⟨hlength, hget⟩ := getD_of_sameItems h
  unfold categorical
  dsimp only
  rw [hlength]
  cases (Keystream.ofKey k).below? choices'.length with
  | none => rfl
  | some out => exact hget out.1

/-- **Distributions of the catalogue whose descriptions are equal as values** answer every
key with equal values. -/
theorem IsShipped.sample_same {d d' : Distribution} (hd : d.IsShipped) (hd' : d'.IsShipped)
    (h : d.describe.same d'.describe = true) (k : RandomKey) :
    SameAnswer (d.sample k) (d'.sample k) := by
  cases hd.shares hd' h with
  | uniformHash seed => exact .refl _
  | normal means deviations => exact sample_normal_same means deviations k
  | categorical items => exact sample_categorical_same items k
  | fallible message => exact .refl _

/-- **Two draws that are told apart** by what they are kept under, as far as there is
anything to tell. -/
structure ToldApart (d d' : Distribution) (k k' : RandomKey) : Prop where
  /-- The bytes that they are numbered by are the same just if the descriptions and the keys
  are. -/
  numbered : Utf8.encode (d.cacheChars k) = Utf8.encode (d'.cacheChars k')
    ↔ d.describe = d'.describe ∧ k = k'
  /-- Their entries in a cache are the same just if the descriptions and the keys are. -/
  cached : (d.identity, k) = (d'.identity, k') ↔ d.describe = d'.describe ∧ k = k'
  /-- With the same description, distributions of the catalogue answer every key alike. -/
  sampled : d.IsShipped → d'.IsShipped → d.describe = d'.describe → d.sample = d'.sample
  /-- With descriptions that are equal as values, they answer with equal values. -/
  equal : d.IsShipped → d'.IsShipped → d.describe.same d'.describe = true →
    ∀ k, SameAnswer (d.sample k) (d'.sample k)

/-- **No two different draws share an entry.** -/
theorem toldApart (d d' : Distribution) (k k' : RandomKey) : ToldApart d d' k k' where
  numbered := encode_cacheChars_iff
  cached := entry_iff
  sampled hd hd' h := hd.sample_eq hd' h
  equal hd hd' h := hd.sample_same hd' h

/-- Normal distributions around infinity and around what is no number share all of their
entries, and answer alike. -/
theorem toldApart_normal :
    (normal (.ofBits 0x7ff0000000000000) (.ofBits 0x3ff0000000000000)).describe
        = (normal (.ofBits 0x7ff8000000000000) (.ofBits 0x3ff0000000000000)).describe
      ∧ (normal (.ofBits 0x7ff0000000000000) (.ofBits 0x3ff0000000000000)).sample
        = (normal (.ofBits 0x7ff8000000000000) (.ofBits 0x3ff0000000000000)).sample := by
  have hinfinite : Json.ofFloat (.ofBits 0x7ff0000000000000) = .null :=
    ofFloat_of_not_isFinite (by decide +kernel)
  have hnan : Json.ofFloat (.ofBits 0x7ff8000000000000) = .null :=
    ofFloat_of_not_isFinite (by decide +kernel)
  have hdescribe : (normal (.ofBits 0x7ff0000000000000) (.ofBits 0x3ff0000000000000)).describe
      = (normal (.ofBits 0x7ff8000000000000) (.ofBits 0x3ff0000000000000)).describe := by
    rw [describe_normal, describe_normal, hinfinite, hnan]
  exact ⟨hdescribe, (toldApart _ _ .root .root).sampled (.normal _ _) (.normal _ _) hdescribe⟩

end Distribution

end Resampler
