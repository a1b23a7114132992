import Resampler.Proofs.Decimal.Distinct
import Resampler.Proofs.Json.Written

/-!
# Distinct values have distinct texts

The tree that a value is written as can be told from its text, for it is what reading makes
of it, and the value can be told from the tree: numbers are distinct numerals, an integer
never being one with a fraction or an exponent, and strings are made up again of their
letters. So no two values have the same text, not even the two floating-point zeros, which
are equal as numbers.

A text has no control characters. Those of a string are escaped, and nothing else has any.
-/

namespace Resampler

open Numeral

/-- **Distinct numbers are written as distinct numerals.** -/
theorem JsonNumber.numeral_injective : Function.Injective JsonNumber.numeral := by
  have hdigits : ∀ {n m : Nat}, digitsOf n = digitsOf m → n = m := by
    intro n m h
    rw [← ofDigits_digitsOf n, h, ofDigits_digitsOf]
  -- A floating-point number has a fraction or an exponent, an integer has neither.
  have hreal : ∀ {x : Float} {n : Numeral}, n.fraction = none → n.exponent = none →
      Json.numberLayout.numeral x ≠ n := by
    rintro x n hfraction hexponent rfl
    exact (Json.numberLayout.parts_numeral x).elim (· hfraction) (· hexponent)
  intro a b h
  match a, b with
  | .integer (.ofNat n) _, .integer (.ofNat m) _ =>
    obtain rfl := hdigits (congrArg Numeral.whole h)
    rfl
  | .integer (.negSucc n) _, .integer (.negSucc m) _ =>
    obtain rfl := Nat.succ.inj (hdigits (congrArg Numeral.whole h))
    rfl
  | .integer (.ofNat n) _, .integer (.negSucc m) _ => cases congrArg Numeral.negative h
  | .integer (.negSucc n) _, .integer (.ofNat m) _ => cases congrArg Numeral.negative h
  | .real x _, .real y _ =>
    obtain rfl := Json.numberLayout.numeral_injective h
    rfl
  | .real x _, .integer (.ofNat m) _ => exact (hreal rfl rfl h).elim
  | .real x _, .integer (.negSucc m) _ => exact (hreal rfl rfl h).elim
  | .integer (.ofNat n) _, .real y _ => exact (hreal rfl rfl h.symm).elim
  | .integer (.negSucc n) _, .real y _ => exact (hreal rfl rfl h.symm).elim

namespace Json

theorem lettersOf_injective : Function.Injective lettersOf := by
  intro s s' h
  have hread := stringOf?_lettersOf s
  rw [h, stringOf?_lettersOf] at hread
  exact (Option.some.inj hread).symm

mutual

/-- **Distinct values are written as distinct trees.** -/
theorem eq_of_tree : (v w : Json) → v.tree = w.tree → v = w
  | .null, w, h => by
    cases w <;> first | rfl | cases h
  | .bool a, w, h => by
    cases w <;> cases h
    rfl
  | .number n, w, h => by
    cases w <;> try cases h
    exact congrArg Json.number (JsonNumber.numeral_injective (Tree.number.inj h))
  | .string s, w, h => by
    cases w <;> try cases h
    exact congrArg Json.string (lettersOf_injective (Tree.string.inj h))
  | .array vs, w, h => by
    cases w <;> try cases h
    exact congrArg Json.array (eq_of_itemTrees vs _ (Tree.array.inj h))
  | .objectOf ms, w, h => by
    cases w <;> try cases h
    exact congrArg Json.objectOf (eq_of_memberTrees ms _ (Tree.object.inj h))

theorem eq_of_itemTrees : (vs ws : List Json) → itemTrees vs = itemTrees ws → vs = ws
  | [], [], _ => rfl
  | v :: vs, w :: ws, h => by
    obtain ⟨hv, hvs⟩ := List.cons.inj h
    rw [eq_of_tree v w hv, eq_of_itemTrees vs ws hvs]

theorem eq_of_memberTrees : (ms ns : List (String × Json)) →
    memberTrees ms = memberTrees ns → ms = ns
  | [], [], _ => rfl
  | (name, v) :: ms, (name', w) :: ns, h => by
    obtain ⟨hm, hms⟩ := List.cons.inj h
    obtain ⟨hname, hv⟩ := Prod.mk.inj hm
    rw [lettersOf_injective hname, eq_of_tree v w hv, eq_of_memberTrees ms ns hms]

end

/-- **Distinct values have distinct texts.** -/
theorem chars_injective : Function.Injective Json.chars := by
  intro v w h
  have hread := ofChars?_chars v
  rw [h, ofChars?_chars] at hread
  exact eq_of_tree v w (Option.some.inj hread).symm

theorem text_injective : Function.Injective Json.text :=
  fun _ _ h => chars_injective (String.ofList_injective h)

/-! ## No control characters -/

/-- Characters that are no control characters. -/
def Shows (text : List Char) : Prop := ∀ c ∈ text, 32 ≤ c.toNat

theorem shows_of_all {text : List Char} (h : (text.all fun c => decide (32 ≤ c.toNat)) = true) :
    Shows text :=
  fun c hc => of_decide_eq_true (List.all_eq_true.mp h c hc)

theorem shows_cons {c : Char} {text : List Char} (hc : 32 ≤ c.toNat) (ht : Shows text) :
    Shows (c :: text) := by
  intro d hd
  rcases List.mem_cons.mp hd with rfl | hd
  · exact hc
  · exact ht d hd

theorem shows_append {a b : List Char} (ha : Shows a) (hb : Shows b) : Shows (a ++ b) := by
  intro c hc
  rcases List.mem_append.mp hc with hc | hc
  · exact ha c hc
  · exact hb c hc

theorem shows_escape (c : Char) : Shows (escape c) := by
  have hnamed : ∀ d : Char, 32 ≤ d.toNat → Shows ['\\', d] := fun d hd =>
    shows_cons (by decide) (shows_cons hd nofun)
  have hhex : ∀ n < 32, 32 ≤ (hexDigit (n / 16)).toNat ∧ 32 ≤ (hexDigit (n % 16)).toNat := by
    decide
  unfold escape
  split
  · exact hnamed _ (by decide)
  split
  · exact hnamed _ (by decide)
  split
  · exact hnamed _ (by decide)
  split
  · exact hnamed _ (by decide)
  split
  · exact hnamed _ (by decide)
  split
  · exact hnamed _ (by decide)
  split
  · exact hnamed _ (by decide)
  split
  · next hc =>
    obtain ⟨hhigh, hlow⟩ := hhex c.toNat (toNat_lt_of_lt_space hc)
    have hfront : Shows ['\\', 'u', '0', '0'] := shows_of_all (by decide)
    exact shows_append hfront (shows_cons hhigh (shows_cons hlow nofun))
  · next hc => exact shows_cons (Nat.le_of_not_lt hc) nofun

theorem shows_quote (s : String) : Shows (quote s) := by
  refine shows_cons (by decide) (shows_append ?_ (shows_cons (by decide) nofun))
  intro c hc
  obtain ⟨d, -, hd⟩ := List.mem_flatMap.mp hc
  exact shows_escape d c hd

theorem shows_numberChars (n : JsonNumber) : Shows (numberChars n) := by
  intro c hc
  rw [n.numberChars_eq] at hc
  have hnumber := Scanner.isNumberChar_of_mem_chars n.fit_numeral.1 c hc
  simp only [Scanner.isNumberChar, Bool.or_eq_true, Bool.and_eq_true, decide_eq_true_eq] at hnumber
  rcases hnumber with ((((hdigit | rfl) | rfl) | rfl) | rfl) | rfl
  · have hlow : 48 ≤ c.toNat := hdigit.1
    exact Nat.le_trans (by decide) hlow
  all_goals decide

mutual

/-- **The text of a value has no control characters.** -/
theorem shows_chars : (v : Json) → Shows v.chars
  | .null => shows_of_all (by decide)
  | .bool true => shows_of_all (by decide)
  | .bool false => shows_of_all (by decide)
  | .number n => shows_numberChars n
  | .string s => shows_quote s
  | .array [] => shows_of_all (by decide)
  | .array (v :: vs) =>
    shows_cons (by decide) (shows_append (shows_chars v) (shows_itemsChars vs))
  | .objectOf [] => shows_of_all (by decide)
  | .objectOf ((name, v) :: ms) =>
    shows_cons (by decide) (shows_append (shows_quote name) (shows_cons (by decide)
      (shows_append (shows_chars v) (shows_membersChars ms))))

theorem shows_itemsChars : (vs : List Json) → Shows (itemsChars vs)
  | [] => shows_of_all (by decide)
  | v :: vs => shows_cons (by decide) (shows_append (shows_chars v) (shows_itemsChars vs))

theorem shows_membersChars : (ms : List (String × Json)) → Shows (membersChars ms)
  | [] => shows_of_all (by decide)
  | (name, v) :: ms =>
    shows_cons (by decide) (shows_append (shows_quote name) (shows_cons (by decide)
      (shows_append (shows_chars v) (shows_membersChars ms))))

end

end Json

end Resampler
