import Resampler.Json.Basic

/-!
# Numbers that are not told apart

A floating-point number that is not finite is described as `null`, whichever it is, and the
two zeros are equal as numbers although they are described differently. What is computed
from such numbers is alike again: a sum with a term that is not finite is not finite, and
where a zero is put for the other one, a sum or a product is the same number, or a zero for
the other one.
-/

namespace Resampler

namespace Arithmetic

open Float.Model (UnpackedFloat)

/-- **The same number**, or both a zero. -/
def Alike (u v : UnpackedFloat) : Prop := u = v ∨ ∃ s t, u = .zero s ∧ v = .zero t

variable {u v w : UnpackedFloat} {x x' y y' : Float}

theorem Alike.refl (u : UnpackedFloat) : Alike u u := .inl rfl

theorem Alike.trans (h : Alike u v) (h' : Alike v w) : Alike u w := by
  rcases h with rfl | ⟨s, t, rfl, rfl⟩
  · exact h'
  · rcases h' with rfl | ⟨s', t', hs, rfl⟩
    · exact .inr ⟨s, t, rfl, rfl⟩
    · exact .inr ⟨s, t', rfl, rfl⟩

/-- Numbers that are equal as numbers are alike. -/
theorem alike_of_beq (h : (x == y) = true) : Alike x.toModel.unpack y.toModel.unpack := by
  change (x.toModel.unpack.compare y.toModel.unpack == some .eq) = true at h
  generalize x.toModel.unpack = u at h ⊢
  generalize y.toModel.unpack = v at h ⊢
  rw [beq_iff_eq] at h
  cases u with
  | notANumber => cases v <;> cases h
  | infinity s =>
    cases v with
    | infinity t =>
      cases s <;> cases t <;> first | exact .inl rfl | cases h
    | notANumber => cases h
    | zero t => cases s <;> cases h
    | finite t m e hm => cases s <;> cases h
  | zero s =>
    cases v with
    | zero t => exact .inr ⟨s, t, rfl, rfl⟩
    | notANumber => cases h
    | infinity t => cases t <;> cases h
    | finite t m e hm => cases t <;> cases h
  | finite s m e hm =>
    cases v with
    | finite t n e' hn =>
      have hcompare : ∀ {o : Ordering}, some o = some Ordering.eq ∨ some o.swap = some Ordering.eq →
          o = .eq := by
        intro o ho
        cases o <;> simp at ho ⊢
      have hsame : s = t → ((compare e e').then (compare m n)) = .eq →
          Alike (.finite s m e hm) (.finite t n e' hn) := by
        rintro rfl ho
        obtain ⟨he, hmn⟩ := Ordering.then_eq_eq.mp ho
        obtain rfl := Std.LawfulEqCmp.eq_of_compare he
        obtain rfl := Std.LawfulEqCmp.eq_of_compare hmn
        exact .inl rfl
      cases s <;> cases t
      · exact hsame rfl (hcompare (.inr h))
      · cases h
      · cases h
      · exact hsame rfl (hcompare (.inl h))
    | notANumber => cases h
    | infinity t => cases s <;> cases t <;> cases h
    | zero t => cases s <;> cases h

/-- Alike numbers are both finite, and equal as numbers, or none of them is. -/
theorem ofFloat_same (h : Alike x.toModel.unpack y.toModel.unpack) :
    (Json.ofFloat x).same (Json.ofFloat y) = true := by
  have hfinite : x.isFinite = y.isFinite := by
    show x.toModel.unpack.isFinite = y.toModel.unpack.isFinite
    rcases h with h | ⟨s, t, hs, ht⟩
    · rw [h]
    · rw [hs, ht]
      rfl
  unfold Json.ofFloat
  by_cases hx : x.isFinite = true
  · rw [dif_pos hx, dif_pos (hfinite ▸ hx)]
    show (x.toModel.unpack.compare y.toModel.unpack == some .eq) = true
    rcases h with h | ⟨s, t, hs, ht⟩
    · rw [← h]
      exact JsonNumber.beq_self_of_isFinite hx
    · rw [hs, ht]
      rfl
  · rw [dif_neg hx, dif_neg (hfinite ▸ hx)]
    rfl

theorem alike_mul_left (h : Alike u v) (w : UnpackedFloat) (f : Float.Model.Format) :
    Alike (u.mul f w) (v.mul f w) := by
  rcases h with rfl | ⟨s, t, rfl, rfl⟩
  · exact .refl _
  · cases w with
    | notANumber => exact .inl rfl
    | infinity _ => exact .inl rfl
    | zero _ => exact .inr ⟨_, _, rfl, rfl⟩
    | finite _ _ _ _ => exact .inr ⟨_, _, rfl, rfl⟩

theorem alike_add_left (h : Alike u v) (w : UnpackedFloat) (f : Float.Model.Format) :
    Alike (u.add f w) (v.add f w) := by
  rcases h with rfl | ⟨s, t, rfl, rfl⟩
  · exact .refl _
  · cases w with
    | zero s' => cases s <;> cases t <;> cases s' <;> exact .inr ⟨_, _, rfl, rfl⟩
    | _ => exact .inl rfl

theorem alike_add_right (h : Alike u v) (w : UnpackedFloat) (f : Float.Model.Format) :
    Alike (w.add f u) (w.add f v) := by
  rcases h with rfl | ⟨s, t, rfl, rfl⟩
  · exact .refl _
  · cases w with
    | zero s' => cases s <;> cases t <;> cases s' <;> exact .inr ⟨_, _, rfl, rfl⟩
    | _ => exact .inl rfl

theorem alike_pack (h : Alike u v) :
    Alike (Float.Model.pack u).unpack (Float.Model.pack v).unpack := by
  rcases h with rfl | ⟨s, t, rfl, rfl⟩
  · exact .refl _
  · exact .inr ⟨s, t, by cases s <;> rfl, by cases t <;> rfl⟩

/-- A sum with a term that is not finite is not finite. -/
theorem isFinite_add (h : x.isFinite = false) (y : Float) : (x + y).isFinite = false := by
  show (Float.Model.pack (x.toModel.unpack.add .binary64 y.toModel.unpack)).unpack.isFinite = false
  change x.toModel.unpack.isFinite = false at h
  have hnan : (Float.Model.pack .notANumber).unpack.isFinite = false := by decide +kernel
  have hinfinite : ∀ s, (Float.Model.pack (.infinity s)).unpack.isFinite = false := by
    intro s
    cases s <;> decide +kernel
  generalize x.toModel.unpack = u at h ⊢
  generalize y.toModel.unpack = v
  cases u with
  | notANumber => exact hnan
  | infinity s =>
    cases v with
    | notANumber => exact hnan
    | infinity t =>
      show (Float.Model.pack (if s == t then .infinity s else .notANumber)).unpack.isFinite = false
      split
      · exact hinfinite s
      · exact hnan
    | zero t => exact hinfinite s
    | finite t m e hm => exact hinfinite s
  | zero s => cases h
  | finite s m e hm => cases h

/-! ## What the description of a number tells -/

/-- A number that is not finite is `null`. -/
theorem ofFloat_of_not_isFinite (h : x.isFinite = false) : Json.ofFloat x = .null :=
  dif_neg (Bool.eq_false_iff.mp h)

/-- Numbers with the same description are the same, unless both are not finite. -/
theorem eq_or_of_ofFloat (h : Json.ofFloat x = Json.ofFloat y) :
    x = y ∨ x.isFinite = false ∧ y.isFinite = false := by
  unfold Json.ofFloat at h
  split at h
  · split at h
    · cases h
      exact .inl rfl
    · cases h
  · next hx =>
    split at h
    · cases h
    · next hy => exact .inr ⟨Bool.eq_false_iff.mpr hx, Bool.eq_false_iff.mpr hy⟩

/-- Numbers whose descriptions are equal as values are finite and alike, or both are not
finite. -/
theorem alike_or_of_ofFloat_same (h : (Json.ofFloat x).same (Json.ofFloat y) = true) :
    (x.isFinite = true ∧ y.isFinite = true ∧ Alike x.toModel.unpack y.toModel.unpack)
      ∨ x.isFinite = false ∧ y.isFinite = false := by
  unfold Json.ofFloat at h
  split at h
  · next hx =>
    split at h
    · next hy => exact .inl ⟨hx, hy, alike_of_beq h⟩
    · cases h
  · next hx =>
    split at h
    · cases h
    · next hy => exact .inr ⟨Bool.eq_false_iff.mpr hx, Bool.eq_false_iff.mpr hy⟩

/-- **Sums and products of alike numbers** are alike. -/
theorem alike_add_mul (hx : Alike x.toModel.unpack x'.toModel.unpack)
    (hy : Alike y.toModel.unpack y'.toModel.unpack) (z : Float) :
    Alike (x + y * z).toModel.unpack (x' + y' * z).toModel.unpack := by
  have hproduct : Alike (y * z).toModel.unpack (y' * z).toModel.unpack :=
    alike_pack (alike_mul_left hy z.toModel.unpack .binary64)
  exact alike_pack ((alike_add_left hx (y * z).toModel.unpack .binary64).trans
    (alike_add_right hproduct x'.toModel.unpack .binary64))

end Arithmetic

end Resampler
