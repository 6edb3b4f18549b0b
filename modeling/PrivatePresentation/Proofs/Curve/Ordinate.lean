import PrivatePresentation.Proofs.Curve.Codec

/-!
The second coordinates that are found for a first one.  They lie on the curve and are opposite to each
other, and neither is its own opposite, since the constants of both curves, with the sign changed, are
no cubes.  So the order of the two tells which is which.
-/

namespace PrivatePresentation

open scoped Fin.CommRing

/-- A root and its opposite, put in order: the first comes before its opposite, the second does not. -/
theorem ordered_roots_flags {F : Type} [Neg F] {le : F → F → Prop} [DecidableRel le]
    (htotal : ∀ a b, ¬le a b → le b a) (hantisymm : ∀ a b, le a b → le b a → a = b)
    (hneg : ∀ a : F, - -a = a) {r low high : F} (hne : r ≠ -r)
    (h : (if le r (-r) then (r, -r) else (-r, r)) = (low, high)) :
    ((low = r ∨ low = -r) ∧ le low (-low)) ∧ (high = r ∨ high = -r) ∧ ¬le high (-high) := by
  by_cases hle : le r (-r)
  · rw [if_pos hle] at h
    obtain ⟨rfl, rfl⟩ := Prod.mk.inj h
    refine ⟨⟨.inl rfl, hle⟩, .inr rfl, fun hback => hne ?_⟩
    rw [hneg] at hback
    exact hantisymm _ _ hle hback
  · rw [if_neg hle] at h
    obtain ⟨rfl, rfl⟩ := Prod.mk.inj h
    refine ⟨⟨.inr rfl, ?_⟩, .inl rfl, hle⟩
    rw [hneg]
    exact htotal _ _ hle

namespace Base

theorem two_ne_zero : (2 : Base) ≠ 0 := by decide +kernel

theorem eq_zero_of_eq_neg {y : Base} (h : y = -y) : y = 0 := by
  have hdouble : 2 * y = 0 := by linear_combination h
  exact (mul_eq_zero.1 hdouble).resolve_left two_ne_zero

/-- The order is one more than a multiple of three, so that a power of a cube is one. -/
theorem cube_pow_third {x : Base} (hx : x ≠ 0) : (x * x * x) ^ ((baseOrder - 1) / 3) = 1 := by
  have hexponent : 3 * ((baseOrder - 1) / 3) = baseOrder - 1 := by decide +kernel
  have hcube : x * x * x = x ^ 3 := by ring
  rw [hcube, ← pow_mul, hexponent, pow_prime_sub_one baseOrder_prime hx]

/-- An element with another power is no cube. -/
theorem cube_ne {n : Base} (hzero : n ≠ 0) (hpower : power n ((baseOrder - 1) / 3) ≠ 1) (x : Base) :
    x * x * x ≠ n := by
  rintro rfl
  rw [power_eq_pow] at hpower
  have hx : x ≠ 0 := by
    rintro rfl
    exact hzero (mul_zero _)
  exact hpower (cube_pow_third hx)

end Base

namespace G1

/-- No point of the curve has its own opposite for a second coordinate. -/
theorem ordinate_ne_neg {x y : Base} (h : y * y = x * x * x + coefficient) : y ≠ -y := by
  intro hy
  rw [Base.eq_zero_of_eq_neg hy, mul_zero] at h
  have hcube : x * x * x = -coefficient := eq_neg_of_add_eq_zero_left h.symm
  exact Base.cube_ne (by decide +kernel) (by decide +kernel) x hcube

/-- The second coordinates that are found are on the curve, each in its place. -/
theorem of_ordinates? {x low high : Base} (h : ordinates? x = some (low, high)) :
    (low * low = x * x * x + coefficient ∧ low.val ≤ (-low).val) ∧
      high * high = x * x * x + coefficient ∧ ¬high.val ≤ (-high).val := by
  rw [ordinates?, Option.map_eq_some_iff] at h
  obtain ⟨r, hr, hpair⟩ := h
  have hcurve := Base.mul_self_of_sqrt? hr
  obtain ⟨⟨hlow, hle⟩, hhigh, hnle⟩ := @ordered_roots_flags Base _ (fun a b => a.val ≤ b.val) _
    (fun a b => Nat.le_of_not_le) (fun a b hab hba => Fin.ext (Nat.le_antisymm hab hba)) neg_neg
    r low high (ordinate_ne_neg hcurve) hpair
  have hroot {y : Base} (hy : y = r ∨ y = -r) : y * y = x * x * x + coefficient :=
    (mul_self_eq_mul_self_iff.2 hy).trans hcurve
  exact ⟨⟨hroot hlow, hle⟩, hroot hhigh, hnle⟩

end G1

namespace Quadratic

/-- The norm over the field below. -/
def norm (a : Quadratic) : Base := a.c0 * a.c0 + a.c1 * a.c1

theorem norm_mul (a b : Quadratic) : (a * b).norm = a.norm * b.norm := by
  simp only [norm, mul_c0, mul_c1]
  ring

theorem norm_neg (a : Quadratic) : (-a).norm = a.norm := by
  simp only [norm, neg_c0, neg_c1, neg_mul_neg]

theorem eq_zero_of_eq_neg {y : Quadratic} (h : y = -y) : y = 0 :=
  ext (Base.eq_zero_of_eq_neg (congrArg c0 h)) (Base.eq_zero_of_eq_neg (congrArg c1 h))

theorem eq_neg_of_add_eq_zero {a b : Quadratic} (h : a + b = 0) : a = -b :=
  ext (eq_neg_of_add_eq_zero_left (congrArg c0 h)) (eq_neg_of_add_eq_zero_left (congrArg c1 h))

theorem neg_mul_self (a : Quadratic) : -a * -a = a * a := by
  refine ext ?_ ?_
  · simp only [mul_c0, neg_c0, neg_c1, neg_mul_neg]
  · simp only [mul_c1, neg_c0, neg_c1, neg_mul_neg]

end Quadratic

namespace G2

/-- No point of the twisted curve has its own opposite for a second coordinate, for the norm of the
constant is no cube. -/
theorem ordinate_ne_neg {x y : Quadratic} (h : y * y = x * x * x + coefficient) : y ≠ -y := by
  intro hy
  rw [Quadratic.eq_zero_of_eq_neg hy] at h
  have hzero : (0 : Quadratic) * 0 = 0 := by decide +kernel
  have hcube : x * x * x = -coefficient :=
    Quadratic.eq_neg_of_add_eq_zero (h.symm.trans hzero)
  have hnorm := congrArg Quadratic.norm hcube
  rw [Quadratic.norm_mul, Quadratic.norm_mul, Quadratic.norm_neg] at hnorm
  exact Base.cube_ne (by decide +kernel) (by decide +kernel) x.norm hnorm

/-- The second coordinates that are found are on the twisted curve, each in its place. -/
theorem of_ordinates? {x low high : Quadratic} (h : ordinates? x = some (low, high)) :
    (low * low = x * x * x + coefficient ∧ low.le (-low) = true) ∧
      high * high = x * x * x + coefficient ∧ ¬high.le (-high) = true := by
  rw [ordinates?, Option.map_eq_some_iff] at h
  obtain ⟨r, hr, hpair⟩ := h
  have hcurve := Quadratic.mul_self_of_sqrt? hr
  obtain ⟨⟨hlow, hle⟩, hhigh, hnle⟩ := @ordered_roots_flags Quadratic _ (fun a b => a.le b = true) _
    (fun a b => Quadratic.le_of_not_le) (fun a b => Quadratic.eq_of_le_of_le)
    Quadratic.neg_involutive r low high (ordinate_ne_neg hcurve) hpair
  have hroot {y : Quadratic} (hy : y = r ∨ y = -r) : y * y = x * x * x + coefficient := by
    rcases hy with rfl | rfl
    · exact hcurve
    · rw [Quadratic.neg_mul_self, hcurve]
  exact ⟨⟨hroot hlow, hle⟩, hroot hhigh, hnle⟩

end G2
end PrivatePresentation
