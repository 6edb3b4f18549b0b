import PrivatePresentation.Proofs.Field.Order

/-!
Residues modulo the order.  The arithmetic that circuits compute with, read on representatives: a
difference wraps around exactly if it is negative, and numbers much smaller than the order keep their
sign when they become residues.
-/

namespace PrivatePresentation.Scalar

open scoped Fin.CommRing

/-- The order is far above the range in which values are ordered. -/
theorem two_pow_lt_order : 2 ^ 253 < scalarOrder := by decide +kernel

instance : Nontrivial Scalar := ⟨⟨0, 1, by decide +kernel⟩⟩

/-- The order is prime, so a product vanishes only with one of its factors. -/
instance : NoZeroDivisors Scalar where
  eq_zero_or_eq_zero_of_mul_eq_zero := eq_zero_or_eq_zero_of_residue scalarOrder_prime

/-- A residue that is not zero times its inverse is one. -/
theorem mul_inverse {x : Scalar} (hx : x ≠ 0) : x * x.inverse = 1 := by
  have hpow : x * x.inverse = x ^ (scalarOrder - 1) := by
    rw [inverse, power_eq_pow, ← pow_succ']
    rfl
  rw [hpow]
  exact pow_prime_sub_one scalarOrder_prime hx

theorem val_add (a b : Scalar) : (a + b).val = (a.val + b.val) % scalarOrder := Fin.val_add a b

theorem val_sub (a b : Scalar) :
    (b - a).val = if a.val ≤ b.val then b.val - a.val else b.val + scalarOrder - a.val := by
  have ha := a.isLt
  have hb := b.isLt
  rw [Fin.sub_def]
  split
  · rename_i hle
    have heq : scalarOrder - a.val + b.val = b.val - a.val + scalarOrder := by omega
    simp only [heq, Nat.add_mod_right]
    exact Nat.mod_eq_of_lt (by omega)
  · exact (Nat.mod_eq_of_lt (by omega)).trans (by omega)

theorem val_ofNat_of_lt {n : Nat} (hn : n < scalarOrder) : (ofNat n).val = n :=
  Nat.mod_eq_of_lt hn

/-- The representative of a difference, with the sign of integers. -/
theorem cast_val_sub (a b : Scalar) :
    ((b - a).val : Int) = ((b.val : Int) - a.val) % scalarOrder := by
  have ha := a.isLt
  have hb := b.isLt
  rw [val_sub]
  split
  · rw [Int.emod_eq_of_lt (by omega) (by omega)]
    omega
  · rw [← Int.add_emod_right, Int.emod_eq_of_lt (by omega) (by omega)]
    omega

theorem cast_val_neg (a : Scalar) : ((-a).val : Int) = (-(a.val : Int)) % scalarOrder := by
  have hzero : (-a).val = (0 - a).val := by rw [zero_sub]
  rw [hzero, cast_val_sub]
  simp

/-- The representative of an integer is its remainder. -/
theorem cast_val_ofInt (x : Int) : ((ofInt x).val : Int) = x % scalarOrder := by
  have hnat (n : Nat) : ((ofNat n).val : Int) = (n : Int) % scalarOrder := by
    rw [← Int.natCast_mod]
    rfl
  rw [ofInt]
  split
  · rename_i hneg
    have hx : x = -(x.natAbs : Int) := by omega
    rw [cast_val_neg, hnat]
    calc (-((x.natAbs : Int) % scalarOrder)) % scalarOrder
        = (-(x.natAbs : Int)) % scalarOrder := (Int.mod_modEq _ _).neg
      _ = x % scalarOrder := by rw [← hx]
  · rename_i hpos
    have hx : x = (x.natAbs : Int) := by omega
    rw [hnat]
    rw [← hx]

theorem ofInt_eq_iff (x y : Int) :
    ofInt x = ofInt y ↔ x % scalarOrder = y % scalarOrder := by
  rw [← cast_val_ofInt, ← cast_val_ofInt, Nat.cast_inj, Fin.val_inj]

theorem ofInt_sub (x y : Int) : ofInt (x - y) = ofInt x - ofInt y := by
  apply Fin.ext
  have hval : ((ofInt (x - y)).val : Int) = ((ofInt x - ofInt y).val : Int) := by
    rw [cast_val_sub, cast_val_ofInt, cast_val_ofInt, cast_val_ofInt, ← Int.sub_emod]
  exact_mod_cast hval

theorem ofNat_eq_ofInt (n : Nat) : ofNat n = ofInt n := by
  rw [ofInt, if_neg (by omega)]
  rfl

/-- Integers that are small against the order are told apart by their residues. -/
theorem ofInt_inj {x y : Int} (hx : -2 ^ 252 < x ∧ x < 2 ^ 252) (hy : -2 ^ 252 < y ∧ y < 2 ^ 252) :
    ofInt x = ofInt y ↔ x = y := by
  have horder := two_pow_lt_order
  constructor
  · intro heq
    have hmod : y ≡ x [ZMOD scalarOrder] := ((ofInt_eq_iff x y).1 heq).symm
    have hdvd : (scalarOrder : Int) ∣ x - y := hmod.dvd
    have hzero : x - y = 0 := Int.eq_zero_of_abs_lt_dvd hdvd (by rw [abs_lt]; omega)
    omega
  · rintro rfl
    rfl

end PrivatePresentation.Scalar
