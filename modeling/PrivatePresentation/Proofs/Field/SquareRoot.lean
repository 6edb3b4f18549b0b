import PrivatePresentation.Field.Tower
import PrivatePresentation.Proofs.Field.Order

/-!
Square roots in the field of coordinates and in its quadratic extension.  Every square has a root that
is found, and it is the one that was squared or its opposite; nothing else is found.
-/

namespace PrivatePresentation

open scoped Fin.CommRing

namespace Base

instance : Nontrivial Base := ⟨⟨0, 1, by decide +kernel⟩⟩

/-- The order is prime, so a product vanishes only with one of its factors. -/
instance : @NoZeroDivisors Base Fin.instMul MulZeroClass.toZero where
  eq_zero_or_eq_zero_of_mul_eq_zero := eq_zero_or_eq_zero_of_residue baseOrder_prime

/-- A residue that is not zero times its inverse is one. -/
theorem mul_inverse {x : Base} (hx : x ≠ 0) : x * x.inverse = 1 := by
  have hpow : x * x.inverse = x ^ (baseOrder - 1) := by
    rw [inverse, power_eq_pow, ← pow_succ']
    rfl
  rw [hpow]
  exact pow_prime_sub_one baseOrder_prime hx

theorem mul_self_of_sqrt? {x r : Base} (h : sqrt? x = some r) : r * r = x := by
  unfold sqrt? at h
  dsimp only at h
  split at h
  · rename_i hroot
    obtain rfl := Option.some.inj h
    exact hroot
  · cases h

/-- The order is one less than a multiple of four, so that a power of a square is a root of it. -/
theorem exists_sqrt? (y : Base) : ∃ r, sqrt? (y * y) = some r := by
  have hexponent : 2 * ((baseOrder + 1) / 4 + (baseOrder + 1) / 4) = baseOrder - 1 + 2 := by
    decide +kernel
  have hroot : (y * y) ^ ((baseOrder + 1) / 4) * (y * y) ^ ((baseOrder + 1) / 4) = y * y := by
    rw [← pow_add, ← sq, ← pow_mul, hexponent, pow_add]
    by_cases hy : y = 0
    · rw [hy, zero_pow two_ne_zero, mul_zero]
    · rw [pow_prime_sub_one baseOrder_prime hy, one_mul]
  unfold sqrt?
  rw [power_eq_pow]
  exact ⟨_, if_pos hroot⟩

theorem ofNat_eq_cast (n : Nat) : ofNat n = (n : Base) := rfl

theorem cast_val (x : Base) : ((x.val : Nat) : Base) = x := Fin.cast_val_eq_self x

theorem cast_order : ((baseOrder : Nat) : Base) = 0 := Fin.natCast_self baseOrder

theorem sq_pow_half {a : Base} (ha : a ≠ 0) : (a * a) ^ ((baseOrder - 1) / 2) = 1 := by
  have heven : 2 * ((baseOrder - 1) / 2) = baseOrder - 1 := by decide +kernel
  rw [← sq, ← pow_mul, heven, pow_prime_sub_one baseOrder_prime ha]

/-- Minus one is no square, since half of what comes before the order is odd. -/
theorem eq_zero_of_sum_of_squares {a b : Base} (h : a * a + b * b = 0) : a = 0 ∧ b = 0 := by
  have hodd : Odd ((baseOrder - 1) / 2) := Nat.odd_iff.2 (by decide +kernel)
  have hsquares : a * a = -(b * b) := eq_neg_of_add_eq_zero_left h
  by_cases ha : a = 0
  · rw [ha, mul_zero, zero_eq_neg, mul_self_eq_zero] at hsquares
    exact ⟨ha, hsquares⟩
  by_cases hb : b = 0
  · rw [hb, mul_zero, neg_zero, mul_self_eq_zero] at hsquares
    exact ⟨hsquares, hb⟩
  have hone : (1 : Base) = -1 := by
    calc (1 : Base) = (a * a) ^ ((baseOrder - 1) / 2) := (sq_pow_half ha).symm
      _ = -1 := by rw [hsquares, hodd.neg_pow, sq_pow_half hb]
  exact absurd hone (by decide +kernel)

end Base

namespace Quadratic

variable (a b : Quadratic)

@[simp]
theorem add_c0 : (a + b).c0 = a.c0 + b.c0 := rfl

@[simp]
theorem add_c1 : (a + b).c1 = a.c1 + b.c1 := rfl

@[simp]
theorem neg_c0 : (-a).c0 = -a.c0 := rfl

@[simp]
theorem neg_c1 : (-a).c1 = -a.c1 := rfl

@[simp]
theorem mul_c0 : (a * b).c0 = a.c0 * b.c0 - a.c1 * b.c1 := by
  change Base.ofNat (a.c0.val * b.c0.val + (baseOrder - a.c1.val) * b.c1.val) = _
  rw [Base.ofNat_eq_cast, Nat.cast_add, Nat.cast_mul, Nat.cast_mul, Nat.cast_sub a.c1.isLt.le]
  simp only [Base.cast_val, Base.cast_order]
  ring

@[simp]
theorem mul_c1 : (a * b).c1 = a.c0 * b.c1 + a.c1 * b.c0 := by
  change Base.ofNat (a.c0.val * b.c1.val + a.c1.val * b.c0.val) = _
  rw [Base.ofNat_eq_cast, Nat.cast_add, Nat.cast_mul, Nat.cast_mul]
  simp only [Base.cast_val]

@[ext]
theorem ext {a b : Quadratic} (h0 : a.c0 = b.c0) (h1 : a.c1 = b.c1) : a = b := by
  cases a
  cases b
  exact congrArg₂ mk h0 h1

theorem neg_involutive : Function.Involutive fun a : Quadratic => -a :=
  fun a => ext (neg_neg a.c0) (neg_neg a.c1)

variable {a b}

/-- A square has no other roots than the one that was squared and its opposite. -/
theorem eq_or_eq_neg_of_mul_self (h : a * a = b * b) : a = b ∨ a = -b := by
  -- The difference `s` and the sum `t` of the roots have the product zero, hence so do the norm of `s`
  -- and each part of `t`.
  have h0 := congrArg c0 h
  have h1 := congrArg c1 h
  simp only [mul_c0, mul_c1] at h0 h1
  have hpart0 : ((a.c0 - b.c0) * (a.c0 - b.c0) + (a.c1 - b.c1) * (a.c1 - b.c1)) * (a.c0 + b.c0) = 0 := by
    linear_combination (a.c0 - b.c0) * h0 + (a.c1 - b.c1) * h1
  have hpart1 : ((a.c0 - b.c0) * (a.c0 - b.c0) + (a.c1 - b.c1) * (a.c1 - b.c1)) * (a.c1 + b.c1) = 0 := by
    linear_combination (a.c0 - b.c0) * h1 - (a.c1 - b.c1) * h0
  by_cases hnorm : (a.c0 - b.c0) * (a.c0 - b.c0) + (a.c1 - b.c1) * (a.c1 - b.c1) = 0
  · obtain ⟨hs0, hs1⟩ := Base.eq_zero_of_sum_of_squares hnorm
    exact .inl (ext (sub_eq_zero.1 hs0) (sub_eq_zero.1 hs1))
  · right
    refine ext (eq_neg_of_add_eq_zero_left ?_) (eq_neg_of_add_eq_zero_left ?_)
    · exact (mul_eq_zero.1 hpart0).resolve_left hnorm
    · exact (mul_eq_zero.1 hpart1).resolve_left hnorm

theorem two_mul_half : 2 * half = 1 := by decide +kernel

/-- A root of one of the candidates for the square of the first part makes a root of the whole. -/
theorem rootFrom?_spec {n first : Base} (hc1 : a.c1 ≠ 0)
    (hn : n * n = a.c0 * a.c0 + a.c1 * a.c1) (hfirst : first * first = (a.c0 + n) * half) :
    ∃ r, rootFrom? a first = some r ∧ r * r = a := by
  have hhalf := two_mul_half
  have hne : first ≠ 0 := by
    rintro rfl
    have hsum : a.c0 + n = 0 := by linear_combination -2 * hfirst - (a.c0 + n) * hhalf
    have hzero : a.c1 * a.c1 = 0 := by linear_combination (n - a.c0) * hsum - hn
    exact hc1 (mul_self_eq_zero.1 hzero)
  have hinverse := Base.mul_inverse hne
  unfold rootFrom?
  generalize first.inverse = i at hinverse ⊢
  have hother : a.c1 * half * i * (a.c1 * half * i) = (n - a.c0) * half := by
    calc a.c1 * half * i * (a.c1 * half * i)
        = (n - a.c0) * half * ((a.c0 + n) * half) * (i * i) := by
          linear_combination -(half * half * i * i) * hn
      _ = (n - a.c0) * half * ((first * i) * (first * i)) := by
          linear_combination -((n - a.c0) * half * (i * i)) * hfirst
      _ = (n - a.c0) * half := by rw [hinverse, mul_one, mul_one]
  have hroot : (⟨first, a.c1 * half * i⟩ : Quadratic) * ⟨first, a.c1 * half * i⟩ = a := by
    refine ext ?_ ?_
    · rw [mul_c0]
      linear_combination hfirst - hother + a.c0 * hhalf
    · rw [mul_c1]
      linear_combination 2 * half * a.c1 * hinverse + a.c1 * hhalf
  exact ⟨_, if_pos hroot, hroot⟩

/-- The first part of a root of a square is found, whichever root of the norm has been. -/
theorem firstPart?_spec {y : Quadratic} {n : Base} (h0 : a.c0 = y.c0 * y.c0 - y.c1 * y.c1)
    (hn : n * n = (y.c0 * y.c0 + y.c1 * y.c1) * (y.c0 * y.c0 + y.c1 * y.c1)) :
    ∃ first, firstPart? a n = some first ∧
      (first * first = (a.c0 + n) * half ∨ first * first = (a.c0 + -n) * half) := by
  have hhalf := two_mul_half
  obtain ⟨r, hr⟩ := Base.exists_sqrt? y.c0
  unfold firstPart?
  obtain ⟨plus, hplus⟩ : ∃ plus, Base.sqrt? ((a.c0 + n) * half) = plus := ⟨_, rfl⟩
  rw [hplus]
  cases plus with
  | some first => exact ⟨first, rfl, .inl (Base.mul_self_of_sqrt? hplus)⟩
  | none =>
      -- The norm of `y` is the opposite of `n`, since the first part of `y` would do otherwise.
      have hopposite : n = -(y.c0 * y.c0 + y.c1 * y.c1) := by
        refine (mul_self_eq_mul_self_iff.1 hn).resolve_left fun heq => ?_
        have hsum : (a.c0 + n) * half = y.c0 * y.c0 := by
          rw [h0, heq]
          linear_combination y.c0 * y.c0 * hhalf
        rw [hsum, hr] at hplus
        cases hplus
      have hminus : (a.c0 - n) * half = y.c0 * y.c0 := by
        rw [h0, hopposite]
        linear_combination y.c0 * y.c0 * hhalf
      refine ⟨r, ?_, .inr ?_⟩
      · rw [hminus, hr]
        rfl
      · rw [← sub_eq_add_neg, hminus, Base.mul_self_of_sqrt? hr]

/-- A root of a square is found. -/
theorem exists_sqrt? (y : Quadratic) : ∃ r, sqrt? (y * y) = some r ∧ r * r = y * y := by
  have h0 : (y * y).c0 = y.c0 * y.c0 - y.c1 * y.c1 := mul_c0 y y
  have h1 : (y * y).c1 = y.c0 * y.c1 + y.c1 * y.c0 := mul_c1 y y
  generalize y * y = a at h0 h1
  unfold sqrt?
  by_cases hc1 : a.c1 = 0
  · rw [if_pos hc1]
    obtain ⟨plain, hplain⟩ : ∃ plain, Base.sqrt? a.c0 = plain := ⟨_, rfl⟩
    rw [hplain]
    cases plain with
    | some r =>
        refine ⟨_, rfl, ext ?_ ?_⟩
        · simp [Base.mul_self_of_sqrt? hplain]
        · simp [hc1]
    | none =>
        -- The first part of `y` is zero, since it would be a root otherwise.
        have hprod : y.c0 * y.c1 = 0 := by
          linear_combination half * hc1 - half * h1 - y.c0 * y.c1 * two_mul_half
        rcases mul_eq_zero.1 hprod with hzero | hzero
        · obtain ⟨r, hr⟩ := Base.exists_sqrt? y.c1
          have hneg : -a.c0 = y.c1 * y.c1 := by
            rw [h0, hzero]
            ring
          rw [hneg, hr]
          refine ⟨_, rfl, ext ?_ ?_⟩
          · simp [Base.mul_self_of_sqrt? hr, ← hneg]
          · simp [hc1]
        · obtain ⟨r, hr⟩ := Base.exists_sqrt? y.c0
          rw [h0, hzero, mul_zero, sub_zero, hr] at hplain
          cases hplain
  · rw [if_neg hc1]
    have hnorm : a.c0 * a.c0 + a.c1 * a.c1 =
        (y.c0 * y.c0 + y.c1 * y.c1) * (y.c0 * y.c0 + y.c1 * y.c1) := by
      rw [h0, h1]
      ring
    obtain ⟨n, hn⟩ := Base.exists_sqrt? (y.c0 * y.c0 + y.c1 * y.c1)
    rw [← hnorm] at hn
    have hsquare := Base.mul_self_of_sqrt? hn
    obtain ⟨first, hfirst, hcandidate⟩ := firstPart?_spec h0 (hsquare.trans hnorm)
    rw [hn, Option.bind_eq_bind, Option.bind_some, hfirst, Option.bind_some]
    rcases hcandidate with hcandidate | hcandidate
    · exact rootFrom?_spec hc1 hsquare hcandidate
    · exact rootFrom?_spec hc1 ((neg_mul_neg n n).trans hsquare) hcandidate

theorem mul_self_of_rootFrom? {a r : Quadratic} {first : Base} (h : rootFrom? a first = some r) :
    r * r = a := by
  unfold rootFrom? at h
  dsimp only at h
  split at h
  · rename_i hroot
    obtain rfl := Option.some.inj h
    exact hroot
  · cases h

/-- What is found is a root. -/
theorem mul_self_of_sqrt? {a r : Quadratic} (h : sqrt? a = some r) : r * r = a := by
  unfold sqrt? at h
  by_cases hc1 : a.c1 = 0
  · rw [if_pos hc1] at h
    rcases hplain : Base.sqrt? a.c0 with _ | first
    · rw [hplain, Option.map_none, Option.orElse_eq_or, Option.none_or, Option.map_eq_some_iff] at h
      obtain ⟨first, hfirst, rfl⟩ := h
      have hroot := Base.mul_self_of_sqrt? hfirst
      refine ext ?_ ?_
      · simp [hroot]
      · simp [hc1]
    · rw [hplain, Option.map_some, Option.orElse_eq_or, Option.some_or] at h
      obtain rfl := Option.some.inj h
      have hroot := Base.mul_self_of_sqrt? hplain
      refine ext ?_ ?_
      · simp [hroot]
      · simp [hc1]
  · rw [if_neg hc1] at h
    obtain ⟨n, -, h⟩ := Option.bind_eq_some_iff.1 h
    obtain ⟨first, -, h⟩ := Option.bind_eq_some_iff.1 h
    exact mul_self_of_rootFrom? h

end Quadratic
end PrivatePresentation
