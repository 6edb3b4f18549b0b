import Mathlib
import PrivatePresentation.Decimal.Binary64
import PrivatePresentation.Proofs.Decimal.Digits

/-!
Doubles and rational numbers.  A decimal is read as the double nearest to it, of two at the same distance
the one with the even mantissa, and no other double is that.  So what a decimal is read as depends on
nothing but the number it stands for, and a double in the way is never passed.
-/

namespace PrivatePresentation

/-- The integer that a number becomes without its fractional part. -/
def towardZero (q : ℚ) : Int := if 0 ≤ q then ⌊q⌋ else ⌈q⌉

theorem towardZero_intCast (n : Int) : towardZero n = n := by
  simp [towardZero]

theorem towardZero_lt {q : ℚ} {n : Int} (hn : 0 < n) (hq : q < n) : towardZero q < n := by
  by_cases hpos : 0 ≤ q
  · rw [towardZero, if_pos hpos]
    exact Int.floor_lt.2 hq
  · have hzero : ⌈q⌉ ≤ 0 := Int.ceil_le.2 (by exact_mod_cast (not_le.1 hpos).le)
    rw [towardZero, if_neg hpos]
    omega

theorem towardZero_le {q : ℚ} {n : Int} (hn : 0 < n) (hq : q ≤ n) : towardZero q ≤ n := by
  by_cases hpos : 0 ≤ q
  · rw [towardZero, if_pos hpos]
    exact_mod_cast (Int.floor_le q).trans hq
  · have hzero : ⌈q⌉ ≤ 0 := Int.ceil_le.2 (by exact_mod_cast (not_le.1 hpos).le)
    rw [towardZero, if_neg hpos]
    omega

namespace Binary64

variable {x y z : Binary64} {q : ℚ} {e : Int}

/-- The number that a double stands for. -/
def toRat (x : Binary64) : ℚ := (if x.negative then -1 else 1) * (x.mantissa * 2 ^ x.exponent)

/-- The double of the other sign. -/
def neg (x : Binary64) : Binary64 := { x with negative := !x.negative }

@[simp]
theorem toRat_neg (x : Binary64) : x.neg.toRat = -x.toRat := by
  obtain ⟨negative, m, e⟩ := x
  cases negative <;> simp [toRat, neg]

theorem abs_toRat (x : Binary64) : |x.toRat| = x.mantissa * 2 ^ x.exponent := by
  have hpos : (0 : ℚ) ≤ x.mantissa * 2 ^ x.exponent := by positivity
  unfold toRat
  split <;> simp [abs_of_nonneg hpos]

section Truncation

theorem magnitude_eq (x : Binary64) :
    (x.magnitude.1 : ℚ) = x.mantissa * 2 ^ x.exponent * x.magnitude.2 := by
  unfold magnitude
  split
  · rename_i hpos
    obtain ⟨n, hn⟩ := Int.eq_ofNat_of_zero_le hpos
    simp [hn, Nat.shiftLeft_eq]
  · rename_i hneg
    obtain ⟨n, hn⟩ := Int.exists_eq_neg_ofNat (Int.not_le.1 hneg).le
    simp [hn, Nat.one_shiftLeft]

theorem magnitude_pos (x : Binary64) : 0 < x.magnitude.2 := by
  unfold magnitude
  split
  · exact Nat.one_pos
  · rw [Nat.one_shiftLeft]
    exact Nat.two_pow_pos _

theorem abs_toRat_eq_div (x : Binary64) : |x.toRat| = (x.magnitude.1 : ℚ) / x.magnitude.2 := by
  have hpos : (x.magnitude.2 : ℚ) ≠ 0 := by exact_mod_cast x.magnitude_pos.ne'
  rw [abs_toRat, magnitude_eq, mul_div_cancel_right₀ _ hpos]

theorem wholePart_eq_floor (x : Binary64) : (x.wholePart : Int) = ⌊|x.toRat|⌋ := by
  rw [abs_toRat_eq_div, Rat.floor_natCast_div_natCast]
  rfl

/-- Dropping the fractional part rounds toward zero. -/
theorem truncate_eq (x : Binary64) : x.truncate = towardZero x.toRat := by
  have hfloor := x.wholePart_eq_floor
  have hpos : (0 : ℚ) ≤ x.mantissa * 2 ^ x.exponent := by positivity
  rw [abs_toRat] at hfloor
  by_cases hneg : x.negative = true
  · rw [truncate, if_pos hneg, hfloor, toRat, if_pos hneg, neg_one_mul, ← Int.ceil_neg, towardZero]
    split
    · rename_i hzero
      have hnone : (x.mantissa * 2 ^ x.exponent : ℚ) = 0 := by linarith
      simp [hnone]
    · rfl
  · rw [truncate, if_neg hneg, hfloor, toRat, if_neg hneg, one_mul, towardZero, if_pos hpos]

/-- A double without a fractional part is the integer that it is truncated to. -/
theorem toRat_eq_truncate (hx : x.isWhole = true) : x.toRat = x.truncate := by
  have hwhole : x.magnitude.2 * x.wholePart = x.magnitude.1 :=
    Nat.mul_div_cancel' (Nat.dvd_of_mod_eq_zero (beq_iff_eq.1 hx))
  have hpos : (x.magnitude.2 : ℚ) ≠ 0 := by exact_mod_cast x.magnitude_pos.ne'
  have hvalue : (x.wholePart : ℚ) = x.mantissa * 2 ^ x.exponent := by
    have hcast : (x.magnitude.2 : ℚ) * x.wholePart = x.magnitude.1 := by exact_mod_cast hwhole
    rw [magnitude_eq, mul_comm] at hcast
    exact mul_right_cancel₀ hpos hcast
  rw [toRat, ← hvalue, truncate]
  split <;> simp

end Truncation

/-- The mantissa and the exponent are those of a finite double. -/
structure IsDouble (x : Binary64) : Prop where
  mantissa_lt : x.mantissa < 2 ^ 53
  minExponent_le : minExponent ≤ x.exponent
  le_maxExponent : x.exponent ≤ maxExponent

theorem IsDouble.neg (hx : x.IsDouble) : x.neg.IsDouble :=
  ⟨hx.mantissa_lt, hx.minExponent_le, hx.le_maxExponent⟩

/-- A number that is a double. -/
def Representable (q : ℚ) : Prop := ∃ x : Binary64, x.IsDouble ∧ x.toRat = q

theorem Representable.neg (hq : Representable q) : Representable (-q) := by
  obtain ⟨x, hx, rfl⟩ := hq
  exact ⟨x.neg, hx.neg, x.toRat_neg⟩

/-- An integer of 53 bits, doubled as often as there is room for, is a double. -/
theorem representable_mul_two_pow {n k : Nat} (hn : n < 2 ^ 53) (hk : k ≤ 971) :
    Representable (n * 2 ^ k) := by
  refine ⟨⟨false, n, k⟩, ⟨hn, ?_, ?_⟩, by simp [toRat]⟩
  · change minExponent ≤ k
    rw [minExponent]
    omega
  · change (k : Int) ≤ maxExponent
    rw [maxExponent]
    omega

theorem representable_zero : Representable 0 := by
  simpa using @representable_mul_two_pow 0 0 (by norm_num) (by norm_num)

/-- Every integer up to `2 ^ 53` is a double. -/
theorem representable_intCast {n : Int} (hn : n.natAbs ≤ 2 ^ 53) : Representable n := by
  have hnat (k : Nat) (hk : k ≤ 2 ^ 53) : Representable k := by
    rcases hk.lt_or_eq with hless | rfl
    · simpa using @representable_mul_two_pow k 0 hless (by norm_num)
    · have hpower := @representable_mul_two_pow 1 53 (by norm_num) (by norm_num)
      rw [Nat.cast_one, one_mul] at hpower
      rw [Nat.cast_pow, Nat.cast_two]
      exact hpower
  rcases Int.natAbs_eq n with h | h
  · rw [h, Int.cast_natCast]
    exact hnat _ hn
  · rw [h, Int.cast_neg, Int.cast_natCast]
    exact (hnat _ hn).neg

/-- The double nearest to a number: of two at the same distance, the one with the even mantissa. -/
structure Rounds (q : ℚ) (x : Binary64) : Prop where
  isDouble : x.IsDouble
  normal : 2 ^ 52 ≤ x.mantissa ∨ x.exponent = minExponent
  nearest : ∀ y : Binary64, y.IsDouble → |x.toRat - q| ≤ |y.toRat - q|
  even : ∀ y : Binary64, y.IsDouble → |y.toRat - q| = |x.toRat - q| → y.toRat ≠ x.toRat →
    x.mantissa % 2 = 0

namespace Rounds

theorem neg (hx : Rounds q x) : Rounds (-q) x.neg := by
  have hmirror (v : ℚ) : |v - -q| = |-v - q| := by
    rw [← abs_neg]
    congr 1
    ring
  refine ⟨hx.isDouble.neg, hx.normal, ?_, ?_⟩
  · intro y hy
    have hnearest := hx.nearest y.neg hy.neg
    rwa [toRat_neg, ← hmirror, ← neg_neg x.toRat, ← hmirror, ← toRat_neg] at hnearest
  · intro y hy hsame hne
    apply hx.even y.neg hy.neg
    · rwa [toRat_neg, ← hmirror, ← neg_neg x.toRat, ← hmirror, ← toRat_neg]
    · intro h
      apply hne
      rw [toRat_neg, ← h, toRat_neg, neg_neg]

/-- A number that is a double is read as it is. -/
theorem toRat_eq (hx : Rounds q x) (hq : Representable q) : x.toRat = q := by
  obtain ⟨y, hy, rfl⟩ := hq
  have hnearest := hx.nearest y hy
  rw [sub_self, abs_zero] at hnearest
  exact sub_eq_zero.1 (abs_nonpos_iff.1 hnearest)

/-- A double above a number is not passed. -/
theorem le_of_le {r : ℚ} (hx : Rounds q x) (hr : Representable r) (hq : q ≤ r) : x.toRat ≤ r := by
  obtain ⟨y, hy, rfl⟩ := hr
  by_contra hlt
  have hnearest := hx.nearest y hy
  rw [abs_of_nonneg (by linarith), abs_of_nonneg (by linarith)] at hnearest
  linarith

/-- A double below a number is not passed. -/
theorem le_of_ge {r : ℚ} (hx : Rounds q x) (hr : Representable r) (hq : r ≤ q) : r ≤ x.toRat := by
  have hmirror := hx.neg.le_of_le hr.neg (neg_le_neg hq)
  rw [toRat_neg] at hmirror
  exact neg_le_neg_iff.1 hmirror

end Rounds

section Grid

/-- The grid of `2 ^ e` is the one that a number is rounded on. -/
structure IsExponent (q : ℚ) (e : Int) : Prop where
  minExponent_le : minExponent ≤ e
  lt : q < 2 ^ (53 + e)
  normal : 2 ^ (52 + e) ≤ q ∨ e = minExponent

/-- A double with a lower exponent is below all that is rounded on a grid. -/
theorem IsDouble.abs_toRat_lt (hx : x.IsDouble) (hexp : x.exponent < e) :
    |x.toRat| < 2 ^ (52 + e) := by
  have hmantissa : (x.mantissa : ℚ) < 2 ^ (53 : Int) := by exact_mod_cast hx.mantissa_lt
  calc |x.toRat| = x.mantissa * 2 ^ x.exponent := x.abs_toRat
    _ < 2 ^ (53 : Int) * 2 ^ x.exponent := by gcongr
    _ = 2 ^ (53 + x.exponent) := (zpow_add₀ two_ne_zero _ _).symm
    _ ≤ 2 ^ (52 + e) := zpow_le_zpow_right₀ one_le_two (by omega)

theorem exists_mul_zpow (hexp : e ≤ x.exponent) : ∃ k : Int, x.toRat = k * 2 ^ e := by
  obtain ⟨n, hn⟩ := Int.le.dest hexp
  refine ⟨(if x.negative then -1 else 1) * (x.mantissa * 2 ^ n), ?_⟩
  rw [toRat, ← hn, zpow_add₀ two_ne_zero, zpow_natCast]
  push_cast
  split <;> ring

/-- The integer at most a half away is nearest, and it is the only one if it is nearer than that. -/
theorem abs_sub_le_of_half {m k : Int} {r : ℚ} (hm : |(m : ℚ) - r| ≤ 1 / 2) (hk : k ≠ m) :
    1 / 2 ≤ |(k : ℚ) - r| := by
  have hapart : (1 : ℚ) ≤ |(k : ℚ) - m| := by
    exact_mod_cast Int.one_le_abs (sub_ne_zero.2 hk)
  have htriangle := abs_sub_le (k : ℚ) r m
  rw [abs_sub_comm r] at htriangle
  linarith

theorem abs_mul_zpow_sub (k q : ℚ) (e : Int) :
    |k * 2 ^ e - q| = |k - q / 2 ^ e| * 2 ^ e := by
  have hpos : (0 : ℚ) < 2 ^ e := by positivity
  rw [← abs_of_pos hpos, ← abs_mul, abs_of_pos hpos, sub_mul, div_mul_cancel₀ _ hpos.ne']

/-- A point of the grid at most half a step away is as near as any double, and nearer than any other
unless it is half a step away. -/
theorem nearest_of_half {m : Nat} (he : IsExponent q e)
    (hm : |(m : ℚ) - q / 2 ^ e| ≤ 1 / 2) (hy : y.IsDouble) (hne : y.toRat ≠ m * 2 ^ e) :
    |(m : ℚ) * 2 ^ e - q| ≤ |y.toRat - q| ∧
      (|y.toRat - q| = |(m : ℚ) * 2 ^ e - q| → |(m : ℚ) - q / 2 ^ e| = 1 / 2) := by
  have hpos : (0 : ℚ) < 2 ^ e := by positivity
  have hgrid (k : Int) (hk : (k : ℚ) * 2 ^ e ≠ m * 2 ^ e) : 1 / 2 ≤ |(k : ℚ) - q / 2 ^ e| := by
    apply @abs_sub_le_of_half m k
    · exact_mod_cast hm
    · rintro rfl
      exact hk (by push_cast; rfl)
  by_cases hexp : e ≤ y.exponent
  · obtain ⟨k, hk⟩ := exists_mul_zpow hexp
    rw [hk] at hne ⊢
    have hfar := hgrid k hne
    rw [abs_mul_zpow_sub, abs_mul_zpow_sub]
    constructor
    · exact mul_le_mul_of_nonneg_right (hm.trans hfar) hpos.le
    · intro hsame
      have hdist := mul_right_cancel₀ hpos.ne' hsame
      exact le_antisymm hm (hdist ▸ hfar)
  · have hbelow := hy.abs_toRat_lt (not_le.1 hexp)
    have hlow : (2 : ℚ) ^ (52 + e) ≤ q := by
      apply he.normal.resolve_right
      rintro rfl
      exact hexp hy.minExponent_le
    have hbound : (2 : ℚ) ^ (52 + e) = ((2 ^ 52 : Int) : ℚ) * 2 ^ e := by
      rw [zpow_add₀ two_ne_zero]
      norm_num
    have hedge : |(2 : ℚ) ^ (52 + e) - q| < |y.toRat - q| := by
      have hy' := (abs_lt.1 hbelow).2
      rw [abs_of_nonpos (by linarith), abs_of_nonpos (by linarith)]
      linarith
    have hnear : |(m : ℚ) * 2 ^ e - q| ≤ |(2 : ℚ) ^ (52 + e) - q| := by
      by_cases hsame : ((2 ^ 52 : Int) : ℚ) * 2 ^ e = m * 2 ^ e
      · rw [hbound, hsame]
      · rw [hbound, abs_mul_zpow_sub, abs_mul_zpow_sub]
        exact mul_le_mul_of_nonneg_right (hm.trans (hgrid _ hsame)) hpos.le
    exact ⟨hnear.trans hedge.le, fun hsame => absurd hsame (hnear.trans_lt hedge).ne'⟩

/-- What is half a step away at most, and even if it is as much, is what a number is rounded to. -/
theorem rounds_of_half {m : Nat} (he : IsExponent q e)
    (hm : |(m : ℚ) - q / 2 ^ e| ≤ 1 / 2) (heven : |(m : ℚ) - q / 2 ^ e| = 1 / 2 → m % 2 = 0)
    (hx : x.IsDouble) (hvalue : x.toRat = m * 2 ^ e)
    (hnormal : 2 ^ 52 ≤ x.mantissa ∨ x.exponent = minExponent)
    (hparity : m % 2 = 0 → x.mantissa % 2 = 0) : Rounds q x := by
  refine ⟨hx, hnormal, ?_, ?_⟩
  · intro y hy
    by_cases hsame : y.toRat = x.toRat
    · rw [hsame]
    · rw [hvalue] at hsame ⊢
      exact (nearest_of_half he hm hy hsame).1
  · intro y hy hdist hne
    rw [hvalue] at hdist hne
    exact hparity (heven ((nearest_of_half he hm hy hne).2 hdist))

end Grid

section Quotient

variable {n d : Nat} {negative : Bool}

theorem scaled_spec (hd : 0 < d) (e : Int) :
    0 < (scaled n d e).2 ∧ ((scaled n d e).1 : ℚ) / (scaled n d e).2 = n / d / 2 ^ e := by
  have hd' : (d : ℚ) ≠ 0 := by exact_mod_cast hd.ne'
  unfold scaled
  split
  · rename_i hpos
    obtain ⟨k, rfl⟩ := Int.eq_ofNat_of_zero_le hpos
    refine ⟨by simp [Nat.shiftLeft_eq, hd], ?_⟩
    simp [Nat.shiftLeft_eq, div_div]
  · rename_i hneg
    obtain ⟨k, rfl⟩ := Int.exists_eq_neg_ofNat (not_le.1 hneg).le
    refine ⟨hd, ?_⟩
    simp [Nat.shiftLeft_eq, mul_div_right_comm]

/-- The quotient lies between two neighbouring powers of two, which the lengths tell. -/
theorem log2_bounds (hn : 0 < n) (hd : 0 < d) :
    (2 : ℚ) ^ ((Nat.log2 n : Int) - Nat.log2 d - 1) < n / d ∧
      (n : ℚ) / d < 2 ^ ((Nat.log2 n : Int) - Nat.log2 d + 1) := by
  have hd' : (0 : ℚ) < d := by exact_mod_cast hd
  have hnlow : (2 : ℚ) ^ (Nat.log2 n : Int) ≤ n := by
    exact_mod_cast Nat.log2_self_le hn.ne'
  have hnhigh : (n : ℚ) < 2 ^ ((Nat.log2 n : Int) + 1) := by
    exact_mod_cast @Nat.lt_log2_self n
  have hdlow : (2 : ℚ) ^ (Nat.log2 d : Int) ≤ d := by
    exact_mod_cast Nat.log2_self_le hd.ne'
  have hdhigh : (d : ℚ) < 2 ^ ((Nat.log2 d : Int) + 1) := by
    exact_mod_cast @Nat.lt_log2_self d
  constructor
  · rw [lt_div_iff₀ hd']
    calc (2 : ℚ) ^ ((Nat.log2 n : Int) - Nat.log2 d - 1) * d
        < 2 ^ ((Nat.log2 n : Int) - Nat.log2 d - 1) * 2 ^ ((Nat.log2 d : Int) + 1) := by gcongr
      _ = 2 ^ (Nat.log2 n : Int) := by
          rw [← zpow_add₀ two_ne_zero]
          congr 1
          ring
      _ ≤ n := hnlow
  · rw [div_lt_iff₀ hd']
    calc (n : ℚ) < 2 ^ ((Nat.log2 n : Int) + 1) := hnhigh
      _ = 2 ^ ((Nat.log2 n : Int) - Nat.log2 d + 1) * 2 ^ (Nat.log2 d : Int) := by
          rw [← zpow_add₀ two_ne_zero]
          congr 1
          ring
      _ ≤ 2 ^ ((Nat.log2 n : Int) - Nat.log2 d + 1) * d := by gcongr

theorem isExponent_exponentFor (hn : 0 < n) (hd : 0 < d) :
    IsExponent ((n : ℚ) / d) (exponentFor n d) := by
  obtain ⟨hlow, hhigh⟩ := log2_bounds hn hd
  obtain ⟨length, hlength⟩ : ∃ length : Int, length = (Nat.log2 n : Int) - Nat.log2 d := ⟨_, rfl⟩
  rw [← hlength] at hlow hhigh
  -- the guess is right or too great by one
  have htight : ∃ tight : Int, exponentFor n d = max tight minExponent ∧
      (n : ℚ) / d < 2 ^ (53 + tight) ∧ 2 ^ (52 + tight) ≤ (n : ℚ) / d := by
    obtain ⟨hpos, hscaled⟩ := @scaled_spec n d hd (length - 52)
    have hpos' : (0 : ℚ) < (scaled n d (length - 52)).2 := by exact_mod_cast hpos
    have htest : ((scaled n d (length - 52)).1 < (scaled n d (length - 52)).2 <<< 52) ↔
        (n : ℚ) / d < 2 ^ length := by
      have hsplit : (2 : ℚ) ^ length = 2 ^ 52 * 2 ^ (length - 52) := by
        rw [← zpow_natCast, ← zpow_add₀ two_ne_zero]
        congr 1
        push_cast
        ring
      rw [hsplit, ← div_lt_iff₀ (by positivity), ← hscaled, div_lt_iff₀ hpos', Nat.shiftLeft_eq,
        mul_comm]
      exact_mod_cast Iff.rfl
    by_cases hless : (n : ℚ) / d < 2 ^ length
    · refine ⟨length - 52 - 1, ?_, ?_, ?_⟩
      · simp [exponentFor, ← hlength, htest.2 hless]
      · rwa [show 53 + (length - 52 - 1) = length by ring]
      · rw [show 52 + (length - 52 - 1) = length - 1 by ring]
        exact hlow.le
    · refine ⟨length - 52, ?_, ?_, ?_⟩
      · simp [exponentFor, ← hlength, mt htest.1 hless]
      · rwa [show 53 + (length - 52) = length + 1 by ring]
      · rw [show 52 + (length - 52) = length by ring]
        exact not_lt.1 hless
  obtain ⟨tight, heq, hbelow, habove⟩ := htight
  rw [heq]
  by_cases hmin : minExponent ≤ tight
  · rw [max_eq_left hmin]
    exact ⟨hmin, hbelow, .inl habove⟩
  · rw [max_eq_right (not_le.1 hmin).le]
    refine ⟨le_rfl, hbelow.trans_le ?_, .inr rfl⟩
    exact zpow_le_zpow_right₀ one_le_two (by omega)

theorem roundHalfEven_spec {a b : Nat} (hb : 0 < b) :
    |(roundHalfEven a b : ℚ) - a / b| ≤ 1 / 2 ∧
      (|(roundHalfEven a b : ℚ) - a / b| = 1 / 2 → roundHalfEven a b % 2 = 0) := by
  have hb' : (0 : ℚ) < b := by exact_mod_cast hb
  have hdiv : (a : ℚ) / b = (a / b : Nat) + (a % b : Nat) / b := by
    field_simp
    exact_mod_cast (Nat.div_add_mod a b).symm
  have hless := Nat.mod_lt a hb
  unfold roundHalfEven
  rw [hdiv]
  generalize a / b = k, a % b = r at hless ⊢
  have hr : (0 : ℚ) ≤ r / b := by positivity
  have hr' : (r : ℚ) / b < 1 := by
    rw [div_lt_one hb']
    exact_mod_cast hless
  dsimp only
  split
  · rename_i hlow
    have hlow' : (r : ℚ) / b < 1 / 2 := by
      rw [div_lt_div_iff₀ hb' two_pos]
      exact_mod_cast (by omega : r * 2 < 1 * b)
    rw [sub_add_cancel_left, abs_neg, abs_of_nonneg hr]
    exact ⟨hlow'.le, fun h => absurd h hlow'.ne⟩
  · split
    · rename_i hhigh
      have hhigh' : 1 / 2 < (r : ℚ) / b := by
        rw [div_lt_div_iff₀ two_pos hb']
        exact_mod_cast (by omega : 1 * b < r * 2)
      have hdist : |((k + 1 : Nat) : ℚ) - (k + r / b)| = 1 - r / b := by
        rw [Nat.cast_add, Nat.cast_one, add_sub_add_left_eq_sub, abs_of_pos (by linarith)]
      rw [hdist]
      constructor
      · linarith
      · intro h
        linarith
    · have htie : (r : ℚ) / b = 1 / 2 := by
        rw [div_eq_div_iff hb'.ne' two_ne_zero]
        exact_mod_cast (by omega : r * 2 = 1 * b)
      have heven : (k + k % 2) % 2 = 0 := by omega
      refine ⟨?_, fun _ => heven⟩
      rw [htie]
      rcases Nat.mod_two_eq_zero_or_one k with hk | hk
      · rw [hk]
        norm_num
      · rw [hk]
        push_cast
        norm_num

theorem rounds_zero (hq : 0 ≤ q) (hsmall : 2 * q < 2 ^ minExponent) : Rounds q (zero false) := by
  have hvalue : (zero false).toRat = 0 := by simp [toRat, zero]
  have hfar (y : Binary64) (hy : y.IsDouble) (hne : y.toRat ≠ 0) : q < |y.toRat - q| := by
    have hone : (1 : ℚ) ≤ y.mantissa := by
      have hmantissa : y.mantissa ≠ 0 := by
        intro h
        apply hne
        simp [toRat, h]
      exact_mod_cast Nat.one_le_iff_ne_zero.2 hmantissa
    have hleast : (2 : ℚ) ^ minExponent ≤ |y.toRat| := by
      rw [abs_toRat]
      calc (2 : ℚ) ^ minExponent ≤ 2 ^ y.exponent := zpow_le_zpow_right₀ one_le_two hy.minExponent_le
        _ ≤ y.mantissa * 2 ^ y.exponent := le_mul_of_one_le_left (by positivity) hone
    have htriangle := abs_sub_abs_le_abs_sub y.toRat q
    rw [abs_of_nonneg hq] at htriangle
    linarith
  refine ⟨⟨by decide, by decide, by decide⟩, .inr rfl, ?_, ?_⟩
  · intro y hy
    rw [hvalue, zero_sub, abs_neg, abs_of_nonneg hq]
    by_cases hne : y.toRat = 0
    · rw [hne, zero_sub, abs_neg, abs_of_nonneg hq]
    · exact (hfar y hy hne).le
  · intro y hy hdist hne
    rfl

/-- The number of a sign and an absolute value. -/
def signed (negative : Bool) (q : ℚ) : ℚ := (if negative then -1 else 1) * q

/-- Numbers are rounded in the same way on both sides of zero. -/
theorem Rounds.signed {m : Nat} (hx : Rounds q ⟨false, m, e⟩) (negative : Bool) :
    Rounds (signed negative q) ⟨negative, m, e⟩ := by
  cases negative with
  | false =>
      rw [Binary64.signed, if_neg Bool.false_ne_true, one_mul]
      exact hx
  | true =>
      rw [Binary64.signed, if_pos rfl, neg_one_mul]
      exact hx.neg

/-- The whole number of steps on the grid that a quotient is rounded to. -/
def steps (n d : Nat) : Nat :=
  roundHalfEven (scaled n d (exponentFor n d)).1 (scaled n d (exponentFor n d)).2

/-- A rounded mantissa is kept, or it is halved if it has outgrown its 53 bits. -/
theorem ofQuotient_cases (hn : n ≠ 0) (h : ofQuotient negative n d = some x) :
    (steps n d = 2 ^ 53 ∧ exponentFor n d + 1 ≤ maxExponent ∧
        x = ⟨negative, 2 ^ 52, exponentFor n d + 1⟩) ∨
      steps n d ≠ 2 ^ 53 ∧ exponentFor n d ≤ maxExponent ∧
        x = if steps n d = 0 then zero negative else ⟨negative, steps n d, exponentFor n d⟩ := by
  simp only [ofQuotient, if_neg hn, Nat.one_shiftLeft] at h
  rw [← steps] at h
  by_cases hcarry : steps n d = 2 ^ 53
  · simp only [if_pos hcarry] at h
    left
    split_ifs at h with hover hzero
    · exact absurd hzero (by norm_num)
    · exact ⟨hcarry, not_lt.1 hover, (Option.some.inj h).symm⟩
  · simp only [if_neg hcarry] at h
    right
    refine ⟨hcarry, ?_⟩
    split_ifs at h with hover hzero
    · rw [if_pos hzero]
      exact ⟨not_lt.1 hover, (Option.some.inj h).symm⟩
    · rw [if_neg hzero]
      exact ⟨not_lt.1 hover, (Option.some.inj h).symm⟩

/-- The steps fit 53 bits, and they take up all of them unless the exponent is the least one. -/
theorem steps_bounds {m : Nat} (he : IsExponent q e) (hm : |(m : ℚ) - q / 2 ^ e| ≤ 1 / 2) :
    m ≤ 2 ^ 53 ∧ (2 ^ 52 ≤ m ∨ e = minExponent) := by
  have hzpow (k : Int) : (2 : ℚ) ^ (k + e) / 2 ^ e = 2 ^ k := by
    rw [zpow_add₀ two_ne_zero, mul_div_cancel_right₀ _ (by positivity)]
  obtain ⟨hlower, hupper⟩ := abs_le.1 hm
  constructor
  · have hquotient : q / 2 ^ e < 2 ^ (53 : Int) := by
      rw [← hzpow 53]
      exact div_lt_div_of_pos_right he.lt (by positivity)
    have hless : (m : ℚ) < 2 ^ 53 + 1 := by
      rw [zpow_ofNat] at hquotient
      linarith
    exact Nat.lt_succ_iff.1 (by exact_mod_cast hless)
  · refine he.normal.imp_left fun hnormal => ?_
    have hquotient : (2 : ℚ) ^ (52 : Int) ≤ q / 2 ^ e := by
      rw [← hzpow 52]
      exact div_le_div_of_nonneg_right hnormal (by positivity)
    have hless : (2 : ℚ) ^ 52 < m + 1 := by
      rw [zpow_ofNat] at hquotient
      linarith
    exact Nat.lt_succ_iff.1 (by exact_mod_cast hless)

/-- A quotient becomes the double nearest to it. -/
theorem rounds_of_ofQuotient (hd : 0 < d) (h : ofQuotient negative n d = some x) :
    Rounds (signed negative (n / d)) x := by
  by_cases hn : n = 0
  · rw [ofQuotient, if_pos hn] at h
    obtain rfl := Option.some.inj h
    subst hn
    rw [Nat.cast_zero, zero_div]
    exact (rounds_zero le_rfl (by rw [mul_zero]; positivity)).signed negative
  · have he := isExponent_exponentFor (Nat.pos_of_ne_zero hn) hd
    obtain ⟨hpos, hscaled⟩ := @scaled_spec n d hd (exponentFor n d)
    obtain ⟨hhalf, heven⟩ := @roundHalfEven_spec (scaled n d (exponentFor n d)).1 _ hpos
    rw [hscaled] at hhalf heven
    change |(steps n d : ℚ) - n / d / 2 ^ exponentFor n d| ≤ 1 / 2 at hhalf
    change |(steps n d : ℚ) - n / d / 2 ^ exponentFor n d| = 1 / 2 → steps n d % 2 = 0 at heven
    obtain ⟨hmost, hleast⟩ := steps_bounds he hhalf
    have hcases := ofQuotient_cases hn h
    generalize steps n d = m, exponentFor n d = e at *
    have hvalue (m : Nat) (e : Int) : toRat ⟨false, m, e⟩ = m * 2 ^ e := by simp [toRat]
    rcases hcases with ⟨hcarry, hover, rfl⟩ | ⟨hcarry, hover, rfl⟩
    · apply Rounds.signed
      refine rounds_of_half he hhalf heven ⟨?_, ?_, hover⟩ ?_ ?_ ?_
      · norm_num
      · exact he.minExponent_le.trans (Int.le_add_one le_rfl)
      · rw [hvalue, hcarry, zpow_add_one₀ two_ne_zero]
        push_cast
        ring
      · left
        norm_num
      · norm_num
    · by_cases hzero : m = 0
      · rw [if_pos hzero]
        obtain rfl := hleast.resolve_left (by omega)
        apply Rounds.signed
        refine rounds_of_half he hhalf heven ⟨by norm_num, le_rfl, by decide⟩ ?_ (.inr rfl) fun _ => rfl
        rw [hvalue, hzero]
      · rw [if_neg hzero]
        apply Rounds.signed
        have hless : m < 2 ^ 53 := lt_of_le_of_ne hmost hcarry
        exact rounds_of_half he hhalf heven ⟨hless, he.minExponent_le, hover⟩ (hvalue m e) hleast id

end Quotient

theorem lt_pow_length_toDigits (n : Nat) : n < 10 ^ (Nat.toDigits 10 n).length := by
  have hlt := Decimal.digitsValue_lt fun _ hc => Decimal.isDigit_of_mem_toDigits (n := n) hc
  rwa [Decimal.digitsValue_toDigits] at hlt

/-- A decimal is read as the double nearest to it. -/
theorem rounds_of_ofDecimal {negative : Bool} {digits : Nat} {exponent : Int}
    (h : ofDecimal negative digits exponent = some x) :
    Rounds (signed negative (digits * 10 ^ exponent)) x := by
  unfold ofDecimal at h
  dsimp only at h
  by_cases hzero : digits = 0
  · rw [if_pos hzero] at h
    obtain rfl := Option.some.inj h
    rw [hzero, Nat.cast_zero, zero_mul]
    exact (rounds_zero le_rfl (by rw [mul_zero]; positivity)).signed negative
  · rw [if_neg hzero] at h
    split_ifs at h with hlarge hsmall hexp
    · obtain rfl := Option.some.inj h
      have hdigits : (digits : ℚ) < 10 ^ (Nat.toDigits 10 digits).length := by
        exact_mod_cast lt_pow_length_toDigits digits
      have hbound : (digits : ℚ) * 10 ^ exponent ≤ 10 ^ (-331 : Int) := by
        calc (digits : ℚ) * 10 ^ exponent
            ≤ 10 ^ ((Nat.toDigits 10 digits).length : Int) * 10 ^ exponent := by
              rw [zpow_natCast]
              exact mul_le_mul_of_nonneg_right hdigits.le (by positivity)
          _ = 10 ^ (((Nat.toDigits 10 digits).length : Int) + exponent) :=
              (zpow_add₀ (by norm_num) _ _).symm
          _ ≤ 10 ^ (-331 : Int) := zpow_le_zpow_right₀ (by norm_num) (by omega)
      have htiny : 2 * (10 : ℚ) ^ (-331 : Int) < 2 ^ minExponent := by
        have hpowers : (2 : ℚ) * 2 ^ 1074 < 10 ^ 331 := by
          exact_mod_cast (by decide +kernel : 2 * 2 ^ 1074 < 10 ^ 331)
        change 2 * ((10 : ℚ) ^ 331)⁻¹ < (2 ^ 1074)⁻¹
        rw [← div_eq_mul_inv, div_lt_iff₀ (by positivity), ← div_eq_inv_mul, lt_div_iff₀ (by positivity)]
        exact hpowers
      exact (rounds_zero (by positivity) (by linarith)).signed negative
    · obtain ⟨k, rfl⟩ := Int.eq_ofNat_of_zero_le hexp
      have hrounds := rounds_of_ofQuotient Nat.one_pos h
      simpa using hrounds
    · obtain ⟨k, rfl⟩ := Int.exists_eq_neg_ofNat (not_le.1 hexp).le
      have hrounds := rounds_of_ofQuotient (by positivity) h
      simpa [div_eq_mul_inv] using hrounds

section Uniqueness

/-- No double lies between two that are nearest to a number. -/
theorem Rounds.le_of_lt (hx : Rounds q x) (hy : Rounds q y) (hz : z.IsDouble) (hxz : x.toRat < z.toRat) :
    y.toRat ≤ z.toRat := by
  by_contra hzy
  have hsame : |x.toRat - q| = |y.toRat - q| :=
    le_antisymm (hx.nearest y hy.isDouble) (hy.nearest x hx.isDouble)
  have hmiddle : q - x.toRat = y.toRat - q := by
    rcases abs_eq_abs.1 hsame with h | h <;> linarith
  have hnearest := hx.nearest z hz
  rw [abs_sub_comm, abs_of_nonneg (by linarith)] at hnearest
  rcases le_abs.1 hnearest with h | h <;> linarith

/-- A double that is no more than one step above another has a lower exponent or an odd mantissa. -/
theorem not_even_of_le_succ (hlow : x.mantissa * 2 ^ x.exponent < (y.mantissa * 2 ^ y.exponent : ℚ))
    (hhigh : (y.mantissa * 2 ^ y.exponent : ℚ) ≤ (x.mantissa + 1) * 2 ^ x.exponent)
    (hexp : x.exponent ≤ y.exponent) (hxeven : x.mantissa % 2 = 0) : y.mantissa % 2 ≠ 0 := by
  intro hyeven
  obtain ⟨k, hk⟩ := Int.le.dest hexp
  have hsteps : (y.mantissa * 2 ^ y.exponent : ℚ) = (y.mantissa * 2 ^ k : Nat) * 2 ^ x.exponent := by
    rw [← hk, zpow_add₀ two_ne_zero, zpow_natCast]
    push_cast
    ring
  have hscale : (0 : ℚ) < 2 ^ x.exponent := by positivity
  rw [hsteps, mul_le_mul_iff_of_pos_right hscale] at hhigh
  rw [hsteps, mul_lt_mul_iff_of_pos_right hscale] at hlow
  have hhigh : y.mantissa * 2 ^ k ≤ x.mantissa + 1 := by exact_mod_cast hhigh
  have hlow : x.mantissa < y.mantissa * 2 ^ k := by exact_mod_cast hlow
  have heven : y.mantissa * 2 ^ k % 2 = 0 := by rw [Nat.mul_mod, hyeven, zero_mul, Nat.zero_mod]
  omega

/-- Of two doubles above zero that are nearest to a number, the lower one is the upper one. -/
theorem Rounds.not_lt_of_nonneg (hx : Rounds q x) (hy : Rounds q y) (hpos : 0 ≤ x.toRat) :
    ¬x.toRat < y.toRat := by
  intro hlt
  have hsame : |x.toRat - q| = |y.toRat - q| :=
    le_antisymm (hx.nearest y hy.isDouble) (hy.nearest x hx.isDouble)
  have hvalue : x.toRat = x.mantissa * 2 ^ x.exponent := by rw [← abs_toRat, abs_of_nonneg hpos]
  have hvalue' : y.toRat = y.mantissa * 2 ^ y.exponent := by
    rw [← abs_toRat, abs_of_nonneg (hpos.trans hlt.le)]
  have hxeven := hx.even y hy.isDouble hsame.symm hlt.ne'
  by_cases hexp : x.exponent ≤ y.exponent
  · -- the double after `x` has an odd mantissa at the exponent of `x`
    have hnext : y.toRat ≤ (x.mantissa + 1) * 2 ^ x.exponent := by
      have hmantissa := hx.isDouble.mantissa_lt
      have hz : toRat ⟨false, x.mantissa + 1, x.exponent⟩ = (x.mantissa + 1) * 2 ^ x.exponent := by
        simp [toRat]
      rw [← hz]
      apply hx.le_of_lt hy
      · exact ⟨by dsimp only; omega, hx.isDouble.minExponent_le, hx.isDouble.le_maxExponent⟩
      · rw [hz, hvalue]
        gcongr
        exact lt_add_one _
    have hyeven := hy.even x hx.isDouble hsame hlt.ne
    rw [hvalue'] at hnext
    rw [hvalue, hvalue'] at hlt
    exact not_even_of_le_succ hlt hnext hexp hxeven hyeven
  · have hnormal : (2 : ℚ) ^ (52 : Int) ≤ x.mantissa := by
      have hmin := hy.isDouble.minExponent_le
      exact_mod_cast hx.normal.resolve_right (by omega)
    have hlarge : (2 : ℚ) ^ (52 + x.exponent) ≤ x.toRat := by
      rw [hvalue, zpow_add₀ two_ne_zero]
      gcongr
    have hsmall := hy.isDouble.abs_toRat_lt (not_le.1 hexp)
    rw [abs_of_nonneg (hpos.trans hlt.le)] at hsmall
    linarith

/-- A number is rounded to one double only. -/
theorem Rounds.unique (hx : Rounds q x) (hy : Rounds q y) : x.toRat = y.toRat := by
  have hle {q : ℚ} {x y : Binary64} (hx : Rounds q x) (hy : Rounds q y) : ¬x.toRat < y.toRat := by
    intro hlt
    by_cases hpos : 0 ≤ x.toRat
    · exact hx.not_lt_of_nonneg hy hpos hlt
    · by_cases hneg : y.toRat ≤ 0
      · apply hy.neg.not_lt_of_nonneg hx.neg
        · rw [toRat_neg]
          exact neg_nonneg.2 hneg
        · rw [toRat_neg, toRat_neg]
          exact neg_lt_neg hlt
      · rcases le_total q 0 with hq | hq
        · exact hneg (hy.le_of_le representable_zero hq)
        · exact hpos (hx.le_of_ge representable_zero hq)
  exact le_antisymm (not_lt.1 (hle hy hx)) (not_lt.1 (hle hx hy))

end Uniqueness

end Binary64
end PrivatePresentation
