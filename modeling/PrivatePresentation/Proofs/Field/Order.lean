import Mathlib
import PrivatePresentation.Field.Prime

/-!
The order of the groups of the curve and that of the field of coordinates are prime numbers, so
residues modulo them have inverses and no zero divisors.  A prime is recognized by a base whose powers
return to one as late as they can; the prime divisors of that period are recognized in the same way,
down to numbers small enough for trial division.
-/

namespace PrivatePresentation

theorem powerFrom_eq_pow {M : Type} [Monoid M] (fuel : Nat) (x : M) (n : Nat)
    (hn : n < 2 ^ fuel) : powerFrom fuel x n = x ^ n := by
  induction fuel generalizing x n with
  | zero =>
      have hzero : n = 0 := by simpa using hn
      simp [powerFrom, hzero]
  | succ fuel ih =>
      have hhalf : powerFrom fuel (x * x) (n / 2) = x ^ (2 * (n / 2)) := by
        rw [ih (x * x) (n / 2) (by omega), ← sq, ← pow_mul]
      by_cases hzero : n = 0
      · simp [powerFrom, hzero]
      · by_cases hodd : n % 2 = 1
        · have hsplit : 2 * (n / 2) + 1 = n := by omega
          simp only [powerFrom, hzero, hodd, ↓reduceIte, hhalf]
          rw [← pow_succ', hsplit]
        · have hsplit : 2 * (n / 2) = n := by omega
          simp only [powerFrom, hzero, hodd, ↓reduceIte, hhalf]
          rw [hsplit]

/-- Squaring and multiplying computes the power. -/
theorem power_eq_pow {M : Type} [Monoid M] (x : M) (n : Nat) : power x n = x ^ n :=
  powerFrom_eq_pow (n.log2 + 1) x n Nat.lt_log2_self

/-- A number that is taken for a prime, a base, and the divisors of the number before it. -/
structure PrimeCertificate where
  prime : ℕ
  base : ℕ
  factors : List ℕ

namespace PrimeCertificate

/-- The powers of the base return to one after `p - 1` steps and no sooner; that they do not return
sooner has to be seen only at the largest proper divisors of `p - 1`, whose divisors are known. -/
def Holds (known : List ℕ) (c : PrimeCertificate) : Prop :=
  c.factors.prod = c.prime - 1 ∧ (∀ q ∈ c.factors, q ∈ known) ∧
    power (c.base : ZMod c.prime) (c.prime - 1) = 1 ∧
    ∀ q ∈ c.factors, power (c.base : ZMod c.prime) ((c.prime - 1) / q) ≠ 1

instance (known : List ℕ) (c : PrimeCertificate) : Decidable (c.Holds known) :=
  inferInstanceAs (Decidable (_ ∧ _ ∧ _ ∧ _))

theorem Holds.isPrime {known : List ℕ} {c : PrimeCertificate} (h : c.Holds known)
    (hknown : ∀ q ∈ known, q.Prime) : c.prime.Prime := by
  obtain ⟨hprod, hfactors, hone, hne⟩ := h
  simp only [power_eq_pow] at hone hne
  apply lucas_primality c.prime c.base hone
  intro q hq hdvd
  rw [← hprod] at hdvd
  obtain ⟨r, hr, hqr⟩ := (Prime.dvd_prod_iff hq.prime).1 hdvd
  have heq : q = r := (Nat.prime_dvd_prime_iff_eq hq (hknown r (hfactors r hr))).1 hqr
  rw [heq]
  exact hne r hr

/-- Each certificate holds when what those before it are about is known. -/
def Chain : List ℕ → List PrimeCertificate → Prop
  | _, [] => True
  | known, c :: rest => c.Holds known ∧ Chain (c.prime :: known) rest

instance decidableChain : ∀ known cs, Decidable (Chain known cs)
  | _, [] => isTrue trivial
  | known, c :: rest =>
    have : Decidable (Chain (c.prime :: known) rest) := decidableChain _ rest
    inferInstanceAs (Decidable (_ ∧ _))

theorem Chain.isPrime {known : List ℕ} {cs : List PrimeCertificate} (h : Chain known cs)
    (hknown : ∀ q ∈ known, q.Prime) : ∀ c ∈ cs, c.prime.Prime := by
  induction cs generalizing known with
  | nil => exact fun _ hc => absurd hc List.not_mem_nil
  | cons c rest ih =>
      have hprime := h.1.isPrime hknown
      exact List.forall_mem_cons.2 ⟨hprime, ih h.2 (List.forall_mem_cons.2 ⟨hprime, hknown⟩)⟩

end PrimeCertificate

/-- Primes that trial division finds. -/
def smallPrimes : List ℕ :=
  [2, 3, 5, 7, 11, 13, 17, 19, 29, 41, 67, 73, 83, 89, 107, 109, 229, 311, 379, 661, 823, 853, 911,
    983, 1231, 1637, 3557, 3691, 4999, 11003, 13327, 93001, 237073, 327599, 1593227, 1853641]

theorem prime_of_smallPrimes : ∀ q ∈ smallPrimes, q.Prime := by
  simp only [smallPrimes, List.forall_mem_cons]
  norm_num

/-- How the order is recognized, from the divisors to the number itself. -/
def scalarCertificates : List PrimeCertificate :=
  [⟨12048837557, 2, [2, 2, 7, 7, 661, 93001]⟩,
    ⟨5156902474397, 2, [2, 2, 107, 12048837557]⟩,
    ⟨1670836401704629, 2, [2, 2, 3, 3, 3, 3, 5156902474397]⟩,
    ⟨639533339, 2, [2, 229, 853, 1637]⟩,
    ⟨65865678001877903, 5, [2, 83, 379, 1637, 639533339]⟩,
    ⟨13818364434197438864469338081, 3, [2, 2, 2, 2, 2, 5, 823, 1593227, 65865678001877903]⟩,
    ⟨405928799, 22, [2, 11, 3691, 4999]⟩,
    ⟨scalarOrder, 5, List.replicate 28 2 ++ [3, 3, 13, 29, 983, 11003, 237073, 405928799,
      1670836401704629, 13818364434197438864469338081]⟩]

/-- The order of the groups of the curve is prime. -/
theorem scalarOrder_prime : scalarOrder.Prime := by
  have hchain : PrimeCertificate.Chain smallPrimes scalarCertificates := by
    decide +kernel
  exact hchain.isPrime prime_of_smallPrimes _ (List.getLast_mem (List.cons_ne_nil _ _))

instance : Fact scalarOrder.Prime := ⟨scalarOrder_prime⟩

/-- How the order of the field of coordinates is recognized. -/
def baseCertificates : List PrimeCertificate :=
  [⟨4562087, 5, [2, 17, 109, 1231]⟩,
    ⟨173171039, 13, [2, 73, 89, 13327]⟩,
    ⟨1263766531, 10, [2, 3, 5, 13, 911, 3557]⟩,
    ⟨35385462869, 2, [2, 2, 7, 1263766531]⟩,
    ⟨2480874801745591, 6, [2, 3, 3, 5, 19, 41, 35385462869]⟩,
    ⟨13427688667394608761327070753331941386769, 17,
      [2, 2, 2, 2, 3, 7, 11, 1853641, 4562087, 173171039, 2480874801745591]⟩,
    ⟨405928799, 22, [2, 11, 3691, 4999]⟩,
    ⟨11465965001, 3, [2, 2, 2, 5, 5, 5, 5, 7, 327599]⟩,
    ⟨baseOrder, 3, [2, 3, 3, 13, 29, 67, 229, 311, 983, 11003, 405928799, 11465965001,
      13427688667394608761327070753331941386769]⟩]

/-- The order of the field of coordinates is prime. -/
theorem baseOrder_prime : baseOrder.Prime := by
  have hchain : PrimeCertificate.Chain smallPrimes baseCertificates := by
    decide +kernel
  exact hchain.isPrime prime_of_smallPrimes _ (List.getLast_mem (List.cons_ne_nil _ _))

instance : Fact baseOrder.Prime := ⟨baseOrder_prime⟩

section Residues

open scoped Fin.CommRing

variable {p : ℕ} [NeZero p]

/-- Modulo a prime, a product vanishes only with one of its factors. -/
theorem eq_zero_or_eq_zero_of_residue {a b : Fin p} (hp : p.Prime) (hab : a * b = 0) :
    a = 0 ∨ b = 0 := by
  have hval : a.val * b.val % p = 0 := by
    have := congrArg Fin.val hab
    rwa [Fin.val_mul] at this
  rcases hp.dvd_mul.1 (Nat.dvd_of_mod_eq_zero hval) with h | h
  · exact .inl (Fin.ext (Nat.eq_zero_of_dvd_of_lt h a.isLt))
  · exact .inr (Fin.ext (Nat.eq_zero_of_dvd_of_lt h b.isLt))

/-- Modulo a prime, the power before the prime of a residue that is not zero is one. -/
theorem pow_prime_sub_one {x : Fin p} (hp : p.Prime) (hx : x ≠ 0) : x ^ (p - 1) = 1 := by
  have : Fact p.Prime := ⟨hp⟩
  let e := ZMod.finEquiv p
  have hone : e x ^ (p - 1) = 1 := ZMod.pow_card_sub_one_eq_one ((map_ne_zero_iff e e.injective).2 hx)
  exact e.injective (by rw [map_pow, map_one, hone])

end Residues

end PrivatePresentation
