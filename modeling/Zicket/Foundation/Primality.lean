import Mathlib.NumberTheory.LucasPrimality

/-! Lucas's test for a number whose predecessor is given with its prime factorization. -/

namespace Zicket.Foundation

/-- A power of `a` is 1 first at `p - 1`: the divisors with a prime of the list left out fail. -/
theorem prime_of_factors {p : ℕ} (a : ZMod p) (factors : List (ℕ × ℕ))
    (product : (factors.map fun f => f.1 ^ f.2).prod = p - 1)
    (primes : ∀ f ∈ factors, f.1.Prime) (full : a ^ (p - 1) = 1)
    (proper : ∀ f ∈ factors, a ^ ((p - 1) / f.1) ≠ 1) : p.Prime := by
  refine lucas_primality p a full fun q prime divides => ?_
  rw [← product] at divides
  obtain ⟨power, mem, divides⟩ := (Prime.dvd_prod_iff prime.prime).mp divides
  obtain ⟨f, listed, rfl⟩ := List.mem_map.mp mem
  obtain rfl : q = f.1 :=
    (Nat.prime_dvd_prime_iff_eq prime (primes f listed)).mp (prime.dvd_of_dvd_pow divides)
  exact proper f listed

end Zicket.Foundation
