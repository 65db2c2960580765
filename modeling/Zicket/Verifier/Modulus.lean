import Mathlib.Tactic.NormNum.Prime
import Mathlib.Tactic.ReduceModChar
import Zicket.Foundation.Primality
import Zicket.Verifier.Contract

/-! The order of the scalar field is prime, so its residues are a field. Each prime below has the
factors of its predecessor certified before it. -/

namespace Zicket.Verifier

open Foundation

theorem prime_405928799 : Nat.Prime 405928799 := by
  refine prime_of_factors 22 [(2, 1), (11, 1), (3691, 1), (4999, 1)] (by norm_num) ?_
    (by reduce_mod_char) ?_
  · simp only [List.forall_mem_cons]
    norm_num
  · simp only [List.forall_mem_cons]
    norm_num
    refine ⟨?_, ?_, ?_, ?_⟩ <;> reduce_mod_char <;> decide

theorem prime_12048837557 : Nat.Prime 12048837557 := by
  refine prime_of_factors 2 [(2, 2), (7, 2), (661, 1), (93001, 1)] (by norm_num) ?_
    (by reduce_mod_char) ?_
  · simp only [List.forall_mem_cons]
    norm_num
  · simp only [List.forall_mem_cons]
    norm_num
    refine ⟨?_, ?_, ?_, ?_⟩ <;> reduce_mod_char <;> decide

theorem prime_5156902474397 : Nat.Prime 5156902474397 := by
  refine prime_of_factors 2 [(2, 2), (107, 1), (12048837557, 1)] (by norm_num) ?_
    (by reduce_mod_char) ?_
  · simp only [List.forall_mem_cons, prime_12048837557]
    norm_num
  · simp only [List.forall_mem_cons]
    norm_num
    refine ⟨?_, ?_, ?_⟩ <;> reduce_mod_char <;> decide

theorem prime_1670836401704629 : Nat.Prime 1670836401704629 := by
  refine prime_of_factors 2 [(2, 2), (3, 4), (5156902474397, 1)] (by norm_num) ?_
    (by reduce_mod_char) ?_
  · simp only [List.forall_mem_cons, prime_5156902474397]
    norm_num
  · simp only [List.forall_mem_cons]
    norm_num
    refine ⟨?_, ?_, ?_⟩ <;> reduce_mod_char <;> decide

theorem prime_1593227 : Nat.Prime 1593227 := by norm_num

theorem prime_639533339 : Nat.Prime 639533339 := by
  refine prime_of_factors 2 [(2, 1), (229, 1), (853, 1), (1637, 1)] (by norm_num) ?_
    (by reduce_mod_char) ?_
  · simp only [List.forall_mem_cons]
    norm_num
  · simp only [List.forall_mem_cons]
    norm_num
    refine ⟨?_, ?_, ?_, ?_⟩ <;> reduce_mod_char <;> decide

theorem prime_65865678001877903 : Nat.Prime 65865678001877903 := by
  refine prime_of_factors 5 [(2, 1), (83, 1), (379, 1), (1637, 1), (639533339, 1)] (by norm_num)
    ?_ (by reduce_mod_char) ?_
  · simp only [List.forall_mem_cons, prime_639533339]
    norm_num
  · simp only [List.forall_mem_cons]
    norm_num
    refine ⟨?_, ?_, ?_, ?_, ?_⟩ <;> reduce_mod_char <;> decide

theorem prime_13818364434197438864469338081 : Nat.Prime 13818364434197438864469338081 := by
  refine prime_of_factors 3 [(2, 5), (5, 1), (823, 1), (1593227, 1), (65865678001877903, 1)]
    (by norm_num) ?_ (by reduce_mod_char) ?_
  · simp only [List.forall_mem_cons, prime_1593227, prime_65865678001877903]
    norm_num
  · simp only [List.forall_mem_cons]
    norm_num
    refine ⟨?_, ?_, ?_, ?_, ?_⟩ <;> reduce_mod_char <;> decide

theorem modulus_prime : modulus.Prime := by
  unfold modulus
  refine prime_of_factors 5 [(2, 28), (3, 2), (13, 1), (29, 1), (983, 1), (11003, 1), (237073, 1),
    (405928799, 1), (1670836401704629, 1), (13818364434197438864469338081, 1)] (by norm_num) ?_
    (by reduce_mod_char) ?_
  · simp only [List.forall_mem_cons, prime_405928799, prime_1670836401704629,
      prime_13818364434197438864469338081]
    norm_num
  · simp only [List.forall_mem_cons]
    norm_num
    refine ⟨?_, ?_, ?_, ?_, ?_, ?_, ?_, ?_, ?_, ?_⟩ <;> reduce_mod_char <;> decide

instance : Fact modulus.Prime := ⟨modulus_prime⟩

end Zicket.Verifier
