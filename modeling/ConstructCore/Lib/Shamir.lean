import Mathlib.FieldTheory.Finiteness
import Mathlib.LinearAlgebra.Lagrange
import Mathlib.LinearAlgebra.FiniteDimensional.Lemmas

/-!
# Secret sharing by polynomials

Over any field. A secret is the value at zero of a polynomial whose other coefficients are
drawn; a share is its value at another point.

* `horner`: evaluation from the last coefficient, as a program does it;
* `sum_at_zero`: the Lagrange sum over distinct points gives the value at zero of every
  polynomial of lower degree;
* `card_consistent`: fewer values than drawn coefficients, at distinct points other than zero,
  are consistent with every secret, and with equally many draws.
-/

namespace Shamir

open Polynomial

variable {F : Type} [Field F]

/-! ## Horner's rule -/

/-- Evaluate from the last coefficient. -/
def horner (x : F) (coeffs : List F) : F := coeffs.foldr (fun c val => val * x + c) 0

/-- The polynomial with these coefficients, the constant one first. -/
noncomputable def poly (coeffs : List F) : F[X] := coeffs.foldr (fun c p => p * X + C c) 0

@[simp] theorem horner_nil (x : F) : horner x [] = 0 := rfl

@[simp] theorem horner_cons (x c : F) (coeffs : List F) :
    horner x (c :: coeffs) = horner x coeffs * x + c := rfl

theorem eval_poly (x : F) (coeffs : List F) : (poly coeffs).eval x = horner x coeffs := by
  induction coeffs with
  | nil => simp [poly]
  | cons c coeffs ih =>
    show (poly coeffs * X + C c).eval x = _
    rw [eval_add, eval_mul, eval_X, eval_C, ih, horner_cons]

theorem degree_poly_lt (coeffs : List F) : (poly coeffs).degree < coeffs.length := by
  rw [degree_lt_iff_coeff_zero]
  induction coeffs with
  | nil => simp [poly]
  | cons c coeffs ih =>
    intro m hm
    show (poly coeffs * X + C c).coeff m = 0
    cases m with
    | zero => simp at hm
    | succ m =>
      rw [coeff_add, coeff_mul_X, coeff_C_succ, add_zero]
      exact ih m (by simpa using hm)

/-! ## Interpolation at zero -/

section Interpolation

/-- The weight of a point among others in the value at zero. -/
def weightAtZero (x : F) (others : List F) : F :=
  (others.map fun y => 0 - y).prod / (others.map fun y => x - y).prod

theorem weightAtZero_eq_prod (x : F) (others : List F) :
    weightAtZero x others = (others.map fun y => (x - y)⁻¹ * (0 - y)).prod := by
  unfold weightAtZero
  induction others with
  | nil => simp
  | cons y others ih =>
    simp only [List.map_cons, List.prod_cons]
    rw [← ih, mul_div_mul_comm, div_eq_inv_mul (0 - y)]

variable [DecidableEq F]

theorem eval_basis_zero {xs : List F} (hnd : xs.Nodup) (x : F) :
    (Lagrange.basis xs.toFinset id x).eval 0 = weightAtZero x (xs.erase x) := by
  have herase : xs.toFinset.erase x = (xs.erase x).toFinset := by
    ext y
    simp [hnd.mem_erase_iff]
  unfold Lagrange.basis Lagrange.basisDivisor
  rw [weightAtZero_eq_prod, eval_prod, herase, List.prod_toFinset _ (hnd.erase x)]
  simp

/-- The Lagrange sum over distinct points, more than the degree, is the value at zero. -/
theorem sum_at_zero {xs : List F} (hnd : xs.Nodup) {p : F[X]} (hdeg : p.degree < xs.length) :
    (xs.map fun x => p.eval x * weightAtZero x (xs.erase x)).sum = p.eval 0 := by
  have hcard : xs.toFinset.card = xs.length := List.toFinset_card_of_nodup hnd
  have hp := Lagrange.eq_interpolate (s := xs.toFinset) (v := id) (f := p)
    (Set.injOn_id _) (by rw [hcard]; exact hdeg)
  rw [← List.sum_toFinset _ hnd]
  nth_rewrite 2 [hp]
  rw [Lagrange.interpolate_apply, eval_finsetSum]
  refine Finset.sum_congr rfl fun x _ => ?_
  rw [eval_mul, eval_C, eval_basis_zero hnd]
  rfl

end Interpolation

/-! ## Too few shares -/

section Counting

variable {n k : Nat}

theorem horner_ofFn (x s : F) (draw : Fin n → F) :
    horner x (s :: List.ofFn draw) = s + x * ∑ j, draw j * x ^ j.val := by
  have hsum : horner x (List.ofFn draw) = ∑ j, draw j * x ^ j.val := by
    clear s
    induction n with
    | zero => simp
    | succ n ih =>
      rw [List.ofFn_succ, horner_cons, ih, Fin.sum_univ_succ, Finset.sum_mul]
      simp only [Fin.val_zero, pow_zero, mul_one, Fin.val_succ, pow_succ, mul_assoc]
      rw [add_comm]
  rw [horner_cons, hsum]
  ring

/-- The values at the points, without the secret, as a linear function of the draws. -/
def values (xs : Fin k → F) : (Fin n → F) →ₗ[F] Fin k → F where
  toFun draw i := xs i * ∑ j, draw j * xs i ^ j.val
  map_add' c d := by
    funext i
    simp only [Pi.add_apply, add_mul, Finset.sum_add_distrib, mul_add]
  map_smul' r c := by
    funext i
    simp only [Pi.smul_apply, smul_eq_mul, RingHom.id_apply, mul_assoc, ← Finset.mul_sum]
    ring

/-- Every values at fewer points than there are draws, distinct and not zero, are met. -/
theorem values_surjective {xs : Fin k → F} (hinj : Function.Injective xs) (hne : ∀ i, xs i ≠ 0)
    (hk : k ≤ n) : Function.Surjective (values (n := n) xs) := by
  classical
  intro ys
  -- interpolate the values divided by their points
  let p := Lagrange.interpolate Finset.univ xs fun i => ys i / xs i
  have hdeg : p.degree < n := by
    refine (Lagrange.degree_interpolate_lt _ hinj.injOn).trans_le ?_
    simpa using hk
  refine ⟨fun j => p.coeff j, funext fun i => ?_⟩
  have heval : p.eval (xs i) = ys i / xs i :=
    Lagrange.eval_interpolate_at_node _ hinj.injOn (Finset.mem_univ i)
  have hsum : ∑ j : Fin n, p.coeff j * xs i ^ j.val = p.eval (xs i) := by
    rw [Fin.sum_univ_eq_sum_range (fun j => p.coeff j * xs i ^ j) n]
    by_cases hp : p = 0
    · simp [hp]
    · exact (eval_eq_sum_range' ((natDegree_lt_iff_degree_lt hp).mpr hdeg) _).symm
  show xs i * ∑ j : Fin n, p.coeff j * xs i ^ j.val = ys i
  rw [hsum, heval, mul_div_cancel₀ _ (hne i)]

/-- The draws under which a secret gives certain values at `k` points are as many as the draws
that `k` fewer coefficients have. -/
theorem card_consistent [Finite F] {xs : Fin k → F} (hinj : Function.Injective xs)
    (hne : ∀ i, xs i ≠ 0) (hk : k ≤ n) (s : F) (ys : Fin k → F) :
    Nat.card {draw : Fin n → F // ∀ i, horner (xs i) (s :: List.ofFn draw) = ys i} =
      Nat.card F ^ (n - k) := by
  obtain ⟨c₀, hc₀⟩ := values_surjective hinj hne hk fun i => ys i - s
  -- the consistent draws are a translate of the kernel
  have hmem : ∀ draw : Fin n → F, (∀ i, horner (xs i) (s :: List.ofFn draw) = ys i) ↔
      draw - c₀ ∈ LinearMap.ker (values (n := n) xs) := by
    intro draw
    rw [LinearMap.mem_ker, map_sub, hc₀, sub_eq_zero, funext_iff]
    refine forall_congr' fun i => ?_
    rw [horner_ofFn]
    exact ⟨fun h => eq_sub_of_add_eq' h, fun h => add_eq_of_eq_sub' h⟩
  have hequiv : {draw : Fin n → F // ∀ i, horner (xs i) (s :: List.ofFn draw) = ys i} ≃
      LinearMap.ker (values (n := n) xs) :=
    (Equiv.subRight c₀).subtypeEquiv hmem
  have hrank := LinearMap.finrank_range_add_finrank_ker (values (n := n) xs)
  rw [LinearMap.range_eq_top.mpr (values_surjective hinj hne hk), finrank_top,
    Module.finrank_fin_fun, Module.finrank_fin_fun] at hrank
  rw [Nat.card_congr hequiv, Module.natCard_eq_pow_finrank (K := F)]
  congr 1
  omega

end Counting

end Shamir
