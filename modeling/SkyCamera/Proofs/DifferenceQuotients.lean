import Mathlib.Algebra.Polynomial.Derivative
import Mathlib.Analysis.Calculus.Deriv.Polynomial
import Mathlib.Tactic.ComputeDegree
import Mathlib.Topology.Algebra.Module.ModuleTopology
import SkyCamera.LeastSquares.Model
import SkyCamera.Proofs.RealScalar

/-!
Derivatives by differences. A column of a Jacobian is computed from the values along its own
parameter and from its own step, whatever the other columns are. In exact arithmetic the forward
quotient is the derivative of a polynomial of degree one and the five-point quotient that of a
polynomial of degree four, for every step that is not zero.
-/
namespace SkyCamera

namespace Model

section Columns

variable {α : Type} [Scalar α] {m n : Nat}

def valuesAlong (model : Model α m n) (p : Vector α m) (j : Fin m) (x : α) : Vector α n :=
  model.values (model.constrain (p.set j x j.isLt))

theorem column_differenceColumns {steps : List α} {column : Fin m → α → Vector α n} {j : Fin m}
    {h : α} (hstep : steps[j.val]? = some h) :
    (differenceColumns steps column).transpose[j] = column j h := by
  rw [differenceColumns, Mat.transpose_transpose, getElem_fin, Vector.getElem_ofFn]
  simp only [Fin.eta, hstep]

variable (model : Model α m n) (p : Vector α m) {j : Fin m} {h : α}
  (hstep : (model.steps p)[j.val]? = some h)
include hstep

theorem column_forwardDifference :
    (model.forwardDifference p).transpose[j] =
      (model.valuesAlong p j (p[j] + h) - model.values p).map (· / h) :=
  column_differenceColumns hstep

theorem column_centralDifference :
    (model.centralDifference p).transpose[j] =
      fivePoint h (model.valuesAlong p j (p[j] + 2.0 * h)) (model.valuesAlong p j (p[j] + h))
        (model.valuesAlong p j (p[j] + -h)) (model.valuesAlong p j (p[j] + -(2.0 * h))) :=
  column_differenceColumns hstep

end Columns

section Own

variable {α : Type} [Scalar α] {m n : Nat}

/-- Two models that cannot be told apart by displacing parameter `j` of `p`. -/
structure AgreeAlong (model other : Model α m n) (p : Vector α m) (j : Fin m) : Prop where
  step_eq : (other.steps p)[j.val]? = (model.steps p)[j.val]?
  values_eq : other.values p = model.values p
  along_eq : ∀ x, other.valuesAlong p j x = model.valuesAlong p j x

/-- No column depends on the step of another, or on what the model does beside it. -/
theorem AgreeAlong.column_eq {model other : Model α m n} {p : Vector α m} {j : Fin m} {h : α}
    (hagree : model.AgreeAlong other p j) (hstep : (model.steps p)[j.val]? = some h) :
    (other.forwardDifference p).transpose[j] = (model.forwardDifference p).transpose[j] ∧
      (other.centralDifference p).transpose[j] = (model.centralDifference p).transpose[j] := by
  have hstep' := hagree.step_eq.trans hstep
  constructor
  · rw [column_forwardDifference other p hstep', column_forwardDifference model p hstep,
      hagree.along_eq, hagree.values_eq]
  · rw [column_centralDifference other p hstep', column_centralDifference model p hstep]
    simp only [hagree.along_eq]

end Own

section Polynomials

open Polynomial

theorem forwardQuotient_eval {q : ℝ[X]} (hq : q.natDegree ≤ 1) (x : ℝ) {h : ℝ} (hh : h ≠ 0) :
    (q.eval (x + h) - q.eval x) / h = q.derivative.eval x := by
  obtain ⟨a, b, rfl⟩ := exists_eq_X_add_C_of_natDegree_le_one hq
  simp only [eval_add, eval_mul, eval_C, eval_X, derivative_add, derivative_mul, derivative_C,
    derivative_X, eval_zero, eval_one]
  field_simp
  ring

/-- The five-point quotient is exact up to degree four: in the four displaced values the even terms
cancel, and the weights cancel the cubic one. -/
theorem fivePointQuotient_eval {q : ℝ[X]} (hq : q.natDegree ≤ 4) (x : ℝ) {h : ℝ} (hh : h ≠ 0) :
    (-q.eval (x + 2.0 * h) + q.eval (x + h) * 8.0 - q.eval (x + -h) * 8.0 +
      q.eval (x + -(2.0 * h))) / (12.0 * h) = q.derivative.eval x := by
  have height : (8.0 : ℝ) = 8 := by norm_num
  have htwelve : (12.0 : ℝ) = 12 := by norm_num
  rw [Scalar.two_real, height, htwelve, as_sum_range' q 5 (Nat.lt_succ_of_le hq)]
  simp only [Finset.sum_range_succ, Finset.sum_range_zero, eval_add, eval_monomial, eval_zero,
    derivative_add, derivative_monomial, derivative_zero]
  norm_num only
  field_simp
  ring

variable {m n : Nat} (model : Model ℝ m n) (p : Vector ℝ m) (j : Fin m)

def PolynomialAlong (d : Nat) : Prop :=
  ∀ i : Fin n, ∃ q : ℝ[X], q.natDegree ≤ d ∧ ∀ x, (model.valuesAlong p j x)[i] = q.eval x

variable {model p j}

theorem valuesAlong_self (hconstrain : model.constrain = id) :
    model.valuesAlong p j p[j] = model.values p := by
  rw [valuesAlong, hconstrain, id_eq, getElem_fin, Vector.set_getElem_self]

section Step

variable {h : ℝ} (hstep : (model.steps p)[j.val]? = some h) (hh : h ≠ 0) {i : Fin n} {q : ℝ[X]}
  (hvalue : ∀ x, (model.valuesAlong p j x)[i] = q.eval x)
include hstep hh hvalue

theorem forwardDifference_eq_derivative (hconstrain : model.constrain = id)
    (hq : q.natDegree ≤ 1) : (model.forwardDifference p)[i][j] = q.derivative.eval p[j] := by
  have hcolumn := congrArg (fun v : Vector ℝ n => v[i])
    (column_forwardDifference model p hstep)
  rw [← valuesAlong_self (j := j) hconstrain] at hcolumn
  simp only [getElem_fin, Mat.getElem_transpose, Vector.getElem_map, Vector.getElem_sub] at hcolumn
  simp only [getElem_fin] at hvalue ⊢
  rw [hcolumn, hvalue, hvalue, forwardQuotient_eval hq _ hh]

theorem centralDifference_eq_derivative (hq : q.natDegree ≤ 4) :
    (model.centralDifference p)[i][j] = q.derivative.eval p[j] := by
  have hcolumn := congrArg (fun v : Vector ℝ n => v[i])
    (column_centralDifference model p hstep)
  simp only [getElem_fin, fivePoint, Mat.getElem_transpose, Vector.getElem_map, Vector.getElem_add,
    Vector.getElem_sub, Vector.getElem_neg] at hcolumn
  simp only [getElem_fin] at hvalue ⊢
  rw [hcolumn, hvalue, hvalue, hvalue, hvalue, fivePointQuotient_eval hq _ hh]

end Step

variable (model p j) in
/-- What column `j` of the Jacobians by differences holds. -/
structure DifferencesExact : Prop where
  forward : model.PolynomialAlong p j 1 → ∀ i : Fin n,
    HasDerivAt (fun x => (model.valuesAlong p j x)[i]) (model.forwardDifference p)[i][j] p[j]
  central : model.PolynomialAlong p j 4 → ∀ i : Fin n,
    HasDerivAt (fun x => (model.valuesAlong p j x)[i]) (model.centralDifference p)[i][j] p[j]
  own : ∀ other : Model ℝ m n, model.AgreeAlong other p j →
    (other.forwardDifference p).transpose[j] = (model.forwardDifference p).transpose[j] ∧
      (other.centralDifference p).transpose[j] = (model.centralDifference p).transpose[j]

/-- In exact arithmetic column `j` of the Jacobian by forward differences is the derivative of
values of degree one in parameter `j`, and that by five-point differences the derivative of values
of degree four, for every step that is not zero and whatever the other columns are. -/
theorem differences_exact (hconstrain : model.constrain = id) {h : ℝ}
    (hstep : (model.steps p)[j.val]? = some h) (hh : h ≠ 0) : model.DifferencesExact p j where
  forward hpolynomial i := by
    obtain ⟨q, hq, hvalue⟩ := hpolynomial i
    rw [forwardDifference_eq_derivative hstep hh hvalue hconstrain hq, funext hvalue]
    exact q.hasDerivAt _
  central hpolynomial i := by
    obtain ⟨q, hq, hvalue⟩ := hpolynomial i
    rw [centralDifference_eq_derivative hstep hh hvalue hq, funext hvalue]
    exact q.hasDerivAt _
  own _ hagree := hagree.column_eq hstep

def bent (i j : Fin 2) : Model ℝ 2 2 where
  values p := #v[p[i] * p[j] ^ 4 - p[j], p[i] + p[j] ^ 3]
  steps _ := [1, -1]

theorem bent_polynomialAlong {i j : Fin 2} (hij : i ≠ j) (p : Vector ℝ 2) :
    (bent i j).PolynomialAlong p i 1 ∧ (bent i j).PolynomialAlong p j 4 := by
  obtain ⟨a, ha⟩ : ∃ a, a = p[i] := ⟨_, rfl⟩
  obtain ⟨b, hb⟩ : ∃ b, b = p[j] := ⟨_, rfl⟩
  have hi : i.val ≠ j.val := Fin.val_ne_of_ne hij
  have hfirst (x : ℝ) : (bent i j).valuesAlong p i x = #v[x * b ^ 4 - b, x + b ^ 3] := by
    simp [bent, valuesAlong, hb, hi]
  have hsecond (x : ℝ) : (bent i j).valuesAlong p j x = #v[a * x ^ 4 - x, a + x ^ 3] := by
    simp [bent, valuesAlong, ha, hi.symm]
  constructor <;> refine Fin.forall_fin_two.mpr ⟨?_, ?_⟩
  · refine ⟨C (b ^ 4) * X + C (-b), natDegree_linear_le, fun x => ?_⟩
    simp [hfirst]
    ring
  · refine ⟨C 1 * X + C (b ^ 3), natDegree_linear_le, fun x => ?_⟩
    simp [hfirst]
  · refine ⟨C a * X ^ 4 + C (-1) * X, by compute_degree, fun x => ?_⟩
    simp [hsecond]
    ring
  · refine ⟨X ^ 3 + C a, by compute_degree!, fun x => ?_⟩
    simp [hsecond]
    ring

theorem bent_differences :
    let model := bent 0 1
    model.constrain = id ∧ model.steps #v[1, -1] = [1, -1] ∧ (1 : ℝ) ≠ 0 ∧ (-1 : ℝ) ≠ 0 ∧
      model.PolynomialAlong #v[1, -1] 0 1 ∧ model.PolynomialAlong #v[1, -1] 1 4 ∧
      model.DifferencesExact #v[1, -1] 0 ∧ model.DifferencesExact #v[1, -1] 1 := by
  intro model
  have hsteps : model.steps #v[1, -1] = [1, -1] := rfl
  have hne : (-1 : ℝ) ≠ 0 := neg_ne_zero.mpr one_ne_zero
  have hfirst : (model.steps #v[1, -1])[(0 : Fin 2).val]? = some 1 := by rw [hsteps]; rfl
  have hsecond : (model.steps #v[1, -1])[(1 : Fin 2).val]? = some (-1) := by rw [hsteps]; rfl
  obtain ⟨hlinear, hquartic⟩ := bent_polynomialAlong (show (0 : Fin 2) ≠ 1 by decide) #v[1, -1]
  exact ⟨rfl, hsteps, one_ne_zero, hne, hlinear, hquartic,
    differences_exact rfl hfirst one_ne_zero, differences_exact rfl hsecond hne⟩

end Polynomials

end Model
end SkyCamera
