import Mathlib.LinearAlgebra.Matrix.PosDef
import SkyCamera.Proofs.AffineFit
import SkyCamera.Proofs.CovarianceForms

/-!
Fits under a covariance that is a multiple of another, in exact arithmetic. Normal equations and
`χ²` are divided by the factor, and from one and the same damping the two fits are one, step by
step. The first damping is a part of the normal matrix, though, and multiplies its diagonal once
more; so a fit under the multiple is the fit under the covariance itself with its first damping
divided by the factor. The floor of the diagonal has no scale, and must not be reached other than
at zero.
-/
namespace SkyCamera

open Matrix Linear

/-- Two covariances that data can be given, of which the second is `c` times the first. -/
structure DataCovariance.IsMultiple {n : Nat} (c : ℝ) (cov cov' : DataCovariance ℝ n) : Prop where
  pos : 0 < c
  isMade : cov.IsMade
  isMade' : cov'.IsMade
  matrix_eq : cov'.matrix = c • cov.matrix

section Over

variable {m n : Nat} (c : ℝ)

noncomputable def Point.over (pt : Point ℝ m n) : Point ℝ m n := { pt with chi2 := pt.chi2 / c }

noncomputable def NormalEquations.over (e : NormalEquations ℝ m) : NormalEquations ℝ m :=
  ⟨.ofFn fun i j => e.matrix[i][j] / c, e.gradient.map (· / c)⟩

noncomputable def Iterate.over (it : Iterate ℝ m n) : Iterate ℝ m n :=
  ⟨it.point.over c, it.equations.over c, it.damping⟩

noncomputable def Verdict.over : Verdict ℝ → Verdict ℝ
  | .singular => .singular
  | .accepted chi2 relativeChange => .accepted (chi2 / c) relativeChange
  | .rejected trialChi2 chi2 => .rejected (trialChi2 / c) (chi2 / c)

noncomputable def Attempt.over (a : Attempt ℝ) : Attempt ℝ := { a with verdict := a.verdict.over c }

noncomputable def Fit.over (fit : Fit ℝ m n) : Fit ℝ m n :=
  { fit with
    firstChi2 := fit.firstChi2 / c
    attempts := fit.attempts.map (·.over c)
    last := fit.last.over c }

theorem Point.isZero_over {c : ℝ} (hc : 0 < c) (pt : Point ℝ m n) :
    Scalar.IsZero (pt.over c).chi2 ↔ Scalar.IsZero pt.chi2 := by
  rw [Scalar.isZero_real_iff, Scalar.isZero_real_iff]
  exact div_eq_zero_iff.trans (or_iff_left hc.ne')

theorem Verdict.acceptedChi2_over (v : Verdict ℝ) :
    (v.over c).acceptedChi2 = v.acceptedChi2.map (· / c) := by
  cases v <;> rfl

theorem Attempt.accepted_over (a : Attempt ℝ) : (a.over c).accepted = a.accepted := by
  rw [accepted, accepted, Attempt.over, Verdict.acceptedChi2_over, Option.isSome_map]

theorem Fit.history_over (fit : Fit ℝ m n) : (fit.over c).history = fit.history.map (· / c) := by
  simp only [history, Fit.over, List.map_cons, List.filterMap_map, List.map_filterMap]
  refine congrArg _ (List.filterMap_congr fun a _ => ?_)
  exact a.verdict.acceptedChi2_over c

theorem Fit.iterations_over (fit : Fit ℝ m n) : (fit.over c).iterations = fit.iterations :=
  List.length_map _

namespace NormalEquations

theorem toMatrix_over (e : NormalEquations ℝ m) :
    (e.over c).matrix.toMatrix = c⁻¹ • e.matrix.toMatrix := by
  ext i j
  rw [NormalEquations.over, Mat.toMatrix_ofFn, Matrix.smul_apply, smul_eq_mul, ← div_eq_inv_mul]
  rfl

theorem coords_over (e : NormalEquations ℝ m) :
    coords (e.over c).gradient = c⁻¹ • coords e.gradient := by
  funext i
  simp [NormalEquations.over, coords, div_eq_inv_mul]

/-- Equations that come from a Jacobian: a parameter without curvature has no influence at all. -/
structure IsNormal (e : NormalEquations ℝ m) : Prop where
  posSemidef : e.matrix.toMatrix.PosSemidef
  row_eq_zero : ∀ k : Fin m, e.matrix.toMatrix k k = 0 →
    (∀ j, e.matrix.toMatrix k j = 0) ∧ coords e.gradient k = 0

/-- No diagonal entry lies between zero and the floor. -/
def IsClear (e : NormalEquations ℝ m) : Prop :=
  ∀ k : Fin m, e.matrix[k][k] = 0 ∨ dampingFloor ≤ e.matrix[k][k]

end NormalEquations

end Over

section Damped

variable {m : Nat} {c : ℝ} {e : NormalEquations ℝ m}

/-- What row `k` of the damped matrix is multiplied with when the equations are divided by `c`. -/
noncomputable def NormalEquations.rate (c : ℝ) (e : NormalEquations ℝ m) (k : Fin m) : ℝ :=
  if e.matrix.toMatrix k k = 0 then 1 else c⁻¹

variable (hc : 0 < c) (hnormal : e.IsNormal)

include hc in
theorem rate_pos (k : Fin m) : 0 < e.rate c k := by
  unfold NormalEquations.rate
  split
  · exact one_pos
  · exact inv_pos.mpr hc

section Normal

include hnormal

theorem entry_over (i j : Fin m) :
    (e.over c).matrix.toMatrix i j = e.rate c i * e.matrix.toMatrix i j := by
  rw [e.toMatrix_over, Matrix.smul_apply, smul_eq_mul, NormalEquations.rate]
  split
  next hzero => rw [(hnormal.row_eq_zero i hzero).1 j, mul_zero, mul_zero]
  next => rfl

theorem gradient_over (i : Fin m) :
    coords (e.over c).gradient i = e.rate c i * coords e.gradient i := by
  rw [e.coords_over, Pi.smul_apply, smul_eq_mul, NormalEquations.rate]
  split
  next hzero => rw [(hnormal.row_eq_zero i hzero).2, mul_zero, mul_zero]
  next => rfl

theorem isSymm_of_isNormal : e.matrix.toMatrix.IsSymm := by
  have h := hnormal.posSemidef.1
  rwa [IsHermitian, conjTranspose_eq_transpose_of_trivial] at h

end Normal

variable (hclear : e.IsClear) (hclear' : (e.over c).IsClear)

include hc hclear hclear' in
/-- Above the floor and at zero the floored diagonal scales as the diagonal does. -/
theorem atLeast_over (k : Fin m) :
    Scalar.atLeast dampingFloor ((e.over c).matrix.toMatrix k k) =
      e.rate c k * Scalar.atLeast dampingFloor (e.matrix.toMatrix k k) := by
  have hentry : (e.over c).matrix.toMatrix k k = c⁻¹ * e.matrix.toMatrix k k := by
    rw [e.toMatrix_over, Matrix.smul_apply, smul_eq_mul]
  by_cases hzero : e.matrix.toMatrix k k = 0
  · rw [hentry, NormalEquations.rate, if_pos hzero, hzero, mul_zero, one_mul]
  · have hne : (e.over c).matrix.toMatrix k k ≠ 0 := by
      rw [hentry]
      exact mul_ne_zero (inv_ne_zero hc.ne') hzero
    have hfloor : dampingFloor ≤ e.matrix.toMatrix k k := (hclear k).resolve_left hzero
    have hfloor' : dampingFloor ≤ (e.over c).matrix.toMatrix k k := (hclear' k).resolve_left hne
    rw [Scalar.atLeast, if_pos hfloor', Scalar.atLeast, if_pos hfloor, NormalEquations.rate,
      if_neg hzero, hentry]

include hc hnormal hclear hclear'

variable (damping : ℝ)

/-- A damped matrix is divided entry by entry, apart from rows that are zero throughout: these keep
the floor. -/
theorem damped_over (i j : Fin m) :
    (damped (e.over c).matrix damping).toMatrix i j =
      e.rate c i * (damped e.matrix damping).toMatrix i j := by
  rw [toMatrix_damped, toMatrix_damped, toMatrix_flooredDiagonal, toMatrix_flooredDiagonal,
    Matrix.add_apply, Matrix.add_apply, entry_over hnormal, Matrix.smul_apply, Matrix.smul_apply,
    smul_eq_mul, smul_eq_mul, mul_add]
  by_cases hij : i = j
  · subst hij
    rw [Matrix.diagonal_apply_eq, Matrix.diagonal_apply_eq, atLeast_over hc hclear hclear']
    ring
  · rw [Matrix.diagonal_apply_ne _ hij, Matrix.diagonal_apply_ne _ hij, mul_zero, mul_zero]

/-- Rows that are multiplied differently have nothing in common, so the damped matrix is that of the
same form in other units. -/
theorem posDef_damped_over :
    (damped (e.over c).matrix damping).toMatrix.PosDef ↔
      (damped e.matrix damping).toMatrix.PosDef := by
  let root : Matrix (Fin m) (Fin m) ℝ := Matrix.diagonal fun k => Real.sqrt (e.rate c k)
  have hsymm : (damped e.matrix damping).toMatrix.IsSymm :=
    isSymm_damped (isSymm_of_isNormal hnormal)
  have hsymm' : (damped (e.over c).matrix damping).toMatrix.IsSymm := by
    refine isSymm_damped ?_
    rw [e.toMatrix_over]
    exact (isSymm_of_isNormal hnormal).smul c⁻¹
  -- An entry is multiplied with the rate of its row, and by symmetry with that of its column.
  have hrates (i j : Fin m) : e.rate c i = e.rate c j ∨
      (damped e.matrix damping).toMatrix i j = 0 := by
    have hsame := hsymm'.apply i j
    rw [damped_over hc hnormal hclear hclear', damped_over hc hnormal hclear hclear',
      hsymm.apply i j] at hsame
    exact (mul_eq_mul_right_iff.mp hsame).imp_left Eq.symm
  have hform : (damped (e.over c).matrix damping).toMatrix =
      star root * (damped e.matrix damping).toMatrix * root := by
    ext i j
    have hroot : star root = root := by
      rw [star_eq_conjTranspose, diagonal_conjTranspose]
      rfl
    rw [damped_over hc hnormal hclear hclear', hroot, Matrix.mul_diagonal, Matrix.diagonal_mul]
    obtain hrate | hzero := hrates i j
    · rw [← hrate, mul_right_comm, Real.mul_self_sqrt (rate_pos hc i).le]
    · rw [hzero, mul_zero, mul_zero, zero_mul]
  have hunit : IsUnit root := by
    refine (Matrix.isUnit_iff_isUnit_det root).mpr ?_
    rw [Matrix.det_diagonal]
    exact (Finset.prod_pos fun k _ => Real.sqrt_pos.mpr (rate_pos hc k)).ne'.isUnit
  rw [hform]
  exact hunit.posDef_star_left_conjugate_iff

/-- Equations that are divided by a factor have the same damped solution. -/
theorem solveDamped_over :
    solveDamped (e.over c).matrix (e.over c).gradient damping =
      solveDamped e.matrix e.gradient damping := by
  have hiff := posDef_damped_over hc hnormal hclear hclear' damping
  by_cases hpos : (damped e.matrix damping).toMatrix.PosDef
  · obtain ⟨d, hd, hsolves⟩ := exists_solveDamped_of_posDef hpos e.gradient
    obtain ⟨d', hd', hsolves'⟩ :=
      exists_solveDamped_of_posDef (hiff.mpr hpos) (e.over c).gradient
    have hsame : (damped e.matrix damping).toMatrix *ᵥ coords d' = coords e.gradient := by
      funext i
      have hrow := congrFun hsolves' i
      have hsum : ((damped (e.over c).matrix damping).toMatrix *ᵥ coords d') i =
          e.rate c i * ((damped e.matrix damping).toMatrix *ᵥ coords d') i := by
        simp only [Matrix.mulVec, dotProduct, Finset.mul_sum,
          damped_over hc hnormal hclear hclear', mul_assoc]
      rw [hsum, gradient_over hnormal] at hrow
      exact mul_left_cancel₀ (rate_pos hc i).ne' hrow
    have hinjective := Matrix.mulVec_injective_of_isUnit hpos.isUnit
    rw [hd, hd', coords_injective (hinjective (hsame.trans hsolves.symm))]
  · have hsymm := isSymm_of_isNormal hnormal
    have hsymm' : (e.over c).matrix.toMatrix.IsSymm := by
      rw [e.toMatrix_over]
      exact hsymm.smul c⁻¹
    rw [solveDamped_eq_none hsymm hpos, solveDamped_eq_none hsymm' (mt hiff.mp hpos)]

end Damped

theorem Iterate.solveDamped_over {m n : Nat} {c : ℝ} {it : Iterate ℝ m n}
    (hnormal : it.equations.IsNormal) (hclear : it.equations.IsClear)
    (hclear' : (it.over c).equations.IsClear) (hc : 0 < c) :
    solveDamped (it.over c).equations.matrix (it.over c).equations.gradient (it.over c).damping =
      solveDamped it.equations.matrix it.equations.gradient it.damping :=
  SkyCamera.solveDamped_over hc hnormal hclear hclear' it.damping

namespace DataCovariance.IsMultiple

variable {n : Nat} {c : ℝ} {cov cov' : DataCovariance ℝ n} (h : cov.IsMultiple c cov')
include h

theorem weightMatrix_eq : cov'.weightMatrix = c⁻¹ • cov.weightMatrix := by
  obtain ⟨hpos, hweight⟩ := weightMatrix_of_isMade h.isMade
  have hdet : IsUnit cov.matrix.det := (Matrix.isUnit_iff_isUnit_det _).mp hpos.isUnit
  rw [(weightMatrix_of_isMade h.isMade').2, hweight, h.matrix_eq]
  refine Matrix.inv_eq_right_inv ?_
  rw [Matrix.smul_mul, Matrix.mul_smul, smul_smul, mul_inv_cancel₀ h.pos.ne', one_smul,
    Matrix.mul_nonsing_inv _ hdet]

theorem posDef_weightMatrix : cov.weightMatrix.PosDef := by
  obtain ⟨hpos, hweight⟩ := weightMatrix_of_isMade h.isMade
  rw [hweight]
  exact hpos.inv

theorem chi2_eq (r : Vector ℝ n) : cov'.chi2 r = cov.chi2 r / c := by
  rw [chi2_real, chi2_real, h.weightMatrix_eq, smul_mulVec, dotProduct_smul, smul_eq_mul,
    div_eq_inv_mul]

end DataCovariance.IsMultiple

namespace Problem

section Course

variable {α : Type} [Scalar α] {m n : Nat} (problem : Problem α m n)

/-- The iterates that at most `limit` further steps lead through, with the first and the last. -/
def iterates (ceiling : α) : Nat → Iterate α m n → List (Iterate α m n)
  | 0, it => [it]
  | limit + 1, it =>
    it :: match problem.attempt ceiling it with
      | (_, next, some _) => [next]
      | (_, next, none) => iterates ceiling limit next

def firstDampedBy (first : α → α) (start : Vector α m) : Iterate α m n :=
  let it := problem.firstIterate start
  { it with damping := first it.damping }

def fitDamped (first : α → α) (start : Vector α m) (maxIterations : Nat) : Fit α m n :=
  let it := problem.firstDampedBy first start
  let (attempts, last, status) :=
    if Scalar.IsZero it.point.chi2 then ([], it.point, .converged)
    else problem.iterate (problem.settings.maxDamping * it.damping) maxIterations it []
  ⟨it.point.chi2, it.damping, attempts, last, status, maxIterations⟩

theorem fitDamped_id (start : Vector α m) (limit : Nat) :
    problem.fitDamped id start limit = problem.fit start limit := rfl

def visited (first : α → α) (start : Vector α m) (maxIterations : Nat) : List (Iterate α m n) :=
  let it := problem.firstDampedBy first start
  if Scalar.IsZero it.point.chi2 then [it]
  else problem.iterates (problem.settings.maxDamping * it.damping) maxIterations it

section Equations

variable {problem} {P : NormalEquations α m → Prop}

/-- After a step the equations are those before it, or those at the trial. -/
theorem Step.equations {ceiling : α} {it next : Iterate α m n} {a : Attempt α}
    {status : Option FitStatus} (h : problem.Step ceiling it a next status)
    (htrial : ∀ trial, problem.trial? it = some trial → P (problem.equations trial))
    (hit : P it.equations) : P next.equations := by
  cases h with
  | singular => exact hit
  | accepted hmade => exact htrial _ hmade
  | converged => exact hit
  | settled => exact hit
  | rejected => exact hit

theorem forall_mem_visited_one (first : α → α) {start : Vector α m}
    (hstart : P (problem.equations (problem.point start)))
    (htrial : ∀ trial, problem.trial? (problem.firstDampedBy first start) = some trial →
      P (problem.equations trial)) :
    ∀ it ∈ problem.visited first start 1, P it.equations := by
  unfold visited
  dsimp only
  split
  · exact List.forall_mem_singleton.mpr hstart
  · generalize problem.settings.maxDamping * _ = ceiling
    have hstep := problem.step_attempt ceiling (problem.firstDampedBy first start)
    have hnext := hstep.equations htrial hstart
    rw [iterates]
    refine List.forall_mem_cons.mpr ⟨hstart, ?_⟩
    generalize problem.attempt ceiling _ = result at hnext
    obtain ⟨a, next, status⟩ := result
    cases status with
    | some status => exact List.forall_mem_singleton.mpr hnext
    | none => exact List.forall_mem_singleton.mpr hnext

variable (hpoint : ∀ pt, P (problem.equations pt))
include hpoint

/-- What holds of the equations at every point holds of those of every iterate. -/
theorem forall_mem_iterates (ceiling : α) (limit : Nat) {it : Iterate α m n}
    (hit : P it.equations) : ∀ it' ∈ problem.iterates ceiling limit it, P it'.equations := by
  induction limit generalizing it with
  | zero => exact List.forall_mem_singleton.mpr hit
  | succ limit ih =>
    have hstep := problem.step_attempt ceiling it
    rw [iterates]
    generalize problem.attempt ceiling it = result at hstep
    obtain ⟨a, next, status⟩ := result
    have hnext := hstep.equations (fun trial _ => hpoint trial) hit
    refine List.forall_mem_cons.mpr ⟨hit, ?_⟩
    cases status with
    | some status => exact List.forall_mem_singleton.mpr hnext
    | none => exact ih hnext

/-- What holds of the equations at the start and at every trial holds of all that a fit visits. -/
theorem forall_mem_visited (first : α → α) (start : Vector α m) (limit : Nat) :
    ∀ it ∈ problem.visited first start limit, P it.equations := by
  unfold visited
  dsimp only
  split
  · exact List.forall_mem_singleton.mpr (hpoint _)
  · exact forall_mem_iterates hpoint _ limit (hpoint _)

end Equations

/-- From the iterate after `i` attempts, the iterates are the rest of the sequence. -/
theorem iterates_iterateAfter (start : Vector α m) (limit i : Nat) {k : Nat} {status : FitStatus}
    (hends : problem.EndsAfter start (i + limit) k status) (hle : i ≤ k)
    (hhere : problem.statusAfter start i = none) :
    problem.iterates (problem.ceiling start) limit (problem.iterateAfter start i) =
      (List.range' i (k + 1 - i)).map (problem.iterateAfter start) := by
  induction limit generalizing i with
  | zero =>
    obtain rfl : k = i := Nat.le_antisymm hends.le_limit hle
    rw [iterates, Nat.add_sub_cancel_left]
    rfl
  | succ limit ih =>
    have hlt : i < k := by
      refine Nat.lt_of_le_of_ne hle ?_
      rintro rfl
      have := hends.at_limit hhere
      omega
    have hresult : problem.attempt (problem.ceiling start) (problem.iterateAfter start i) =
        (problem.attemptAfter start i, problem.iterateAfter start (i + 1),
          problem.statusAfter start (i + 1)) := rfl
    have hcount : k + 1 - i = k + 1 - (i + 1) + 1 := by omega
    rw [iterates, hresult, hcount, List.range'_succ, List.map_cons]
    refine congrArg _ ?_
    cases hstatus : problem.statusAfter start (i + 1) with
    | some status =>
      obtain rfl : k = i + 1 := by
        by_contra hne
        have hnone := hends.goes_on (i + 1) (by omega)
        rw [hstatus] at hnone
        cases hnone
      rw [Nat.add_sub_cancel_left]
      rfl
    | none =>
      refine ih (i + 1) ?_ hlt hstatus
      rwa [Nat.add_right_comm i 1 limit]

/-- With its own first damping a fit leads through the iterates of its sequence to where it ends. -/
theorem visited_id (start : Vector α m) (limit : Nat) :
    problem.visited id start limit =
      (List.range ((problem.fit start limit).iterations + 1)).map (problem.iterateAfter start) := by
  obtain ⟨-, -, ⟨hzero, hnone, -⟩ | ⟨hzero, hends⟩⟩ := problem.fit_course start limit
  · rw [hnone]
    exact if_pos hzero
  · have hends' : problem.EndsAfter start (0 + limit) (problem.fit start limit).iterations
        (problem.fit start limit).status := by rwa [Nat.zero_add]
    have hiterates := problem.iterates_iterateAfter start limit 0 hends' (Nat.zero_le _) rfl
    rw [Nat.sub_zero, ← List.range_eq_range'] at hiterates
    exact (if_neg hzero).trans hiterates

end Course

variable {m n : Nat} (problem : Problem ℝ m n)

def StaysClear (first : ℝ → ℝ) (start : Vector ℝ m) (limit : Nat) : Prop :=
  ∀ it ∈ problem.visited first start limit, it.equations.IsClear

/-- Where the floor has no part in a fit from `start` whose first damping is divided by `c`, and
none in the fit with the covariance `cov'`. -/
structure InRegime (c : ℝ) (problem : Problem ℝ m n) (cov' : DataCovariance ℝ n)
    (start : Vector ℝ m) (limit : Nat) : Prop where
  matrix_ne : (problem.firstIterate start).equations.matrix.toMatrix ≠ 0
  clear : problem.StaysClear (· / c) start limit
  clear' : (problem.withCovariance cov').StaysClear id start limit

/-- What two problems of which the first begins with its first damping divided by `c` have in common
when they are fitted from `start`. -/
structure SameCourse (c : ℝ) (problem problem' : Problem ℝ m n) (start : Vector ℝ m) (limit : Nat) :
    Prop where
  /-- Attempts, their dampings and what becomes of them are the same, as are parameters, values and
  status at the end; each `χ²` of the second is that of the first divided by `c`. -/
  fit_eq : problem'.fit start limit = (problem.fitDamped (· / c) start limit).over c
  visited_eq : problem'.visited id start limit =
    (problem.visited (· / c) start limit).map (·.over c)
  /-- The same trials are made, those that are rejected included. -/
  trial?_eq : ∀ it ∈ problem.visited (· / c) start limit,
    problem'.trial? (it.over c) = (problem.trial? it).map (·.over c)

/-- A weighted square: a zero on the diagonal makes its row and its part of the gradient zero. -/
theorem isNormal_equations (hweight : problem.covariance.weightMatrix.PosDef)
    (pt : Point ℝ m n) : (problem.equations pt).IsNormal := by
  refine ⟨problem.posSemidef_equations pt hweight, fun k hk => ?_⟩
  let x := (problem.model.jacobian pt.parameters).toMatrix
  have hform (j : Fin m) : (problem.equations pt).matrix.toMatrix k j =
      xᵀ k ⬝ᵥ problem.covariance.weightMatrix *ᵥ xᵀ j := by
    rw [problem.toMatrix_equations pt, Matrix.mul_apply']
    rfl
  have hcolumn : xᵀ k = 0 := by
    by_contra hne
    have hpos := hweight.dotProduct_mulVec_pos hne
    rw [star_trivial, ← hform, hk] at hpos
    exact lt_irrefl 0 hpos
  refine ⟨fun j => by rw [hform, hcolumn, zero_dotProduct], ?_⟩
  rw [problem.coords_gradient pt hweight]
  exact (congrArg (· ⬝ᵥ _) hcolumn).trans (zero_dotProduct _)

section Entries

variable {problem} {variance : ℝ}
  (hcov : problem.covariance = .diagonal (.replicate n variance)) (pt : Point ℝ m n)
include hcov

theorem diagonal_equations (k : Fin m) : (problem.equations pt).matrix.toMatrix k k =
    ∑ i, variance⁻¹ * (problem.model.jacobian pt.parameters).toMatrix i k ^ 2 := by
  have hweight : problem.covariance.weightMatrix = Matrix.diagonal fun _ => variance⁻¹ := by
    rw [hcov, DataCovariance.weightMatrix]
    simp
  rw [toMatrix_equations, hweight, Matrix.mul_apply]
  refine Finset.sum_congr rfl fun i _ => ?_
  rw [Matrix.transpose_apply, Matrix.diagonal_mul]
  ring

/-- With one variance, the floor is not noticed where no derivative lies between zero and one. -/
theorem isClear_of_jacobian {c : ℝ} (hc : 0 < c) (hfloor : dampingFloor ≤ variance⁻¹)
    (hfloor' : dampingFloor ≤ variance⁻¹ / c)
    (hentries : ∀ i k, (problem.model.jacobian pt.parameters).toMatrix i k = 0 ∨
      1 ≤ (problem.model.jacobian pt.parameters).toMatrix i k ^ 2) :
    (problem.equations pt).IsClear ∧ ((problem.equations pt).over c).IsClear := by
  have hinv : 0 ≤ variance⁻¹ := dampingFloor_pos.le.trans hfloor
  have hdiagonal (k : Fin m) : (problem.equations pt).matrix.toMatrix k k = 0 ∨
      variance⁻¹ ≤ (problem.equations pt).matrix.toMatrix k k := by
    rw [diagonal_equations hcov]
    by_cases hzero : ∀ i, (problem.model.jacobian pt.parameters).toMatrix i k = 0
    · refine Or.inl (Finset.sum_eq_zero fun i _ => ?_)
      rw [hzero i, sq, mul_zero, mul_zero]
    · push Not at hzero
      obtain ⟨i, hi⟩ := hzero
      have hentry := (hentries i k).resolve_left hi
      refine Or.inr ?_
      calc
        variance⁻¹ ≤ variance⁻¹ * (problem.model.jacobian pt.parameters).toMatrix i k ^ 2 :=
          le_mul_of_one_le_right hinv hentry
        _ ≤ ∑ i, variance⁻¹ * (problem.model.jacobian pt.parameters).toMatrix i k ^ 2 :=
          Finset.single_le_sum
            (f := fun i => variance⁻¹ * (problem.model.jacobian pt.parameters).toMatrix i k ^ 2)
            (fun i _ => mul_nonneg hinv (sq_nonneg _)) (Finset.mem_univ i)
  refine ⟨fun k => (hdiagonal k).imp_right hfloor.trans, fun k => ?_⟩
  have hentry : ((problem.equations pt).over c).matrix[k][k] =
      (problem.equations pt).matrix.toMatrix k k / c := Mat.getElem_ofFn ..
  rw [hentry]
  refine (hdiagonal k).imp (fun hzero => ?_) fun hle => ?_
  · rw [hzero, zero_div]
  · exact hfloor'.trans ((div_le_div_iff_of_pos_right hc).mpr hle)

theorem matrix_ne_zero_of_jacobian (hvariance : 0 < variance) {i : Fin n} {k : Fin m}
    (hentry : (problem.model.jacobian pt.parameters).toMatrix i k ≠ 0) :
    (problem.equations pt).matrix.toMatrix ≠ 0 := by
  intro hzero
  have hdiagonal := diagonal_equations hcov pt k
  have hpos : 0 < ∑ i, variance⁻¹ * (problem.model.jacobian pt.parameters).toMatrix i k ^ 2 :=
    Finset.sum_pos' (fun i _ => mul_nonneg (inv_pos.mpr hvariance).le (sq_nonneg _))
      ⟨i, Finset.mem_univ i, mul_pos (inv_pos.mpr hvariance) (sq_pos_of_ne_zero hentry)⟩
  rw [← hdiagonal, hzero] at hpos
  exact lt_irrefl 0 hpos

end Entries

section Scaled

variable {c : ℝ} {cov' : DataCovariance ℝ n} (h : problem.covariance.IsMultiple c cov')
include h

theorem point_over (p : Vector ℝ m) :
    (problem.withCovariance cov').point p = (problem.point p).over c :=
  congrArg (Point.mk _ _) (h.chi2_eq _)

/-- Matrix and gradient are divided by `c`, since the weights are. -/
theorem equations_over (pt : Point ℝ m n) :
    (problem.withCovariance cov').equations (pt.over c) = (problem.equations pt).over c := by
  have hweight := h.posDef_weightMatrix
  have hweight' : (problem.withCovariance cov').covariance.weightMatrix =
      c⁻¹ • problem.covariance.weightMatrix := h.weightMatrix_eq
  have hpos' : (problem.withCovariance cov').covariance.weightMatrix.PosDef := by
    rw [hweight']
    exact hweight.smul (inv_pos.mpr h.pos)
  have hmatrix : ((problem.withCovariance cov').equations (pt.over c)).matrix =
      ((problem.equations pt).over c).matrix := by
    apply Mat.toMatrix_injective
    rw [toMatrix_equations, hweight', NormalEquations.toMatrix_over, toMatrix_equations,
      Matrix.smul_mul, Matrix.mul_smul]
    rfl
  have hgradient : ((problem.withCovariance cov').equations (pt.over c)).gradient =
      ((problem.equations pt).over c).gradient := by
    apply coords_injective
    rw [coords_gradient _ _ hpos', hweight', NormalEquations.coords_over,
      coords_gradient _ _ hweight, smul_mulVec, mulVec_smul]
    rfl
  exact congrArg₂ NormalEquations.mk hmatrix hgradient

/-- Both sides of the test for a negligible gradient are divided by `c`. -/
theorem gradientNegligible_over (e : NormalEquations ℝ m) (chi2 : ℝ) :
    (problem.withCovariance cov').GradientNegligible (e.over c) (chi2 / c) ↔
      problem.GradientNegligible e chi2 := by
  have hpredicted : (Scalar.sum fun k : Fin m => if 0 < (e.over c).matrix[k][k] then
        (e.over c).gradient[k] * (e.over c).gradient[k] / (e.over c).matrix[k][k] else 0) =
      (Scalar.sum fun k : Fin m =>
        if 0 < e.matrix[k][k] then e.gradient[k] * e.gradient[k] / e.matrix[k][k] else 0) / c := by
    rw [Scalar.sum_real, Scalar.sum_real, Finset.sum_div]
    refine Finset.sum_congr rfl fun k _ => ?_
    have hdiagonal : (e.over c).matrix[k][k] = e.matrix[k][k] / c := Mat.getElem_ofFn ..
    have hgradient : (e.over c).gradient[k] = e.gradient[k] / c := Vector.getElem_map ..
    rw [hdiagonal, hgradient]
    by_cases hpos : 0 < e.matrix[k][k]
    · rw [if_pos (div_pos hpos h.pos), if_pos hpos]
      have hne := h.pos.ne'
      have hne' := hpos.ne'
      field_simp
    · rw [if_neg hpos, if_neg (fun hlt => hpos ((div_pos_iff_of_pos_right h.pos).mp hlt)), zero_div]
  have hdata : (problem.withCovariance cov').covariance.chi2
      (problem.data.map (· * problem.settings.stepTolerance)) =
        problem.covariance.chi2 (problem.data.map (· * problem.settings.stepTolerance)) / c :=
    h.chi2_eq _
  unfold GradientNegligible
  dsimp only
  rw [hpredicted]
  show _ ≤ problem.settings.stepTolerance * (chi2 / c) +
    (problem.withCovariance cov').covariance.chi2
      (problem.data.map (· * problem.settings.stepTolerance)) ↔ _
  rw [hdata, ← mul_div_assoc, ← add_div]
  exact div_le_div_iff_of_pos_right h.pos

variable {it : Iterate ℝ m n} (hnormal : it.equations.IsNormal) (hclear : it.equations.IsClear)
  (hclear' : (it.over c).equations.IsClear)
include hnormal hclear hclear'

theorem trial?_over :
    (problem.withCovariance cov').trial? (it.over c) = (problem.trial? it).map (·.over c) := by
  simp only [trial?, it.solveDamped_over hnormal hclear hclear' h.pos, Option.map_map]
  refine congrArg (Option.map · _) (funext fun step => ?_)
  exact problem.point_over h (it.point.parameters + step)

/-- From the same damping an attempt does the same under both covariances. -/
theorem attempt_over (ceiling : ℝ) :
    (problem.withCovariance cov').attempt ceiling (it.over c) =
      ((problem.attempt ceiling it).1.over c, (problem.attempt ceiling it).2.1.over c,
        (problem.attempt ceiling it).2.2) := by
  unfold attempt
  rw [it.solveDamped_over hnormal hclear hclear' h.pos]
  cases solveDamped it.equations.matrix it.equations.gradient it.damping with
  | none => rfl
  | some step =>
    have htrial : (problem.withCovariance cov').point ((it.over c).point.parameters + step) =
        (problem.point (it.point.parameters + step)).over c := problem.point_over h _
    dsimp only
    rw [htrial]
    generalize problem.point (it.point.parameters + step) = trial
    have himproves : (Scalar.IsFinite (trial.over c).chi2 ∧
        (trial.over c).chi2 < (it.over c).point.chi2) ↔
          Scalar.IsFinite trial.chi2 ∧ trial.chi2 < it.point.chi2 :=
      and_congr (iff_of_true (Scalar.isFinite_real _) (Scalar.isFinite_real _))
        (div_lt_div_iff_of_pos_right h.pos)
    have hchange : ((it.over c).point.chi2 - (trial.over c).chi2) / (it.over c).point.chi2 =
        (it.point.chi2 - trial.chi2) / it.point.chi2 := by
      show (it.point.chi2 / c - trial.chi2 / c) / (it.point.chi2 / c) = _
      rw [← sub_div, div_div_div_cancel_right₀ h.pos.ne']
    have hzero := trial.isZero_over h.pos
    have hgradient : (problem.withCovariance cov').GradientNegligible (it.over c).equations
        (it.over c).point.chi2 ↔ problem.GradientNegligible it.equations it.point.chi2 :=
      problem.gradientNegligible_over h it.equations it.point.chi2
    have hstep : (problem.withCovariance cov').StepNegligible (it.over c).point.parameters
        (trial.over c).parameters ↔
          problem.StepNegligible it.point.parameters trial.parameters := Iff.rfl
    have hequations := problem.equations_over h trial
    simp only [himproves, hchange, hzero, hgradient, hstep, hequations]
    by_cases hbetter : Scalar.IsFinite trial.chi2 ∧ trial.chi2 < it.point.chi2
    · simp only [if_pos hbetter]
      by_cases hlast : (it.point.chi2 - trial.chi2) / it.point.chi2 <
          problem.settings.exitTolerance ∨ Scalar.IsZero trial.chi2 ∨
            problem.StepNegligible it.point.parameters trial.parameters
      · simp only [if_pos hlast]
        exact if_pos hlast
      · simp only [if_neg hlast]
        exact if_neg hlast
    · simp only [if_neg hbetter]
      rfl

end Scaled

/-- The first damping is a multiple of the normal matrix, unless that is zero. -/
theorem firstDamping_over {c : ℝ} (hc : 0 < c) {e : NormalEquations ℝ m} (hnormal : e.IsNormal)
    (hne : e.matrix.toMatrix ≠ 0) :
    firstDamping (e.over c).matrix = firstDamping e.matrix / c := by
  have hnonneg (k : Fin m) : 0 ≤ e.matrix[k][k] := hnormal.posSemidef.diag_nonneg
  obtain ⟨k, hk⟩ : ∃ k : Fin m, e.matrix.toMatrix k k ≠ 0 := by
    by_contra hnone
    push Not at hnone
    exact hne (Matrix.ext fun i j => (hnormal.row_eq_zero i (hnone i)).1 j)
  have hcount : m ≠ 0 := (Fin.pos k).ne'
  have htrace : 0 < Scalar.sum fun k : Fin m => e.matrix[k][k] := by
    rw [Scalar.sum_real]
    exact Finset.sum_pos' (fun k _ => hnonneg k)
      ⟨k, Finset.mem_univ k, lt_of_le_of_ne (hnonneg k) (Ne.symm hk)⟩
  have htrace' : (Scalar.sum fun k : Fin m => (e.over c).matrix[k][k]) =
      (Scalar.sum fun k : Fin m => e.matrix[k][k]) / c := by
    rw [Scalar.sum_real, Scalar.sum_real, Finset.sum_div]
    exact Finset.sum_congr rfl fun k _ => Mat.getElem_ofFn ..
  have hmean : 0 < (Scalar.sum fun k : Fin m => e.matrix[k][k]) / (m : ℝ) :=
    div_pos htrace (Nat.cast_pos.mpr (Nat.pos_of_ne_zero hcount))
  have hmean' : (Scalar.sum fun k : Fin m => (e.over c).matrix[k][k]) / (m : ℝ) =
      (Scalar.sum fun k : Fin m => e.matrix[k][k]) / (m : ℝ) / c := by
    rw [htrace', div_right_comm]
  rw [firstDamping_of_pos hcount hmean' (div_pos hmean hc), firstDamping_of_pos hcount rfl hmean,
    mul_div_assoc]

section Run

variable {c : ℝ} {cov' : DataCovariance ℝ n} (h : problem.covariance.IsMultiple c cov')
include h

/-- Induction over the attempts: each of them does the same on both sides, the damping included. -/
theorem iterates_over (ceiling : ℝ) (limit : Nat) {it : Iterate ℝ m n}
    (hnormal : it.equations.IsNormal)
    (hclear : ∀ it' ∈ problem.iterates ceiling limit it, it'.equations.IsClear)
    (hclear' : ∀ it' ∈ (problem.withCovariance cov').iterates ceiling limit (it.over c),
      it'.equations.IsClear) :
    (problem.withCovariance cov').iterates ceiling limit (it.over c) =
        (problem.iterates ceiling limit it).map (·.over c) ∧
      ∀ tried, (problem.withCovariance cov').iterate ceiling limit (it.over c)
          (tried.map (·.over c)) =
        ((problem.iterate ceiling limit it tried).1.map (·.over c),
          (problem.iterate ceiling limit it tried).2.1.over c,
          (problem.iterate ceiling limit it tried).2.2) := by
  -- The second iterate is the first divided by `c`, with the same damping, and stays so.
  induction limit generalizing it with
  | zero =>
    refine ⟨rfl, fun tried => ?_⟩
    simp only [iterate, ← List.map_reverse]
    rfl
  | succ limit ih =>
    have hstep := problem.step_attempt ceiling it
    rw [iterates] at hclear hclear'
    obtain ⟨hhere, hrest⟩ := List.forall_mem_cons.mp hclear
    obtain ⟨hhere', hrest'⟩ := List.forall_mem_cons.mp hclear'
    have hattempt := problem.attempt_over h hnormal hhere hhere' ceiling
    rw [hattempt] at hrest'
    simp only [iterates, iterate, hattempt]
    generalize problem.attempt ceiling it = result at hstep hrest hrest'
    obtain ⟨a, next, status⟩ := result
    have hnext := hstep.equations
      (fun trial _ => problem.isNormal_equations h.posDef_weightMatrix trial) hnormal
    cases status with
    | some status =>
      refine ⟨rfl, fun tried => ?_⟩
      simp only [← List.map_cons, ← List.map_reverse]
      rfl
    | none =>
      obtain ⟨hiterates, hiterate⟩ := ih hnext hrest hrest'
      refine ⟨congrArg _ hiterates, fun tried => ?_⟩
      exact hiterate (a :: tried)

variable {start : Vector ℝ m} {limit : Nat}
  (hstart : (problem.firstIterate start).equations.matrix.toMatrix ≠ 0)
include hstart

/-- The scaled problem begins by itself with the first damping divided by `c`. -/
theorem firstDampedBy_over :
    (problem.withCovariance cov').firstDampedBy id start =
      (problem.firstDampedBy (· / c) start).over c := by
  have hpoint := problem.point_over h start
  have hequations : (problem.withCovariance cov').equations
      ((problem.withCovariance cov').point start) =
        (problem.firstIterate start).equations.over c := by
    rw [hpoint]
    exact problem.equations_over h (problem.point start)
  have hnormal := problem.isNormal_equations h.posDef_weightMatrix (problem.point start)
  have hdamping : firstDamping ((problem.withCovariance cov').equations
      ((problem.withCovariance cov').point start)).matrix =
        firstDamping (problem.firstIterate start).equations.matrix / c := by
    rw [hequations]
    exact firstDamping_over h.pos hnormal hstart
  have hfirst : (problem.withCovariance cov').firstDampedBy id start =
      ⟨(problem.withCovariance cov').point start,
        (problem.withCovariance cov').equations ((problem.withCovariance cov').point start),
        firstDamping ((problem.withCovariance cov').equations
          ((problem.withCovariance cov').point start)).matrix⟩ := rfl
  rw [hfirst, hdamping, hequations, hpoint]
  rfl

/-- Where the floor has no part at the start and at the first trial, it has none in a fit of one
step. -/
theorem inRegime_one
    (hclear : (problem.equations (problem.point start)).IsClear ∧
      ((problem.equations (problem.point start)).over c).IsClear)
    (htrial : ∀ trial, problem.trial? (problem.firstDampedBy (· / c) start) = some trial →
      (problem.equations trial).IsClear ∧ ((problem.equations trial).over c).IsClear) :
    problem.InRegime c cov' start 1 := by
  let it := problem.firstDampedBy (· / c) start
  have hnormal : it.equations.IsNormal :=
    problem.isNormal_equations h.posDef_weightMatrix (problem.point start)
  have hhere : it.equations.IsClear := hclear.1
  have hhere' : (it.over c).equations.IsClear := hclear.2
  refine ⟨hstart, ?_, ?_⟩
  · exact forall_mem_visited_one _ hclear.1 fun trial hmade => (htrial trial hmade).1
  · refine forall_mem_visited_one _ ?_ fun trial' hmade => ?_
    · rw [point_over problem h, equations_over problem h]
      exact hclear.2
    · -- The trial under the multiple is that under the covariance itself.
      rw [problem.firstDampedBy_over h hstart, problem.trial?_over h hnormal hhere hhere'] at hmade
      obtain ⟨trial, hfirst, rfl⟩ := Option.map_eq_some_iff.mp hmade
      rw [equations_over problem h]
      exact (htrial trial hfirst).2

omit hstart

/-- The fit under the multiple is the one under the covariance itself, from a first damping that is
divided by the factor. -/
theorem sameCourse_withCovariance (hregime : problem.InRegime c cov' start limit) :
    problem.SameCourse c (problem.withCovariance cov') start limit := by
  obtain ⟨hstart, hclear, hclear'⟩ := hregime
  have hfirst := problem.firstDampedBy_over h hstart
  have hnormal : (problem.firstDampedBy (· / c) start).equations.IsNormal :=
    problem.isNormal_equations h.posDef_weightMatrix (problem.point start)
  unfold StaysClear visited at hclear hclear'
  rw [hfirst] at hclear'
  generalize hit : problem.firstDampedBy (· / c) start = it at hfirst hnormal hclear hclear'
  have hzero : Scalar.IsZero (it.over c).point.chi2 ↔ Scalar.IsZero it.point.chi2 :=
    it.point.isZero_over h.pos
  have hceiling : (problem.withCovariance cov').settings.maxDamping * (it.over c).damping =
      problem.settings.maxDamping * it.damping := rfl
  have htrial {it' : Iterate ℝ m n} (hnormal' : it'.equations.IsNormal)
      (hhere : it'.equations.IsClear) (hhere' : (it'.over c).equations.IsClear) :=
    problem.trial?_over h hnormal' hhere hhere'
  -- From a `χ²` of zero neither fit makes an attempt.
  by_cases hdone : Scalar.IsZero it.point.chi2
  · simp only [if_pos hdone, if_pos (hzero.mpr hdone)] at hclear hclear'
    have hhere := List.forall_mem_singleton.mp hclear
    have hhere' := List.forall_mem_singleton.mp hclear'
    refine ⟨?_, ?_, ?_⟩
    · rw [← fitDamped_id]
      simp only [fitDamped, hfirst, hit, if_pos hdone, if_pos (hzero.mpr hdone)]
      rfl
    · simp only [visited, hfirst, hit, if_pos hdone, if_pos (hzero.mpr hdone)]
      rfl
    · simp only [visited, hit, if_pos hdone]
      exact List.forall_mem_singleton.mpr (htrial hnormal hhere hhere')
  · simp only [if_neg hdone, if_neg (mt hzero.mp hdone), hceiling] at hclear hclear'
    have hnormals := forall_mem_iterates (problem.isNormal_equations h.posDef_weightMatrix)
      (problem.settings.maxDamping * it.damping) limit hnormal
    obtain ⟨hiterates, hiterate⟩ := problem.iterates_over h
      (problem.settings.maxDamping * it.damping) limit hnormal hclear hclear'
    refine ⟨?_, ?_, fun it' hmem => ?_⟩
    · have hrun := hiterate []
      rw [List.map_nil] at hrun
      rw [← fitDamped_id]
      simp only [fitDamped, hfirst, hit, if_neg hdone, if_neg (mt hzero.mp hdone), hceiling, hrun]
      rfl
    · simp only [visited, hfirst, hit, if_neg hdone, if_neg (mt hzero.mp hdone), hceiling]
      exact hiterates
    · simp only [visited, hit, if_neg hdone] at hmem
      rw [hiterates] at hclear'
      exact htrial (hnormals it' hmem) (hclear it' hmem) (hclear' _ (List.mem_map_of_mem hmem))

end Run

end Problem
end SkyCamera
