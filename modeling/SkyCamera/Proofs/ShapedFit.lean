import SkyCamera.LeastSquares.Weighting
import SkyCamera.Proofs.ConstrainedFit

/-!
A fit whose data, parameters and covariance are of any size, as in a program that learns of a size
only where it is used. An operation gives nothing where the shapes of its arguments do not fit. If
a fit is given sizes that are those of the model, no operation of it is such, and it is the fit on
vectors and matrices of these sizes.
-/
namespace SkyCamera

namespace Table

variable {α : Type}

def zip? (f : α → α → α) (u v : List α) : Option (List α) :=
  if u.length = v.length then some (List.zipWith f u v) else none

def transpose (t : Table α) : Table α := ofMat t.entries.transpose

def vector (v : List α) : Vector α v.length := ⟨v.toArray, rfl⟩

variable [Scalar α]

def mul? (t u : Table α) : Option (Table α) :=
  if h : u.rows = t.columns then some (ofMat (t.entries.mul (h ▸ u.entries))) else none

def mulVec? (t : Table α) (v : List α) : Option (List α) := do
  return (t.entries.mulVec (← fitted? t.columns v)).toList

def length (v : List α) : α := Linear.norm (vector v)

def scale (t : Table α) (x : α) : Table α := ofMat (t.entries.scale x)

def pseudoInverse? [Linear.HasPseudoInverse α] (t : Table α) :
    Option (Except Linear.MatrixFault (Table α)) :=
  t.square?.map fun a => (Linear.pseudoInverse a).map ofMat

def standardErrors? (t : Table α) : Option (List α) :=
  t.square?.map fun a => (Linear.standardErrors a).toList

section Shapes

variable {α : Type} {r c k n : Nat}

@[simp] theorem fitted?_toList (v : Vector α n) : fitted? n v.toList = some v := by
  rw [fitted?, dif_pos v.length_toList]
  rfl

theorem zip?_toList (f : α → α → α) (u v : Vector α n) :
    zip? f u.toList v.toList = some (u.zipWith f v).toList := by
  simp [zip?]

@[simp] theorem transpose_ofMat (a : Mat α r c) : (ofMat a).transpose = ofMat a.transpose := rfl

@[simp] theorem square?_ofMat (a : Mat α n n) : (ofMat a).square? = some a := dif_pos rfl

variable [Scalar α]

@[simp] theorem zip?_add (u v : Vector α n) :
    zip? (· + ·) u.toList v.toList = some (u + v).toList := zip?_toList (· + ·) u v

@[simp] theorem zip?_sub (u v : Vector α n) :
    zip? (· - ·) u.toList v.toList = some (u - v).toList := zip?_toList (· - ·) u v

@[simp] theorem mul?_ofMat (a : Mat α r k) (b : Mat α k c) :
    (ofMat a).mul? (ofMat b) = some (ofMat (a.mul b)) := dif_pos rfl

@[simp] theorem mulVec?_ofMat (a : Mat α r c) (v : Vector α c) :
    (ofMat a).mulVec? v.toList = some (a.mulVec v).toList := by
  show (fitted? c v.toList >>= fun v => some (a.mulVec v).toList) = _
  rw [fitted?_toList]
  rfl

@[simp] theorem length_toList (v : Vector α n) : length v.toList = Linear.norm v := by
  obtain ⟨⟨entries⟩, rfl⟩ := v
  rfl

@[simp] theorem pseudoInverse?_ofMat [Linear.HasPseudoInverse α] (a : Mat α n n) :
    (ofMat a).pseudoInverse? = some ((Linear.pseudoInverse a).map ofMat) := by
  rw [pseudoInverse?, square?_ofMat]
  rfl

@[simp] theorem standardErrors?_ofMat (a : Mat α n n) :
    (ofMat a).standardErrors? = some (Linear.standardErrors a).toList := by
  rw [standardErrors?, square?_ofMat]
  rfl

@[simp] theorem correlation_ofMat (a : Mat α n n) :
    (ofMat a).correlation = some (ofMat (Linear.correlation a)) := by
  rw [correlation, square?_ofMat]
  rfl

theorem solveDamped_of_rows {t : Table α} {a : Mat α t.rows t.rows} (ha : t.square? = some a)
    (hrows : t.rows ≠ 0) {b : List α} {v : Vector α t.rows} (hv : fitted? t.rows b = some v)
    (damping : α) :
    t.solveDamped b damping = some ((Linear.solveDamped a v damping).map (·.toList)) := by
  unfold solveDamped
  rw [ha, Option.bind_eq_bind, Option.bind_some, if_neg hrows, hv]
  cases hfactor : Linear.cholesky (Linear.damped a damping) with
  | none => simp [Linear.solveDamped, hfactor]
  | some factor => rfl

/-- Without equations the solution is the empty one in both. -/
@[simp] theorem solveDamped_ofMat (a : Mat α n n) (b : Vector α n) (damping : α) :
    (ofMat a).solveDamped b.toList damping =
      some ((Linear.solveDamped a b damping).map (·.toList)) := by
  cases n with
  | zero =>
    have hempty : b.toList = [] := List.eq_nil_of_length_eq_zero b.length_toList
    unfold solveDamped
    rw [square?_ofMat]
    simp [ofMat, hempty, Linear.solveDamped, Linear.cholesky, Linear.Factor.solve]
  | succ n =>
    exact solveDamped_of_rows (square?_ofMat a) (Nat.succ_ne_zero n) (fitted?_toList b) damping

end Shapes

end Table

namespace DataCovariance

variable {α : Type} {n c : Nat} (cov : DataCovariance α n)

theorem leading?_self : cov.leading? n = some cov := dif_pos rfl

variable [Scalar α]

@[simp] theorem chi2?_toList (v : Vector α n) : cov.chi2? v.toList = some (cov.chi2 v) := by
  show (Table.fitted? n v.toList >>= fun v => some (cov.chi2 v)) = _
  rw [Table.fitted?_toList]
  rfl

@[simp] theorem weightRows?_ofMat (j : Mat α n c) :
    cov.weightRows? (.ofMat j) = some (.ofMat (cov.weightRows j)) := by
  unfold weightRows?
  split
  next h =>
    obtain rfl : c = 0 := h.2
    refine congrArg (fun a => some (Table.ofMat a)) (Vector.ext fun i hi => ?_)
    exact Vector.ext fun j hj => absurd hj (Nat.not_lt_zero j)
  next =>
    show (cov.leading? n).bind (fun cov => some (Table.ofMat (cov.weightRows j))) = _
    rw [leading?_self]
    rfl

@[simp] theorem propagate?_ofMat (d : Mat α n c) :
    cov.propagate? (.ofMat d) = some (.ofMat (cov.propagate d)) := by
  unfold propagate?
  split
  next h =>
    obtain rfl : c = 0 := h.2.2
    refine congrArg (fun a => some (Table.ofMat a)) (Vector.ext fun i hi => ?_)
    exact absurd hi (Nat.not_lt_zero i)
  next =>
    show (cov.leading? n).bind (fun cov => some (Table.ofMat (cov.propagate d))) = _
    rw [leading?_self]
    rfl

end DataCovariance

/-- Calls that are made as far as the shapes fit. -/
abbrev ShapedCalls (α : Type) (m n : Nat) := OptionT (Calls α m n)

namespace ShapedCalls

variable {α β γ : Type} [Scalar α] {m n : Nat}

def fits (x : Option β) : ShapedCalls α m n β := OptionT.mk (pure x)

def constrain (p : List α) : ShapedCalls α m n (List α) := do
  let p : Vector α m ← fits (Table.fitted? m p)
  let constrained : Vector α m ← (Calls.constrain p : Calls α m n _)
  return constrained.toList

def values (p : List α) : ShapedCalls α m n (List α) := do
  let p : Vector α m ← fits (Table.fitted? m p)
  let values : Vector α n ← (Calls.values p : Calls α m n _)
  return values.toList

def jacobian (mode : JacobianMode) (p : List α) : ShapedCalls α m n (Table α) := do
  let p : Vector α m ← fits (Table.fitted? m p)
  let jacobian : Mat α n m ← (Calls.jacobian p mode : Calls α m n _)
  return .ofMat jacobian

/-- The result with the answers of a model, if all shapes fit. -/
def result (model : Model α m n) (x : ShapedCalls α m n β) : Option β := x.run.run model

variable (model : Model α m n)

@[simp] theorem result_pure (b : β) : result model (pure b) = some b := rfl

@[simp] theorem result_bind (x : ShapedCalls α m n β) (f : β → ShapedCalls α m n γ) :
    result model (x >>= f) = (result model x).bind fun b => result model (f b) := by
  refine (Calls.run_bind model x.run _).trans ?_
  unfold result
  cases x.run.run model with
  | none => rfl
  | some b => rfl

@[simp] theorem result_map (f : β → γ) (x : ShapedCalls α m n β) :
    result model (f <$> x) = (result model x).map f := by
  refine (result_bind model x _).trans ?_
  cases result model x with
  | none => rfl
  | some b => rfl

@[simp] theorem result_fits (x : Option β) : result model (fits x) = x := rfl

@[simp] theorem result_lift (x : Calls α m n β) :
    result model (liftM x) = some (x.run model) := by
  exact Calls.run_bind model x _

@[simp] theorem result_constrain (p : Vector α m) :
    result model (constrain p.toList) = some (model.constrain p).toList := by
  simp [constrain]

@[simp] theorem result_values (p : Vector α m) :
    result model (values p.toList) = some (model.values p).toList := by
  simp [values]

@[simp] theorem result_jacobian (p : Vector α m) :
    result model (jacobian model.derivative.mode p.toList) = some (.ofMat (model.jacobian p)) := by
  simp [jacobian, Calls.run_jacobian]

theorem result_ofFnM {k : Nat} {f : Fin k → ShapedCalls α m n β} {g : Fin k → β}
    (h : ∀ i, result model (f i) = some (g i)) :
    result model (Vector.ofFnM f) = some (Vector.ofFn g) := by
  induction k with
  | zero => simp
  | succ k ih =>
    rw [Vector.ofFnM_succ, result_bind, ih fun i => h i.castSucc, Option.bind_some, result_bind,
      h (Fin.last k), Vector.ofFn_succ]
    rfl

end ShapedCalls

/-- A covariance of as many data as it was made of. -/
structure SizedCovariance (α : Type) where
  size : Nat
  covariance : DataCovariance α size

structure ShapedPoint (α : Type) where
  parameters : List α
  values : List α
  chi2 : α

def Point.shaped {α : Type} {m n : Nat} (pt : Point α m n) : ShapedPoint α :=
  ⟨pt.parameters.toList, pt.values.toList, pt.chi2⟩

@[simp] theorem Point.chi2_shaped {α : Type} {m n : Nat} (pt : Point α m n) :
    pt.shaped.chi2 = pt.chi2 := rfl

/-- Where a fit stands, with the `χ²` that it has accepted so far. -/
structure ShapedIterate (α : Type) where
  point : ShapedPoint α
  history : List α
  matrix : Table α
  gradient : List α
  damping : α

def Iterate.shaped {α : Type} {m n : Nat} (history : List α) (it : Iterate α m n) :
    ShapedIterate α :=
  ⟨it.point.shaped, history, .ofMat it.equations.matrix, it.equations.gradient.toList, it.damping⟩

@[simp] theorem Iterate.point_shaped {α : Type} {m n : Nat} (history : List α)
    (it : Iterate α m n) : (it.shaped history).point = it.point.shaped := rfl

/-- What a fit leaves to a solver. -/
structure FitOutcome (α : Type) where
  last : ShapedPoint α
  history : List α
  status : FitStatus
  iterations : Nat

def Fit.outcome {α : Type} {m n : Nat} (fit : Fit α m n) : FitOutcome α :=
  ⟨fit.last.shaped, fit.history, fit.status, fit.iterations⟩

def NormalEquations.predicted {α : Type} [Scalar α] {m : Nat} (e : NormalEquations α m) : α :=
  Scalar.sum fun k : Fin m =>
    if 0 < e.matrix[k][k] then e.gradient[k] * e.gradient[k] / e.matrix[k][k] else 0

structure ShapedProblem (α : Type) where
  data : List α
  covariance : SizedCovariance α
  settings : Settings α

def Problem.shaped {α : Type} {m n : Nat} (problem : Problem α m n) : ShapedProblem α :=
  ⟨problem.data.toList, ⟨n, problem.covariance⟩, problem.settings⟩

namespace ShapedProblem

open ShapedCalls

variable {α : Type} [Scalar α] {m n : Nat} (problem : ShapedProblem α)

def residuals? (values : List α) : Option (List α) := Table.zip? (· - ·) problem.data values

def point (p : List α) : ShapedCalls α m n (ShapedPoint α) := do
  let parameters ← constrain p
  let values ← values parameters
  let residuals ← fits (problem.residuals? values)
  let chi2 ← fits (problem.covariance.covariance.chi2? residuals)
  return ⟨parameters, values, chi2⟩

variable (mode : JacobianMode)

def equations (pt : ShapedPoint α) : ShapedCalls α m n (Table α × List α) := do
  let jacobian ← jacobian mode pt.parameters
  let weighted ← fits (problem.covariance.covariance.weightRows? jacobian)
  let residuals ← fits (problem.residuals? pt.values)
  let matrix ← fits (jacobian.transpose.mul? weighted)
  let gradient ← fits (weighted.transpose.mulVec? residuals)
  return (matrix, gradient)

def gradientNegligible? (it : ShapedIterate α) : Option Bool := do
  let tolerance := problem.settings.stepTolerance
  let matrix ← it.matrix.square?
  let gradient ← Table.fitted? it.matrix.rows it.gradient
  let change ← problem.covariance.covariance.chi2? (problem.data.map (· * tolerance))
  return NormalEquations.predicted ⟨matrix, gradient⟩ ≤ tolerance * it.point.chi2 + change

def stepNegligible? (p q : List α) : Option Bool := do
  let tolerance := problem.settings.stepTolerance
  let step ← Table.zip? (· - ·) q p
  return Table.length step ≤ tolerance * (Table.length p + tolerance)

/-- The gradient is looked at only where the step is negligible. -/
def settled? (it : ShapedIterate α) (negligible : Bool) : Option Bool :=
  if negligible then problem.gradientNegligible? it else some false

def judge (ceiling : α) (it : ShapedIterate α) (trial : ShapedPoint α) (negligible : Bool) :
    ShapedCalls α m n (ShapedIterate α × Option FitStatus) :=
  let boost := problem.settings.boost
  if Scalar.IsFinite trial.chi2 ∧ trial.chi2 < it.point.chi2 then
    let change := (it.point.chi2 - trial.chi2) / it.point.chi2
    let next := { it with
      point := trial
      history := it.history ++ [trial.chi2]
      damping := it.damping / boost }
    if change < problem.settings.exitTolerance ∨ Scalar.IsZero trial.chi2 ∨ negligible then
      return (next, some .converged)
    else do
      let (matrix, gradient) ← problem.equations mode trial
      return ({ next with matrix, gradient }, none)
  else do
    let damping := it.damping * boost
    let settled ← fits (problem.settled? it negligible)
    return ({ it with damping },
      if settled then some .converged else Problem.exhausted ceiling damping)

def attempt (ceiling : α) (it : ShapedIterate α) :
    ShapedCalls α m n (ShapedIterate α × Option FitStatus) := do
  match ← fits (it.matrix.solveDamped it.gradient it.damping) with
  | none =>
    let damping := it.damping * problem.settings.boost
    return ({ it with damping }, Problem.exhausted ceiling damping)
  | some step =>
    let trial ← problem.point (← fits (Table.zip? (· + ·) it.point.parameters step))
    let negligible ← fits (problem.stepNegligible? it.point.parameters trial.parameters)
    problem.judge mode ceiling it trial negligible

def iterate (ceiling : α) : Nat → Nat → ShapedIterate α → ShapedCalls α m n (FitOutcome α)
  | 0, tried, it => return ⟨it.point, it.history, .maxIterations, tried⟩
  | limit + 1, tried, it => do
    match ← problem.attempt mode ceiling it with
    | (next, some status) => return ⟨next.point, next.history, status, tried + 1⟩
    | (next, none) => iterate ceiling limit (tried + 1) next

def fit (start : List α) (maxIterations : Nat) : ShapedCalls α m n (FitOutcome α) := do
  let point ← problem.point start
  let (matrix, gradient) ← problem.equations mode point
  let damping := Problem.firstDamping (← fits matrix.square?)
  if Scalar.IsZero point.chi2 then return ⟨point, [point.chi2], .converged, 0⟩
  else
    problem.iterate mode (problem.settings.maxDamping * damping) maxIterations 0
      ⟨point, [point.chi2], matrix, gradient, damping⟩

end ShapedProblem

namespace Problem

open ShapedCalls ShapedProblem

variable {α : Type} {m n : Nat} (problem : Problem α m n)

@[simp] theorem covariance_shaped : problem.shaped.covariance = ⟨n, problem.covariance⟩ := rfl

@[simp] theorem settings_shaped : problem.shaped.settings = problem.settings := rfl

variable [Scalar α]

@[simp] theorem residuals?_shaped (v : Vector α n) :
    problem.shaped.residuals? v.toList = some (problem.data - v).toList :=
  Table.zip?_sub problem.data v

@[simp] theorem result_point (p : Vector α m) :
    result problem.model (problem.shaped.point p.toList) = some (problem.point p).shaped := by
  simp [ShapedProblem.point, Problem.point, Point.shaped, chi2]

@[simp] theorem result_equations (pt : Point α m n) :
    result problem.model
        (problem.shaped.equations problem.model.derivative.mode pt.shaped) =
      some (.ofMat (problem.equations pt).matrix, (problem.equations pt).gradient.toList) := by
  simp [ShapedProblem.equations, Problem.equations, Point.shaped]

@[simp] theorem stepNegligible?_shaped (p q : Vector α m) :
    problem.shaped.stepNegligible? p.toList q.toList =
      some (decide (problem.StepNegligible p q)) := by
  simp [ShapedProblem.stepNegligible?, StepNegligible]

/-- The test of the gradient meets no size that does not fit. -/
@[simp] theorem gradientNegligible?_shaped (history : List α) (it : Iterate α m n) :
    problem.shaped.gradientNegligible? (it.shaped history) =
      some (decide (problem.GradientNegligible it.equations it.point.chi2)) := by
  let tolerance := problem.settings.stepTolerance
  have hdata : problem.shaped.data.map (· * tolerance) =
      (problem.data.map (· * tolerance)).toList := Vector.toList_map.symm
  have hsquare : (it.shaped history).matrix.square? = some it.equations.matrix :=
    Table.square?_ofMat _
  have hgradient : Table.fitted? m (it.shaped history).gradient = some it.equations.gradient :=
    Table.fitted?_toList _
  unfold ShapedProblem.gradientNegligible?
  rw [hsquare]
  change (Table.fitted? m _).bind (fun gradient =>
    (problem.covariance.chi2? (problem.shaped.data.map (· * tolerance))).bind fun change =>
      some (decide ((NormalEquations.mk it.equations.matrix gradient).predicted ≤
        tolerance * it.point.chi2 + change))) = _
  rw [hgradient, hdata, DataCovariance.chi2?_toList]
  rfl

theorem settled?_shaped (history : List α) (it : Iterate α m n) (q : Vector α m) :
    problem.shaped.settled? (it.shaped history)
        (decide (problem.StepNegligible it.point.parameters q)) =
      some (decide (problem.StepNegligible it.point.parameters q ∧
        problem.GradientNegligible it.equations it.point.chi2)) := by
  unfold settled?
  by_cases hstep : problem.StepNegligible it.point.parameters q
  · simp [hstep]
  · simp [hstep]

theorem solveDamped_shaped (history : List α) (it : Iterate α m n) :
    (it.shaped history).matrix.solveDamped (it.shaped history).gradient
      (it.shaped history).damping = some ((Linear.solveDamped it.equations.matrix
        it.equations.gradient it.damping).map (·.toList)) :=
  Table.solveDamped_ofMat ..

variable {problem} {ceiling : α} {it next : Iterate α m n} {a : Attempt α}
  {status : Option FitStatus}

theorem result_attempt_of_singular (htrial : problem.trial? it = none) (history : List α) :
    result problem.model (problem.shaped.attempt problem.model.derivative.mode ceiling
        (it.shaped history)) =
      some ({ it with damping := it.damping * problem.settings.boost }.shaped history,
        exhausted ceiling (it.damping * problem.settings.boost)) := by
  have hsolve := Option.map_eq_none_iff.mp htrial
  rw [ShapedProblem.attempt, result_bind, result_fits, solveDamped_shaped, hsolve]
  rfl

theorem result_attempt_of_trial {trial : Point α m n} (htrial : problem.trial? it = some trial)
    (history : List α) :
    result problem.model (problem.shaped.attempt problem.model.derivative.mode ceiling
        (it.shaped history)) =
      result problem.model (problem.shaped.judge problem.model.derivative.mode ceiling
        (it.shaped history) trial.shaped
        (decide (problem.StepNegligible it.point.parameters trial.parameters))) := by
  obtain ⟨step, hsolve, rfl⟩ := Option.map_eq_some_iff.mp htrial
  have hmoved : Table.zip? (· + ·) (it.shaped history).point.parameters step.toList =
      some (it.point.parameters + step).toList := Table.zip?_add _ _
  have hnegligible (q : Point α m n) :
      problem.shaped.stepNegligible? (it.shaped history).point.parameters q.shaped.parameters =
        some (decide (problem.StepNegligible it.point.parameters q.parameters)) :=
    problem.stepNegligible?_shaped _ _
  rw [ShapedProblem.attempt, result_bind, result_fits, solveDamped_shaped, hsolve]
  simp only [Option.map_some, Option.bind_some, result_bind, result_fits, hmoved, result_point,
    hnegligible]

theorem result_judge_of_fails {trial : Point α m n} (hfails : ¬ Improves it trial)
    (history : List α) :
    result problem.model (problem.shaped.judge problem.model.derivative.mode ceiling
        (it.shaped history) trial.shaped
        (decide (problem.StepNegligible it.point.parameters trial.parameters))) =
      some ({ it with damping := it.damping * problem.settings.boost }.shaped history,
        if problem.StepNegligible it.point.parameters trial.parameters ∧
            problem.GradientNegligible it.equations it.point.chi2 then some .converged
        else exhausted ceiling (it.damping * problem.settings.boost)) := by
  rw [judge]
  refine (congrArg _ (if_neg hfails)).trans ?_
  rw [result_bind, result_fits, settled?_shaped, Option.bind_some, result_pure]
  simp only [decide_eq_true_eq]
  rfl

/-- One attempt over tables is one attempt over vectors, whichever case it is. -/
theorem Step.result_attempt (h : problem.Step ceiling it a next status) (history : List α) :
    result problem.model (problem.shaped.attempt problem.model.derivative.mode ceiling
        (it.shaped history)) =
      some (next.shaped (history ++ a.verdict.acceptedChi2.toList), status) := by
  cases h with
  | singular htrial =>
    rw [result_attempt_of_singular htrial]
    simp [Verdict.acceptedChi2]
  | accepted htrial himproves hmore =>
    rw [result_attempt_of_trial htrial, judge]
    refine (congrArg _ ((if_pos himproves).trans (if_neg ?_))).trans ?_
    · simpa [Suffices] using hmore
    · rw [result_bind, result_equations]
      rfl
  | converged htrial himproves hlast =>
    rw [result_attempt_of_trial htrial, judge]
    refine (congrArg _ ((if_pos himproves).trans (if_pos ?_))).trans rfl
    simpa [Suffices] using hlast
  | settled htrial hfails hsettled =>
    rw [result_attempt_of_trial htrial, result_judge_of_fails hfails,
      if_pos ((problem.settled_iff_of_trial htrial).mp hsettled)]
    simp [Verdict.acceptedChi2]
  | rejected htrial hfails hmore =>
    rw [result_attempt_of_trial htrial, result_judge_of_fails hfails,
      if_neg ((problem.settled_iff_of_trial htrial).not.mp hmore)]
    simp [Verdict.acceptedChi2]

variable (problem) (ceiling)

/-- Induction over the attempts that are left; each accepted one adds to the history. -/
theorem result_iterate (limit : Nat) (it : Iterate α m n) (first : α) (tried : List (Attempt α)) :
    let (attempts, last, status) := problem.iterate ceiling limit it tried
    result problem.model (problem.shaped.iterate problem.model.derivative.mode ceiling limit
        tried.length (it.shaped (first :: tried.reverse.filterMap (·.verdict.acceptedChi2)))) =
      some ⟨last.shaped, first :: attempts.filterMap (·.verdict.acceptedChi2), status,
        attempts.length⟩ := by
  induction limit generalizing it tried with
  | zero => simp [ShapedProblem.iterate, Problem.iterate, Iterate.shaped]
  | succ limit ih =>
    have hstep := (problem.step_attempt ceiling it).result_attempt
      (first :: tried.reverse.filterMap (·.verdict.acceptedChi2))
    have hhistory (a : Attempt α) :
        first :: tried.reverse.filterMap (·.verdict.acceptedChi2) ++ a.verdict.acceptedChi2.toList =
          first :: (a :: tried).reverse.filterMap (·.verdict.acceptedChi2) := by
      cases h : a.verdict.acceptedChi2 <;> simp [h]
    rw [hhistory] at hstep
    rw [ShapedProblem.iterate, result_bind, hstep, Problem.iterate, Option.bind_some]
    obtain ⟨attempt, next, status⟩ := problem.attempt ceiling it
    cases status with
    | some status => simp [Iterate.shaped]
    | none => exact ih next (attempt :: tried)

/-- A fit that is given the sizes of its model comes upon no others. -/
theorem result_fit (start : Vector α m) (limit : Nat) :
    result problem.model (problem.shaped.fit problem.model.derivative.mode start.toList limit) =
      some (problem.fit start limit).outcome := by
  let it := problem.firstIterate start
  rw [ShapedProblem.fit, result_bind, result_point, Option.bind_some, result_bind,
    result_equations, Option.bind_some, result_bind, result_fits, Table.square?_ofMat]
  show result problem.model (if Scalar.IsZero it.point.chi2 then _ else _) = _
  unfold Problem.fit
  by_cases hzero : Scalar.IsZero it.point.chi2
  · have hzero' : Scalar.IsZero (problem.point start).chi2 := hzero
    rw [if_pos hzero]
    simp only [if_pos hzero']
    rfl
  · have hpositive : ¬ Scalar.IsZero (problem.point start).chi2 := hzero
    rw [if_neg hzero]
    simp only [if_neg hpositive]
    exact problem.result_iterate (problem.settings.maxDamping * it.damping) limit it
      it.point.chi2 []

end Problem

end SkyCamera
