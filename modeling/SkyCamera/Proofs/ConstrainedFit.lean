import SkyCamera.Proofs.FitHistory
import SkyCamera.Proofs.ModelCalls
import SkyCamera.Proofs.Rotations

/-!
The calls that a fit makes to its model, and those of the refits behind a fourth-order covariance.
No vector is evaluated unless the constraint has returned it, so a model matters only where its
constraint leads.
-/
namespace SkyCamera

namespace Calls

variable {α : Type} [Scalar α] {m n : Nat}

def valuesBeside (p : Vector α m) (j : Fin m) (h : α) : Calls α m n (Vector α n) := do
  let beside ← constrain (p.set j (p[j] + h) j.isLt)
  values beside

def differenceColumns (steps : List α) (column : Fin m → α → Calls α m n (Vector α n)) :
    Calls α m n (Mat α n m) := do
  let columns ← Vector.ofFnM fun j =>
    match steps[j.val]? with
    | some h => column j h
    | none => pure 0
  return Mat.transpose columns

def forwardDifference (p : Vector α m) : Calls α m n (Mat α n m) := do
  let steps ← steps p
  let centre ← values p
  differenceColumns steps fun j h => do
    let beside ← valuesBeside p j h
    return (beside - centre).map (· / h)

def centralDifference (p : Vector α m) : Calls α m n (Mat α n m) := do
  let steps ← steps p
  differenceColumns steps fun j h => do
    let far ← valuesBeside p j (2.0 * h)
    let near ← valuesBeside p j h
    let near' ← valuesBeside p j (-h)
    let far' ← valuesBeside p j (-(2.0 * h))
    return Model.fivePoint h far near near' far'

def jacobian (p : Vector α m) : JacobianMode → Calls α m n (Mat α n m)
  | .analytic => closedForm p
  | .forwardDifference => forwardDifference p
  | .centralDifference => centralDifference p

variable (model : Model α m n)

@[simp] theorem run_valuesBeside (p : Vector α m) (j : Fin m) (h : α) :
    (valuesBeside p j h).run model = model.valuesBeside p j h := by
  simp only [valuesBeside, run_bind, run_constrain, run_values, Model.valuesBeside]

theorem run_differenceColumns (steps : List α) {column : Fin m → α → Calls α m n (Vector α n)}
    {column' : Fin m → α → Vector α n} (hcolumn : ∀ j h, (column j h).run model = column' j h) :
    (differenceColumns steps column).run model = Model.differenceColumns steps column' := by
  simp only [differenceColumns, run_bind, run_ofFnM, run_pure, Model.differenceColumns]
  refine congrArg (fun f => Mat.transpose (Vector.ofFn f)) (funext fun j => ?_)
  cases steps[j.val]? with
  | none => rfl
  | some h => exact hcolumn j h

theorem run_jacobian (p : Vector α m) :
    (jacobian p model.derivative.mode).run model = model.jacobian p := by
  unfold Model.jacobian jacobian
  cases hderivative : model.derivative with
  | closedForm f =>
    simp only [Derivative.mode, run_closedForm, Model.closedForm, hderivative]
  | forwardDifference =>
    simp only [Derivative.mode, forwardDifference, run_bind, run_steps, run_values]
    exact run_differenceColumns model _ fun j h => by
      rw [run_bind, run_pure, run_valuesBeside]
  | centralDifference =>
    simp only [Derivative.mode, centralDifference, run_bind, run_steps]
    exact run_differenceColumns model _ fun j h => by
      simp only [run_bind, run_pure, run_valuesBeside]

variable {known : Set (Vector α m)}

theorem safe_valuesBeside (p : Vector α m) (j : Fin m) (h : α) :
    (valuesBeside p j h : Calls α m n _).Safe known :=
  ensures_bind (ensures_constrain _) fun _ _ _ hbeside => safe_values hbeside

theorem safe_differenceColumns (steps : List α)
    {column : Fin m → α → Calls α m n (Vector α n)}
    (hcolumn : ∀ j h later, (column j h).Safe later) :
    (differenceColumns steps column).Safe known := by
  refine ensures_bind (safe_ofFnM fun j later _ => ?_) fun _ _ _ _ => ensures_pure trivial
  cases steps[j.val]? with
  | none => exact ensures_pure trivial
  | some h => exact hcolumn j h later

/-- A difference quotient constrains each displaced vector before it is evaluated; supplied
derivatives need the vector itself, which is known. -/
theorem safe_jacobian {p : Vector α m} (hp : p ∈ known) (mode : JacobianMode) :
    (jacobian p mode : Calls α m n _).Safe known := by
  cases mode with
  | analytic => exact safe_closedForm hp
  | forwardDifference =>
    refine ensures_bind (safe_steps hp) fun steps later hlater _ => ?_
    refine ensures_bind (safe_values (hlater hp)) fun centre _ _ _ => ?_
    refine safe_differenceColumns steps fun j h _ => ?_
    exact ensures_bind (safe_valuesBeside p j h) fun _ _ _ _ => ensures_pure trivial
  | centralDifference =>
    refine ensures_bind (safe_steps hp) fun steps later _ _ => ?_
    refine safe_differenceColumns steps fun j h _ => ?_
    refine ensures_bind (safe_valuesBeside p j (2.0 * h)) fun _ _ _ _ => ?_
    refine ensures_bind (safe_valuesBeside p j h) fun _ _ _ _ => ?_
    refine ensures_bind (safe_valuesBeside p j (-h)) fun _ _ _ _ => ?_
    exact ensures_bind (safe_valuesBeside p j (-(2.0 * h))) fun _ _ _ _ => ensures_pure trivial

end Calls

namespace Problem

variable {α : Type} [Scalar α] {m n : Nat} (problem : Problem α m n)

def withModel (model : Model α m n) : Problem α m n := { problem with model }

def pointCalls (p : Vector α m) : Calls α m n (Point α m n) := do
  let parameters ← Calls.constrain p
  let values ← Calls.values parameters
  return ⟨parameters, values, problem.chi2 values⟩

variable (mode : JacobianMode)

def equationsCalls (point : Point α m n) : Calls α m n (NormalEquations α m) := do
  let jacobian ← Calls.jacobian point.parameters mode
  let weighted := problem.covariance.weightRows jacobian
  return ⟨jacobian.transpose.mul weighted,
    weighted.transpose.mulVec (problem.data - point.values)⟩

def attemptCalls (ceiling : α) (it : Iterate α m n) :
    Calls α m n (Attempt α × Iterate α m n × Option FitStatus) :=
  let boost := problem.settings.boost
  match Linear.solveDamped it.equations.matrix it.equations.gradient it.damping with
  | none =>
    let damping := it.damping * boost
    pure (⟨it.damping, .singular, damping⟩, { it with damping }, exhausted ceiling damping)
  | some step => do
    let trial ← problem.pointCalls (it.point.parameters + step)
    let chi2 := it.point.chi2
    if Scalar.IsFinite trial.chi2 ∧ trial.chi2 < chi2 then
      let change := (chi2 - trial.chi2) / chi2
      let damping := it.damping / boost
      let attempt := ⟨it.damping, .accepted trial.chi2 change, damping⟩
      if change < problem.settings.exitTolerance ∨ Scalar.IsZero trial.chi2 ∨
          problem.StepNegligible it.point.parameters trial.parameters then
        return (attempt, { it with point := trial, damping }, some .converged)
      else
        let equations ← problem.equationsCalls mode trial
        return (attempt, ⟨trial, equations, damping⟩, none)
    else
      let damping := it.damping * boost
      let status :=
        if problem.StepNegligible it.point.parameters trial.parameters ∧
            problem.GradientNegligible it.equations chi2 then some .converged
        else exhausted ceiling damping
      return (⟨it.damping, .rejected trial.chi2 chi2, damping⟩, { it with damping }, status)

def iterateCalls (ceiling : α) : Nat → Iterate α m n → List (Attempt α) →
    Calls α m n (List (Attempt α) × Point α m n × FitStatus)
  | 0, it, tried => pure (tried.reverse, it.point, .maxIterations)
  | limit + 1, it, tried => do
    match ← problem.attemptCalls mode ceiling it with
    | (attempt, next, some status) => return ((attempt :: tried).reverse, next.point, status)
    | (attempt, next, none) => iterateCalls ceiling limit next (attempt :: tried)

/-- The calls of a fit from `start`. Of the model of the problem they use nothing. -/
def fitCalls (start : Vector α m) (maxIterations : Nat) : Calls α m n (Fit α m n) := do
  let point ← problem.pointCalls start
  let equations ← problem.equationsCalls mode point
  let damping := firstDamping equations.matrix
  let (attempts, last, status) ←
    if Scalar.IsZero point.chi2 then pure ([], point, .converged)
    else
      problem.iterateCalls mode (problem.settings.maxDamping * damping) maxIterations
        ⟨point, equations, damping⟩ []
  return ⟨point.chi2, damping, attempts, last, status, maxIterations⟩

section Run

variable (model : Model α m n)

@[simp] theorem run_pointCalls (p : Vector α m) :
    (problem.pointCalls p).run model = (problem.withModel model).point p := rfl

@[simp] theorem run_equationsCalls (point : Point α m n) :
    (problem.equationsCalls model.derivative.mode point).run model =
      (problem.withModel model).equations point := by
  simp only [equationsCalls, Calls.run_bind, Calls.run_jacobian, Calls.run_pure]
  rfl

theorem run_attemptCalls (ceiling : α) (it : Iterate α m n) :
    (problem.attemptCalls model.derivative.mode ceiling it).run model =
      (problem.withModel model).attempt ceiling it := by
  unfold attemptCalls attempt
  cases Linear.solveDamped it.equations.matrix it.equations.gradient it.damping with
  | none => rfl
  | some step =>
    rw [Calls.run_bind, run_pointCalls]
    dsimp only
    split
    next himproves =>
      split
      next hlast => exact (if_pos hlast).symm
      next hmore =>
        rw [Calls.run_bind, run_equationsCalls]
        exact (if_neg hmore).symm
    next hfails => rfl

/-- Induction over the attempts that are left. -/
theorem run_iterateCalls (ceiling : α) (limit : Nat) (it : Iterate α m n)
    (tried : List (Attempt α)) :
    (problem.iterateCalls model.derivative.mode ceiling limit it tried).run model =
      (problem.withModel model).iterate ceiling limit it tried := by
  induction limit generalizing it tried with
  | zero => rfl
  | succ limit ih =>
    rw [iterateCalls, iterate, Calls.run_bind, run_attemptCalls]
    obtain ⟨attempt, next, status⟩ := (problem.withModel model).attempt ceiling it
    cases status with
    | none => exact ih next (attempt :: tried)
    | some status => rfl

/-- The calls answered by a model give the fit of that model. -/
theorem run_fitCalls (start : Vector α m) (limit : Nat) :
    (problem.fitCalls model.derivative.mode start limit).run model =
      (problem.withModel model).fit start limit := by
  rw [fitCalls, fit, Calls.run_bind, run_pointCalls, Calls.run_bind, run_equationsCalls]
  dsimp only
  split
  next hzero => rfl
  next hpositive =>
    rw [Calls.run_bind, run_iterateCalls]
    rfl

end Run

section Safety

variable {known : Set (Vector α m)}

theorem ensures_pointCalls (p : Vector α m) :
    (problem.pointCalls p).Ensures (fun point later => point.parameters ∈ later) known := by
  refine Calls.ensures_bind (Calls.ensures_constrain p) fun parameters later _ hparameters => ?_
  refine Calls.ensures_bind (Calls.safe_values hparameters) fun values later' hlater' _ => ?_
  exact Calls.ensures_pure (hlater' hparameters)

theorem safe_equationsCalls {point : Point α m n} (hpoint : point.parameters ∈ known) :
    (problem.equationsCalls mode point).Safe known :=
  Calls.ensures_bind (Calls.safe_jacobian hpoint mode) fun _ _ _ _ => Calls.ensures_pure trivial

/-- An attempt leads from parameters that were constrained to parameters that were. -/
theorem ensures_attemptCalls (ceiling : α) {it : Iterate α m n}
    (hit : it.point.parameters ∈ known) :
    (problem.attemptCalls mode ceiling it).Ensures
      (fun result later => result.2.1.point.parameters ∈ later) known := by
  unfold attemptCalls
  cases Linear.solveDamped it.equations.matrix it.equations.gradient it.damping with
  | none => exact Calls.ensures_pure hit
  | some step =>
    refine Calls.ensures_bind (problem.ensures_pointCalls _) fun trial later hlater htrial => ?_
    dsimp only
    split
    · split
      · exact Calls.ensures_pure htrial
      · refine Calls.ensures_bind (problem.safe_equationsCalls mode htrial) ?_
        intro equations later' hlater' _
        exact Calls.ensures_pure (hlater' htrial)
    · exact Calls.ensures_pure (hlater hit)

/-- Every vector that a fit holds is known, since it was constrained before it was evaluated. -/
theorem ensures_iterateCalls (ceiling : α) (limit : Nat) {it : Iterate α m n}
    (tried : List (Attempt α)) (hit : it.point.parameters ∈ known) :
    (problem.iterateCalls mode ceiling limit it tried).Ensures
      (fun result later => result.2.1.parameters ∈ later) known := by
  induction limit generalizing known it tried with
  | zero => exact Calls.ensures_pure hit
  | succ limit ih =>
    refine Calls.ensures_bind (problem.ensures_attemptCalls mode ceiling hit) ?_
    rintro ⟨attempt, next, status⟩ later _ hnext
    cases status with
    | none => exact ih (attempt :: tried) hnext
    | some status => exact Calls.ensures_pure hnext

/-- Nothing need be known before a fit. -/
theorem ensures_fitCalls (start : Vector α m) (limit : Nat) :
    (problem.fitCalls mode start limit).Ensures
      (fun fit later => fit.last.parameters ∈ later) known := by
  refine Calls.ensures_bind (problem.ensures_pointCalls start) fun point later _ hpoint => ?_
  refine Calls.ensures_bind (problem.safe_equationsCalls mode hpoint) ?_
  intro equations later' hlater' _
  have hpoint' : point.parameters ∈ later' := hlater' hpoint
  dsimp only
  split
  · exact Calls.ensures_pure hpoint'
  · exact Calls.ensures_bind (problem.ensures_iterateCalls mode _ limit [] hpoint')
      fun _ _ _ hlast => Calls.ensures_pure hlast

end Safety

theorem fit_withModel {other : Model α m n} (hagree : problem.model.AgreesWith other)
    (start : Vector α m) (limit : Nat) :
    (problem.withModel other).fit start limit = problem.fit start limit := by
  have hsafe : (problem.fitCalls problem.model.derivative.mode start limit).Ensures
      (fun fit later => fit.last.parameters ∈ later) ∅ :=
    problem.ensures_fitCalls problem.model.derivative.mode start limit
  have hrun := hsafe.run_eq hagree (Set.empty_subset _)
  rw [problem.run_fitCalls problem.model, ← hagree.mode_eq, problem.run_fitCalls other] at hrun
  exact hrun

end Problem

namespace Solver

variable {α : Type} [Scalar α] {m n : Nat} (s : Solver α m n)

def withModel (model : Model α m n) : Solver α m n := { s with model }

def fitCalls (maxIterations : Nat) : Calls α m n (Except (FitError α) (Solver α m n)) :=
  if n < m then pure (.error (.underdetermined n m))
  else
    match s.data, s.parameters? with
    | none, _ => pure (.error .missingData)
    | some _, none => pure (.error .missingParameters)
    | some data, some start => do
      let fit ← (s.problem data).fitCalls s.model.derivative.mode start maxIterations
      return .ok { s with parameters? := some fit.last.parameters, lastFit := some fit }

def refitCalls (data : Vector α n) (solution : Vector α m) (limit : Nat) (i : Fin n) (offset : α) :
    Calls α m n (Vector α m) := do
  let displaced := data.set i (data[i] + offset) i.isLt
  let fit ← (s.problem displaced).fitCalls s.model.derivative.mode solution limit
  return fit.last.parameters

def covarianceCalls : Calls α m n (Except (FitError α) (Mat α m m)) :=
  match s.lastFit, s.data, s.parameters? with
  | none, _, _ => pure (.error .notFitted)
  | some _, none, _ => pure (.error .missingData)
  | some _, some _, none => pure (.error .missingParameters)
  | some last, some data, some solution => do
    let h := s.settings.dataStep
    let refit := s.refitCalls data solution last.maxIterations
    let sensitivities ← Vector.ofFnM fun i => do
      let far ← refit i (2.0 * h)
      let near ← refit i h
      let near' ← refit i (-h)
      let far' ← refit i (-(2.0 * h))
      return Model.fivePoint h far near near' far'
    return .ok (s.covariance.propagate sensitivities)

section Run

variable (model : Model α m n) (hmode : model.derivative.mode = s.model.derivative.mode)
include hmode

/-- The calls answered by any model give the fit of a solver for that model. -/
theorem run_fitCalls (limit : Nat) :
    ((s.fitCalls limit).run model).map (·.withModel model) = (s.withModel model).fit limit := by
  simp only [fitCalls, fit, withModel]
  split
  · rfl
  · cases s.data with
    | none => rfl
    | some data =>
      cases s.parameters? with
      | none => rfl
      | some start =>
        dsimp only
        rw [Calls.run_bind, ← hmode, Problem.run_fitCalls]
        rfl

theorem run_refitCalls (data : Vector α n) (solution : Vector α m) (limit : Nat) (i : Fin n)
    (offset : α) :
    (s.refitCalls data solution limit i offset).run model =
      (((s.withModel model).problem (data.set i (data[i] + offset) i.isLt)).fit solution
        limit).last.parameters := by
  rw [refitCalls, Calls.run_bind, ← hmode, Problem.run_fitCalls]
  rfl

theorem run_covarianceCalls :
    s.covarianceCalls.run model = (s.withModel model).fourthOrderCovariance := by
  simp only [covarianceCalls, fourthOrderCovariance, withModel]
  cases s.lastFit with
  | none => rfl
  | some last =>
    cases s.data with
    | none => rfl
    | some data =>
      cases s.parameters? with
      | none => rfl
      | some solution =>
        dsimp only
        simp only [Calls.run_bind, Calls.run_ofFnM, Calls.run_pure, s.run_refitCalls model hmode]
        rfl

end Run

theorem ensures_fitCalls (limit : Nat) :
    (s.fitCalls limit).Ensures
      (fun result later => ∀ s', result = .ok s' → s'.parameters ∈ later) ∅ := by
  unfold fitCalls
  split
  · exact Calls.ensures_pure fun s' h => by cases h
  · split
    · exact Calls.ensures_pure fun s' h => by cases h
    · exact Calls.ensures_pure fun s' h => by cases h
    · next data start hdata hstart =>
      refine Calls.ensures_bind ((s.problem data).ensures_fitCalls _ start limit) ?_
      intro fit later _ hlast
      refine Calls.ensures_pure fun s' h => ?_
      cases h
      exact hlast

/-- Every refit begins by constraining its start, so that nothing has to be known. -/
theorem safe_covarianceCalls : s.covarianceCalls.Safe ∅ := by
  have hrefit (data : Vector α n) (solution : Vector α m) (limit : Nat) (i : Fin n) (offset : α)
      (known : Set (Vector α m)) :
      (s.refitCalls data solution limit i offset).Safe known :=
    Calls.ensures_bind ((s.problem _).ensures_fitCalls _ solution limit)
      fun _ _ _ _ => Calls.ensures_pure trivial
  unfold covarianceCalls
  split
  · exact Calls.ensures_pure trivial
  · exact Calls.ensures_pure trivial
  · exact Calls.ensures_pure trivial
  · refine Calls.ensures_bind (Calls.safe_ofFnM fun i later _ => ?_)
      fun _ _ _ _ => Calls.ensures_pure trivial
    refine Calls.ensures_bind (hrefit _ _ _ i _ later) fun _ later _ _ => ?_
    refine Calls.ensures_bind (hrefit _ _ _ i _ later) fun _ later _ _ => ?_
    refine Calls.ensures_bind (hrefit _ _ _ i _ later) fun _ later _ _ => ?_
    exact Calls.ensures_bind (hrefit _ _ _ i _ later) fun _ _ _ _ => Calls.ensures_pure trivial

theorem fit_withModel {other : Model α m n} (hagree : s.model.AgreesWith other) (limit : Nat) :
    (s.withModel other).fit limit = (s.fit limit).map (·.withModel other) := by
  simp only [fit, withModel]
  split
  · rfl
  · cases s.data with
    | none => rfl
    | some data =>
      cases s.parameters? with
      | none => rfl
      | some start =>
        have hfit := (s.problem data).fit_withModel hagree start limit
        exact congrArg (fun fit : Fit α m n => Except.ok (⟨other, s.settings, some data,
          some fit.last.parameters, s.covariance, some fit⟩ : Solver α m n)) hfit

theorem fourthOrderCovariance_withModel {other : Model α m n}
    (hagree : s.model.AgreesWith other) :
    (s.withModel other).fourthOrderCovariance = s.fourthOrderCovariance := by
  have hfit (data : Vector α n) (start : Vector α m) (limit : Nat) :
      Problem.fit ⟨other, data, s.covariance, s.settings⟩ start limit =
        Problem.fit ⟨s.model, data, s.covariance, s.settings⟩ start limit :=
    (s.problem data).fit_withModel hagree start limit
  simp only [fourthOrderCovariance, withModel, hfit]

/-- How a fit with at most `limit` steps and a fourth-order covariance reach the model. -/
structure ConstrainsCalls (limit : Nat) : Prop where
  /-- The same calls make up the fit of every model, so nothing is known of a model but by them. -/
  run_fit : ∀ model : Model α m n, model.derivative.mode = s.model.derivative.mode →
    ((s.fitCalls limit).run model).map (·.withModel model) = (s.withModel model).fit limit
  run_covariance : ∀ model : Model α m n, model.derivative.mode = s.model.derivative.mode →
    s.covarianceCalls.run model = (s.withModel model).fourthOrderCovariance
  constrainedFirst_fit : Event.ConstrainedFirst ((s.fitCalls limit).log s.model)
  constrainedFirst_covariance : Event.ConstrainedFirst (s.covarianceCalls.log s.model)
  /-- What the constraint establishes holds wherever the model is evaluated, and in the end. -/
  established : ∀ Q : Vector α m → Prop, (∀ p, Q (s.model.constrain p)) →
    (∀ p, .evaluated p ∈ (s.fitCalls limit).log s.model → Q p) ∧
      (∀ p, .evaluated p ∈ s.covarianceCalls.log s.model → Q p) ∧
      ∀ s', s.fit limit = .ok s' → Q s'.parameters
  /-- Where the constraint does not lead, another model may be anything. -/
  agreement : ∀ other, s.model.AgreesWith other →
    (s.withModel other).fit limit = (s.fit limit).map (·.withModel other) ∧
      (s.withModel other).fourthOrderCovariance = s.fourthOrderCovariance

theorem parameters_mem_range (limit : Nat) {s' : Solver α m n} (h : s.fit limit = .ok s') :
    s'.parameters ∈ Set.range s.model.constrain := by
  obtain ⟨later, hpost, hlater⟩ :
      ∃ later : Set (Vector α m),
        (∀ s', (s.fitCalls limit).run s.model = .ok s' → s'.parameters ∈ later) ∧
          ∀ p ∈ later, p ∈ (∅ : Set (Vector α m)) ∨
            .constrained p ∈ (s.fitCalls limit).log s.model :=
    (s.ensures_fitCalls limit).post_run
  have hrun : ((s.fitCalls limit).run s.model).map (·.withModel s.model) = .ok s' :=
    (s.run_fitCalls s.model rfl limit).trans h
  cases hresult : (s.fitCalls limit).run s.model with
  | error e =>
    rw [hresult] at hrun
    cases hrun
  | ok last =>
    rw [hresult] at hrun
    cases hrun
    rcases hlater _ (hpost last hresult) with hmem | hmem
    · cases hmem
    · exact Calls.constrained_of_mem_log s.model hmem

theorem constrainsCalls (limit : Nat) : s.ConstrainsCalls limit where
  run_fit := fun model hmode => s.run_fitCalls model hmode limit
  run_covariance := fun model hmode => s.run_covarianceCalls model hmode
  constrainedFirst_fit := (s.ensures_fitCalls limit).constrainedFirst
  constrainedFirst_covariance := s.safe_covarianceCalls.constrainedFirst
  established := by
    intro Q hQ
    have hrange : ∀ p ∈ Set.range s.model.constrain, Q p := by
      rintro p ⟨q, rfl⟩
      exact hQ q
    refine ⟨fun p hp => ?_, fun p hp => ?_, fun s' h => ?_⟩
    · exact hrange p ((s.ensures_fitCalls limit).mem_range_of_evaluated hp)
    · exact hrange p (s.safe_covarianceCalls.mem_range_of_evaluated hp)
    · exact hrange _ (s.parameters_mem_range limit h)
  agreement := fun other hagree =>
    ⟨s.fit_withModel hagree limit, s.fourthOrderCovariance_withModel hagree⟩

end Solver
end SkyCamera
