import Mathlib.Data.List.Chain
import SkyCamera.LeastSquares.Curve
import SkyCamera.LeastSquares.Solver
import SkyCamera.Proofs.FitCourse

/-!
What a fit leaves behind. Parameters, values and `χ²` of a point belong together at the start and at
every trial, so they do after every order of accepted, rejected and singular attempts; the history
descends to the `χ²` of the point that is left. No law of the arithmetic is used, so all of it
also holds where numbers are rounded, infinite or undefined.
-/
namespace SkyCamera

namespace Problem

variable {α : Type} [Scalar α] {m n : Nat} (problem : Problem α m n)

/-- The values are those of the model at the parameters, and `χ²` is that of these values. -/
structure Coherent (pt : Point α m n) : Prop where
  values_eq : pt.values = problem.model.values pt.parameters
  chi2_eq : pt.chi2 = problem.chi2 pt.values

theorem coherent_point (p : Vector α m) : problem.Coherent (problem.point p) := ⟨rfl, rfl⟩

theorem coherent_trial {it : Iterate α m n} {trial : Point α m n}
    (htrial : problem.trial? it = some trial) : problem.Coherent trial := by
  obtain ⟨step, -, rfl⟩ := Option.map_eq_some_iff.mp htrial
  exact problem.coherent_point (it.point.parameters + step)

/-- An accepted step moves to the trial, which is evaluated as a whole; every other leaves the
point. -/
theorem Step.coherent {problem : Problem α m n} {ceiling : α} {it next : Iterate α m n}
    {a : Attempt α} {status : Option FitStatus} (h : problem.Step ceiling it a next status)
    (hit : problem.Coherent it.point) : problem.Coherent next.point := by
  cases ha : a.accepted with
  | false =>
    rw [h.point_of_unaccepted ha]
    exact hit
  | true => exact problem.coherent_trial (h.point_of_accepted ha).1

theorem coherent_iterateAfter (start : Vector α m) (i : Nat) :
    problem.Coherent (problem.iterateAfter start i).point := by
  induction i with
  | zero => exact problem.coherent_point start
  | succ i ih => exact (problem.step_after start i).coherent ih

theorem coherent_last (start : Vector α m) (limit : Nat) :
    problem.Coherent (problem.fit start limit).last := by
  obtain ⟨-, hlast, -⟩ := problem.fit_course start limit
  rw [hlast]
  exact problem.coherent_iterateAfter start _

/-- `χ²` at the start and after each accepted one of the first `k` attempts. -/
def historyAfter (start : Vector α m) (k : Nat) : List α :=
  (problem.point start).chi2 ::
    (problem.attempts start k).filterMap (·.verdict.acceptedChi2)

theorem history_fit (start : Vector α m) (limit : Nat) :
    (problem.fit start limit).history =
      problem.historyAfter start (problem.fit start limit).iterations := by
  simp only [Fit.history, historyAfter]
  exact congrArg (fun as => _ :: as.filterMap (·.verdict.acceptedChi2))
    (problem.attempts_fit start limit)

theorem historyAfter_succ_of_unaccepted (start : Vector α m) (k : Nat)
    (ha : (problem.attemptAfter start k).accepted = false) :
    problem.historyAfter start (k + 1) = problem.historyAfter start k := by
  have hnone := Attempt.acceptedChi2_eq_none ha
  simp only [historyAfter, attempts_succ, List.filterMap_append, List.filterMap_cons, hnone,
    List.filterMap_nil, List.append_nil]

theorem historyAfter_succ_of_accepted (start : Vector α m) (k : Nat)
    (ha : (problem.attemptAfter start k).accepted = true) :
    problem.historyAfter start (k + 1) =
      problem.historyAfter start k ++ [(problem.iterateAfter start (k + 1)).point.chi2] := by
  obtain ⟨-, -, hsome⟩ := (problem.step_after start k).point_of_accepted ha
  simp only [historyAfter, attempts_succ, List.filterMap_append, List.filterMap_cons, hsome,
    List.filterMap_nil, List.cons_append]

/-- The last entry of the history is always the `χ²` of the point that is held. -/
theorem getLast?_historyAfter (start : Vector α m) (k : Nat) :
    (problem.historyAfter start k).getLast? =
      some (problem.iterateAfter start k).point.chi2 := by
  induction k with
  | zero => rfl
  | succ k ih =>
    cases ha : (problem.attemptAfter start k).accepted with
    | false =>
      rw [problem.historyAfter_succ_of_unaccepted start k ha,
        (problem.step_after start k).point_of_unaccepted ha, ih]
    | true => rw [problem.historyAfter_succ_of_accepted start k ha, List.getLast?_concat]

/-- Each accepted `χ²` is a number, and below the one before. -/
theorem isChain_historyAfter (start : Vector α m) (k : Nat) :
    (problem.historyAfter start k).IsChain fun before after =>
      Scalar.IsFinite after ∧ after < before := by
  induction k with
  | zero => exact List.isChain_singleton _
  | succ k ih =>
    cases ha : (problem.attemptAfter start k).accepted with
    | false =>
      rw [problem.historyAfter_succ_of_unaccepted start k ha]
      exact ih
    | true =>
      obtain ⟨-, himproves, -⟩ := (problem.step_after start k).point_of_accepted ha
      rw [problem.historyAfter_succ_of_accepted start k ha]
      refine List.isChain_append.mpr ⟨ih, List.isChain_singleton _, ?_⟩
      intro before hbefore after hafter
      rw [problem.getLast?_historyAfter start k] at hbefore
      obtain rfl := Option.some.inj hbefore
      obtain rfl := Option.some.inj hafter
      exact himproves

/-- The point after `k` attempts is the first if none of them was accepted, else the trial of the
last that was. -/
theorem point_iterateAfter (start : Vector α m) (k : Nat) :
    ((∀ j < k, (problem.attemptAfter start j).accepted = false) ∧
        (problem.iterateAfter start k).point = problem.point start) ∨
      ∃ i < k, (problem.attemptAfter start i).accepted = true ∧
        problem.trial? (problem.iterateAfter start i) =
          some (problem.iterateAfter start k).point ∧
        ∀ j, i < j → j < k → (problem.attemptAfter start j).accepted = false := by
  induction k with
  | zero => exact Or.inl ⟨fun j hj => absurd hj (Nat.not_lt_zero j), rfl⟩
  | succ k ih =>
    have hstep := problem.step_after start k
    cases ha : (problem.attemptAfter start k).accepted with
    | true =>
      refine Or.inr ⟨k, Nat.lt_succ_self k, ha, (hstep.point_of_accepted ha).1, ?_⟩
      intro j hij hjk
      omega
    | false =>
      have hlast : ∀ j, j < k + 1 → ¬ j < k → (problem.attemptAfter start j).accepted = false := by
        intro j hj hjk
        obtain rfl : j = k := by omega
        exact ha
      rw [hstep.point_of_unaccepted ha]
      rcases ih with ⟨hnone, hpoint⟩ | ⟨i, hi, hai, htrial, hafter⟩
      · refine Or.inl ⟨fun j hj => ?_, hpoint⟩
        by_cases hjk : j < k
        · exact hnone j hjk
        · exact hlast j hj hjk
      · refine Or.inr ⟨i, by omega, hai, htrial, fun j hij hj => ?_⟩
        by_cases hjk : j < k
        · exact hafter j hij hjk
        · exact hlast j hj hjk

end Problem

namespace Solver

variable {α : Type} [Scalar α] {m n : Nat}

def problem (s : Solver α m n) (data : Vector α n) : Problem α m n :=
  ⟨s.model, data, s.covariance, s.settings⟩

/-- What a solver `s'` holds after a fit, with `s` the solver before it, `data` the data and `start`
the parameters that it was given. -/
structure HoldsFit (s s' : Solver α m n) (data : Vector α n) (start : Vector α m) : Prop where
  data_eq : s.data = some data
  start_eq : s.parameters? = some start
  /-- Only the parameters and the last fit are replaced. -/
  unchanged : s' = { s with parameters? := some s'.parameters, lastFit := s'.lastFit }
  head?_history : s'.history.head? =
    some (s.covariance.chi2 (data - s.model.values (s.model.constrain start)))
  descends : s'.history.IsChain fun before after => Scalar.IsFinite after ∧ after < before
  getLast?_history : s'.history.getLast? = some s'.chi2
  values_eq : s'.values = s.model.values s'.parameters
  chi2_eq : s'.chi2 = s.covariance.chi2 (data - s'.values)
  attempts_eq : s'.lastFit.map (·.attempts) =
    some ((s.problem data).attempts start s'.iterations)
  point_eq : ((s.problem data).iterateAfter start s'.iterations).point =
    ⟨s'.parameters, s'.values, s'.chi2⟩
  /-- A rejected or singular attempt leaves parameters, values and `χ²` as they are. -/
  unaccepted : ∀ i < s'.iterations, ((s.problem data).attemptAfter start i).accepted = false →
    ((s.problem data).iterateAfter start (i + 1)).point =
      ((s.problem data).iterateAfter start i).point
  /-- The parameters are those at the start or those of the trial that was accepted last. -/
  parameters_from :
    ((∀ j < s'.iterations, ((s.problem data).attemptAfter start j).accepted = false) ∧
        s'.parameters = s.model.constrain start) ∨
      ∃ i < s'.iterations, ((s.problem data).attemptAfter start i).accepted = true ∧
        (∃ trial, (s.problem data).trial? ((s.problem data).iterateAfter start i) = some trial ∧
          s'.parameters = trial.parameters) ∧
        ∀ j, i < j → j < s'.iterations →
          ((s.problem data).attemptAfter start j).accepted = false

theorem fit_eq_ok {s s' : Solver α m n} {maxIterations : Nat} (h : s.fit maxIterations = .ok s') :
    ∃ data start, s.data = some data ∧ s.parameters? = some start ∧
      s' = { s with
        parameters? := some ((s.problem data).fit start maxIterations).last.parameters
        lastFit := some ((s.problem data).fit start maxIterations) } := by
  unfold fit at h
  split at h
  · cases h
  · cases hdata : s.data with
    | none => simp only [hdata, reduceCtorEq] at h
    | some data =>
      cases hstart : s.parameters? with
      | none => simp only [hdata, hstart, reduceCtorEq] at h
      | some start =>
        simp only [hdata, hstart, Except.ok.injEq] at h
        exact ⟨data, start, rfl, rfl, h.symm⟩

/-- A fit that returns leaves parameters, values, `χ²` and history that belong together. -/
theorem fit_holds (s s' : Solver α m n) (maxIterations : Nat) (h : s.fit maxIterations = .ok s') :
    ∃ data start, s.HoldsFit s' data start := by
  obtain ⟨data, start, hdata, hstart, rfl⟩ := fit_eq_ok h
  let problem := s.problem data
  let fit := problem.fit start maxIterations
  let k := fit.iterations
  obtain ⟨hattempts, hlast, -⟩ := problem.fit_course start maxIterations
  have hhistory : fit.history = problem.historyAfter start k :=
    problem.history_fit start maxIterations
  have hchain : fit.history.IsChain fun before after => Scalar.IsFinite after ∧ after < before := by
    rw [hhistory]
    exact problem.isChain_historyAfter start k
  have hgetLast : fit.history.getLast? = some fit.last.chi2 := by
    rw [hhistory, problem.getLast?_historyAfter start k, hlast]
  have hcoherent : problem.Coherent fit.last := by
    rw [hlast]
    exact problem.coherent_iterateAfter start k
  refine ⟨data, start, hdata, hstart, rfl, congrArg List.head? hhistory, hchain, hgetLast,
    hcoherent.values_eq, hcoherent.chi2_eq, congrArg some hattempts, hlast.symm, ?_, ?_⟩
  · exact fun i _ ha => (problem.step_after start i).point_of_unaccepted ha
  · rcases problem.point_iterateAfter start k with ⟨hnone, hpoint⟩ | ⟨i, hi, ha, htrial, hafter⟩
    · exact Or.inl ⟨hnone, congrArg Point.parameters (hlast.trans hpoint)⟩
    · exact Or.inr ⟨i, hi, ha, ⟨_, htrial, congrArg Point.parameters hlast⟩, hafter⟩

section Covariance

variable [Linear.HasPseudoInverse α]

theorem parameterCovariance_of_dof {s : Solver α m n} (hstatus : s.status ≠ .notRun)
    (hdof : s.dof = 0) :
    s.parameterCovariance = .error .noDegreesOfFreedom := by
  have hreduced : s.reducedChi2 = none := if_pos hdof
  unfold parameterCovariance
  rw [if_neg hstatus, hreduced]
  rfl

def lastNormal (s : Solver α m n) : Mat α m m :=
  let jacobian := s.model.jacobian s.parameters
  jacobian.transpose.mul (s.covariance.weightRows jacobian)

/-- With degrees of freedom only the pseudo-inverse can keep the covariance from being known. -/
theorem parameterCovariance_of_dof_ne_zero {s : Solver α m n} (hstatus : s.status ≠ .notRun)
    {p : Vector α m} (hp : s.parameters? = some p) (hdof : s.dof ≠ 0) :
    s.parameterCovariance =
      ((Linear.pseudoInverse s.lastNormal).mapError FitError.badNormalMatrix).map
        (·.scale (s.chi2 / (s.dof : α))) := by
  have hreduced : s.reducedChi2 = some (s.chi2 / (s.dof : α)) := if_neg hdof
  have hparameters : s.parameters = p := by rw [parameters, hp, Option.getD_some]
  unfold parameterCovariance lastNormal
  rw [if_neg hstatus, hreduced, hp, hparameters]
  simp only [bind, Except.bind, pure, Except.pure]
  cases Linear.pseudoInverse
      ((s.model.jacobian p).transpose.mul (s.covariance.weightRows (s.model.jacobian p))) with
  | error fault => rfl
  | ok inverse => rfl

end Covariance

/-- A solver of floats for the line through three points, with the covariance of unit variances. -/
def ofThreePoints : Solver Float 2 3 where
  model := Curve.model ⟨.line, [0.0, 1.0, 2.0]⟩ ⟨.analytic, none, false⟩
  settings := .standard
  data := some #v[1.0, 2.0, 4.0]
  parameters? := some #v[0.0, 0.0]
  covariance := .identity
  lastFit := none

theorem fit_holds_ofThreePoints :
    ∃ s', ofThreePoints.fit 100 = .ok s' ∧ ∃ data start, ofThreePoints.HoldsFit s' data start :=
  ⟨_, rfl, fit_holds ofThreePoints _ 100 rfl⟩

end Solver
end SkyCamera
