import SkyCamera.Proofs.StoredSolver

/-!
A stored solver that is only changed by its operations is a solver on vectors: all its sizes are
those of its model, and no operation fails once it has changed anything.
-/
namespace SkyCamera

namespace Solver

open SolverAction

theorem exists_replaced {α : Type} {m n : Nat} (s : Solver α m n)
    {made : Except (CovarianceFault α) (DataCovariance α n)} :
    (∃ t, (do return { s with covariance := ← made.mapError FitError.badCovariance }) =
      Except.ok t) ↔ ∃ covariance, made = .ok covariance := by
  cases made with
  | error fault => simp [Except.mapError, bind, Except.bind]
  | ok covariance => simp [Except.mapError, bind, Except.bind, pure, Except.pure]

variable {α : Type} [Scalar α] {m n : Nat} (s : Solver α m n)

def endingOf (x : Except (FitError α) (Solver α m n)) : Except (FitError α) Unit × Stored α :=
  match x with
  | .ok t => (.ok (), t.stored)
  | .error e => (.error e, s.stored)

theorem result_setData (data : List α) :
    result s.model (SolverAction.setData data) s.stored = some (s.endingOf (s.setData data)) := by
  rw [SolverAction.setData, result_checkLength, Solver.setData]
  cases hv : vectorOfLength .data n data with
  | error e => rfl
  | ok v =>
    obtain rfl := toList_of_vectorOfLength hv
    rfl

theorem result_setParameters (parameters : List α) :
    result s.model (SolverAction.setParameters parameters) s.stored =
      some (s.endingOf (s.setParameters parameters)) := by
  rw [SolverAction.setParameters, result_checkLength, Solver.setParameters]
  cases hv : vectorOfLength .parameters m parameters with
  | error e => rfl
  | ok v =>
    obtain rfl := toList_of_vectorOfLength hv
    rfl

theorem result_replaceCovariance (made : Except (CovarianceFault α) (DataCovariance α n)) :
    result s.model (replaceCovariance (made.map fun covariance => ⟨n, covariance⟩)) s.stored =
      some (s.endingOf (do return { s with covariance := ← made.mapError .badCovariance })) := by
  cases made with
  | error fault => rfl
  | ok covariance => rfl

theorem result_setVariance (variance : List α) :
    result s.model (SolverAction.setVariance variance) s.stored =
      some (s.endingOf (s.setVariance variance)) := by
  rw [SolverAction.setVariance, result_checkLength, Solver.setVariance]
  cases hv : vectorOfLength .variance n variance with
  | error e => rfl
  | ok v =>
    obtain rfl := toList_of_vectorOfLength hv
    rw [SizedCovariance.ofVariances_toList]
    exact s.result_replaceCovariance (DataCovariance.ofVariances v)

/-- A covariance that is refused for its length or by its check leaves the solver as it was. -/
theorem result_setCovariance (entries : List α) :
    result s.model (SolverAction.setCovariance entries) s.stored =
      some (s.endingOf (s.setCovariance entries)) := by
  rw [SolverAction.setCovariance, result_checkLength, Solver.setCovariance]
  cases hv : vectorOfLength .covariance (n * n) entries with
  | error e => rfl
  | ok v =>
    obtain rfl := toList_of_vectorOfLength hv
    have htable : Table.ofList? n n v.toList = some (.ofMat (Mat.ofRows v)) :=
      dif_pos v.length_toList
    rw [htable]
    simp only [result_bind, result_shaped, ShapedCalls.result_fits, Option.map_some,
      Option.bind_some, SizedCovariance.ofTable_ofMat]
    exact s.result_replaceCovariance (DataCovariance.ofMatrix (Mat.ofRows v))

/-- A setter succeeds in place where it does on values. -/
theorem exists_endingOf_ok {x : Except (FitError α) (Solver α m n)} :
    (∃ next, some (s.endingOf x) = some (.ok (), next)) ↔ ∃ t, x = .ok t := by
  cases x with
  | error e => simp [endingOf]
  | ok t => simp [endingOf]

theorem problem_stored (data : Vector α n) :
    s.stored.problem data.toList = (s.problem data).shaped := rfl

theorem covariance_stored : s.stored.covariance = ⟨n, s.covariance⟩ := rfl

theorem data_stored : s.stored.data = s.data.map (·.toList) := rfl

theorem parameters_stored : s.stored.parameters? = s.parameters?.map (·.toList) := rfl

/-- The faults of a fit in the order of their checks. -/
theorem fit_eq_error_iff {limit : Nat} {e : FitError α} :
    s.fit limit = .error e ↔
      n < m ∧ e = .underdetermined n m ∨
      m ≤ n ∧ s.data = none ∧ e = .missingData ∨
      m ≤ n ∧ s.data ≠ none ∧ s.parameters? = none ∧ e = .missingParameters := by
  unfold fit
  by_cases hless : n < m
  · simp [hless, Nat.not_le.mpr hless, eq_comm]
  · rw [if_neg hless]
    cases s.data with
    | none => simp [hless, Nat.not_lt.mp hless, eq_comm]
    | some data =>
      cases s.parameters? with
      | none => simp [hless, Nat.not_lt.mp hless, eq_comm]
      | some start => simp [hless]

/-- The stored solver is fitted in place; a fault leaves it as it was. -/
theorem result_fit (limit : Nat) :
    result s.model (SolverAction.fit s.model.derivative.mode limit) s.stored =
      some (match s.fit limit with
        | .ok t => (.ok t.status.isValid, t.stored)
        | .error e => (.error e, s.stored)) := by
  obtain ⟨model, settings, data, start, covariance, lastFit⟩ := s
  unfold SolverAction.fit Solver.fit
  by_cases hless : n < m
  · rw [if_pos hless, if_pos hless]
    rfl
  · rw [if_neg hless, if_neg hless]
    cases data with
    | none => rfl
    | some data =>
      cases start with
      | none => rfl
      | some start =>
        let problem : Problem α m n := ⟨model, data, covariance, settings⟩
        have hrun : ShapedCalls.result model (problem.shaped.fit model.derivative.mode
            start.toList limit) = some (problem.fit start limit).outcome :=
          problem.result_fit start limit
        refine (SolverAction.result_bind model _ (shaped (problem.shaped.fit
          model.derivative.mode start.toList limit)) _).trans ?_
        rw [result_shaped, hrun]
        rfl

/-- A fit that fails has not asked the model for anything. -/
theorem log_fit_of_error {limit : Nat} {e : FitError α} (h : s.fit limit = .error e) :
    (exec (SolverAction.fit s.model.derivative.mode limit : SolverAction α m n Bool)
      s.stored).log s.model = [] := by
  obtain ⟨model, settings, data, start, covariance, lastFit⟩ := s
  unfold SolverAction.fit
  obtain ⟨hless, -⟩ | ⟨hle, hdata, -⟩ | ⟨hle, hdata, hstart, -⟩ := (fit_eq_error_iff _).mp h
  · rw [if_pos hless]
    rfl
  · rw [if_neg (Nat.not_lt.mpr hle)]
    cases hdata
    rfl
  · rw [if_neg (Nat.not_lt.mpr hle)]
    cases data with
    | none => exact absurd rfl hdata
    | some data =>
      cases hstart
      rfl

theorem toList_zero (k : Nat) : (0 : Vector α k).toList = List.replicate k 0 :=
  Vector.toList_replicate

theorem result_parameters :
    result s.model SolverAction.parameters s.stored = some (.ok s.parameters.toList, s.stored) := by
  obtain ⟨model, settings, data, start, covariance, lastFit⟩ := s
  cases start with
  | none =>
    rw [parameters, Option.getD_none, toList_zero]
    rfl
  | some start => rfl

/-- There are as many parameters as there is room for, once the room has been checked. -/
theorem result_copyParameters (length : Nat) :
    result s.model (SolverAction.copyParameters length) s.stored =
      some (if m = length then .ok s.parameters.toList
        else .error (.wrongLength .parameters m length), s.stored) := by
  unfold SolverAction.copyParameters checkLength
  by_cases hlength : m = length
  · subst hlength
    rw [if_pos rfl, if_pos rfl, SolverAction.result_bind, result_pure, Option.bind_some]
    refine (SolverAction.result_bind ..).trans ?_
    rw [result_parameters]
    refine (result_shaped ..).trans ?_
    rw [ShapedCalls.result_fits, if_pos s.parameters.length_toList]
    rfl
  · rw [if_neg hlength, if_neg hlength]
    rfl

theorem result_residuals :
    result s.model SolverAction.residuals s.stored = some (.ok s.residuals.toList, s.stored) := by
  obtain ⟨model, settings, data, start, covariance, lastFit⟩ := s
  cases data with
  | none =>
    rw [residuals, toList_zero]
    rfl
  | some data =>
    refine (SolverAction.result_bind ..).trans ?_
    rw [result_get, Option.bind_some]
    dsimp only [stored, Option.map_some]
    rw [result_shaped, ShapedCalls.result_fits, Table.zip?_sub]
    rfl

section Covariances

variable [Linear.HasPseudoInverse α]

theorem result_parameterCovariance :
    result s.model (SolverAction.parameterCovariance s.model.derivative.mode) s.stored =
      some (s.parameterCovariance.map .ofMat, s.stored) := by
  unfold SolverAction.parameterCovariance Solver.parameterCovariance
  refine (SolverAction.result_bind ..).trans ?_
  rw [result_get, Option.bind_some]
  by_cases hstatus : s.status = .notRun
  · have hstored : s.stored.status = .notRun := hstatus
    simp only [if_pos hstatus, if_pos hstored]
    rfl
  · have hstored : s.stored.status ≠ .notRun := hstatus
    simp only [if_neg hstatus, if_neg hstored]
    by_cases hdof : n - m = 0
    · have hreduced : s.reducedChi2 = none := if_pos hdof
      simp only [if_pos hdof, hreduced]
      rfl
    · have hreduced : s.reducedChi2 = some (s.chi2 / ((n - m : Nat) : α)) := if_neg hdof
      simp only [if_neg hdof, hreduced]
      cases hp : s.parameters? with
      | none =>
        simp only [parameters_stored, hp, Option.map_none]
        rfl
      | some p =>
        simp only [parameters_stored, hp, Option.map_some]
        simp only [SolverAction.result_bind, result_shaped, ShapedCalls.result_jacobian,
          ShapedCalls.result_fits, Option.map_some, Option.bind_some, covariance_stored,
          DataCovariance.weightRows?_ofMat, Table.transpose_ofMat, Table.mul?_ofMat,
          Table.pseudoInverse?_ofMat]
        cases Linear.pseudoInverse ((s.model.jacobian p).transpose.mul _) with
        | error fault => rfl
        | ok inverse => rfl

theorem result_standardErrors :
    result s.model (SolverAction.standardErrors s.model.derivative.mode) s.stored =
      some (s.parameterCovariance.map fun a => (Linear.standardErrors a).toList, s.stored) := by
  rw [SolverAction.standardErrors, SolverAction.result_bind, result_parameterCovariance]
  cases s.parameterCovariance with
  | error e => rfl
  | ok a =>
    refine (result_shaped ..).trans ?_
    rw [ShapedCalls.result_fits, Table.standardErrors?_ofMat]
    rfl

theorem result_correlation :
    result s.model (SolverAction.correlation s.model.derivative.mode) s.stored =
      some (s.parameterCovariance.map fun a => .ofMat (Linear.correlation a), s.stored) := by
  rw [SolverAction.correlation, SolverAction.result_bind, result_parameterCovariance]
  cases s.parameterCovariance with
  | error e => rfl
  | ok a =>
    refine (result_shaped ..).trans ?_
    rw [ShapedCalls.result_fits, Table.correlation_ofMat]
    rfl

end Covariances

theorem fivePoint?_toList {k : Nat} (h : α) (far near near' far' : Vector α k) :
    fivePoint? h far.toList near.toList near'.toList far'.toList =
      some (Model.fivePoint h far near near' far').toList := by
  have hfar : far.toList.map (- ·) = (-far).toList := Vector.toList_map.symm
  have hscaled (v : Vector α k) : v.toList.map (· * (8.0 : α)) = (v.map (· * 8.0)).toList :=
    Vector.toList_map.symm
  unfold fivePoint?
  simp only [hfar, hscaled, Table.zip?_add, Table.zip?_sub, Option.bind_eq_bind, Option.bind_some]
  exact congrArg some Vector.toList_map.symm

theorem result_refit {last : Fit α m n} (hlast : s.lastFit = some last) (data : Vector α n)
    (solution : Vector α m) (i : Fin n) (offset : α) :
    ShapedCalls.result s.model (refit s.model.derivative.mode s.stored data.toList
        solution.toList i.val offset) =
      some ((s.problem (data.set i (data[i] + offset) i.isLt)).fit solution
        last.maxIterations).last.parameters.toList := by
  have hlimit : s.stored.lastLimit = last.maxIterations := by rw [stored, hlast]; rfl
  have hdatum : data.toList[i.val]? = some data[i] := by simp
  have hset : data.toList.set i.val (data[i] + offset) =
      (data.set i (data[i] + offset) i.isLt).toList := (Vector.toList_set ..).symm
  let problem := s.problem (data.set i (data[i] + offset) i.isLt)
  have hrun : ShapedCalls.result s.model (problem.shaped.fit s.model.derivative.mode
      solution.toList last.maxIterations) =
      some (problem.fit solution last.maxIterations).outcome :=
    problem.result_fit solution last.maxIterations
  rw [refit, hdatum, hlimit, ShapedCalls.result_bind, ShapedCalls.result_fits, Option.bind_some,
    hset, problem_stored, ShapedCalls.result_bind, hrun]
  rfl

theorem result_sensitivity {last : Fit α m n} (hlast : s.lastFit = some last) (data : Vector α n)
    (solution : Vector α m) (i : Fin n) :
    let h := s.settings.dataStep
    let refit (i : Fin n) (offset : α) : Vector α m :=
      ((s.problem (data.set i (data[i] + offset) i.isLt)).fit solution
        last.maxIterations).last.parameters
    ShapedCalls.result s.model (sensitivity s.model.derivative.mode s.stored data.toList
        solution.toList i.val) =
      some (Model.fivePoint h (refit i (2.0 * h)) (refit i h) (refit i (-h))
        (refit i (-(2.0 * h)))) := by
  intro h refit
  have hsettings : s.stored.settings.dataStep = h := rfl
  simp only [sensitivity, hsettings, ShapedCalls.result_bind, s.result_refit hlast,
    Option.bind_some, ShapedCalls.result_fits, fivePoint?_toList, Table.fitted?_toList]
  rfl

def HasEnded : Prop := ∀ fit, s.lastFit = some fit → fit.status ≠ .notRun

/-- A fit never leaves the status of one that was not run. -/
theorem hasEnded_of_apply {t : Solver α m n} {call : Call α} (h : s.apply call = .ok t)
    (hs : s.HasEnded) : t.model = s.model ∧ t.HasEnded := by
  cases effect_of_apply h with
  | setData | setParameters | setVariance | setCovariance => exact ⟨rfl, hs⟩
  | fit limit _ =>
    obtain ⟨data, start, -, -, rfl⟩ := fit_eq_ok h
    refine ⟨rfl, fun fit hfit => ?_⟩
    cases hfit
    exact (s.problem data).status_ne_notRun start limit

/-- Sensitivities row by row, each from four refits, and then the propagation. -/
theorem result_fourthOrderCovariance (hs : s.HasEnded) :
    result s.model (SolverAction.fourthOrderCovariance s.model.derivative.mode) s.stored =
      some (s.fourthOrderCovariance.map .ofMat, s.stored) := by
  unfold SolverAction.fourthOrderCovariance Solver.fourthOrderCovariance
  refine (SolverAction.result_bind ..).trans ?_
  rw [result_get, Option.bind_some]
  cases hlast : s.lastFit with
  | none =>
    have hstored : s.stored.status = .notRun := by
      show s.status = _
      rw [status, hlast]
      rfl
    simp only [if_pos hstored]
    rfl
  | some last =>
    have hstored : s.stored.status ≠ .notRun := by
      show s.status ≠ _
      rw [status, hlast]
      exact hs last hlast
    simp only [if_neg hstored]
    cases hdata : s.data with
    | none =>
      simp only [data_stored, hdata, Option.map_none]
      rfl
    | some data =>
      simp only [data_stored, hdata, Option.map_some]
      cases hp : s.parameters? with
      | none =>
        simp only [parameters_stored, hp, Option.map_none]
        rfl
      | some solution =>
        simp only [parameters_stored, hp, Option.map_some]
        have hrows := ShapedCalls.result_ofFnM s.model (s.result_sensitivity hlast data solution)
        rw [SolverAction.result_bind, result_shaped, hrows]
        refine (result_shaped ..).trans ?_
        rw [ShapedCalls.result_fits, covariance_stored, DataCovariance.propagate?_ofMat]
        rfl

variable [Linear.HasPseudoInverse α]

/-- Every setter and the fit, over the stored solver and over the sized one. -/
theorem result_ofCall (call : Call α) :
    result s.model (ofCall s.model.derivative.mode call) s.stored =
      some ((s.perform (.call call)).1, (s.perform (.call call)).2.stored) := by
  have hsetter {x : Except (FitError α) (Solver α m n)} {action : SolverAction α m n Unit}
      (haction : result s.model action s.stored = some (s.endingOf x))
      (hx : s.apply call = x) (hanswer : ∀ t : Solver α m n, t.answerOf call = .done) :
      result s.model (do action; return Answer.done) s.stored =
        some ((s.perform (.call call)).1, (s.perform (.call call)).2.stored) := by
    rw [SolverAction.result_bind, haction, perform, hx]
    cases x with
    | error e => rfl
    | ok t =>
      simp [endingOf, hanswer]
  cases call with
  | setData data => exact hsetter (s.result_setData data) rfl fun _ => rfl
  | setParameters p => exact hsetter (s.result_setParameters p) rfl fun _ => rfl
  | setVariance variance => exact hsetter (s.result_setVariance variance) rfl fun _ => rfl
  | setCovariance entries => exact hsetter (s.result_setCovariance entries) rfl fun _ => rfl
  | fit limit =>
    rw [ofCall, SolverAction.result_bind, result_fit, perform, apply]
    cases s.fit limit with
    | error e => rfl
    | ok t => rfl

/-- Every getter leaves the stored solver and answers as the sized one. -/
theorem result_ofQuery (hs : s.HasEnded) (query : Query) :
    result s.model (ofQuery s.model.derivative.mode query) s.stored =
      some (s.ask query, s.stored) := by
  cases query with
  | parameters => exact result_return s.result_parameters Answer.numbers
  | copiedParameters length =>
    refine (result_return (s.result_copyParameters length) Answer.numbers).trans ?_
    rw [ask]
    split
    · rfl
    · rfl
  | values => rfl
  | residuals => exact result_return s.result_residuals Answer.numbers
  | parameterCovariance => exact result_return_map s.result_parameterCovariance Answer.table
  | standardErrors => exact result_return_map s.result_standardErrors Answer.numbers
  | correlation => exact result_return_map s.result_correlation Answer.table
  | fourthOrderCovariance =>
    exact result_return_map (s.result_fourthOrderCovariance hs) Answer.table

/-- In place and on values, an operation ends in one way. -/
theorem result_ofOperation (hs : s.HasEnded) (op : Operation α) :
    result s.model (ofOperation s.model.derivative.mode op) s.stored =
      some ((s.perform op).1, (s.perform op).2.stored) := by
  cases op with
  | call call => exact s.result_ofCall call
  | tune setting value => rfl
  | ask query => exact s.result_ofQuery hs query

theorem hasEnded_perform (hs : s.HasEnded) (op : Operation α) :
    (s.perform op).2.model = s.model ∧ (s.perform op).2.HasEnded := by
  cases op with
  | call call =>
    rw [perform]
    cases happly : s.apply call with
    | error e => exact ⟨rfl, hs⟩
    | ok t => exact s.hasEnded_of_apply happly hs
  | tune setting value => exact ⟨rfl, hs⟩
  | ask query => exact ⟨rfl, hs⟩

/-- An operation that fails leaves the solver as it was. -/
theorem perform_of_error {op : Operation α} {e : FitError α} (h : (s.perform op).1 = .error e) :
    (s.perform op).2 = s := by
  cases op with
  | call call =>
    rw [perform] at h ⊢
    cases happly : s.apply call with
    | error e => rfl
    | ok t =>
      rw [happly] at h
      cases h
  | tune setting value => cases h
  | ask query => rfl

end Solver

namespace Stored

open SolverAction

variable {α : Type} [Scalar α] {m n : Nat} (model : Model α m n)

theorem stored_ofModel (settings : Settings α) :
    (Solver.ofModel model settings).stored = initial n settings := by
  simp [Solver.stored, initial, Solver.ofModel, Solver.values, Solver.chi2, Solver.history,
    Solver.status, Solver.iterations, Solver.toList_zero]

variable [Linear.HasPseudoInverse α]

def perform (st : Stored α) (op : Operation α) :
    Option (Except (FitError α) (Answer α) × Stored α) :=
  result model (ofOperation model.derivative.mode op) st

/-- What operations leave. One that fails leaves its solver to the next. -/
def after (st : Stored α) : List (Operation α) → Option (Stored α)
  | [] => some st
  | op :: ops => (st.perform model op).bind fun (_, next) => next.after ops

/-- Induction over the operations: the stored solver is that of a sized one throughout. -/
theorem after_stored {s : Solver α m n} (hs : s.HasEnded) (ops : List (Operation α)) :
    ∃ t : Solver α m n, t.model = s.model ∧ t.HasEnded ∧
      s.stored.after s.model ops = some t.stored := by
  induction ops generalizing s with
  | nil => exact ⟨s, rfl, hs, rfl⟩
  | cons op ops ih =>
    obtain ⟨hmodel, hnext⟩ := s.hasEnded_perform hs op
    obtain ⟨t, htmodel, ht, hafter⟩ := ih hnext
    refine ⟨t, htmodel.trans hmodel, ht, ?_⟩
    rw [after, perform, s.result_ofOperation hs, ← hmodel]
    exact hafter

/-- What holds of a solver for `m` parameters and `n` data between its operations. -/
structure Sound (st : Stored α) : Prop where
  data_length : ∀ data, st.data = some data → data.length = n
  parameters_length : ∀ p, st.parameters? = some p → p.length = m
  covariance_size : st.covariance.size = n
  values_length : st.values.length = n
  /-- No operation comes upon shapes that do not fit. -/
  fits : ∀ op, ∃ ending next, st.perform model op = some (ending, next)
  setData_iff : ∀ data, (∃ next, result model (setData data) st = some (.ok (), next)) ↔
    data.length = n
  setParameters_iff : ∀ p, (∃ next, result model (setParameters p) st = some (.ok (), next)) ↔
    p.length = m
  setVariance_iff : ∀ variance,
    (∃ next, result model (setVariance variance) st = some (.ok (), next)) ↔
      ∃ h : variance.length = n, ∃ covariance,
        DataCovariance.ofVariances (⟨variance.toArray, h⟩ : Vector α n) = .ok covariance
  setCovariance_iff : ∀ entries,
    (∃ next, result model (setCovariance entries) st = some (.ok (), next)) ↔
      ∃ h : entries.length = n * n, ∃ covariance,
        DataCovariance.ofMatrix (Mat.ofRows ⟨entries.toArray, h⟩) = .ok covariance
  fit_fails_iff : ∀ limit e,
    (∃ next, result model (fit model.derivative.mode limit) st = some (.error e, next)) ↔
      n < m ∧ e = .underdetermined n m ∨
      m ≤ n ∧ st.data = none ∧ e = .missingData ∨
      m ≤ n ∧ st.data ≠ none ∧ st.parameters? = none ∧ e = .missingParameters
  /-- An operation that fails changes nothing. -/
  kept : ∀ op e next, st.perform model op = some (.error e, next) → next = st
  /-- A fit that fails has not asked the model for anything. -/
  unasked : ∀ limit e next,
    result model (fit model.derivative.mode limit) st = some (.error e, next) →
      (exec (fit model.derivative.mode limit : SolverAction α m n Bool) st).log model = []

theorem sound_stored {s : Solver α m n} (hs : s.HasEnded) : Sound s.model s.stored where
  data_length data hdata := by
    obtain ⟨v, -, rfl⟩ := Option.map_eq_some_iff.mp hdata
    exact v.length_toList
  parameters_length p hp := by
    obtain ⟨v, -, rfl⟩ := Option.map_eq_some_iff.mp hp
    exact v.length_toList
  covariance_size := rfl
  values_length := s.values.length_toList
  fits op := ⟨_, _, s.result_ofOperation hs op⟩
  setData_iff data := by
    rw [s.result_setData, s.exists_endingOf_ok]
    refine exists_vectorOfLength.trans ⟨fun ⟨h, _⟩ => h, fun h => ⟨h, _, rfl⟩⟩
  setParameters_iff p := by
    rw [s.result_setParameters, s.exists_endingOf_ok]
    refine exists_vectorOfLength.trans ⟨fun ⟨h, _⟩ => h, fun h => ⟨h, _, rfl⟩⟩
  setVariance_iff variance := by
    rw [s.result_setVariance, s.exists_endingOf_ok]
    exact exists_vectorOfLength.trans (exists_congr fun _ => s.exists_replaced)
  setCovariance_iff entries := by
    rw [s.result_setCovariance, s.exists_endingOf_ok]
    exact exists_vectorOfLength.trans (exists_congr fun _ => s.exists_replaced)
  fit_fails_iff limit e := by
    have hending : (∃ next, result s.model (fit s.model.derivative.mode limit) s.stored =
        some (.error e, next)) ↔ s.fit limit = .error e := by
      rw [s.result_fit]
      cases s.fit limit with
      | error e' => simp
      | ok t => simp
    rw [hending, s.fit_eq_error_iff, ne_eq, ne_eq, s.data_stored, s.parameters_stored,
      Option.map_eq_none_iff, Option.map_eq_none_iff]
  kept op e next h := by
    have hboth := (s.result_ofOperation hs op).symm.trans h
    obtain ⟨hending, rfl⟩ := Prod.mk.inj (Option.some.inj hboth)
    rw [s.perform_of_error hending]
  unasked limit e next h := by
    rw [s.result_fit] at h
    cases hfit : s.fit limit with
    | error e' => exact s.log_fit_of_error hfit
    | ok t =>
      rw [hfit] at h
      cases h

/-- Whatever operations a solver has been through, its sizes are those that it was made for, and
it is the solver on vectors of these sizes. -/
theorem keeps_shapes (settings : Settings α) (ops : List (Operation α)) :
    ∃ s : Solver α m n, (initial n settings).after model ops = some s.stored ∧
      s.stored.Sound model ∧
      ∀ op, s.stored.perform model op = some ((s.perform op).1, (s.perform op).2.stored) := by
  have hfirst : (Solver.ofModel model settings).HasEnded := fun fit hfit => nomatch hfit
  obtain ⟨s, hmodel, hs, hafter⟩ := after_stored hfirst ops
  obtain rfl : s.model = model := hmodel
  rw [stored_ofModel] at hafter
  exact ⟨s, hafter, sound_stored hs, s.result_ofOperation hs⟩

end Stored

end SkyCamera
