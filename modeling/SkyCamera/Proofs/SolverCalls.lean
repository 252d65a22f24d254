import Mathlib.Algebra.BigOperators.Field
import SkyCamera.Proofs.Endings
import SkyCamera.Proofs.FitHistory
import SkyCamera.Proofs.Weights

/-!
A solver between its calls. `Effect` lists what a call that succeeds can do, and a sequence of calls
is read back through it. The setters after a fit change what the next fit starts from; what the last
one reported stays as it is until then, so values and `χ²` are those of the place where that fit
ended.
-/
namespace SkyCamera.Solver

/-- A call that changes a solver. -/
inductive Call (α : Type)
  | setData (data : List α)
  | setParameters (parameters : List α)
  | setVariance (variance : List α)
  | setCovariance (entries : List α)
  | fit (maxIterations : Nat)

namespace Call

variable {α : Type}

def isFit : Call α → Bool
  | .fit _ => true
  | .setData _ | .setParameters _ | .setVariance _ | .setCovariance _ => false

def movesParameters : Call α → Bool
  | .setParameters _ | .fit _ => true
  | .setData _ | .setVariance _ | .setCovariance _ => false

/-- Whether a call changes what `χ²` is a function of, apart from the parameters. -/
def movesData : Call α → Bool
  | .setData _ | .setVariance _ | .setCovariance _ => true
  | .setParameters _ | .fit _ => false

end Call

/-- Calls with a fit among them have a last one. -/
theorem exists_last_fit {α : Type} (calls : List (Call α)) :
    (∀ call ∈ calls, call.isFit = false) ∨
      ∃ before limit since, calls = before ++ .fit limit :: since ∧
        ∀ call ∈ since, call.isFit = false := by
  induction calls with
  | nil => exact Or.inl fun _ h => absurd h List.not_mem_nil
  | cons call rest ih =>
    obtain hnone | ⟨before, limit, since, rfl, hsince⟩ := ih
    · cases call with
      | fit limit => exact Or.inr ⟨[], limit, rest, rfl, hnone⟩
      | _ => exact Or.inl (List.forall_mem_cons.mpr ⟨rfl, hnone⟩)
    · exact Or.inr ⟨call :: before, limit, since, rfl, hsince⟩

/-- What is kept of the solver `last` by calls that do not fit. -/
structure KeptSince {α : Type} {m n : Nat} (last : Solver α m n) (since : List (Call α))
    (s : Solver α m n) : Prop where
  model_eq : s.model = last.model
  lastFit_eq : s.lastFit = last.lastFit
  isSome_data : last.data.isSome → s.data.isSome
  parameters_eq : (∀ call ∈ since, call.movesParameters = false) →
    s.parameters? = last.parameters?
  data_eq : (∀ call ∈ since, call.movesData = false) →
    s.data = last.data ∧ s.covariance = last.covariance

theorem KeptSince.cons {α : Type} {m n : Nat} {last middle s : Solver α m n} {call : Call α}
    {since : List (Call α)} (h : last.KeptSince [call] middle) (hs : middle.KeptSince since s) :
    last.KeptSince (call :: since) s where
  model_eq := hs.model_eq.trans h.model_eq
  lastFit_eq := hs.lastFit_eq.trans h.lastFit_eq
  isSome_data := fun hdata => hs.isSome_data (h.isSome_data hdata)
  parameters_eq hcalls := by
    obtain ⟨hcall, hsince⟩ := List.forall_mem_cons.mp hcalls
    exact (hs.parameters_eq hsince).trans (h.parameters_eq (List.forall_mem_singleton.mpr hcall))
  data_eq hcalls := by
    obtain ⟨hcall, hsince⟩ := List.forall_mem_cons.mp hcalls
    obtain ⟨hdata, hcovariance⟩ := hs.data_eq hsince
    obtain ⟨hdata', hcovariance'⟩ := h.data_eq (List.forall_mem_singleton.mpr hcall)
    exact ⟨hdata.trans hdata', hcovariance.trans hcovariance'⟩

section Calls

variable {α : Type} [Scalar α] {m n : Nat}

def apply (s : Solver α m n) : Call α → Except (FitError α) (Solver α m n)
  | .setData data => s.setData data
  | .setParameters parameters => s.setParameters parameters
  | .setVariance variance => s.setVariance variance
  | .setCovariance entries => s.setCovariance entries
  | .fit maxIterations => s.fit maxIterations

/-- The solver after calls that all succeed, or the error of the first that does not. -/
def after (s : Solver α m n) (calls : List (Call α)) : Except (FitError α) (Solver α m n) :=
  calls.foldlM apply s

theorem after_cons (s : Solver α m n) (call : Call α) (rest : List (Call α)) :
    s.after (call :: rest) = s.apply call >>= fun t => t.after rest :=
  List.foldlM_cons

theorem after_append (s : Solver α m n) (before since : List (Call α)) :
    s.after (before ++ since) = s.after before >>= fun t => t.after since :=
  List.foldlM_append

/-- What a call that succeeds leaves of a solver. -/
inductive Effect (s : Solver α m n) : Call α → Solver α m n → Prop
  | setData (data : List α) (v : Vector α n) : Effect s (.setData data) { s with data := some v }
  | setParameters (parameters : List α) (v : Vector α m) :
      Effect s (.setParameters parameters) { s with parameters? := some v }
  | setVariance (variance : List α) {v : Vector α n} {covariance : DataCovariance α n}
      (hmade : DataCovariance.ofVariances v = .ok covariance) :
      Effect s (.setVariance variance) { s with covariance }
  | setCovariance (entries : List α) {a : Mat α n n} {covariance : DataCovariance α n}
      (hmade : DataCovariance.ofMatrix a = .ok covariance) :
      Effect s (.setCovariance entries) { s with covariance }
  | fit (maxIterations : Nat) {t : Solver α m n} {data : Vector α n} {start : Vector α m}
      (hholds : s.HoldsFit t data start) : Effect s (.fit maxIterations) t

theorem effect_of_apply {s t : Solver α m n} {call : Call α} (h : s.apply call = .ok t) :
    s.Effect call t := by
  cases call with
  | setData data =>
    obtain ⟨v, -, ht⟩ := bind_eq_ok.mp h
    cases ht
    exact .setData data v
  | setParameters parameters =>
    obtain ⟨v, -, ht⟩ := bind_eq_ok.mp h
    cases ht
    exact .setParameters parameters v
  | setVariance variance =>
    obtain ⟨v, -, hrest⟩ := bind_eq_ok.mp h
    obtain ⟨covariance, hmade, ht⟩ := bind_eq_ok.mp hrest
    cases ht
    exact .setVariance variance (mapError_eq_ok.mp hmade)
  | setCovariance entries =>
    obtain ⟨v, -, hrest⟩ := bind_eq_ok.mp h
    obtain ⟨covariance, hmade, ht⟩ := bind_eq_ok.mp hrest
    cases ht
    exact .setCovariance entries (mapError_eq_ok.mp hmade)
  | fit maxIterations =>
    obtain ⟨data, start, hholds⟩ := fit_holds s t maxIterations h
    exact .fit maxIterations hholds

/-- A call that is no fit leaves what the last fit left. -/
theorem Effect.kept {last s : Solver α m n} {call : Call α} (h : last.Effect call s)
    (hcall : call.isFit = false) : last.KeptSince [call] s := by
  cases h with
  | setData data v =>
    refine ⟨rfl, rfl, fun _ => rfl, fun _ => rfl, fun hnone => ?_⟩
    cases List.forall_mem_singleton.mp hnone
  | setParameters parameters v =>
    refine ⟨rfl, rfl, id, fun hnone => ?_, fun _ => ⟨rfl, rfl⟩⟩
    cases List.forall_mem_singleton.mp hnone
  | setVariance variance hmade =>
    refine ⟨rfl, rfl, id, fun _ => rfl, fun hnone => ?_⟩
    cases List.forall_mem_singleton.mp hnone
  | setCovariance entries hmade =>
    refine ⟨rfl, rfl, id, fun _ => rfl, fun hnone => ?_⟩
    cases List.forall_mem_singleton.mp hnone
  | fit => cases hcall

/-- Induction over the calls since the last fit. -/
theorem kept_of_after {last s : Solver α m n} {since : List (Call α)}
    (h : last.after since = .ok s) (hsince : ∀ call ∈ since, call.isFit = false) :
    last.KeptSince since s := by
  induction since generalizing last with
  | nil =>
    cases h
    exact ⟨rfl, rfl, id, fun _ => rfl, fun _ => ⟨rfl, rfl⟩⟩
  | cons call since ih =>
    obtain ⟨hcall, hrest⟩ := List.forall_mem_cons.mp hsince
    rw [after_cons] at h
    obtain ⟨middle, hmiddle, hs⟩ := bind_eq_ok.mp h
    exact ((effect_of_apply hmiddle).kept hcall).cons (ih hs hrest)

end Calls

section Reports

variable {m n : Nat}

theorem Effect.isMade {s t : Solver ℝ m n} {call : Call ℝ} (h : s.Effect call t)
    (hs : s.covariance.IsMade) : t.covariance.IsMade := by
  cases h with
  | setData => exact hs
  | setParameters => exact hs
  | setVariance _ hmade => exact Or.inl ⟨_, hmade⟩
  | setCovariance _ hmade => exact Or.inr ⟨_, hmade⟩
  | fit _ hholds =>
    rw [hholds.unchanged]
    exact hs

/-- Every covariance that a solver ever has passed its check. -/
theorem isMade_of_after {s t : Solver ℝ m n} {calls : List (Call ℝ)} (h : s.after calls = .ok t)
    (hs : s.covariance.IsMade) : t.covariance.IsMade := by
  induction calls generalizing s with
  | nil =>
    cases h
    exact hs
  | cons call rest ih =>
    rw [after_cons] at h
    obtain ⟨middle, hmiddle, ht⟩ := bind_eq_ok.mp h
    exact ih ht ((effect_of_apply hmiddle).isMade hs)

theorem isMade_ofModel (model : Model ℝ m n) (settings : Settings ℝ) :
    (ofModel model settings).covariance.IsMade := by
  refine Or.inl ⟨.replicate n 1, DataCovariance.ofVariances_of_pos fun i => ?_⟩
  simp

open Matrix Linear

noncomputable def normalMatrix (s : Solver ℝ m n) : Matrix (Fin m) (Fin m) ℝ :=
  let jacobian := (s.model.jacobian s.parameters).toMatrix
  jacobianᵀ * s.covariance.matrix⁻¹ * jacobian

variable [Linear.HasPseudoInverse ℝ]

/-- What a solver reports after the calls `since` its last fit, which left it as `last`. -/
structure ReportsSince (last : Solver ℝ m n) (since : List (Call ℝ)) (s : Solver ℝ m n) : Prop where
  values_eq : s.values = s.model.values last.parameters
  residuals_eq : ∃ data, s.data = some data ∧ s.residuals = data - s.values
  values_at_parameters : (∀ call ∈ since, call.movesParameters = false) →
    s.values = s.model.values s.parameters
  chi2_eq : (∀ call ∈ since, call.movesData = false) →
    s.chi2 = coords s.residuals ⬝ᵥ s.covariance.matrix⁻¹ *ᵥ coords s.residuals
  /-- Right after a fit one `χ²`, for each degree of freedom, and one normal matrix belong to one
  point. -/
  parameterCovariance_eq : since = [] → m < n → ∀ normal : Mat ℝ m m,
    normal.toMatrix = s.normalMatrix →
    s.parameterCovariance =
      ((pseudoInverse normal).mapError FitError.badNormalMatrix).map
        (·.scale ((coords s.residuals ⬝ᵥ s.covariance.matrix⁻¹ *ᵥ coords s.residuals) /
          ((n - m : Nat) : ℝ)))

/-- The reported covariance, with the normal matrix at the parameters that are set now. -/
theorem parameterCovariance_of_fitted {s : Solver ℝ m n} (hstatus : s.status ≠ .notRun)
    (hmade : s.covariance.IsMade) {p : Vector ℝ m} (hp : s.parameters? = some p) (hdof : m < n)
    {normal : Mat ℝ m m} (hnormal : normal.toMatrix = s.normalMatrix) :
    s.parameterCovariance =
      ((pseudoInverse normal).mapError FitError.badNormalMatrix).map
        (·.scale (s.chi2 / ((n - m : Nat) : ℝ))) := by
  have hsame : s.lastNormal = normal := by
    apply Mat.toMatrix_injective
    rw [lastNormal, Mat.toMatrix_mul, Mat.toMatrix_transpose, DataCovariance.toMatrix_weightRows,
      (DataCovariance.weightMatrix_of_isMade hmade).2, hnormal, normalMatrix, Matrix.mul_assoc]
  rw [parameterCovariance_of_dof_ne_zero hstatus hp (Nat.sub_ne_zero_of_lt hdof), hsame]
  rfl

/-- Values, residuals and `χ²` are those of the last fit; the covariance takes its normal matrix
from what has been set since. -/
theorem reportsSince_of_kept {first last s : Solver ℝ m n} {data : Vector ℝ n} {start : Vector ℝ m}
    {since : List (Call ℝ)} (hholds : first.HoldsFit last data start)
    (hkept : last.KeptSince since s) (hmade : s.covariance.IsMade) (hstatus : s.status ≠ .notRun) :
    last.ReportsSince since s := by
  have hmodel : last.model = first.model := by rw [hholds.unchanged]
  have hcovariance : last.covariance = first.covariance := by rw [hholds.unchanged]
  have hdata : last.data = some data := by
    rw [hholds.unchanged]
    exact hholds.data_eq
  have hparameters : last.parameters? = some last.parameters := by
    rw [hholds.unchanged]
    rfl
  have hvalues : s.values = last.values := by rw [values, hkept.lastFit_eq, values]
  have hchi2 : s.chi2 = last.chi2 := by rw [chi2, hkept.lastFit_eq, chi2]
  have hfitted : s.values = s.model.values last.parameters := by
    rw [hvalues, hholds.values_eq, hkept.model_eq, hmodel]
  obtain ⟨current, hcurrent⟩ := Option.isSome_iff_exists.mp
    (hkept.isSome_data (hdata ▸ Option.isSome_some))
  -- The reported `χ²` was computed with the data and the covariance of the fit, the form on the
  -- right is read with those of now.
  have hform (hsame : ∀ call ∈ since, call.movesData = false) :
      s.chi2 = coords s.residuals ⬝ᵥ s.covariance.matrix⁻¹ *ᵥ coords s.residuals := by
    obtain ⟨hsameData, hsameCovariance⟩ := hkept.data_eq hsame
    have hresiduals : s.residuals = data - last.values := by
      rw [residuals, hsameData, hdata, hvalues]
    rw [← (DataCovariance.weightMatrix_of_isMade hmade).2, hchi2, hholds.chi2_eq,
      DataCovariance.chi2_real, hresiduals, hsameCovariance, hcovariance]
  refine ⟨hfitted, ⟨current, hcurrent, by rw [residuals, hcurrent]⟩, fun hsame => ?_, hform, ?_⟩
  · have hplace : s.parameters = last.parameters := by
      rw [parameters, hkept.parameters_eq hsame, parameters]
    rw [hfitted, hplace]
  · rintro rfl hdof normal hnormal
    have hplace := hkept.parameters_eq fun _ h => absurd h List.not_mem_nil
    rw [parameterCovariance_of_fitted hstatus hmade (hplace.trans hparameters) hdof hnormal,
      hform fun _ h => absurd h List.not_mem_nil]

/-- What a solver reports, in every state that calls can lead to and that has a fit behind it. -/
theorem reports_since_last_fit {model : Model ℝ m n} {settings : Settings ℝ}
    {calls : List (Call ℝ)} {s : Solver ℝ m n}
    (h : (ofModel model settings).after calls = .ok s) (hstatus : s.status ≠ .notRun) :
    ∃ before limit since last, calls = before ++ .fit limit :: since ∧
      (∀ call ∈ since, call.isFit = false) ∧
      (ofModel model settings).after (before ++ [.fit limit]) = .ok last ∧
      last.ReportsSince since s := by
  obtain hnone | ⟨before, limit, since, rfl, hsince⟩ := exists_last_fit calls
  · have hnotRun : s.status = .notRun := by
      rw [status, (kept_of_after h hnone).lastFit_eq]
      rfl
    exact absurd hnotRun hstatus
  · have hmade := isMade_of_after h (isMade_ofModel model settings)
    rw [List.append_cons, after_append] at h
    obtain ⟨last, hlast, hs⟩ := bind_eq_ok.mp h
    have hcalls := hlast
    rw [after_append] at hcalls
    obtain ⟨first, -, hfit⟩ := bind_eq_ok.mp hcalls
    obtain ⟨_, happly, hdone⟩ := bind_eq_ok.mp hfit
    cases hdone
    obtain ⟨data, start, hholds⟩ := fit_holds first last limit happly
    exact ⟨before, limit, since, last, rfl, hsince, hlast,
      reportsSince_of_kept hholds (kept_of_after hs hsince) hmade hstatus⟩

end Reports

noncomputable def level (n : Nat) : Model ℝ 1 n :=
  Curve.model ⟨.polynomial, List.replicate n 0⟩ ⟨.analytic, none, false⟩

theorem values_level (n : Nat) (x : ℝ) : (level n).values #v[x] = Vector.replicate n x := by
  ext i hi
  simp [level, Curve.model, Curve.values, CurveKind.uniform?, Curve.listed, CurveKind.isProblem,
    CurveKind.value]

theorem reports_since_last_fit_level :
    ∃ calls s, (ofModel (level 2) .standard).after calls = .ok s ∧ s.status ≠ .notRun ∧
      ∃ before limit since last, calls = before ++ .fit limit :: since ∧
        (∀ call ∈ since, call.isFit = false) ∧
        (ofModel (level 2) .standard).after (before ++ [.fit limit]) = .ok last ∧
        last.ReportsSince since s := by
  let calls : List (Call ℝ) :=
    [.setData [1, 3], .setParameters [0], .fit 5, .setParameters [4], .setData [1, 5]]
  obtain ⟨s, hs, hstatus⟩ : ∃ s, (ofModel (level 2) .standard).after calls = .ok s ∧
      s.status ≠ .notRun := ⟨_, rfl, Problem.status_ne_notRun _ _ _⟩
  exact ⟨calls, s, hs, hstatus, reports_since_last_fit hs hstatus⟩

/-- Parameters that are set after a fit are not those of the values that the solver reports. -/
theorem values_ne_of_setParameters :
    ∃ s, (ofModel (level 1) .standard).after
        [.setData [1], .setParameters [1], .fit 0, .setParameters [0]] = .ok s ∧
      s.status ≠ .notRun ∧ s.values ≠ s.model.values s.parameters := by
  refine ⟨_, rfl, Problem.status_ne_notRun _ _ _, ?_⟩
  let problem : Problem ℝ 1 1 := ⟨level 1, #v[1], .identity, .standard⟩
  have hlast : (problem.fit #v[1] 0).last = problem.point #v[1] := by
    obtain ⟨-, hlast, -⟩ := problem.fit_course #v[1] 0
    rw [Nat.le_zero.mp (problem.iterations_le #v[1] 0)] at hlast
    exact hlast
  intro hsame
  have hvalues : (problem.fit #v[1] 0).last.values = (level 1).values #v[0] := hsame
  have hstart : (problem.point #v[1]).values = (level 1).values #v[1] := rfl
  rw [hlast, hstart, values_level, values_level] at hvalues
  have hentry : (1 : ℝ) = 0 := congrArg (·[0]) hvalues
  exact one_ne_zero hentry

end SkyCamera.Solver
