import SkyCamera.Proofs.ShapedFit
import SkyCamera.Proofs.SolverCalls

/-!
A solver as a program keeps it: lists of any length, replaced in place by operations that can fail
half way.
-/
namespace SkyCamera

namespace SizedCovariance

variable {α : Type} [Scalar α] {n : Nat}

def ofVariances (variances : List α) : Except (CovarianceFault α) (SizedCovariance α) :=
  (DataCovariance.ofVariances (Table.vector variances)).map fun covariance =>
    ⟨variances.length, covariance⟩

def ofTable (t : Table α) : Except (CovarianceFault α) (SizedCovariance α) :=
  (DataCovariance.ofTable t).map fun covariance => ⟨t.rows, covariance⟩

theorem ofVariances_toList (v : Vector α n) :
    ofVariances v.toList =
      (DataCovariance.ofVariances v).map fun covariance => ⟨n, covariance⟩ := by
  obtain ⟨⟨entries⟩, rfl⟩ := v
  rfl

theorem ofTable_ofMat (a : Mat α n n) :
    ofTable (.ofMat a) = (DataCovariance.ofMatrix a).map fun covariance => ⟨n, covariance⟩ := by
  rw [ofTable, DataCovariance.ofTable, Table.square?_ofMat]
  rfl

end SizedCovariance

structure Stored (α : Type) where
  settings : Settings α
  data : Option (List α)
  parameters? : Option (List α)
  covariance : SizedCovariance α
  values : List α
  chi2 : α
  history : List α
  status : FitStatus
  iterations : Nat
  lastLimit : Nat

def Stored.initial {α : Type} [Scalar α] (n : Nat) (settings : Settings α) : Stored α where
  settings := settings
  data := none
  parameters? := none
  covariance := ⟨n, .identity⟩
  values := List.replicate n 0
  chi2 := Scalar.undefined
  history := []
  status := .notRun
  iterations := 0
  lastLimit := 0

def Stored.problem {α : Type} (st : Stored α) (data : List α) : ShapedProblem α :=
  ⟨data, st.covariance, st.settings⟩

/-- What is changed before a failure stays changed. -/
abbrev SolverAction (α : Type) (m n : Nat) :=
  ExceptT (FitError α) (StateT (Stored α) (ShapedCalls α m n))

namespace SolverAction

open ShapedCalls Table

variable {α β γ : Type} [Scalar α] {m n : Nat}

def shaped (x : ShapedCalls α m n β) : SolverAction α m n β := liftM x

def checkLength (what : Quantity) (expected actual : Nat) : SolverAction α m n Unit :=
  if expected = actual then pure () else throw (.wrongLength what expected actual)

def setData (data : List α) : SolverAction α m n Unit := do
  checkLength .data n data.length
  modify fun st => { st with data := some data }

def setParameters (parameters : List α) : SolverAction α m n Unit := do
  checkLength .parameters m parameters.length
  modify fun st => { st with parameters? := some parameters }

def replaceCovariance (made : Except (CovarianceFault α) (SizedCovariance α)) :
    SolverAction α m n Unit :=
  match made with
  | .error fault => throw (.badCovariance fault)
  | .ok covariance => modify fun st => { st with covariance }

def setVariance (variance : List α) : SolverAction α m n Unit := do
  checkLength .variance n variance.length
  replaceCovariance (SizedCovariance.ofVariances variance)

def setCovariance (entries : List α) : SolverAction α m n Unit := do
  checkLength .covariance (n * n) entries.length
  let table ← shaped (fits (Table.ofList? n n entries))
  replaceCovariance (SizedCovariance.ofTable table)

variable (mode : JacobianMode)

def fit (maxIterations : Nat) : SolverAction α m n Bool := do
  if n < m then throw (.underdetermined n m)
  let st ← get
  let some data := st.data | throw .missingData
  let some start := st.parameters? | throw .missingParameters
  let outcome ← shaped ((st.problem data).fit mode start maxIterations)
  modify fun st => { st with
    parameters? := some outcome.last.parameters
    values := outcome.last.values
    chi2 := outcome.last.chi2
    history := outcome.history
    status := outcome.status
    iterations := outcome.iterations
    lastLimit := maxIterations }
  return outcome.status.isValid

def parameters : SolverAction α m n (List α) := do
  return (← get).parameters?.getD (List.replicate m 0)

def copyParameters (length : Nat) : SolverAction α m n (List α) := do
  checkLength .parameters m length
  let p ← parameters
  shaped (fits (if p.length = length then some p else none))

def residuals : SolverAction α m n (List α) := do
  let st ← get
  match st.data with
  | some data => shaped (fits (zip? (· - ·) data st.values))
  | none => return List.replicate n 0

def parameterCovariance [Linear.HasPseudoInverse α] : SolverAction α m n (Table α) := do
  let st ← get
  if st.status = .notRun then throw .notFitted
  if n - m = 0 then throw .noDegreesOfFreedom
  let some p := st.parameters? | throw .missingParameters
  let jacobian ← shaped (jacobian mode p)
  let weighted ← shaped (fits (st.covariance.covariance.weightRows? jacobian))
  let normal ← shaped (fits (jacobian.transpose.mul? weighted))
  match ← shaped (fits normal.pseudoInverse?) with
  | .error fault => throw (.badNormalMatrix fault)
  | .ok inverse => return inverse.scale (st.chi2 / ((n - m : Nat) : α))

def standardErrors [Linear.HasPseudoInverse α] : SolverAction α m n (List α) := do
  let covariance ← parameterCovariance mode
  shaped (fits covariance.standardErrors?)

def correlation [Linear.HasPseudoInverse α] : SolverAction α m n (Table α) := do
  let covariance ← parameterCovariance mode
  shaped (fits covariance.correlation)

def fivePoint? (h : α) (far near near' far' : List α) : Option (List α) := do
  let sum ← zip? (· + ·) (far.map (- ·)) (near.map (· * 8.0))
  let sum ← zip? (· - ·) sum (near'.map (· * 8.0))
  let sum ← zip? (· + ·) sum far'
  return sum.map (· / (12.0 * h))

def refit (st : Stored α) (data solution : List α) (i : Nat) (offset : α) :
    ShapedCalls α m n (List α) := do
  let datum ← fits data[i]?
  let outcome ← (st.problem (data.set i (datum + offset))).fit mode solution st.lastLimit
  return outcome.last.parameters

def sensitivity (st : Stored α) (data solution : List α) (i : Nat) :
    ShapedCalls α m n (Vector α m) := do
  let h := st.settings.dataStep
  let far ← refit mode st data solution i (2.0 * h)
  let near ← refit mode st data solution i h
  let near' ← refit mode st data solution i (-h)
  let far' ← refit mode st data solution i (-(2.0 * h))
  let row ← fits (fivePoint? h far near near' far')
  fits (fitted? m row)

def fourthOrderCovariance : SolverAction α m n (Table α) := do
  let st ← get
  if st.status = .notRun then throw .notFitted
  let some data := st.data | throw .missingData
  let some solution := st.parameters? | throw .missingParameters
  let sensitivities : Mat α n m ←
    shaped (Vector.ofFnM fun i => sensitivity mode st data solution i.val)
  shaped (fits (st.covariance.covariance.propagate? (.ofMat sensitivities)))

end SolverAction

/-- A setting that can be changed after a solver is made. -/
inductive Setting
  | exitTolerance
  | maxDamping
  | boost
  | dataStep

def Settings.tuned {α : Type} (s : Settings α) (value : α) : Setting → Settings α
  | .exitTolerance => { s with exitTolerance := value }
  | .maxDamping => { s with maxDamping := value }
  | .boost => { s with boost := value }
  | .dataStep => { s with dataStep := value }

/-- What can be read off a solver, numbers that it stores apart. -/
inductive Query
  | parameters
  | copiedParameters (length : Nat)
  | values
  | residuals
  | parameterCovariance
  | standardErrors
  | correlation
  | fourthOrderCovariance

inductive Operation (α : Type)
  | call (call : Solver.Call α)
  | tune (setting : Setting) (value : α)
  | ask (query : Query)

inductive Answer (α : Type)
  | done
  | fitted (valid : Bool)
  | numbers (v : List α)
  | table (t : Table α)

section Perform

variable {α : Type} [Scalar α] {m n : Nat}

namespace SolverAction

variable [Linear.HasPseudoInverse α] (mode : JacobianMode)

def ofCall : Solver.Call α → SolverAction α m n (Answer α)
  | .setData data => do setData data; return .done
  | .setParameters p => do setParameters p; return .done
  | .setVariance variance => do setVariance variance; return .done
  | .setCovariance entries => do setCovariance entries; return .done
  | .fit maxIterations => return .fitted (← fit mode maxIterations)

def ofQuery : Query → SolverAction α m n (Answer α)
  | .parameters => return .numbers (← parameters)
  | .copiedParameters length => return .numbers (← copyParameters length)
  | .values => return .numbers (← get).values
  | .residuals => return .numbers (← residuals)
  | .parameterCovariance => return .table (← parameterCovariance mode)
  | .standardErrors => return .numbers (← standardErrors mode)
  | .correlation => return .table (← correlation mode)
  | .fourthOrderCovariance => return .table (← fourthOrderCovariance mode)

def ofOperation : Operation α → SolverAction α m n (Answer α)
  | .call call => ofCall mode call
  | .tune setting value => do
    modify fun st => { st with settings := st.settings.tuned value setting }
    return .done
  | .ask query => ofQuery mode query

end SolverAction

namespace Solver

variable [Linear.HasPseudoInverse α] (s : Solver α m n)

def answerOf (s : Solver α m n) : Call α → Answer α
  | .setData _ | .setParameters _ | .setVariance _ | .setCovariance _ => .done
  | .fit _ => .fitted s.status.isValid

def ask : Query → Except (FitError α) (Answer α)
  | .parameters => .ok (.numbers s.parameters.toList)
  | .copiedParameters length =>
    if m = length then .ok (.numbers s.parameters.toList)
    else .error (.wrongLength .parameters m length)
  | .values => .ok (.numbers s.values.toList)
  | .residuals => .ok (.numbers s.residuals.toList)
  | .parameterCovariance => s.parameterCovariance.map fun a => .table (.ofMat a)
  | .standardErrors => s.parameterCovariance.map fun a => .numbers (Linear.standardErrors a).toList
  | .correlation => s.parameterCovariance.map fun a => .table (.ofMat (Linear.correlation a))
  | .fourthOrderCovariance => s.fourthOrderCovariance.map fun a => .table (.ofMat a)

def perform : Operation α → Except (FitError α) (Answer α) × Solver α m n
  | .call call =>
    match s.apply call with
    | .ok t => (.ok (t.answerOf call), t)
    | .error e => (.error e, s)
  | .tune setting value => (.ok .done, { s with settings := s.settings.tuned value setting })
  | .ask query => (s.ask query, s)

def stored (s : Solver α m n) : Stored α where
  settings := s.settings
  data := s.data.map (·.toList)
  parameters? := s.parameters?.map (·.toList)
  covariance := ⟨n, s.covariance⟩
  values := s.values.toList
  chi2 := s.chi2
  history := s.history
  status := s.status
  iterations := s.iterations
  lastLimit := (s.lastFit.map (·.maxIterations)).getD 0

end Solver

end Perform

namespace SolverAction

open ShapedCalls

theorem toList_of_vectorOfLength {α : Type} {what : Quantity} {k : Nat} {l : List α}
    {v : Vector α k} (h : vectorOfLength what k l = .ok v) : v.toList = l := by
  unfold vectorOfLength at h
  split at h
  · cases h
    rfl
  · cases h

theorem exists_vectorOfLength {α β : Type} {what : Quantity} {k : Nat} {l : List α}
    {next : Vector α k → Except (FitError α) β} :
    (∃ b, vectorOfLength what k l >>= next = .ok b) ↔
      ∃ h : l.length = k, ∃ b, next ⟨l.toArray, h⟩ = .ok b := by
  unfold vectorOfLength
  by_cases hlength : l.length = k
  · rw [dif_pos hlength]
    exact ⟨fun hb => ⟨hlength, hb⟩, fun ⟨_, hb⟩ => hb⟩
  · rw [dif_neg hlength]
    exact ⟨fun ⟨b, hb⟩ => (nomatch hb), fun ⟨h, _⟩ => absurd h hlength⟩

variable {α β γ : Type} [Scalar α] {m n : Nat}

/-- The calls that an action makes to the model, with its ending and what it leaves. -/
def exec (x : SolverAction α m n β) (st : Stored α) :
    Calls α m n (Option (Except (FitError α) β × Stored α)) :=
  (x.run.run st).run

variable (model : Model α m n)

def result (x : SolverAction α m n β) (st : Stored α) :
    Option (Except (FitError α) β × Stored α) :=
  (x.exec st).run model

variable (st : Stored α)

@[simp] theorem result_pure (b : β) :
    result model (pure b : SolverAction α m n β) st = some (.ok b, st) := rfl

@[simp] theorem result_get : result model (get : SolverAction α m n _) st = some (.ok st, st) := rfl

@[simp] theorem result_shaped (x : ShapedCalls α m n β) :
    result model (shaped x) st = (ShapedCalls.result model x).map fun b => (.ok b, st) := by
  refine (ShapedCalls.result_bind model _ _).trans ?_
  refine (congrArg (Option.bind · _) (ShapedCalls.result_bind model x _)).trans ?_
  cases ShapedCalls.result model x with
  | none => rfl
  | some b => rfl

/-- An action goes on from what the one before it stored, and a fault ends both. -/
@[simp] theorem result_bind (x : SolverAction α m n β) (f : β → SolverAction α m n γ) :
    result model (x >>= f) st = (result model x st).bind fun
      | (.ok b, next) => result model (f b) next
      | (.error e, next) => some (.error e, next) := by
  refine (ShapedCalls.result_bind model (x.run.run st) _).trans ?_
  show (result model x st).bind _ = _
  cases result model x st with
  | none => rfl
  | some ending =>
    obtain ⟨ending, next⟩ := ending
    cases ending with
    | ok b => rfl
    | error e => rfl

variable {model st}

theorem result_return {x : SolverAction α m n β} {ending : Except (FitError α) β} {next : Stored α}
    (h : result model x st = some (ending, next)) (f : β → γ) :
    result model (do return f (← x)) st = some (ending.map f, next) := by
  rw [result_bind, h]
  cases ending with
  | error e => rfl
  | ok b => rfl

theorem result_return_map {δ : Type} {x : SolverAction α m n β} {ending : Except (FitError α) δ}
    {g : δ → β} {next : Stored α} (h : result model x st = some (ending.map g, next)) (f : β → γ) :
    result model (do return f (← x)) st = some (ending.map fun d => f (g d), next) := by
  rw [result_return h]
  cases ending with
  | error e => rfl
  | ok d => rfl

variable (model st)

theorem result_checkLength (what : Quantity) (k : Nat) (l : List α) (next : SolverAction α m n β) :
    result model (do checkLength what k l.length; next) st =
      match vectorOfLength what k l with
      | .ok _ => result model next st
      | .error e => some (.error e, st) := by
  rw [result_bind]
  unfold checkLength vectorOfLength
  by_cases hlength : l.length = k
  · rw [if_pos hlength.symm, dif_pos hlength]
    rfl
  · rw [if_neg (Ne.symm hlength), dif_neg hlength]
    rfl

end SolverAction

end SkyCamera
