import SkyCamera.LeastSquares.Weighting
import SkyCamera.Proofs.SolverCalls

/-!
Independent data have a covariance in two forms, as variances and as a diagonal matrix. A solver
asks its covariance for weighted vectors and matrices and for what is propagated, so two covariances
that answer alike can stand for each other in every sequence of calls; the two forms do in exact
arithmetic.
-/
namespace SkyCamera

/-- Two covariances that no operation tells apart. -/
structure DataCovariance.Alike {α : Type} [Scalar α] {n : Nat} (cov cov' : DataCovariance α n) :
    Prop where
  weight_eq : ∀ v, cov'.weight v = cov.weight v
  weightRows_eq : ∀ {c : Nat} (j : Mat α n c), cov'.weightRows j = cov.weightRows j
  chi2_eq : ∀ r, cov'.chi2 r = cov.chi2 r
  propagate_eq : ∀ {c : Nat} (d : Mat α n c), cov'.propagate d = cov.propagate d

theorem DataCovariance.Alike.refl {α : Type} [Scalar α] {n : Nat} (cov : DataCovariance α n) :
    cov.Alike cov := ⟨fun _ => rfl, fun _ => rfl, fun _ => rfl, fun _ => rfl⟩

namespace Problem

variable {α : Type} [Scalar α] {m n : Nat} (problem : Problem α m n)

def withCovariance (covariance : DataCovariance α n) : Problem α m n :=
  { problem with covariance }

variable {cov : DataCovariance α n} (h : problem.covariance.Alike cov)
include h

theorem point_withCovariance (p : Vector α m) :
    (problem.withCovariance cov).point p = problem.point p := by
  unfold point chi2
  exact congrArg (Point.mk _ _) (h.chi2_eq _)

theorem equations_withCovariance (point : Point α m n) :
    (problem.withCovariance cov).equations point = problem.equations point := by
  unfold equations
  simp only [withCovariance, h.weightRows_eq]

theorem gradientNegligible_withCovariance (e : NormalEquations α m) (chi2 : α) :
    (problem.withCovariance cov).GradientNegligible e chi2 ↔
      problem.GradientNegligible e chi2 := by
  unfold GradientNegligible
  simp only [withCovariance, h.chi2_eq]

/-- Covariances that are alike weigh alike, and an attempt sees no more of them. -/
theorem attempt_withCovariance (ceiling : α) (it : Iterate α m n) :
    (problem.withCovariance cov).attempt ceiling it = problem.attempt ceiling it := by
  have hstep (p q : Vector α m) :
      (problem.withCovariance cov).StepNegligible p q ↔ problem.StepNegligible p q := Iff.rfl
  unfold attempt
  simp only [problem.point_withCovariance h, problem.equations_withCovariance h,
    problem.gradientNegligible_withCovariance h, hstep]
  rfl

theorem iterate_withCovariance (ceiling : α) (limit : Nat) (it : Iterate α m n)
    (tried : List (Attempt α)) :
    (problem.withCovariance cov).iterate ceiling limit it tried =
      problem.iterate ceiling limit it tried := by
  induction limit generalizing it tried with
  | zero => rfl
  | succ limit ih =>
    rw [iterate, iterate, problem.attempt_withCovariance h]
    split
    · rfl
    · exact ih _ _

theorem fit_withCovariance (start : Vector α m) (limit : Nat) :
    (problem.withCovariance cov).fit start limit = problem.fit start limit := by
  unfold fit
  simp only [problem.point_withCovariance h, problem.equations_withCovariance h,
    problem.iterate_withCovariance h]
  rfl

end Problem

namespace Solver

section Calls

variable {α : Type} [Scalar α] {m n : Nat}

/-- Two solvers that differ in the form of their covariance only. -/
structure Interchangeable (s t : Solver α m n) : Prop where
  rest_eq : t = { s with covariance := t.covariance }
  alike : s.covariance.Alike t.covariance

/-- What two solvers report is the same. -/
structure ReportAlike [Linear.HasPseudoInverse α] (s t : Solver α m n) : Prop where
  parameters_eq : t.parameters = s.parameters
  history_eq : t.history = s.history
  status_eq : t.status = s.status
  iterations_eq : t.iterations = s.iterations
  values_eq : t.values = s.values
  chi2_eq : t.chi2 = s.chi2
  parameterCovariance_eq : t.parameterCovariance = s.parameterCovariance
  correlation_eq : t.parameterCovariance.map Linear.correlation =
    s.parameterCovariance.map Linear.correlation
  fourthOrderCovariance_eq : t.fourthOrderCovariance = s.fourthOrderCovariance

/-- Everything that a solver reports depends on its covariance by what alike ones share. -/
theorem Interchangeable.reportAlike [Linear.HasPseudoInverse α] {s t : Solver α m n}
    (h : s.Interchangeable t) : s.ReportAlike t := by
  obtain ⟨hrest, halike⟩ := h
  generalize t.covariance = cov at hrest halike
  subst hrest
  have hcovariance : ({ s with covariance := cov } : Solver α m n).parameterCovariance =
      s.parameterCovariance := by
    unfold parameterCovariance
    simp only [halike.weightRows_eq]
    rfl
  have hfourth : ({ s with covariance := cov } : Solver α m n).fourthOrderCovariance =
      s.fourthOrderCovariance := by
    unfold fourthOrderCovariance
    -- Each displaced datum is fitted again, so whole fits have to agree here.
    have hrefit (data : Vector α n) (start : Vector α m) (limit : Nat) :
        Problem.fit ⟨s.model, data, cov, s.settings⟩ start limit =
          Problem.fit ⟨s.model, data, s.covariance, s.settings⟩ start limit :=
      Problem.fit_withCovariance ⟨s.model, data, s.covariance, s.settings⟩ halike start limit
    simp only [hrefit, halike.propagate_eq]
  exact ⟨rfl, rfl, rfl, rfl, rfl, rfl, hcovariance, congrArg _ hcovariance, hfourth⟩

theorem Interchangeable.fit {s t : Solver α m n} (h : s.Interchangeable t) (limit : Nat) :
    EndAlike Interchangeable (s.fit limit) (t.fit limit) := by
  obtain ⟨hrest, halike⟩ := h
  generalize t.covariance = cov at hrest halike
  subst hrest
  unfold Solver.fit
  by_cases hcount : n < m
  · rw [if_pos hcount, if_pos hcount]
    exact .error _
  · rw [if_neg hcount, if_neg hcount]
    have hfit (data : Vector α n) (start : Vector α m) :
        Problem.fit ⟨s.model, data, cov, s.settings⟩ start limit =
          Problem.fit ⟨s.model, data, s.covariance, s.settings⟩ start limit :=
      (s.problem data).fit_withCovariance halike start limit
    cases s.data with
    | none => exact .error _
    | some data =>
      cases s.parameters? with
      | none => exact .error _
      | some start =>
        simp only [hfit]
        exact .ok ⟨rfl, halike⟩

/-- Every call does the same to solvers that are interchangeable. -/
theorem Interchangeable.apply {s t : Solver α m n} (h : s.Interchangeable t) (call : Call α) :
    EndAlike Interchangeable (s.apply call) (t.apply call) := by
  have hrest := h.rest_eq
  cases call with
  | setData data =>
    refine (EndAlike.refl (vectorOfLength .data n data)).bind ?_
    rintro v _ - - rfl
    exact .ok ⟨by rw [hrest], h.alike⟩
  | setParameters parameters =>
    refine (EndAlike.refl (vectorOfLength .parameters m parameters)).bind ?_
    rintro v _ - - rfl
    exact .ok ⟨by rw [hrest], h.alike⟩
  | setVariance variance =>
    refine (EndAlike.refl (vectorOfLength .variance n variance)).bind ?_
    rintro v _ - - rfl
    refine (EndAlike.refl ((DataCovariance.ofVariances v).mapError _)).bind ?_
    rintro cov _ - - rfl
    exact .ok ⟨by rw [hrest], .refl _⟩
  | setCovariance entries =>
    refine (EndAlike.refl (vectorOfLength .covariance (n * n) entries)).bind ?_
    rintro v _ - - rfl
    refine (EndAlike.refl ((DataCovariance.ofMatrix (Mat.ofRows v)).mapError _)).bind ?_
    rintro cov _ - - rfl
    exact .ok ⟨by rw [hrest], .refl _⟩
  | fit limit => exact h.fit limit

/-- Induction over the calls; if one of them fails it fails on both sides. -/
theorem Interchangeable.after {s t : Solver α m n} (h : s.Interchangeable t)
    (calls : List (Call α)) : EndAlike Interchangeable (s.after calls) (t.after calls) := by
  induction calls generalizing s t with
  | nil => exact .ok h
  | cons call rest ih =>
    rw [after_cons, after_cons]
    exact (h.apply call).bind fun _ _ _ _ hnext => ih hnext

end Calls

end Solver

section Entries

variable {α : Type}

theorem vectorOfLength_toList (what : Quantity) {n : Nat} (v : Vector α n) :
    vectorOfLength what n v.toList = .ok v := by
  unfold vectorOfLength
  rw [dif_pos v.length_toList]
  rfl

theorem Table.toList_ofMat {r c : Nat} (a : Mat α r c) :
    (Table.ofMat a).toList = (Vector.flatten a).toList := by
  have hrows : a.toList.map (·.toList) = (a.toArray.map (·.toArray)).toList.map (·.toList) := by
    rw [Array.toList_map, List.map_map]
    rfl
  calc
    a.toList.flatMap (·.toList) = (a.toList.map (·.toList)).flatten := List.flatMap_def
    _ = (Vector.flatten a).toList := by
      rw [hrows, ← Array.toList_flatten]
      rfl

/-- A matrix is read back from its rows. -/
theorem Mat.ofRows_flatten {r c : Nat} (a : Mat α r c) : Mat.ofRows (Vector.flatten a) = a := by
  ext i hi j hj
  have hdiv : (i * c + j) / c = i := by
    rw [Nat.mul_comm, Nat.mul_add_div (by omega), Nat.div_eq_of_lt hj, Nat.add_zero]
  have hmod : (i * c + j) % c = j := by
    rw [Nat.mul_comm, Nat.mul_add_mod, Nat.mod_eq_of_lt hj]
  rw [Mat.ofRows, Mat.getElem_ofFn, Vector.getElem_flatten]
  simp only [hdiv, hmod]

variable [Scalar α] {m n : Nat} (s : Solver α m n)

theorem Solver.setVariance_toList (v : Vector α n) :
    s.setVariance v.toList =
      (DataCovariance.ofVariances v).mapError FitError.badCovariance >>= fun covariance =>
        .ok { s with covariance } := by
  unfold setVariance
  rw [vectorOfLength_toList]
  rfl

theorem Solver.setCovariance_toList (a : Mat α n n) :
    s.setCovariance (Table.ofMat a).toList =
      (DataCovariance.ofMatrix a).mapError FitError.badCovariance >>= fun covariance =>
        .ok { s with covariance } := by
  unfold setCovariance
  rw [Table.toList_ofMat, vectorOfLength_toList]
  show (DataCovariance.ofMatrix (Mat.ofRows (Vector.flatten a))).mapError _ >>= _ = _
  rw [Mat.ofRows_flatten]
  rfl

end Entries

section Diagonal

open Matrix Linear

variable {n : Nat}

namespace DataCovariance

theorem matrix_full_ofDiagonal (v : Vector ℝ n) (inverse : Mat ℝ n n) :
    (full (Mat.ofDiagonal v) inverse).matrix = (diagonal v).matrix := by
  have hsymm : (Mat.ofDiagonal v).toMatrix.IsSymm := by
    rw [Mat.toMatrix_ofDiagonal]
    exact Matrix.isSymm_diagonal _
  exact (mirrored_of_isSymm hsymm).trans (Mat.toMatrix_ofDiagonal v)

/-- A diagonal matrix of positive variances is factored, and its inverse is diagonal too. -/
theorem alike_full_ofDiagonal {v : Vector ℝ n} {inverse : Mat ℝ n n}
    (hv : ofVariances v = .ok (diagonal v))
    (hfull : ofMatrix (Mat.ofDiagonal v) = .ok (full (Mat.ofDiagonal v) inverse)) :
    (diagonal v).Alike (full (Mat.ofDiagonal v) inverse) := by
  have hweights : (full (Mat.ofDiagonal v) inverse).weightMatrix = (diagonal v).weightMatrix := by
    rw [(weightMatrix_of_isMade (Or.inr ⟨_, hfull⟩)).2, (weightMatrix_of_isMade (Or.inl ⟨_, hv⟩)).2,
      matrix_full_ofDiagonal]
  refine ⟨fun r => ?_, fun j => ?_, fun r => ?_, fun d => ?_⟩
  · apply coords_injective
    rw [coords_weight, coords_weight, hweights]
  · apply Mat.toMatrix_injective
    rw [toMatrix_weightRows, toMatrix_weightRows, hweights]
  · rw [chi2_real, chi2_real, hweights]
  · apply Mat.toMatrix_injective
    rw [propagate, propagate, Mat.toMatrix_mul, Mat.toMatrix_mul, Mat.toMatrix_mul,
      Mat.toMatrix_ofDiagonal, Mat.toMatrix_scaleRows, Matrix.mul_assoc]

/-- Variances are accepted when their diagonal matrix is, and then nothing tells them apart. -/
theorem succeedAlike_ofDiagonal (v : Vector ℝ n) :
    SucceedAlike Alike (ofVariances v) (ofMatrix (Mat.ofDiagonal v)) := by
  cases hv : ofVariances v with
  | ok cov =>
    obtain ⟨rfl, hpos⟩ := pos_of_ofVariances hv
    have hposDef : (Mat.ofDiagonal v).toMatrix.PosDef := by
      rw [Mat.toMatrix_ofDiagonal]
      exact Matrix.PosDef.diagonal hpos
    obtain ⟨cov', hfull⟩ := exists_ofMatrix hposDef
    obtain ⟨f, -, rfl⟩ := exists_factor_of_ofMatrix hfull
    rw [hfull]
    exact .ok (alike_full_ofDiagonal hv hfull)
  | error fault =>
    cases hfull : ofMatrix (Mat.ofDiagonal v) with
    | error fault' => exact .error fault fault'
    | ok cov' =>
      obtain ⟨f, -, rfl⟩ := exists_factor_of_ofMatrix hfull
      have hposDef := (weightMatrix_of_isMade (Or.inr ⟨_, hfull⟩)).1
      rw [matrix_full_ofDiagonal] at hposDef
      have hpos (i : Fin n) : 0 < v[i] := by
        have hdiag := hposDef.diag_pos (i := i)
        rwa [matrix, Matrix.diagonal_apply_eq] at hdiag
      rw [ofVariances_of_pos hpos] at hv
      cases hv

end DataCovariance

/-- Data with variances and data with their diagonal matrix make for the same covariance, and a
solver given the one can stand for a solver given the other, whatever is called then. -/
theorem Solver.setVariance_setCovariance [HasPseudoInverse ℝ] (v : Vector ℝ n) :
    SucceedAlike DataCovariance.Alike (DataCovariance.ofVariances v)
        (DataCovariance.ofMatrix (Mat.ofDiagonal v)) ∧
      ∀ {m : Nat} (s : Solver ℝ m n),
        SucceedAlike
          (fun t t' => ∀ calls, EndAlike ReportAlike (t.after calls) (t'.after calls))
          (s.setVariance v.toList) (s.setCovariance (Table.ofMat (Mat.ofDiagonal v)).toList) := by
  refine ⟨DataCovariance.succeedAlike_ofDiagonal v, fun s => ?_⟩
  rw [s.setVariance_toList, s.setCovariance_toList]
  refine (DataCovariance.succeedAlike_ofDiagonal v).bind_ok fun cov cov' halike calls => ?_
  have hsame : Interchangeable { s with covariance := cov } { s with covariance := cov' } :=
    ⟨rfl, halike⟩
  exact (hsame.after calls).imp fun _ _ _ _ hend => hend.reportAlike

end Diagonal
end SkyCamera
