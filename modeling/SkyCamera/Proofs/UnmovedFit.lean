import Mathlib.Logic.Function.Iterate
import SkyCamera.Proofs.FitHistory
import SkyCamera.Proofs.FloatValue

/-!
Fits that end with a finite `χ²`, and those that do not. A step is only taken to a finite `χ²`, so a
fit ends with one if it starts with one or takes a step. Else it stays where it starts: its damping
grows with every attempt, and the status says what comes first, a damping above the ceiling, an
iterate with nothing left to gain, or the last attempt that is allowed. The last two count as
solutions, although no finite `χ²` was ever seen.
-/
namespace SkyCamera

namespace Problem

variable {α : Type} [Scalar α] {m n : Nat} {problem : Problem α m n}

/-- An attempt that is not accepted changes the damping alone. -/
theorem Step.next_of_unaccepted {ceiling : α} {it next : Iterate α m n} {a : Attempt α}
    {status : Option FitStatus} (h : problem.Step ceiling it a next status)
    (ha : a.accepted = false) :
    next = { it with damping := it.damping * problem.settings.boost } := by
  cases h with
  | singular => rfl
  | accepted => cases ha
  | converged => cases ha
  | settled => rfl
  | rejected => rfl

/-- An attempt without success ends a fit where nothing is left to gain, or at the ceiling. -/
theorem Step.status_of_unaccepted {ceiling : α} {it next : Iterate α m n} {a : Attempt α}
    {status : Option FitStatus} (h : problem.Step ceiling it a next status)
    (ha : a.accepted = false) :
    problem.Settled it ∧ status = some .converged ∨
      ¬ problem.Settled it ∧ ceiling < next.damping ∧ status = some .dampingExceeded ∨
      ¬ problem.Settled it ∧ ¬ ceiling < next.damping ∧ status = none := by
  by_cases hsettled : problem.Settled it
  · exact Or.inl ⟨hsettled, h.status_of_settled ha hsettled⟩
  · by_cases hexceeds : ceiling < next.damping
    · exact Or.inr (Or.inl ⟨hsettled, hexceeds,
        h.status_eq_dampingExceeded_iff.mpr ⟨ha, hsettled, hexceeds⟩⟩)
    · refine Or.inr (Or.inr ⟨hsettled, hexceeds, ?_⟩)
      cases h with
      | singular => exact if_neg hexceeds
      | accepted => cases ha
      | converged => cases ha
      | settled _ _ hsettled' => exact absurd hsettled' hsettled
      | rejected => exact if_neg hexceeds

variable (problem) (start : Vector α m)

def grownIterate (i : Nat) : Iterate α m n :=
  { problem.firstIterate start with
    damping := (· * problem.settings.boost)^[i] (problem.firstIterate start).damping }

def GoesOn (i : Nat) : Prop :=
  ¬ problem.Settled (problem.grownIterate start i) ∧
    ¬ problem.ceiling start < (problem.grownIterate start (i + 1)).damping

/-- After how many attempts, and how, a fit ends that takes no step. -/
inductive EndsUnmoved (limit : Nat) : Nat → FitStatus → Prop
  | atLimit (hgoes : ∀ j < limit, problem.GoesOn start j) :
      EndsUnmoved limit limit .maxIterations
  | settled {i : Nat} (hi : i < limit) (hgoes : ∀ j < i, problem.GoesOn start j)
      (hsettled : problem.Settled (problem.grownIterate start i)) :
      EndsUnmoved limit (i + 1) .converged
  | exceeded {i : Nat} (hi : i < limit) (hgoes : ∀ j < i, problem.GoesOn start j)
      (hmore : ¬ problem.Settled (problem.grownIterate start i))
      (hexceeds : problem.ceiling start < (problem.grownIterate start (i + 1)).damping) :
      EndsUnmoved limit (i + 1) .dampingExceeded

variable {problem start}

/-- So does a run of them, by induction. -/
theorem iterateAfter_of_unaccepted {k : Nat}
    (hnone : ∀ j < k, (problem.attemptAfter start j).accepted = false) :
    problem.iterateAfter start k = problem.grownIterate start k := by
  induction k with
  | zero => rfl
  | succ k ih =>
    have hnext := (problem.step_after start k).next_of_unaccepted (hnone k (Nat.lt_succ_self k))
    rw [hnext, ih fun j hj => hnone j (by omega)]
    simp only [grownIterate, Function.iterate_succ_apply']

/-- A fit that has not moved ends settled or above the ceiling, or goes on. -/
theorem status_of_unmoved {i : Nat}
    (hnone : ∀ j < i + 1, (problem.attemptAfter start j).accepted = false) :
    problem.Settled (problem.grownIterate start i) ∧
        problem.statusAfter start (i + 1) = some .converged ∨
      ¬ problem.Settled (problem.grownIterate start i) ∧
        problem.ceiling start < (problem.grownIterate start (i + 1)).damping ∧
        problem.statusAfter start (i + 1) = some .dampingExceeded ∨
      problem.GoesOn start i ∧ problem.statusAfter start (i + 1) = none := by
  have hcases := (problem.step_after start i).status_of_unaccepted (hnone i (Nat.lt_succ_self i))
  rw [iterateAfter_of_unaccepted hnone,
    iterateAfter_of_unaccepted fun j hj => hnone j (Nat.lt_succ_of_lt hj)] at hcases
  exact hcases.imp_right fun h => h.imp_right fun h => ⟨⟨h.1, h.2.1⟩, h.2.2⟩

theorem goesOn_of_statusAfter {i : Nat}
    (hnone : ∀ j < i + 1, (problem.attemptAfter start j).accepted = false)
    (hstatus : problem.statusAfter start (i + 1) = none) : problem.GoesOn start i := by
  obtain ⟨-, h⟩ | ⟨-, -, h⟩ | ⟨hgoes, -⟩ := status_of_unmoved hnone
  · rw [hstatus] at h
    cases h
  · rw [hstatus] at h
    cases h
  · exact hgoes

/-- By the first attempt at which the fit ends, or by none up to the limit. -/
theorem endsUnmoved {limit : Nat} (hzero : ¬ Scalar.IsZero (problem.point start).chi2)
    (hnone : ∀ j < (problem.fit start limit).iterations,
      (problem.attemptAfter start j).accepted = false) :
    problem.EndsUnmoved start limit (problem.fit start limit).iterations
      (problem.fit start limit).status := by
  have hgoes {i : Nat} (hi : i ≤ (problem.fit start limit).iterations)
      (hlast : i = (problem.fit start limit).iterations →
        problem.statusAfter start i = none) : ∀ j < i, problem.GoesOn start j := by
    intro j hj
    refine goesOn_of_statusAfter (fun j' hj' => hnone j' (by omega)) ?_
    rcases Nat.lt_or_eq_of_le (Nat.le_trans hj hi) with hlt | heq
    · exact problem.statusAfter_eq_none start limit (j + 1) hlt
    · obtain rfl : j + 1 = i := by omega
      exact hlast heq
  have hlimit := problem.iterations_le start limit
  obtain ⟨-, -, ⟨hfirst, -⟩ | ⟨-, hends⟩⟩ := problem.fit_course start limit
  · exact absurd hfirst hzero
  · obtain ⟨hstatus, hk, hlast⟩ | ⟨i, hk, hlast⟩ := hends.status_cases
    · have hall := hgoes le_rfl fun _ => hlast
      rw [hstatus]
      rw [hk] at hall ⊢
      exact .atLimit hall
    · rw [hk] at hnone hlimit ⊢
      have hbefore := hgoes (i := i) (by omega) (by omega)
      obtain ⟨hsettled, h⟩ | ⟨hmore, hexceeds, h⟩ | ⟨-, h⟩ := status_of_unmoved hnone
      · rw [Option.some.inj (hlast.symm.trans h)]
        exact .settled hlimit hbefore hsettled
      · rw [Option.some.inj (hlast.symm.trans h)]
        exact .exceeded hlimit hbefore hmore hexceeds
      · cases hlast.symm.trans h

theorem EndsUnmoved.exists_settled {limit k : Nat} {status : FitStatus}
    (h : problem.EndsUnmoved start limit k status) (hstatus : status = .converged) :
    ∃ i, problem.Settled (problem.grownIterate start i) := by
  cases h with
  | atLimit => cases hstatus
  | settled _ _ hsettled => exact ⟨_, hsettled⟩
  | exceeded => cases hstatus

/-- A fit that has taken a step is at a finite `χ²`. -/
theorem isFinite_iterateAfter {k : Nat}
    (htaken : ¬ ∀ j < k, (problem.attemptAfter start j).accepted = false) :
    Scalar.IsFinite (problem.iterateAfter start k).point.chi2 := by
  obtain ⟨hnone, -⟩ | ⟨i, -, ha, htrial, -⟩ := problem.point_iterateAfter start k
  · exact absurd hnone htaken
  · obtain ⟨hnext, ⟨hfinite, -⟩, -⟩ := (problem.step_after start i).point_of_accepted ha
    rw [Option.some.inj (htrial.symm.trans hnext)]
    exact hfinite

theorem historyAfter_of_unaccepted {k : Nat}
    (hnone : ∀ j < k, (problem.attemptAfter start j).accepted = false) :
    problem.historyAfter start k = [(problem.point start).chi2] := by
  induction k with
  | zero => rfl
  | succ k ih =>
    rw [problem.historyAfter_succ_of_unaccepted start k (hnone k (Nat.lt_succ_self k))]
    exact ih fun j hj => hnone j (Nat.lt_succ_of_lt hj)

/-- A fit ends with a finite `χ²` if it has seen one. -/
theorem isFinite_iff_exists_historyAfter (k : Nat) :
    Scalar.IsFinite (problem.iterateAfter start k).point.chi2 ↔
      ∃ chi2 ∈ problem.historyAfter start k, Scalar.IsFinite chi2 := by
  have hlast := List.mem_of_getLast? (problem.getLast?_historyAfter start k)
  refine ⟨fun hfinite => ⟨_, hlast, hfinite⟩, fun ⟨chi2, hmem, hfinite⟩ => ?_⟩
  by_cases hnone : ∀ j < k, (problem.attemptAfter start j).accepted = false
  · rw [historyAfter_of_unaccepted hnone, List.mem_singleton] at hmem
    rw [iterateAfter_of_unaccepted hnone]
    exact hmem ▸ hfinite
  · exact isFinite_iterateAfter hnone

end Problem

namespace Binary64

theorem isFinite_of_isZero {x : Float} (hx : Scalar.IsZero x) : Scalar.IsFinite x :=
  (isFinite_iff x).mpr (exists_isValue_of_mem isValue_zero isValue_zero hx.2 hx.1)

end Binary64

namespace Problem

variable {m n : Nat} {problem : Problem Float m n} {start : Vector Float m}

/-- Nothing is below an undefined `χ²`, so no step is taken from there. -/
theorem unaccepted_of_undefined (hundefined : ¬ Scalar.IsNumber (problem.point start).chi2)
    (k : Nat) : ∀ j < k, (problem.attemptAfter start j).accepted = false := by
  induction k with
  | zero => exact fun j hj => absurd hj (Nat.not_lt_zero j)
  | succ k ih =>
    intro j hj
    rcases Nat.lt_succ_iff_lt_or_eq.mp hj with hlt | rfl
    · exact ih j hlt
    · by_contra ha
      obtain ⟨-, ⟨-, hless⟩, -⟩ :=
        (problem.step_after start j).point_of_accepted (Bool.eq_true_of_not_eq_false ha)
      rw [iterateAfter_of_unaccepted ih] at hless
      exact hundefined (OrderedScalar.isNumber_of_le (OrderedScalar.lt_iff.mp hless).1).2

/-- No gradient is negligible beside an undefined `χ²`. -/
theorem not_settled_of_undefined (hundefined : ¬ Scalar.IsNumber (problem.point start).chi2)
    (i : Nat) : ¬ problem.Settled (problem.grownIterate start i) := by
  rintro ⟨trial, -, -, hgradient⟩
  have hbound := (OrderedScalar.isNumber_of_le hgradient).2
  exact hundefined (Binary64.isNumber_of_mul (Binary64.isNumber_of_add hbound).1).2

end Problem

namespace Solver

variable {m n : Nat}

/-- When a fit of `s` that left `s'` ended with a finite `χ²`, and how it ended when it did not. -/
structure EndsFinite (s s' : Solver Float m n) (limit : Nat) (data : Vector Float n)
    (start : Vector Float m) : Prop where
  data_eq : s.data = some data
  start_eq : s.parameters? = some start
  /-- The `χ²` of the end is finite if that of the start or of any step taken is, and its status
  does not matter. -/
  isFinite_iff : Scalar.IsFinite s'.chi2 ↔ ∃ chi2 ∈ s'.history, Scalar.IsFinite chi2
  isFinite_of_start : Scalar.IsFinite ((s.problem data).point start).chi2 → Scalar.IsFinite s'.chi2
  /-- A fit that has not seen a finite `χ²` has not moved, and may still count as a solution. -/
  unmoved : ¬ Scalar.IsFinite s'.chi2 →
    s'.history = [((s.problem data).point start).chi2] ∧
      s'.parameters = s.model.constrain start ∧
      (s.problem data).EndsUnmoved start limit s'.iterations s'.status
  undefined : ¬ Scalar.IsNumber ((s.problem data).point start).chi2 →
    ¬ Scalar.IsFinite s'.chi2 ∧ s'.status ≠ .converged

/-- Which fits that return end with a finite `χ²`. -/
theorem fit_endsFinite (s s' : Solver Float m n) (limit : Nat) (h : s.fit limit = .ok s') :
    ∃ data start, s.EndsFinite s' limit data start := by
  obtain ⟨data, start, hdata, hstart, rfl⟩ := fit_eq_ok h
  let problem := s.problem data
  let fit := problem.fit start limit
  let k := fit.iterations
  obtain ⟨-, hlast, -⟩ := problem.fit_course start limit
  have hhistory : fit.history = problem.historyAfter start k := problem.history_fit start limit
  have hchi2 : fit.last.chi2 = (problem.iterateAfter start k).point.chi2 :=
    congrArg Point.chi2 hlast
  have hseen : Scalar.IsFinite fit.last.chi2 ↔ ∃ chi2 ∈ fit.history, Scalar.IsFinite chi2 := by
    rw [hhistory, hchi2]
    exact Problem.isFinite_iff_exists_historyAfter k
  have hfirst : Scalar.IsFinite (problem.point start).chi2 → Scalar.IsFinite fit.last.chi2 :=
    fun hfinite => hseen.mpr ⟨_, hhistory ▸ List.mem_cons_self, hfinite⟩
  have hnone (hnot : ¬ Scalar.IsFinite fit.last.chi2) :
      ∀ j < k, (problem.attemptAfter start j).accepted = false := by
    by_contra htaken
    exact hnot (hchi2 ▸ Problem.isFinite_iterateAfter htaken)
  have hunmoved (hnot : ¬ Scalar.IsFinite fit.last.chi2) :
      problem.EndsUnmoved start limit k fit.status :=
    Problem.endsUnmoved (fun hzero => hnot (hfirst (Binary64.isFinite_of_isZero hzero)))
      (hnone hnot)
  refine ⟨data, start, hdata, hstart, hseen, hfirst, fun hnot => ⟨?_, ?_, hunmoved hnot⟩,
    fun hundefined => ?_⟩
  · exact hhistory.trans (Problem.historyAfter_of_unaccepted (hnone hnot))
  · show fit.last.parameters = _
    rw [hlast, Problem.iterateAfter_of_unaccepted (hnone hnot)]
    rfl
  · have hnot : ¬ Scalar.IsFinite fit.last.chi2 := by
      rw [hchi2, Problem.iterateAfter_of_unaccepted (Problem.unaccepted_of_undefined hundefined k)]
      intro hfinite
      obtain ⟨q, hq⟩ := (Binary64.isFinite_iff _).mp hfinite
      exact hundefined hq.isNumber
    refine ⟨hnot, fun hconverged => ?_⟩
    obtain ⟨i, hsettled⟩ := (hunmoved hnot).exists_settled hconverged
    exact Problem.not_settled_of_undefined hundefined i hsettled

def ofHugeDatum : Solver Float 1 1 where
  model := Curve.model ⟨.polynomial, [0.0]⟩ ⟨.analytic, none, false⟩
  settings := .standard
  data := some #v[1e200]
  parameters? := some #v[0.0]
  covariance := .identity
  lastFit := none

def ofFlatModel : Solver Float 1 1 :=
  { ofHugeDatum with model := Curve.model ⟨.constant, [0.0]⟩ ⟨.analytic, none, false⟩ }

/-- Without a gradient an infinite `χ²` is taken for a minimum. -/
theorem fit_endsFinite_ofFlatModel :
    ∃ s', ofFlatModel.fit 100 = .ok s' ∧ s'.status = .converged ∧ ¬ Scalar.IsFinite s'.chi2 ∧
      ∃ data start, ofFlatModel.EndsFinite s' 100 data start :=
  ⟨_, rfl, by decide +kernel, by decide +kernel, fit_endsFinite ofFlatModel _ 100 rfl⟩

/-- A fit that is cut short before its damping reaches the ceiling counts as a solution, although
its `χ²` is infinite from first to last. -/
theorem isValid_ofHugeDatum :
    ∃ s', ofHugeDatum.fit 10 = .ok s' ∧ s'.status = .maxIterations ∧ s'.status.isValid ∧
      (∀ chi2 ∈ s'.history, ¬ Scalar.IsFinite chi2) ∧ ¬ Scalar.IsFinite s'.chi2 :=
  ⟨_, rfl, by decide +kernel⟩

end Solver
end SkyCamera
