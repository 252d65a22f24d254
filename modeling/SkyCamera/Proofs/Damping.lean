import Mathlib.Algebra.Order.Archimedean.Basic
import SkyCamera.LeastSquares.Curve
import SkyCamera.Proofs.FitCourse
import SkyCamera.Proofs.RealScalar

/-!
The damping of a fit in exact arithmetic. It is the first damping times a power of the boost, whose
exponent counts the attempts that were not accepted against those that were, so the ceiling on the
damping bounds the one number by the other and every fit comes to an end.
-/
namespace SkyCamera

/-- How often the damping grew, less how often it shrank. -/
def Attempt.growth {α : Type} (attempts : List (Attempt α)) : Int :=
  (attempts.countP (!·.accepted) : Int) - attempts.countP (·.accepted)

namespace Problem

open Attempt

variable {m n : Nat} (problem : Problem ℝ m n)

theorem firstDamping_pos (a : Mat ℝ m m) : 0 < firstDamping a := by
  unfold firstDamping
  extract_lets mean
  split
  next h => exact mul_pos (by norm_num) h.2
  next => norm_num

theorem firstDamping_of_pos {a : Mat ℝ m m} {mean : ℝ} (hm : m ≠ 0)
    (hmean : Scalar.sum (fun i : Fin m => a[i][i]) / (m : ℝ) = mean) (hpos : 0 < mean) :
    firstDamping a = 1e-3 * mean := by
  unfold firstDamping
  rw [if_neg hm, hmean]
  exact if_pos ⟨Scalar.isFinite_real _, hpos⟩

/-- Each attempt counts by one, down if it is accepted and up if it is not. -/
theorem growth_attempts_succ (start : Vector ℝ m) (i : Nat) :
    growth (problem.attempts start (i + 1)) = growth (problem.attempts start i) +
      if (problem.attemptAfter start i).accepted then -1 else 1 := by
  simp only [growth, attempts_succ, List.countP_append, List.countP_singleton]
  cases (problem.attemptAfter start i).accepted with
  | false => simp; omega
  | true => simp; omega

variable (hboost : 0 < problem.settings.boost)
include hboost

/-- The damping is the first one times the boost to the power of the growth so far. -/
theorem damping_iterateAfter (start : Vector ℝ m) (i : Nat) :
    (problem.iterateAfter start i).damping = (problem.firstIterate start).damping *
      problem.settings.boost ^ growth (problem.attempts start i) := by
  induction i with
  | zero => simp [iterateAfter, growth, attempts]
  | succ i ih =>
    rw [(problem.step_after start i).next_damping, growth_attempts_succ, ih]
    cases (problem.attemptAfter start i).accepted with
    | false =>
      simp only [Bool.false_eq_true, if_false]
      rw [zpow_add_one₀ hboost.ne', mul_assoc]
    | true =>
      simp only [if_true]
      rw [← sub_eq_add_neg, zpow_sub_one₀ hboost.ne', div_eq_mul_inv, mul_assoc]

/-- The ceiling is a multiple of the first damping, which cancels. -/
theorem ceiling_lt_damping_iff (start : Vector ℝ m) (i : Nat) :
    problem.ceiling start < (problem.iterateAfter start i).damping ↔
      problem.settings.maxDamping <
        problem.settings.boost ^ growth (problem.attempts start i) := by
  have hfirst : 0 < (problem.firstIterate start).damping := firstDamping_pos _
  rw [problem.damping_iterateAfter hboost, ceiling, mul_comm]
  exact mul_lt_mul_iff_right₀ hfirst

theorem statusAfter_succ_eq_dampingExceeded_iff (start : Vector ℝ m) (i : Nat) :
    problem.statusAfter start (i + 1) = some .dampingExceeded ↔
      (problem.attemptAfter start i).accepted = false ∧
        ¬ problem.Settled (problem.iterateAfter start i) ∧
        problem.settings.maxDamping <
          problem.settings.boost ^ growth (problem.attempts start (i + 1)) := by
  rw [(problem.step_after start i).status_eq_dampingExceeded_iff,
    problem.ceiling_lt_damping_iff hboost]

/-- An attempt after which a fit goes on has not lifted the damping above the ceiling. -/
theorem pow_growth_le (start : Vector ℝ m) (i : Nat)
    (ha : (problem.attemptAfter start i).accepted = false)
    (hnone : problem.statusAfter start (i + 1) = none) :
    problem.settings.boost ^ growth (problem.attempts start (i + 1)) ≤
      problem.settings.maxDamping := by
  by_contra hlt
  have hsettled : ¬ problem.Settled (problem.iterateAfter start i) := by
    intro hsettled
    have hstatus := (problem.step_after start i).status_of_settled ha hsettled
    rw [hnone] at hstatus
    cases hstatus
  have hstatus := (problem.statusAfter_succ_eq_dampingExceeded_iff hboost start i).mpr
    ⟨ha, hsettled, not_le.mp hlt⟩
  rw [hnone] at hstatus
  cases hstatus

/-- While a fit goes on, the damping has grown at most `L` times more often than it shrank, if one
more would lift it above the ceiling. -/
theorem growth_le {L : Nat} (hbase : 1 < problem.settings.boost)
    (hL : problem.settings.maxDamping < problem.settings.boost ^ (L + 1))
    (start : Vector ℝ m) (i : Nat) (hgoes : ∀ j ≤ i, problem.statusAfter start j = none) :
    growth (problem.attempts start i) ≤ L := by
  -- Only an attempt that was not accepted adds to the growth, and then the ceiling bounds it.
  induction i with
  | zero => simp [growth, attempts]
  | succ i ih =>
    have hbefore := ih fun j hj => hgoes j (by omega)
    cases ha : (problem.attemptAfter start i).accepted with
    | true =>
      rw [growth_attempts_succ, ha, if_pos rfl]
      omega
    | false =>
      have hle := problem.pow_growth_le hboost start i ha (hgoes (i + 1) (Nat.le_refl _))
      have hlt := hle.trans_lt hL
      rw [← zpow_natCast, zpow_lt_zpow_iff_right₀ hbase] at hlt
      omega

omit hboost

/-- What the damping tells about a fit from `start` with at most `limit` attempts. -/
structure DampedFit (start : Vector ℝ m) (limit : Nat) (fit : Fit ℝ m n) : Prop where
  attempts_eq : fit.attempts = problem.attempts start fit.iterations
  iterations_eq : fit.iterations = fit.acceptedCount + fit.unacceptedCount
  iterations_le : fit.iterations ≤ limit
  length_history : fit.history.length = fit.acceptedCount + 1
  damping_eq : ∀ (i : Nat) (hi : i < fit.attempts.length),
    fit.attempts[i].damping =
      fit.firstDamping * problem.settings.boost ^ growth (fit.attempts.take i)
  status_ne : fit.status ≠ .notRun
  dampingExceeded_iff : fit.status = .dampingExceeded ↔
    ∃ i, fit.iterations = i + 1 ∧ (problem.attemptAfter start i).accepted = false ∧
      ¬ problem.Settled (problem.iterateAfter start i) ∧
      problem.settings.maxDamping <
        problem.settings.boost ^ ((fit.unacceptedCount : Int) - fit.acceptedCount)
  /-- Before the last attempt, none that was not accepted lifts the damping above the ceiling. -/
  pow_growth_le : ∀ (i : Nat) (hi : i + 1 < fit.attempts.length),
    fit.attempts[i].accepted = false →
      problem.settings.boost ^ growth (fit.attempts.take (i + 1)) ≤ problem.settings.maxDamping
  iterations_of_maxIterations : fit.status = .maxIterations → fit.iterations = limit
  /-- A fit ends whatever the limit is, and one that gets nowhere ends when the power of the boost
  first exceeds the ceiling. -/
  bounded : 1 < problem.settings.boost → 1 ≤ problem.settings.maxDamping →
    ∃ L : Nat, IsGreatest {j : Nat | problem.settings.boost ^ j ≤ problem.settings.maxDamping} L ∧
      fit.unacceptedCount ≤ fit.acceptedCount + L + 1 ∧
      fit.iterations ≤ 2 * fit.acceptedCount + L + 1 ∧
      (fit.acceptedCount = 0 → fit.status ≠ .converged →
        fit.iterations = min limit (L + 1) ∧ (fit.status = .dampingExceeded ↔ L < limit))

/-- The largest power of a base above one that is not above a bound of at least one. -/
theorem exists_isGreatest_pow {base bound : ℝ} (hbase : 1 < base) (hbound : 1 ≤ bound) :
    ∃ L : Nat, IsGreatest {j : Nat | base ^ j ≤ bound} L ∧ bound < base ^ (L + 1) := by
  obtain ⟨L, hle, hlt⟩ := exists_nat_pow_near hbound hbase
  refine ⟨L, ⟨hle, fun j hj => ?_⟩, hlt⟩
  have hj' : base ^ j < base ^ (L + 1) := lt_of_le_of_lt hj hlt
  have := (pow_lt_pow_iff_right₀ hbase).mp hj'
  omega

include hboost

/-- The first rejection above the ceiling ends the fit, so that the growth passes it by one step. -/
theorem growth_fit_le {L : Nat} (hbase : 1 < problem.settings.boost)
    (hL : problem.settings.maxDamping < problem.settings.boost ^ (L + 1))
    (start : Vector ℝ m) (limit : Nat) :
    growth (problem.attempts start (problem.fit start limit).iterations) ≤ L + 1 := by
  have hgoes := problem.statusAfter_eq_none start limit
  cases hk : (problem.fit start limit).iterations with
  | zero => simp [growth, attempts]; omega
  | succ i =>
    have hbefore := problem.growth_le hboost hbase hL start i fun j hj => hgoes j (by omega)
    rw [growth_attempts_succ]
    split <;> omega

/-- A fit that accepts nothing and does not converge grows its damping at every attempt, and ends
with the first that lifts it above the ceiling. -/
theorem iterations_of_stuck {L : Nat} (hbase : 1 < problem.settings.boost)
    (hle : problem.settings.boost ^ L ≤ problem.settings.maxDamping)
    (hlt : problem.settings.maxDamping < problem.settings.boost ^ (L + 1))
    (start : Vector ℝ m) (limit : Nat)
    (hgrowth : growth (problem.attempts start (problem.fit start limit).iterations) =
      (problem.fit start limit).iterations)
    (hconverged : (problem.fit start limit).status ≠ .converged) :
    (problem.fit start limit).iterations = min limit (L + 1) ∧
      ((problem.fit start limit).status = .dampingExceeded ↔ L < limit) := by
  have hbound := problem.growth_fit_le hboost hbase hlt start limit
  have hlimit := problem.iterations_le start limit
  rcases problem.status_cases start limit with
    ⟨hstatus, -⟩ | ⟨hstatus, hk, hlast⟩ | ⟨i, hk, hlast⟩
  · exact absurd hstatus hconverged
  · have hgoes : ∀ j ≤ (problem.fit start limit).iterations,
        problem.statusAfter start j = none := by
      intro j hj
      rcases Nat.lt_or_eq_of_le hj with hj | rfl
      · exact problem.statusAfter_eq_none start limit j hj
      · exact hlast
    have hbelow := problem.growth_le hboost hbase hlt start _ hgoes
    rw [hstatus]
    constructor
    · omega
    · simp only [reduceCtorEq, false_iff]
      omega
  · have hexceeded : (problem.fit start limit).status = .dampingExceeded := by
      have hne := (problem.step_after start i).status_ne
      rw [hlast] at hne
      cases hstatus : (problem.fit start limit).status with
      | notRun => simp [hstatus] at hne
      | converged => exact absurd hstatus hconverged
      | maxIterations => simp [hstatus] at hne
      | dampingExceeded => rfl
    rw [hexceeded, problem.statusAfter_succ_eq_dampingExceeded_iff hboost, ← hk, hgrowth,
      zpow_natCast] at hlast
    have habove := (pow_lt_pow_iff_right₀ hbase).mp (hle.trans_lt hlast.2.2)
    constructor
    · omega
    · simp only [hexceeded, true_iff]
      omega

theorem damping_getElem_attempts (start : Vector ℝ m) (limit i : Nat)
    (hi : i < (problem.fit start limit).attempts.length) :
    (problem.fit start limit).attempts[i].damping = (problem.fit start limit).firstDamping *
      problem.settings.boost ^ growth ((problem.fit start limit).attempts.take i) := by
  have hik : i ≤ (problem.fit start limit).iterations := Nat.le_of_lt hi
  have htake : (problem.fit start limit).attempts.take i = problem.attempts start i := by
    rw [attempts_fit, problem.take_attempts start hik]
  have hget : (problem.fit start limit).attempts[i] = problem.attemptAfter start i := by
    simp only [attempts_fit, getElem_attempts]
  rw [htake, hget, (problem.step_after start i).damping_eq,
    problem.damping_iterateAfter hboost start i]
  rfl

theorem pow_growth_take_le (start : Vector ℝ m) (limit i : Nat)
    (hi : i + 1 < (problem.fit start limit).attempts.length)
    (ha : (problem.fit start limit).attempts[i].accepted = false) :
    problem.settings.boost ^ growth ((problem.fit start limit).attempts.take (i + 1)) ≤
      problem.settings.maxDamping := by
  have hik : i + 1 < (problem.fit start limit).iterations := hi
  have htake : (problem.fit start limit).attempts.take (i + 1) =
      problem.attempts start (i + 1) := by
    rw [attempts_fit, problem.take_attempts start (Nat.le_of_lt hik)]
  simp only [attempts_fit, getElem_attempts] at ha
  rw [htake]
  exact problem.pow_growth_le hboost start i ha (problem.statusAfter_eq_none start limit _ hik)

/-- A fit exceeds its damping just when its last attempt is rejected, does not settle it and leaves
the damping above the ceiling. -/
theorem status_eq_dampingExceeded_iff (start : Vector ℝ m) (limit : Nat) :
    (problem.fit start limit).status = .dampingExceeded ↔
      ∃ i, (problem.fit start limit).iterations = i + 1 ∧
        (problem.attemptAfter start i).accepted = false ∧
        ¬ problem.Settled (problem.iterateAfter start i) ∧
        problem.settings.maxDamping < problem.settings.boost ^
          growth (problem.attempts start (problem.fit start limit).iterations) := by
  constructor
  · intro hexceeded
    obtain ⟨hstatus, -⟩ | ⟨hstatus, -⟩ | ⟨i, hk, hlast⟩ := problem.status_cases start limit
    · rw [hexceeded] at hstatus
      cases hstatus
    · rw [hexceeded] at hstatus
      cases hstatus
    · rw [hexceeded, problem.statusAfter_succ_eq_dampingExceeded_iff hboost, ← hk] at hlast
      exact ⟨i, hk, hlast⟩
  · rintro ⟨i, hk, hexceeds⟩
    rw [hk, ← problem.statusAfter_succ_eq_dampingExceeded_iff hboost] at hexceeds
    obtain ⟨-, hzero⟩ | ⟨-, -, hnone⟩ | ⟨j, hj, hlast⟩ := problem.status_cases start limit
    · omega
    · rw [hk, hexceeds] at hnone
      cases hnone
    · obtain rfl : i = j := by omega
      exact Option.some.inj (hlast.symm.trans hexceeds)

/-- The damping of a fit follows the count of its accepted attempts, and so does its end. -/
theorem dampedFit (start : Vector ℝ m) (limit : Nat) :
    problem.DampedFit start limit (problem.fit start limit) := by
  have hgrowth : growth (problem.attempts start (problem.fit start limit).iterations) =
      ((problem.fit start limit).unacceptedCount : Int) -
        (problem.fit start limit).acceptedCount := by
    rw [← problem.attempts_fit start limit]
    rfl
  have hcounts := (problem.fit start limit).iterations_eq
  refine ⟨problem.attempts_fit start limit, hcounts, problem.iterations_le start limit,
    (problem.fit start limit).length_history,
    problem.damping_getElem_attempts hboost start limit, problem.status_ne_notRun start limit,
    ?_, problem.pow_growth_take_le hboost start limit,
    problem.iterations_of_maxIterations start limit, ?_⟩
  · rw [← hgrowth]
    exact problem.status_eq_dampingExceeded_iff hboost start limit
  · intro hbase hceiling
    obtain ⟨L, hgreatest, hlt⟩ := exists_isGreatest_pow hbase hceiling
    have hbound := problem.growth_fit_le hboost hbase hlt start limit
    refine ⟨L, hgreatest, by omega, by omega, fun hnone hconverged => ?_⟩
    exact problem.iterations_of_stuck hboost hbase hgreatest.1 hlt start limit (by omega)
      hconverged

omit hboost

/-- Three data that lie below a parabola, with a gradient that points uphill, so that no step lowers
`χ²`. -/
noncomputable def uphill : Problem ℝ 1 3 where
  model := Curve.model ⟨.uphill, [0, 0, 0]⟩ ⟨.analytic, none, false⟩
  data := #v[-1, -1, -1]
  covariance := .identity
  settings := { Settings.standard with maxDamping := 50000 }

theorem dampedFit_uphill :
    0 < uphill.settings.boost ∧ uphill.DampedFit #v[0.5] 1000 (uphill.fit #v[0.5] 1000) := by
  have hboost : 0 < uphill.settings.boost := by
    simp only [uphill, Settings.standard]
    norm_num
  exact ⟨hboost, uphill.dampedFit hboost #v[0.5] 1000⟩

end Problem
end SkyCamera
