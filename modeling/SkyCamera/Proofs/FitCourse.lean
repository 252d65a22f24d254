import SkyCamera.LeastSquares.Fit

/-!
The course of a fit. `Step` lists all that one attempt can do, with the conditions under which it
does it, and every fact about a fit is read off there. The iterates that attempts lead through are
those of one sequence, and a fit goes along it up to the first attempt that ends it.
-/
namespace SkyCamera

def Attempt.accepted {α : Type} (a : Attempt α) : Bool := a.verdict.acceptedChi2.isSome

theorem Attempt.acceptedChi2_eq_none {α : Type} {a : Attempt α} (ha : a.accepted = false) :
    a.verdict.acceptedChi2 = none :=
  Option.isNone_iff_eq_none.mp (Option.isSome_eq_false_iff.mp ha)

def Fit.acceptedCount {α : Type} {m n : Nat} (fit : Fit α m n) : Nat :=
  fit.attempts.countP (·.accepted)

/-- The number of steps that were rejected or could not be found. -/
def Fit.unacceptedCount {α : Type} {m n : Nat} (fit : Fit α m n) : Nat :=
  fit.attempts.countP (!·.accepted)

namespace Fit

variable {α : Type} {m n : Nat} (fit : Fit α m n)

theorem iterations_eq : fit.iterations = fit.acceptedCount + fit.unacceptedCount := by
  have hcount := List.length_eq_countP_add_countP (·.accepted) (l := fit.attempts)
  simp only [Bool.not_eq_true, Bool.decide_eq_false] at hcount
  exact hcount

theorem length_history : fit.history.length = fit.acceptedCount + 1 := by
  rw [history, List.length_cons, List.length_filterMap_eq_countP]
  rfl

end Fit

namespace Problem

variable {α : Type} [Scalar α] {m n : Nat} (problem : Problem α m n)

def trial? (it : Iterate α m n) : Option (Point α m n) :=
  (Linear.solveDamped it.equations.matrix it.equations.gradient it.damping).map fun step =>
    problem.point (it.point.parameters + step)

def Improves (it : Iterate α m n) (trial : Point α m n) : Prop :=
  Scalar.IsFinite trial.chi2 ∧ trial.chi2 < it.point.chi2

/-- Whether a trial that improves is the last: it gains or moves next to nothing, or is exact. -/
def Suffices (it : Iterate α m n) (trial : Point α m n) : Prop :=
  (it.point.chi2 - trial.chi2) / it.point.chi2 < problem.settings.exitTolerance ∨
    Scalar.IsZero trial.chi2 ∨ problem.StepNegligible it.point.parameters trial.parameters

/-- Whether there is nothing left to gain at an iterate: the step that it tries and the gradient
are both negligible. -/
def Settled (it : Iterate α m n) : Prop :=
  ∃ trial, problem.trial? it = some trial ∧
    problem.StepNegligible it.point.parameters trial.parameters ∧
    problem.GradientNegligible it.equations it.point.chi2

/-- One attempt from `it`: its record, the iterate after it, and the status if it is the last. -/
inductive Step (ceiling : α) (it : Iterate α m n) :
    Attempt α → Iterate α m n → Option FitStatus → Prop
  | singular (htrial : problem.trial? it = none) :
      Step ceiling it ⟨it.damping, .singular, it.damping * problem.settings.boost⟩
        { it with damping := it.damping * problem.settings.boost }
        (exhausted ceiling (it.damping * problem.settings.boost))
  | accepted {trial : Point α m n} (htrial : problem.trial? it = some trial)
      (himproves : Improves it trial) (hmore : ¬ problem.Suffices it trial) :
      Step ceiling it
        ⟨it.damping, .accepted trial.chi2 ((it.point.chi2 - trial.chi2) / it.point.chi2),
          it.damping / problem.settings.boost⟩
        ⟨trial, problem.equations trial, it.damping / problem.settings.boost⟩ none
  | converged {trial : Point α m n} (htrial : problem.trial? it = some trial)
      (himproves : Improves it trial) (hlast : problem.Suffices it trial) :
      Step ceiling it
        ⟨it.damping, .accepted trial.chi2 ((it.point.chi2 - trial.chi2) / it.point.chi2),
          it.damping / problem.settings.boost⟩
        { it with point := trial, damping := it.damping / problem.settings.boost }
        (some .converged)
  | settled {trial : Point α m n} (htrial : problem.trial? it = some trial)
      (hfails : ¬ Improves it trial) (hsettled : problem.Settled it) :
      Step ceiling it
        ⟨it.damping, .rejected trial.chi2 it.point.chi2, it.damping * problem.settings.boost⟩
        { it with damping := it.damping * problem.settings.boost } (some .converged)
  | rejected {trial : Point α m n} (htrial : problem.trial? it = some trial)
      (hfails : ¬ Improves it trial) (hmore : ¬ problem.Settled it) :
      Step ceiling it
        ⟨it.damping, .rejected trial.chi2 it.point.chi2, it.damping * problem.settings.boost⟩
        { it with damping := it.damping * problem.settings.boost }
        (exhausted ceiling (it.damping * problem.settings.boost))

theorem settled_iff_of_trial {it : Iterate α m n} {trial : Point α m n}
    (htrial : problem.trial? it = some trial) :
    problem.Settled it ↔ problem.StepNegligible it.point.parameters trial.parameters ∧
      problem.GradientNegligible it.equations it.point.chi2 := by
  constructor
  · rintro ⟨other, hother, hnegligible⟩
    rw [htrial] at hother
    obtain rfl := Option.some.inj hother
    exact hnegligible
  · exact fun hnegligible => ⟨trial, htrial, hnegligible⟩

theorem not_settled_of_singular {it : Iterate α m n} (htrial : problem.trial? it = none) :
    ¬ problem.Settled it := by
  rintro ⟨trial, hsome, -⟩
  rw [htrial] at hsome
  cases hsome

/-- Every attempt is one of the steps. -/
theorem step_attempt (ceiling : α) (it : Iterate α m n) :
    problem.Step ceiling it (problem.attempt ceiling it).1 (problem.attempt ceiling it).2.1
      (problem.attempt ceiling it).2.2 := by
  unfold attempt
  cases hsolve : Linear.solveDamped it.equations.matrix it.equations.gradient it.damping with
  | none =>
    have htrial : problem.trial? it = none := by simp only [trial?, hsolve, Option.map_none]
    exact .singular htrial
  | some step =>
    have htrial : problem.trial? it = some (problem.point (it.point.parameters + step)) := by
      simp only [trial?, hsolve, Option.map_some]
    have hsettled := problem.settled_iff_of_trial htrial
    dsimp only
    split
    next himproves =>
      split
      next hlast => exact .converged htrial himproves hlast
      next hmore => exact .accepted htrial himproves hmore
    next hfails =>
      split
      next hnegligible => exact .settled htrial hfails (hsettled.mpr hnegligible)
      next hmore => exact .rejected htrial hfails (fun h => hmore (hsettled.mp h))

namespace Step

variable {problem} {ceiling : α} {it next : Iterate α m n} {a : Attempt α}
  {status : Option FitStatus}

theorem damping_eq (h : problem.Step ceiling it a next status) : a.damping = it.damping := by
  cases h <;> rfl

theorem next_damping (h : problem.Step ceiling it a next status) :
    next.damping =
      if a.accepted then it.damping / problem.settings.boost
      else it.damping * problem.settings.boost := by
  cases h <;> rfl

/-- Only an iterate whose equations have no solution finds them singular. -/
theorem trial?_eq_none (h : problem.Step ceiling it a next status)
    (ha : a.verdict = .singular) : problem.trial? it = none := by
  cases h with
  | singular htrial => exact htrial
  | accepted => cases ha
  | converged => cases ha
  | settled => cases ha
  | rejected => cases ha

/-- The equations are kept or are those of the new point. -/
theorem equations_eq_or (h : problem.Step ceiling it a next status) :
    next.equations = it.equations ∨ next.equations = problem.equations next.point := by
  cases h with
  | singular => exact Or.inl rfl
  | accepted => exact Or.inr rfl
  | converged => exact Or.inl rfl
  | settled => exact Or.inl rfl
  | rejected => exact Or.inl rfl

/-- A step that was not taken changes nothing but the damping. -/
theorem point_of_unaccepted (h : problem.Step ceiling it a next status)
    (ha : a.accepted = false) : next.point = it.point := by
  cases h with
  | singular => rfl
  | accepted => cases ha
  | converged => cases ha
  | settled => rfl
  | rejected => rfl

/-- A step that was taken leads to its trial, and is recorded with the `χ²` there. -/
theorem point_of_accepted (h : problem.Step ceiling it a next status)
    (ha : a.accepted = true) :
    problem.trial? it = some next.point ∧ Improves it next.point ∧
      a.verdict.acceptedChi2 = some next.point.chi2 := by
  cases h with
  | singular => cases ha
  | accepted htrial himproves => exact ⟨htrial, himproves, rfl⟩
  | converged htrial himproves => exact ⟨htrial, himproves, rfl⟩
  | settled => cases ha
  | rejected => cases ha

/-- A trial is taken if it brings `χ²` down, and nothing else is asked of it. -/
theorem accepted_iff (h : problem.Step ceiling it a next status) {trial : Point α m n}
    (htrial : problem.trial? it = some trial) : a.accepted = true ↔ Improves it trial := by
  have hsame {other : Point α m n} (hother : problem.trial? it = some other) : other = trial :=
    Option.some.inj (hother.symm.trans htrial)
  cases h with
  | singular hnone =>
    rw [hnone] at htrial
    cases htrial
  | accepted hother himproves => exact iff_of_true rfl (hsame hother ▸ himproves)
  | converged hother himproves => exact iff_of_true rfl (hsame hother ▸ himproves)
  | settled hother hfails => exact iff_of_false Bool.false_ne_true (hsame hother ▸ hfails)
  | rejected hother hfails => exact iff_of_false Bool.false_ne_true (hsame hother ▸ hfails)

/-- A step to a `χ²` of zero is the last. -/
theorem status_of_exact (h : problem.Step ceiling it a next status) (ha : a.accepted = true)
    (hzero : Scalar.IsZero next.point.chi2) : status = some .converged := by
  cases h with
  | singular => cases ha
  | accepted _ _ hmore => exact absurd (Or.inr (Or.inl hzero)) hmore
  | converged => rfl
  | settled => cases ha
  | rejected => cases ha

/-- Only a step that was not taken can exceed the ceiling, and it does so unless the iterate is
settled. -/
theorem status_eq_dampingExceeded_iff (h : problem.Step ceiling it a next status) :
    status = some .dampingExceeded ↔
      a.accepted = false ∧ ¬ problem.Settled it ∧ ceiling < next.damping := by
  cases h with
  | singular htrial =>
    have hfree := problem.not_settled_of_singular htrial
    simp [exhausted, Attempt.accepted, Verdict.acceptedChi2, hfree]
  | accepted => simp [Attempt.accepted, Verdict.acceptedChi2]
  | converged => simp [Attempt.accepted, Verdict.acceptedChi2]
  | settled htrial hfails hsettled => simp [hsettled]
  | rejected htrial hfails hmore =>
    simp [exhausted, Attempt.accepted, Verdict.acceptedChi2, hmore]

/-- An attempt whose step was not taken ends the fit where the iterate is settled. -/
theorem status_of_settled (h : problem.Step ceiling it a next status) (ha : a.accepted = false)
    (hsettled : problem.Settled it) : status = some .converged := by
  cases h with
  | singular htrial => exact absurd hsettled (problem.not_settled_of_singular htrial)
  | accepted => cases ha
  | converged => cases ha
  | settled => rfl
  | rejected _ _ hmore => exact absurd hsettled hmore

theorem status_ne (h : problem.Step ceiling it a next status) :
    status ≠ some .notRun ∧ status ≠ some .maxIterations := by
  cases h with
  | singular => unfold exhausted; split <;> simp
  | accepted => simp
  | converged => simp
  | settled => simp
  | rejected => unfold exhausted; split <;> simp

end Step

def firstIterate (start : Vector α m) : Iterate α m n :=
  let point := problem.point start
  let equations := problem.equations point
  ⟨point, equations, firstDamping equations.matrix⟩

def ceiling (start : Vector α m) : α :=
  problem.settings.maxDamping * (problem.firstIterate start).damping

def iterateAfter (start : Vector α m) : Nat → Iterate α m n
  | 0 => problem.firstIterate start
  | i + 1 => (problem.attempt (problem.ceiling start) (iterateAfter start i)).2.1

def attemptAfter (start : Vector α m) (i : Nat) : Attempt α :=
  (problem.attempt (problem.ceiling start) (problem.iterateAfter start i)).1

def attempts (start : Vector α m) (k : Nat) : List (Attempt α) :=
  (List.range k).map (problem.attemptAfter start)

/-- The status with which a fit ends after `i` attempts, if it does. -/
def statusAfter (start : Vector α m) : Nat → Option FitStatus
  | 0 => none
  | i + 1 => (problem.attempt (problem.ceiling start) (problem.iterateAfter start i)).2.2

theorem step_after (start : Vector α m) (i : Nat) :
    problem.Step (problem.ceiling start) (problem.iterateAfter start i)
      (problem.attemptAfter start i) (problem.iterateAfter start (i + 1))
      (problem.statusAfter start (i + 1)) :=
  problem.step_attempt (problem.ceiling start) (problem.iterateAfter start i)

@[simp] theorem length_attempts (start : Vector α m) (k : Nat) :
    (problem.attempts start k).length = k := by
  simp only [attempts, List.length_map, List.length_range]

theorem attempts_succ (start : Vector α m) (k : Nat) :
    problem.attempts start (k + 1) =
      problem.attempts start k ++ [problem.attemptAfter start k] := by
  simp only [attempts, List.range_succ, List.map_append, List.map_cons, List.map_nil]

theorem take_attempts (start : Vector α m) {i k : Nat} (hi : i ≤ k) :
    (problem.attempts start k).take i = problem.attempts start i := by
  simp only [attempts, ← List.map_take, List.take_range, Nat.min_eq_left hi]

@[simp] theorem getElem_attempts (start : Vector α m) (i k : Nat)
    (hi : i < (problem.attempts start k).length) :
    (problem.attempts start k)[i] = problem.attemptAfter start i := by
  simp only [attempts, List.getElem_map, List.getElem_range]

/-- A fit goes on for `k` attempts and ends with `status`: none before the last ends it, and if the
last does not either, as many as there may be have been tried. -/
structure EndsAfter (start : Vector α m) (limit k : Nat) (status : FitStatus) : Prop where
  le_limit : k ≤ limit
  goes_on : ∀ j < k, problem.statusAfter start j = none
  status_eq : status = (problem.statusAfter start k).getD .maxIterations
  at_limit : problem.statusAfter start k = none → k = limit

/-- What is left of a fit after `i` attempts follows the sequence of iterates. -/
theorem iterate_iterateAfter (start : Vector α m) (limit i : Nat) (tried : List (Attempt α))
    (htried : tried.reverse = problem.attempts start i)
    (hgoes : ∀ j ≤ i, problem.statusAfter start j = none) :
    ∃ k status, problem.EndsAfter start (i + limit) k status ∧
      problem.iterate (problem.ceiling start) limit (problem.iterateAfter start i) tried =
        (problem.attempts start k, (problem.iterateAfter start k).point, status) := by
  -- On the attempts left, from wherever the sequence is entered.
  induction limit generalizing i tried with
  | zero =>
    have hnone := hgoes i (Nat.le_refl i)
    refine ⟨i, .maxIterations, ⟨by omega, fun j hj => hgoes j (by omega), ?_, fun _ => rfl⟩, ?_⟩
    · rw [hnone, Option.getD_none]
    · rw [iterate, htried]
  | succ limit ih =>
    have htried' : (problem.attemptAfter start i :: tried).reverse =
        problem.attempts start (i + 1) := by
      rw [List.reverse_cons, htried, attempts_succ]
    have hresult : problem.attempt (problem.ceiling start) (problem.iterateAfter start i) =
        (problem.attemptAfter start i, problem.iterateAfter start (i + 1),
          problem.statusAfter start (i + 1)) := rfl
    rw [iterate, hresult]
    cases hstatus : problem.statusAfter start (i + 1) with
    | some status =>
      refine ⟨i + 1, status, ⟨by omega, fun j hj => hgoes j (by omega), ?_, ?_⟩, ?_⟩
      · rw [hstatus, Option.getD_some]
      · intro hnone
        rw [hstatus] at hnone
        cases hnone
      · simp only [htried']
    | none =>
      have hgoes' : ∀ j ≤ i + 1, problem.statusAfter start j = none := by
        intro j hj
        rcases Nat.lt_or_eq_of_le hj with hlt | rfl
        · exact hgoes j (by omega)
        · exact hstatus
      obtain ⟨k, status, hends, heq⟩ := ih (i + 1) _ htried' hgoes'
      rw [Nat.add_right_comm i 1 limit] at hends
      exact ⟨k, status, hends, heq⟩

/-- A fit follows the sequence of iterates until it ends; from a `χ²` of zero it does not begin. -/
theorem fit_course (start : Vector α m) (limit : Nat) :
    let fit := problem.fit start limit
    fit.attempts = problem.attempts start fit.iterations ∧
      fit.last = (problem.iterateAfter start fit.iterations).point ∧
      (Scalar.IsZero fit.firstChi2 ∧ fit.iterations = 0 ∧ fit.status = .converged ∨
        ¬ Scalar.IsZero fit.firstChi2 ∧
          problem.EndsAfter start limit fit.iterations fit.status) := by
  by_cases hzero : Scalar.IsZero (problem.point start).chi2
  · have hfit : problem.fit start limit =
        ⟨(problem.point start).chi2, (problem.firstIterate start).damping, [],
          problem.point start, .converged, limit⟩ := by
      simp only [fit, if_pos hzero, firstIterate]
    rw [hfit]
    exact ⟨rfl, rfl, Or.inl ⟨hzero, rfl, rfl⟩⟩
  · obtain ⟨k, status, hends, heq⟩ :=
      problem.iterate_iterateAfter start limit 0 [] rfl (fun j hj => by
        rw [Nat.le_zero.mp hj, statusAfter])
    rw [Nat.zero_add] at hends
    have hfit : problem.fit start limit =
        ⟨(problem.point start).chi2, (problem.firstIterate start).damping,
          problem.attempts start k, (problem.iterateAfter start k).point, status, limit⟩ := by
      simp only [fit, if_neg hzero]
      exact congrArg (fun r : List (Attempt α) × Point α m n × FitStatus =>
        (⟨_, _, r.1, r.2.1, r.2.2, limit⟩ : Fit α m n)) heq
    have hk : (problem.fit start limit).iterations = k := by
      rw [hfit, Fit.iterations, length_attempts]
    dsimp only
    rw [hk, hfit]
    exact ⟨rfl, rfl, Or.inr ⟨hzero, hends⟩⟩

theorem attempts_fit (start : Vector α m) (limit : Nat) :
    (problem.fit start limit).attempts =
      problem.attempts start (problem.fit start limit).iterations :=
  (problem.fit_course start limit).1

/-- No attempt before the last ends a fit. -/
theorem statusAfter_eq_none (start : Vector α m) (limit : Nat) :
    ∀ j < (problem.fit start limit).iterations, problem.statusAfter start j = none := by
  obtain ⟨-, -, ⟨-, hk, -⟩ | ⟨-, hends⟩⟩ := problem.fit_course start limit
  · intro j hj
    omega
  · exact hends.goes_on

theorem iterations_le (start : Vector α m) (limit : Nat) :
    (problem.fit start limit).iterations ≤ limit := by
  obtain ⟨-, -, ⟨-, hk, -⟩ | ⟨-, hends⟩⟩ := problem.fit_course start limit
  · omega
  · exact hends.le_limit

/-- The last attempt gives the status, or as many as there may be have been tried without one. -/
theorem EndsAfter.status_cases {start : Vector α m} {limit k : Nat} {status : FitStatus}
    (h : problem.EndsAfter start limit k status) :
    status = .maxIterations ∧ k = limit ∧ problem.statusAfter start k = none ∨
      ∃ i, k = i + 1 ∧ problem.statusAfter start (i + 1) = some status := by
  have hstatus := h.status_eq
  cases hlast : problem.statusAfter start k with
  | none =>
    rw [hlast, Option.getD_none] at hstatus
    exact Or.inl ⟨hstatus, h.at_limit hlast, rfl⟩
  | some ending =>
    rw [hlast, Option.getD_some] at hstatus
    cases k with
    | zero => cases hlast
    | succ i => exact Or.inr ⟨i, rfl, hstatus ▸ hlast⟩

/-- A fit has the status of its last attempt, and none before it; without one, it has tried as many
as there may be. -/
theorem status_cases (start : Vector α m) (limit : Nat) :
    let fit := problem.fit start limit
    fit.status = .converged ∧ fit.iterations = 0 ∨
      fit.status = .maxIterations ∧ fit.iterations = limit ∧
        problem.statusAfter start fit.iterations = none ∨
      ∃ i, fit.iterations = i + 1 ∧ problem.statusAfter start (i + 1) = some fit.status := by
  obtain ⟨-, -, ⟨-, hk, hstatus⟩ | ⟨-, hends⟩⟩ := problem.fit_course start limit
  · exact Or.inl ⟨hstatus, hk⟩
  · exact Or.inr hends.status_cases

theorem status_ne_notRun (start : Vector α m) (limit : Nat) :
    (problem.fit start limit).status ≠ .notRun := by
  intro hstatus
  obtain ⟨h, -⟩ | ⟨h, -⟩ | ⟨i, -, hlast⟩ := problem.status_cases start limit
  · rw [hstatus] at h
    cases h
  · rw [hstatus] at h
    cases h
  · rw [hstatus] at hlast
    exact (problem.step_after start i).status_ne.1 hlast

/-- A fit ends at its limit only when all attempts are used. -/
theorem iterations_of_maxIterations (start : Vector α m) (limit : Nat)
    (hstatus : (problem.fit start limit).status = .maxIterations) :
    (problem.fit start limit).iterations = limit := by
  obtain ⟨h, -⟩ | ⟨-, hk, -⟩ | ⟨i, -, hlast⟩ := problem.status_cases start limit
  · rw [hstatus] at h
    cases h
  · exact hk
  · rw [hstatus] at hlast
    exact absurd hlast (problem.step_after start i).status_ne.2

/-- A fit that may try a step and has one to try does so. -/
theorem iterations_pos {start : Vector α m} {limit : Nat}
    (hzero : ¬ Scalar.IsZero (problem.point start).chi2) (hlimit : limit ≠ 0) :
    0 < (problem.fit start limit).iterations := by
  obtain ⟨-, -, ⟨hstart, -⟩ | ⟨-, hends⟩⟩ := problem.fit_course start limit
  · exact absurd hstart hzero
  · refine Nat.pos_of_ne_zero fun hnone => hlimit ?_
    rw [hnone] at hends
    exact (hends.at_limit rfl).symm

/-- A fit of one attempt ends where that attempt leads. -/
theorem last_fit_one {start : Vector α m} {trial : Point α m n}
    (hzero : ¬ Scalar.IsZero (problem.point start).chi2)
    (htrial : problem.trial? (problem.firstIterate start) = some trial)
    (himproves : Improves (problem.firstIterate start) trial) :
    (problem.fit start 1).last = trial := by
  obtain ⟨-, hlast, -⟩ := problem.fit_course start 1
  have hone : (problem.fit start 1).iterations = 1 :=
    Nat.le_antisymm (problem.iterations_le start 1) (problem.iterations_pos hzero Nat.one_ne_zero)
  rw [hlast, hone]
  have hstep := problem.step_after start 0
  obtain ⟨hnext, -⟩ := hstep.point_of_accepted ((hstep.accepted_iff htrial).mpr himproves)
  exact Option.some.inj (hnext.symm.trans htrial)

/-- An attempt of a fit that brings `χ²` to zero ends it. -/
theorem fit_ends_of_exact {start : Vector α m} {limit i : Nat} {trial : Point α m n}
    (hi : i < (problem.fit start limit).iterations)
    (htrial : problem.trial? (problem.iterateAfter start i) = some trial)
    (himproves : Improves (problem.iterateAfter start i) trial) (hzero : Scalar.IsZero trial.chi2) :
    (problem.fit start limit).last = trial ∧ (problem.fit start limit).status = .converged := by
  have hstep := problem.step_after start i
  have haccepted := (hstep.accepted_iff htrial).mpr himproves
  obtain ⟨hnext, -⟩ := hstep.point_of_accepted haccepted
  have hpoint : (problem.iterateAfter start (i + 1)).point = trial :=
    Option.some.inj (hnext.symm.trans htrial)
  have hstatus := hstep.status_of_exact haccepted (hpoint ▸ hzero)
  have hlast : (problem.fit start limit).iterations = i + 1 := by
    refine Nat.le_antisymm (Nat.le_of_not_lt fun hmore => ?_) hi
    have hnone := problem.statusAfter_eq_none start limit (i + 1) hmore
    rw [hstatus] at hnone
    cases hnone
  obtain ⟨-, hend, ⟨-, hnone, -⟩ | ⟨-, hends⟩⟩ := problem.fit_course start limit
  · omega
  · rw [hlast] at hend hends
    refine ⟨hend.trans hpoint, ?_⟩
    rw [hends.status_eq, hstatus, Option.getD_some]

end Problem
end SkyCamera
