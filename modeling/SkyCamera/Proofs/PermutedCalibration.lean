import SkyCamera.Proofs.PermutedLists
import SkyCamera.Proofs.ReorderedStars

/-!
A calibration does not depend on the order of the correspondences, in exact arithmetic. The kept
stars of a permuted list are those of the list with other places, so the fits are fits of one set of
data in two orders; what names a correspondence by its place names it by its new one.
-/
namespace SkyCamera

open Linear Correspondence

def KeptStar.renumber {α : Type} (place : Nat → Nat) (star : KeptStar α) : KeptStar α :=
  { star with index := place star.index }

/-- Two calibrations with one outcome, of which the second calls place `place i` by `i`. -/
structure Calibration.Renumbers (place : Nat → Nat) (c d : Calibration ℝ) : Prop where
  outcome_eq : { d.outcome with residuals := [] } = { c.outcome with residuals := [] }
  residuals_perm : (d.residuals.map fun r => (place r.1, r.2)).Perm c.residuals

namespace StarFit

variable {f : StarFit ℝ} {stars : Array (KeptStar ℝ)} {excluded : List (Nat × Exclusion)}
  {place : Nat → Nat} {e : Fin (f.withStars stars excluded).stars.size ≃ Fin f.stars.size}
  (hstars : ∀ k, ((f.withStars stars excluded).star k).renumber place = f.star (e k))
include hstars

theorem sameStars_of_renumbered : SameStars e := by
  intro k
  have hstar := congrArg KeptStar.unnumbered (hstars k)
  exact hstar

theorem renumbers_of_reorders {s : Solver ℝ f.parameterCount f.dataCount}
    {s' : Solver ℝ f.parameterCount (f.withStars stars excluded).dataCount}
    (hs : s.Reorders (places e) s')
    (covariance : Option (Mat ℝ f.parameterCount f.parameterCount)) :
    Calibration.Renumbers place ⟨f, s, covariance⟩
      ⟨f.withStars stars excluded, s', covariance⟩ := by
  have hsame := sameStars_of_renumbered hstars
  let g := f.withStars stars excluded
  have hparameters := hs.parameters_eq_parameters
  have hcount : g.stars.size = f.stars.size := by simpa using Fintype.card_congr e
  have hbefore : g.observed - g.values (f.withUnitQuaternion f.initial) =
      reorder (places e) (f.observed - f.values (f.withUnitQuaternion f.initial)) := by
    rw [observed_reorder hsame, values_reorder hsame, sub_reorder]
  refine ⟨?_, ?_⟩
  · simp only [Calibration.outcome, Outcome.mk.injEq]
    refine ⟨congrArg f.cameraAt hparameters, congrArg f.orientationAt hparameters, rfl,
      congrArg Vector.toList hparameters, hs.status_eq, hs.iterations_eq, hs.chi2_eq,
      hs.reducedChi2_eq, Solver.Reorders.dof_eq (places e) s s', ?_, ?_, rfl, rfl, trivial, hcount⟩
    · exact (congrArg rmsLength hbefore).trans (rmsLength_reorder (places e) _)
    · exact (congrArg rmsLength hs.residuals_eq).trans (rmsLength_reorder (places e) _)
  · rw [Calibration.residuals_eq, Calibration.residuals_eq, List.map_ofFn]
    refine List.Perm.trans (List.Perm.of_eq ?_) (ofFn_comp_equiv_perm e _)
    refine congrArg List.ofFn (funext fun k => ?_)
    have hindex := congrArg KeptStar.index (hstars k)
    have hentry (x : Fin 2) : s'.residuals[g.place k x] = s.residuals[f.place (e k) x] := by
      rw [← places_place e k x, ← getElem_reorder, hs.residuals_eq]
    exact Prod.ext hindex (Prod.ext (hentry 0) (hentry 1))

theorem endAlike_calibration [HasPseudoInverse ℝ] (config : CalibrationConfig ℝ) :
    EndAlike (Calibration.Renumbers place) (f.calibration config)
      ((f.withStars stars excluded).calibration config) := by
  refine (endAlike_solver? (sameStars_of_renumbered hstars) config).bind fun s s' _ _ hs => ?_
  refine (hs.fitWithCovariance config.maxIterations).bind ?_
  rintro ⟨last, covariance⟩ ⟨last', covariance'⟩ _ _ ⟨hlast, hcovariance⟩
  dsimp only at hcovariance
  subst hcovariance
  exact .ok (renumbers_of_reorders hstars hlast _)

end StarFit

section Choice

variable {α : Type} [Scalar α] (pairs : List (Correspondence α)) (σ : Equiv.Perm (Fin pairs.length))
  (toHorizon toCamera : Mat3 α) (limit : α)

/-- Permuted pairs keep the same stars, renumbered. -/
theorem keptStars_permuted :
    ((keptStars (permuted pairs σ) toHorizon toCamera limit).map
      (·.renumber (placeUnder pairs σ))).Perm (keptStars pairs toHorizon toCamera limit) := by
  unfold keptStars numberedKept
  rw [← filterMap_isKept, ← filterMap_isKept]
  refine filterMap_zipIdx_permuted pairs σ fun pair i => ?_
  dsimp only
  cases pair.star.exclusion? toCamera limit with
  | none => rfl
  | some reason => rfl

theorem excluded_permuted :
    ((Visibility.of (permuted pairs σ) toCamera limit).excluded.map fun x =>
      (placeUnder pairs σ x.1, x.2)).Perm (Visibility.of pairs toCamera limit).excluded := by
  refine filterMap_zipIdx_permuted pairs σ fun pair i => ?_
  dsimp only
  cases pair.star.exclusion? toCamera limit with
  | none => rfl
  | some reason => rfl

end Choice

/-- The second fit has the stars of the first at other places of its list. -/
structure StarFit.Renumbers (place : Nat → Nat) (f g : StarFit ℝ) : Prop where
  eq_withStars : g = f.withStars g.stars g.excluded
  stars : ∃ e : Fin g.stars.size ≃ Fin f.stars.size,
    ∀ k, (g.star k).renumber place = f.star (e k)
  excluded_perm : (g.excluded.map fun x => (place x.1, x.2)).Perm f.excluded

/-- A calibration `c` of `pairs` beside the calibration `d` of a permutation of them. What is said
of one correspondence is said of it at its new place, and the places ascend in both. -/
structure Calibration.Permutes (place : Nat → Nat) (c d : Calibration ℝ) : Prop
    extends Calibration.Renumbers place c d where
  excluded_perm : (d.start.excluded.map fun x => (place x.1, x.2)).Perm c.start.excluded
  ascending : (c.residuals.map (·.1)).Pairwise (· < ·) ∧ (d.residuals.map (·.1)).Pairwise (· < ·)
  excluded_ascending : (c.start.excluded.map (·.1)).Pairwise (· < ·) ∧
    (d.start.excluded.map (·.1)).Pairwise (· < ·)

section Calibrate

variable (camera : Camera ℝ) (orientation : Quaternion ℝ) (pairs : List (Correspondence ℝ))
  (gmst : ℝ) (site : Sky.Site ℝ) (config : CalibrationConfig ℝ)
  (σ : Equiv.Perm (Fin pairs.length))

/-- Both orders of the pairs begin a fit, or neither does. -/
theorem endAlike_ofCorrespondences_permuted (limit : ℝ) :
    EndAlike (StarFit.Renumbers (placeUnder pairs σ))
      (StarFit.ofCorrespondences camera orientation pairs gmst site limit)
      (StarFit.ofCorrespondences camera orientation (permuted pairs σ) gmst site limit) := by
  let toHorizon := site.celestialToHorizon gmst
  let toCamera := orientation.toMatrix.mul toHorizon
  have hperm := keptStars_permuted pairs σ toHorizon toCamera limit
  have hempty : (keptStars (permuted pairs σ) toHorizon toCamera limit).isEmpty =
      (keptStars pairs toHorizon toCamera limit).isEmpty := by
    have h := hperm.isEmpty_eq
    rwa [List.isEmpty_map] at h
  rw [StarFit.ofCorrespondences_eq, StarFit.ofCorrespondences_eq]
  dsimp only [StarFit.ofStars]
  rw [hempty]
  split
  · exact .error FitError.noCorrespondences
  · obtain ⟨e, he⟩ := exists_equiv_of_perm hperm
    exact .ok ⟨rfl, ⟨e, he⟩, excluded_permuted pairs σ toCamera limit⟩

/-- Correspondences in any order are calibrated with alike: with the same error, or the same outcome
and residuals that move with the correspondences. -/
theorem calibrate_permuted [HasPseudoInverse ℝ] :
    EndAlike (Calibration.Permutes (placeUnder pairs σ))
      (calibrate camera orientation pairs gmst site config)
      (calibrate camera orientation (permuted pairs σ) gmst site config) := by
  rw [calibrate_eq, calibrate_eq]
  refine (endAlike_ofCorrespondences_permuted camera orientation pairs gmst site σ
    config.faintLimit).bind fun f g hf hg hfg => ?_
  obtain ⟨stars, excluded, rfl⟩ : ∃ stars excluded, g = f.withStars stars excluded :=
    ⟨_, _, hfg.eq_withStars⟩
  obtain ⟨e, he⟩ := hfg.stars
  refine (StarFit.endAlike_calibration he config).imp fun c d hc hd hcd => ?_
  have hfirst := start_of_calibration hc
  have hsecond := start_of_calibration hd
  obtain ⟨-, -, hkept, hexcluded⟩ := StarFit.stars_of_ofCorrespondences hf
  obtain ⟨-, -, hkept', hexcluded'⟩ := StarFit.stars_of_ofCorrespondences hg
  refine ⟨hcd, ?_, ⟨?_, ?_⟩, ?_, ?_⟩
  · rw [hfirst, hsecond]
    exact hfg.excluded_perm
  · rw [c.map_fst_residuals, hfirst, hkept]
    exact Visibility.pairwise_kept_of pairs _ config.faintLimit
  · rw [d.map_fst_residuals, hsecond, hkept']
    exact Visibility.pairwise_kept_of (permuted pairs σ) _ config.faintLimit
  · rw [hfirst, hexcluded]
    exact Visibility.pairwise_excluded_of pairs _ config.faintLimit
  · rw [hsecond, hexcluded']
    exact Visibility.pairwise_excluded_of (permuted pairs σ) _ config.faintLimit

end Calibrate

end SkyCamera
