import Mathlib.Data.List.Forall2
import SkyCamera.Proofs.CalibrationReport

/-!
A calibration sees only the correspondences that it keeps. What its solver is told does not contain
the places of the stars, so a calibration of the kept correspondences alone has the same outcome,
and the sources of the others can be anything. No law of the arithmetic is used.
-/
namespace SkyCamera

variable {α : Type}

def KeptStar.unnumbered (star : KeptStar α) : KeptStar α := { star with index := 0 }

section Lists

variable {β γ : Type} {l l' : List (KeptStar α)}
  (hl : l'.map (·.unnumbered) = l.map (·.unnumbered))
include hl

theorem flatMap_of_unnumbered (row : KeptStar α → List β)
    (hrow : ∀ star, row star.unnumbered = row star) : l'.flatMap row = l.flatMap row := by
  have hmap (stars : List (KeptStar α)) :
      (stars.map (·.unnumbered)).flatMap row = stars.flatMap row := by
    rw [List.flatMap_map]
    exact congrArg (stars.flatMap ·) (funext hrow)
  rw [← hmap l', hl, hmap l]

theorem mapM_of_unnumbered (g : KeptStar α → Option β)
    (hg : ∀ star, g star.unnumbered = g star) : l'.mapM g = l.mapM g := by
  have hmap (stars : List (KeptStar α)) : (stars.map (·.unnumbered)).mapM g = stars.mapM g := by
    rw [List.mapM_map]
    exact congrArg (stars.mapM ·) (funext hg)
  rw [← hmap l', hl, hmap l]

end Lists

/-- The entries of vectors of pairs, star after star. -/
theorem toList_flatten_ofFn {β γ : Type} (stars : Array γ) (row : γ → Vector β 2) :
    (Vector.ofFn fun k : Fin stars.size => row stars[k]).flatten.toList =
      stars.toList.flatMap fun star => (row star).toList := by
  have hrows : (List.ofFn fun k : Fin stars.size => (row stars[k]).toList) =
      stars.toList.map fun star => (row star).toList := by
    refine List.ext_getElem (by simp) fun k hk hk' => ?_
    simp
  have hflatten : (Vector.ofFn fun k : Fin stars.size => row stars[k]).flatten.toList =
      (List.ofFn fun k : Fin stars.size => (row stars[k]).toList).flatten := by
    simp [Vector.flatten, Vector.toList, Function.comp_def]
  rw [hflatten, hrows, List.flatMap_def]

/-- Inputs are the same if their numbers are. -/
theorem FitInput.ext_toList {m n n' : Nat} (hn : n' = n) {values : Vector α m → Vector α n}
    {values' : Vector α m → Vector α n'} {jacobian : Vector α m → Mat α n m}
    {jacobian' : Vector α m → Mat α n' m} {observed : Vector α n} {observed' : Vector α n'}
    (hvalues : ∀ p, (values' p).toList = (values p).toList)
    (hjacobian : ∀ p, (jacobian' p).toList = (jacobian p).toList)
    (hobserved : observed'.toList = observed.toList) (mode : JacobianMode)
    (steps : Vector α m → List α) (constrain : Vector α m → Vector α m)
    (covariances? : Option (List (Covariance2 α))) :
    (⟨n', ⟨values', mode.derivative jacobian', steps, constrain⟩, observed', covariances?⟩ :
        FitInput α m) =
      ⟨n, ⟨values, mode.derivative jacobian, steps, constrain⟩, observed, covariances?⟩ := by
  subst hn
  obtain rfl : values' = values := funext fun p => Vector.toList_inj.mp (hvalues p)
  obtain rfl : jacobian' = jacobian := funext fun p => Vector.toList_inj.mp (hjacobian p)
  obtain rfl : observed' = observed := Vector.toList_inj.mp hobserved
  rfl

variable [Scalar α]

/-- Two calibrations that differ in the places of their stars and in what they leave out only. -/
structure StarFit.Alike (f g : StarFit α) : Prop where
  camera_eq : g.camera = f.camera
  orientation_eq : g.orientation = f.orientation
  stars_eq : g.stars.toList.map (·.unnumbered) = f.stars.toList.map (·.unnumbered)

/-- What a calibration says, without the places of the correspondences. -/
structure Outcome (α : Type) where
  camera : Camera α
  orientation : Quaternion α
  names : List String
  parameters : List α
  status : FitStatus
  iterations : Nat
  chi2 : α
  reducedChi2 : Option α
  dof : Nat
  rmsBefore : α
  rmsAfter : α
  covariance : Option (List (List α))
  standardErrors : Option (List α)
  residuals : List (α × α)
  numUsed : Nat

def Calibration.outcome (c : Calibration α) : Outcome α where
  camera := c.camera
  orientation := c.orientation
  names := c.start.names
  parameters := c.solver.parameters.toList
  status := c.solver.status
  iterations := c.solver.iterations
  chi2 := c.solver.chi2
  reducedChi2 := c.solver.reducedChi2
  dof := c.solver.dof
  rmsBefore := c.rmsBefore
  rmsAfter := c.rmsAfter
  covariance := c.covariance.map fun a => a.toList.map Vector.toList
  standardErrors := c.standardErrors.map Vector.toList
  residuals := c.residuals.map (·.2)
  numUsed := c.numUsed

namespace StarFit

def outcomeOf (f : StarFit α) (input : FitInput α f.parameterCount)
    (s : Solver α f.parameterCount input.dataCount)
    (covariance : Option (Mat α f.parameterCount f.parameterCount)) : Outcome α where
  camera := f.cameraAt s.parameters
  orientation := f.orientationAt s.parameters
  names := f.names
  parameters := s.parameters.toList
  status := s.status
  iterations := s.iterations
  chi2 := s.chi2
  reducedChi2 := s.reducedChi2
  dof := s.dof
  rmsBefore := Linear.rmsLength
    (input.observed - input.model.values (input.model.constrain f.initial))
  rmsAfter := Linear.rmsLength s.residuals
  covariance := covariance.map fun a => a.toList.map Vector.toList
  standardErrors := (covariance.map Linear.standardErrors).map Vector.toList
  residuals := (List.range (input.dataCount / 2)).map fun k =>
    (s.residuals.toArray.getD (2 * k) 0, s.residuals.toArray.getD (2 * k + 1) 0)
  numUsed := input.dataCount / 2

def outcome? [Linear.HasPseudoInverse α] (f : StarFit α) (input : FitInput α f.parameterCount)
    (config : CalibrationConfig α) : Except (FitError α) (Outcome α) := do
  let solver ← input.solver? f.initial config
  let (solver, covariance) ← solver.fitWithCovariance config.maxIterations
  return f.outcomeOf input solver covariance

/-- The outcome of a calibration reads its stars only through the fit's input. -/
theorem outcome_eq (f : StarFit α) (mode : JacobianMode)
    (s : Solver α f.parameterCount f.dataCount)
    (covariance : Option (Mat α f.parameterCount f.parameterCount)) :
    Calibration.outcome ⟨f, s, covariance⟩ = f.outcomeOf (f.input mode) s covariance := by
  have hcount : f.stars.size * 2 / 2 = f.stars.size := by omega
  have hkept : f.kept.zipIdx.map (·.2) = List.range (f.stars.size * 2 / 2) := by
    rw [List.zipIdx_map_snd, hcount, kept, List.length_map, Array.length_toList,
      List.range_eq_range']
  have hresiduals : (Calibration.residuals ⟨f, s, covariance⟩).map (·.2) =
      (List.range (f.stars.size * 2 / 2)).map fun k =>
        (s.residuals.toArray.getD (2 * k) 0, s.residuals.toArray.getD (2 * k + 1) 0) := by
    rw [← hkept, List.map_map, Calibration.residuals, List.map_map]
    rfl
  have hused : Calibration.numUsed ⟨f, s, covariance⟩ = f.stars.size * 2 / 2 := hcount.symm
  unfold Calibration.outcome
  rw [hresiduals, hused]
  rfl

theorem map_outcome_calibration [Linear.HasPseudoInverse α] (f : StarFit α)
    (config : CalibrationConfig α) :
    (f.calibration config).map Calibration.outcome =
      f.outcome? (f.input config.jacobian) config := by
  unfold calibration outcome? solver?
  cases (f.input config.jacobian).solver? f.initial config with
  | error e => rfl
  | ok s =>
    have hresult (result : Except (FitError α) (Solver α f.parameterCount f.dataCount ×
        Option (Mat α f.parameterCount f.parameterCount))) :
        (result.bind fun r => .ok ⟨f, r.1, r.2⟩).map Calibration.outcome =
          result.bind fun r => .ok (f.outcomeOf (f.input config.jacobian) r.1 r.2) := by
      cases result with
      | error e => rfl
      | ok r => exact congrArg Except.ok (f.outcome_eq config.jacobian r.1 r.2)
    exact hresult (s.fitWithCovariance config.maxIterations)

/-- Where only places differ, a solver is told the same. -/
theorem input_eq_of_unnumbered {camera : Camera α} {orientation : Quaternion α}
    {stars stars' : Array (KeptStar α)} {excluded excluded' : List (Nat × Exclusion)}
    (hstars : stars'.toList.map (·.unnumbered) = stars.toList.map (·.unnumbered))
    (mode : JacobianMode) :
    input ⟨camera, orientation, stars', excluded'⟩ mode =
      input ⟨camera, orientation, stars, excluded⟩ mode := by
  let f : StarFit α := ⟨camera, orientation, stars, excluded⟩
  let g : StarFit α := ⟨camera, orientation, stars', excluded'⟩
  have hsize : g.dataCount = f.dataCount := by
    have hlength := congrArg List.length hstars
    simp only [List.length_map, Array.length_toList] at hlength
    show stars'.size * 2 = stars.size * 2
    rw [hlength]
  have hvalues (p : Vector α f.parameterCount) : (g.values p).toList = (f.values p).toList := by
    have hrows := flatMap_of_unnumbered hstars
      (fun star => (pixelOf (f.cameraAt p) (f.quaternionAt p) star).toList) fun _ => rfl
    rw [← toList_flatten_ofFn, ← toList_flatten_ofFn] at hrows
    exact hrows
  have hjacobian (p : Vector α f.parameterCount) :
      (g.jacobian p).toList = (f.jacobian p).toList := by
    let row (entries : List α) : Vector α f.parameterCount :=
      .ofFn fun c => entries.toArray.getD c 0
    let rows := rowsOf (f.cameraAt p) (f.quaternionAt p)
    have hrows := flatMap_of_unnumbered hstars
      (fun star => #v[row (rows star).1, row (rows star).2].toList) fun _ => rfl
    rw [← toList_flatten_ofFn, ← toList_flatten_ofFn] at hrows
    exact hrows
  have hobserved : g.observed.toList = f.observed.toList := by
    have hrows := flatMap_of_unnumbered hstars (fun star => #v[star.i, star.j].toList) fun _ => rfl
    rw [← toList_flatten_ofFn, ← toList_flatten_ofFn] at hrows
    exact hrows
  have hcovariances : g.covariances? = f.covariances? :=
    mapM_of_unnumbered hstars (·.covariance) fun _ => rfl
  have hinput := FitInput.ext_toList hsize hvalues hjacobian hobserved mode
    (fun p => f.stepsOf p.toList) f.withUnitQuaternion g.covariances?
  refine hinput.trans ?_
  rw [hcovariances]
  rfl

/-- Fits of stars that are alike have one outcome. -/
theorem Alike.outcome?_eq [Linear.HasPseudoInverse α] {f g : StarFit α} (h : f.Alike g)
    (config : CalibrationConfig α) :
    g.outcome? (g.input config.jacobian) config = f.outcome? (f.input config.jacobian) config := by
  obtain ⟨camera, orientation, stars, excluded⟩ := f
  obtain ⟨camera', orientation', stars', excluded'⟩ := g
  obtain ⟨hcamera, horientation, hstars⟩ := h
  dsimp only at hcamera horientation hstars
  subst hcamera horientation
  exact congrArg (fun input => outcome? ⟨camera', orientation', stars, excluded⟩ input config)
    (input_eq_of_unnumbered hstars config.jacobian)

end StarFit

open Correspondence

section Sublist

variable (pairs : List (Correspondence α)) (toHorizon toCamera : Mat3 α) (limit : α)

theorem map_unnumbered_keptStars :
    (keptStars pairs toHorizon toCamera limit).map (·.unnumbered) =
      (pairs.filter (·.isKept toCamera limit)).map (·.keptStar toHorizon 0) := by
  rw [← map_fst_numberedKept, keptStars, List.map_map, List.map_map]
  rfl

/-- Of the kept correspondences all are kept. -/
theorem numberedKept_filter :
    numberedKept (pairs.filter (·.isKept toCamera limit)) toCamera limit =
      (pairs.filter (·.isKept toCamera limit)).zipIdx := by
  refine List.filter_eq_self.mpr fun x hx => ?_
  obtain hmem := List.fst_mem_of_mem_zipIdx hx
  exact (List.mem_filter.mp hmem).2

theorem kept_of_filter :
    (Visibility.of (pairs.filter (·.isKept toCamera limit)) toCamera limit).kept =
      List.range (pairs.filter (·.isKept toCamera limit)).length := by
  rw [Visibility.kept_of, numberedKept_filter, List.zipIdx_map_snd, List.range_eq_range']

theorem excluded_of_filter :
    (Visibility.of (pairs.filter (·.isKept toCamera limit)) toCamera limit).excluded = [] := by
  have hperm := Visibility.perm_range_of (pairs.filter (·.isKept toCamera limit)) toCamera limit
  have hlength := hperm.length_eq
  rw [kept_of_filter, List.length_append, List.length_range, List.length_map] at hlength
  exact List.length_eq_zero_iff.mp (by omega)

/-- The places of the kept correspondences are theirs. -/
theorem map_getElem?_kept_of :
    (Visibility.of pairs toCamera limit).kept.map (pairs[·]?) =
      (pairs.filter (·.isKept toCamera limit)).map some := by
  rw [Visibility.kept_of, ← map_fst_numberedKept, List.map_map, List.map_map]
  exact List.map_congr_left fun x hx => getElem?_of_mem_numberedKept hx

end Sublist

/-- Correspondences of one star, and of one source if it is used. -/
def Correspondence.SameIfKept (toCamera : Mat3 α) (limit : α) (p p' : Correspondence α) : Prop :=
  p'.star = p.star ∧ (p.isKept toCamera limit → p'.source = p.source)

theorem filterMap_zipIdx_congr {β γ : Type} {related : β → β → Prop} {g g' : β × Nat → Option γ}
    (hg : ∀ b b' i, related b b' → g' (b', i) = g (b, i)) {l l' : List β}
    (h : List.Forall₂ related l l') (start : Nat) :
    (l'.zipIdx start).filterMap g' = (l.zipIdx start).filterMap g := by
  induction h generalizing start with
  | nil => rfl
  | cons hhead _ ih =>
    rw [List.zipIdx_cons, List.zipIdx_cons, List.filterMap_cons, List.filterMap_cons,
      hg _ _ start hhead, ih (start + 1)]

/-- The stars are chosen without the sources of those that are left out. -/
theorem ofCorrespondences_congr (camera : Camera α) (orientation : Quaternion α)
    {pairs pairs' : List (Correspondence α)} (gmst : α) (site : Sky.Site α) {limit : α}
    (h : List.Forall₂ (SameIfKept (orientation.toMatrix.mul (site.celestialToHorizon gmst)) limit)
      pairs pairs') :
    StarFit.ofCorrespondences camera orientation pairs' gmst site limit =
      StarFit.ofCorrespondences camera orientation pairs gmst site limit := by
  let toHorizon := site.celestialToHorizon gmst
  let toCamera := orientation.toMatrix.mul toHorizon
  have hstars : keptStars pairs' toHorizon toCamera limit =
      keptStars pairs toHorizon toCamera limit := by
    unfold keptStars numberedKept
    rw [← filterMap_isKept, ← filterMap_isKept]
    refine filterMap_zipIdx_congr ?_ h 0
    rintro p p' i ⟨hstar, hsource⟩
    dsimp only
    rw [hstar]
    cases hexclusion : p.star.exclusion? toCamera limit with
    | none =>
      have hsame : p'.source = p.source := hsource (by rw [isKept, hexclusion]; rfl)
      simp only [keptStar, hstar, hsame]
    | some reason => rfl
  -- What is left out is named by its place and its reason, which its source has no part in.
  have hexcluded : (Visibility.of pairs' toCamera limit).excluded =
      (Visibility.of pairs toCamera limit).excluded := by
    refine filterMap_zipIdx_congr ?_ h 0
    rintro p p' i ⟨hstar, -⟩
    dsimp only
    rw [hstar]
  rw [StarFit.ofCorrespondences_eq, StarFit.ofCorrespondences_eq]
  dsimp only
  rw [hstars, hexcluded]

/-- Numbered lists of the same entries, one of them numbered through. -/
theorem eq_map_places {β : Type} {xs ys : List (Nat × β)} {places : List Nat}
    (hx : xs.map (·.1) = places) (hy : ys.map (·.1) = List.range ys.length)
    (hentries : ys.map (·.2) = xs.map (·.2)) :
    xs = ys.map fun y => (places.getD y.1 0, y.2) := by
  have hlength := congrArg List.length hentries
  simp only [List.length_map] at hlength
  refine List.ext_getElem (by simp [hlength]) fun k hk hk' => ?_
  have hyk : k < ys.length := by omega
  have hnumber : ys[k].1 = k := by
    have h := List.getElem_of_eq hy (i := k) (by simpa using hyk)
    simpa using h
  have hentry : ys[k].2 = xs[k].2 := by
    have h := List.getElem_of_eq hentries (i := k) (by simpa using hyk)
    simpa using h
  subst hx
  simp [hnumber, hentry, hk]

/-- The calibration `d` of the correspondences `kept` beside the calibration `c` of all the `pairs`,
among which they stand at `places`. -/
structure Calibration.Restricts (pairs kept : List (Correspondence α)) (places : List Nat)
    (c d : Calibration α) : Prop where
  outcome_eq : d.outcome = c.outcome
  excluded_eq : d.start.excluded = []
  ascending : places.Pairwise (· < ·)
  places_eq : places.map (pairs[·]?) = kept.map some
  indices_eq : d.residuals.map (·.1) = List.range kept.length
  residuals_eq : c.residuals = d.residuals.map fun r => (places.getD r.1 0, r.2)

section Calibrate

variable (camera : Camera α) (orientation : Quaternion α) (pairs : List (Correspondence α))
  (gmst : α) (site : Sky.Site α) (config : CalibrationConfig α)

/-- The choice of the stars among all correspondences and among those that are kept. -/
theorem endAlike_ofCorrespondences (limit : α) :
    let toCamera := orientation.toMatrix.mul (site.celestialToHorizon gmst)
    let kept := pairs.filter (·.isKept toCamera limit)
    EndAlike (fun f g => f.Alike g ∧ g.excluded = [])
      (StarFit.ofCorrespondences camera orientation pairs gmst site limit)
      (StarFit.ofCorrespondences camera orientation kept gmst site limit) := by
  intro toCamera kept
  let toHorizon := site.celestialToHorizon gmst
  have hstars : (keptStars kept toHorizon toCamera limit).map (·.unnumbered) =
      (keptStars pairs toHorizon toCamera limit).map (·.unnumbered) := by
    rw [map_unnumbered_keptStars, map_unnumbered_keptStars, List.filter_filter]
    simp only [Bool.and_self]
  have hempty : (keptStars kept toHorizon toCamera limit).isEmpty =
      (keptStars pairs toHorizon toCamera limit).isEmpty := by
    have h := congrArg List.isEmpty hstars
    simpa only [List.isEmpty_map] using h
  rw [StarFit.ofCorrespondences_eq, StarFit.ofCorrespondences_eq]
  dsimp only [StarFit.ofStars]
  rw [hempty]
  split
  · exact .error FitError.noCorrespondences
  · exact .ok ⟨⟨rfl, rfl, hstars⟩, excluded_of_filter pairs toCamera limit⟩

variable [Linear.HasPseudoInverse α]

theorem start_of_calibration {f : StarFit α} {config : CalibrationConfig α} {c : Calibration α}
    (h : f.calibration config = .ok c) : c.start = f := by
  obtain ⟨s, -, hresult⟩ := bind_eq_ok.mp h
  obtain ⟨result, -, hc⟩ := bind_eq_ok.mp hresult
  cases hc
  rfl

/-- A calibration of all correspondences and one of the kept alone end alike. -/
theorem endAlike_calibrate :
    let toCamera := orientation.toMatrix.mul (site.celestialToHorizon gmst)
    let kept := pairs.filter (·.isKept toCamera config.faintLimit)
    EndAlike
      (Calibration.Restricts pairs kept (Visibility.of pairs toCamera config.faintLimit).kept)
      (calibrate camera orientation pairs gmst site config)
      (calibrate camera orientation kept gmst site config) := by
  intro toCamera kept
  rw [calibrate_eq, calibrate_eq]
  refine (endAlike_ofCorrespondences camera orientation pairs gmst site config.faintLimit).bind ?_
  rintro f g hf hg ⟨halike, hexcluded⟩
  obtain ⟨-, -, hkeptAll, -⟩ := StarFit.stars_of_ofCorrespondences hf
  obtain ⟨-, -, hkeptAlone, -⟩ := StarFit.stars_of_ofCorrespondences hg
  rw [kept_of_filter] at hkeptAlone
  have houtcome : (g.calibration config).map Calibration.outcome =
      (f.calibration config).map Calibration.outcome := by
    rw [StarFit.map_outcome_calibration, StarFit.map_outcome_calibration, halike.outcome?_eq]
  refine (EndAlike.of_map_eq houtcome).imp fun c d hc hd hcd => ?_
  obtain rfl := start_of_calibration hc
  obtain rfl := start_of_calibration hd
  have hplaces := c.map_fst_residuals.trans hkeptAll
  have hnumbers : d.residuals.map (·.1) = List.range kept.length :=
    d.map_fst_residuals.trans hkeptAlone
  have hentries : d.residuals.map (·.2) = c.residuals.map (·.2) := congrArg Outcome.residuals hcd
  have hlength : d.residuals.length = kept.length := by
    have h := congrArg List.length hnumbers
    simpa using h
  refine ⟨hcd, hexcluded, Visibility.pairwise_kept_of pairs toCamera config.faintLimit,
    map_getElem?_kept_of pairs toCamera config.faintLimit, hnumbers, ?_⟩
  exact eq_map_places hplaces (hlength ▸ hnumbers) hentries

end Calibrate

theorem sameIfKept_sixAboveOneBelow (x x' : ℝ) :
    List.Forall₂ (SameIfKept toZenith 6) (sixAboveOneBelow x) (sixAboveOneBelow x') := by
  have hbelow : SameIfKept toZenith 6 (equatorPair x Real.pi) (equatorPair x' Real.pi) := by
    refine ⟨rfl, fun hkept => ?_⟩
    rw [isKept_equatorPair, Real.cos_pi] at hkept
    norm_num at hkept
  refine List.rel_append ?_ (.cons hbelow .nil)
  exact List.forall₂_same.mpr fun _ _ => ⟨rfl, fun _ => rfl⟩

theorem filter_sixAboveOneBelow (x : ℝ) :
    (sixAboveOneBelow x).filter (·.isKept toZenith 6) = List.replicate 6 (equatorPair 1 0) := by
  simp [sixAboveOneBelow, isKept_equatorPair]

/-- Only what it keeps bears on a calibration: the kept correspondences alone end as all do, and
the sources of the others are not seen. -/
theorem calibrate_kept [Linear.HasPseudoInverse α] (camera : Camera α) (orientation : Quaternion α)
    (pairs : List (Correspondence α)) (gmst : α) (site : Sky.Site α)
    (config : CalibrationConfig α) :
    let toCamera := orientation.toMatrix.mul (site.celestialToHorizon gmst)
    let kept := pairs.filter (·.isKept toCamera config.faintLimit)
    EndAlike
        (Calibration.Restricts pairs kept (Visibility.of pairs toCamera config.faintLimit).kept)
        (calibrate camera orientation pairs gmst site config)
        (calibrate camera orientation kept gmst site config) ∧
      ∀ pairs', List.Forall₂ (SameIfKept toCamera config.faintLimit) pairs pairs' →
        calibrate camera orientation pairs' gmst site config =
          calibrate camera orientation pairs gmst site config := by
  intro toCamera kept
  refine ⟨endAlike_calibrate camera orientation pairs gmst site config, fun pairs' h => ?_⟩
  rw [calibrate_eq, calibrate_eq, ofCorrespondences_congr camera orientation gmst site h]

theorem calibrate_kept_sixAboveOneBelow :
    ∃ c d, calibrate StarFit.zenithCamera .identity (sixAboveOneBelow 100) 0 ⟨0, 0, 0⟩
        zenithConfig = .ok c ∧
      calibrate StarFit.zenithCamera .identity (sixAboveOneBelow 500) 0 ⟨0, 0, 0⟩
        zenithConfig = .ok c ∧
      calibrate StarFit.zenithCamera .identity (List.replicate 6 (equatorPair 1 0)) 0 ⟨0, 0, 0⟩
        zenithConfig = .ok d ∧
      d.outcome = c.outcome := by
  obtain ⟨c, hc, -⟩ := calibrate_sixAboveOneBelow 100
  obtain ⟨halone, hunseen⟩ := calibrate_kept StarFit.zenithCamera .identity (sixAboveOneBelow 100)
    0 ⟨0, 0, 0⟩ zenithConfig
  have hmoved := hunseen (sixAboveOneBelow 500) (sameIfKept_sixAboveOneBelow 100 500)
  have hkept : (sixAboveOneBelow 100).filter (·.isKept (Quaternion.identity.toMatrix.mul
      (Sky.Site.celestialToHorizon ⟨0, 0, 0⟩ 0)) zenithConfig.faintLimit) =
      List.replicate 6 (equatorPair 1 0) := filter_sixAboveOneBelow 100
  rw [hkept, hc] at halone
  cases hd : calibrate StarFit.zenithCamera .identity (List.replicate 6 (equatorPair 1 0)) 0
      ⟨0, 0, 0⟩ zenithConfig with
  | error e =>
    rw [hd] at halone
    cases halone
  | ok d =>
    rw [hd] at halone
    cases halone with
    | ok h => exact ⟨c, d, hc, hmoved.trans hc, rfl, h.outcome_eq⟩

end SkyCamera
