import Mathlib.Data.List.Basic
import SkyCamera.Calibration.StarFit

/-!
The correspondences that a calibration keeps. A correspondence is kept or left out for its star
alone; those that are kept stay in the order of the list and remember their places in it.
-/
namespace SkyCamera

variable {α : Type} [Scalar α]

namespace Correspondence

def isKept (toCamera : Mat3 α) (limit : α) (c : Correspondence α) : Bool :=
  (c.star.exclusion? toCamera limit).isNone

theorem isKept_eq (toCamera : Mat3 α) (limit : α) (c : Correspondence α) :
    c.isKept toCamera limit =
      decide (c.star.magnitude ≤ limit ∧ ¬ (toCamera.mulVec c.star.direction).z ≤ 0) := by
  rw [isKept, Bool.eq_iff_iff, Option.isNone_iff_eq_none, decide_eq_true_iff]
  exact Sky.Star.exclusion?_eq_none_iff toCamera limit c.star

def keptStar (toHorizon : Mat3 α) (c : Correspondence α) (index : Nat) : KeptStar α :=
  ⟨index, toHorizon.mulVec c.star.direction, c.source.x, c.source.y, c.source.covariance⟩

def numberedKept (pairs : List (Correspondence α)) (toCamera : Mat3 α) (limit : α) :
    List (Correspondence α × Nat) :=
  pairs.zipIdx.filter fun x => x.1.isKept toCamera limit

def keptStars (pairs : List (Correspondence α)) (toHorizon toCamera : Mat3 α) (limit : α) :
    List (KeptStar α) :=
  (numberedKept pairs toCamera limit).map fun x => x.1.keptStar toHorizon x.2

theorem filterMap_isKept {β : Type} (toCamera : Mat3 α) (limit : α)
    (g : Correspondence α × Nat → β) (l : List (Correspondence α × Nat)) :
    (l.filterMap fun x =>
      match x.1.star.exclusion? toCamera limit with
      | none => some (g x)
      | some _ => none) = (l.filter fun x => x.1.isKept toCamera limit).map g := by
  induction l with
  | nil => rfl
  | cons x l ih =>
    cases hexclusion : x.1.star.exclusion? toCamera limit with
    | none => simp [isKept, hexclusion, ih]
    | some reason => simp [isKept, hexclusion, ih]

theorem map_fst_numberedKept (pairs : List (Correspondence α)) (toCamera : Mat3 α) (limit : α) :
    (numberedKept pairs toCamera limit).map (·.1) = pairs.filter (·.isKept toCamera limit) := by
  have hfilter := List.filter_map (f := Prod.fst) (p := (·.isKept toCamera limit))
    (l := pairs.zipIdx)
  rw [List.zipIdx_map_fst] at hfilter
  exact hfilter.symm

theorem map_covariance_keptStars (pairs : List (Correspondence α)) (toHorizon toCamera : Mat3 α)
    (limit : α) : (keptStars pairs toHorizon toCamera limit).map (·.covariance) =
      (pairs.filter (·.isKept toCamera limit)).map (·.source.covariance) := by
  rw [← map_fst_numberedKept, keptStars, List.map_map, List.map_map]
  rfl

theorem numberedKept_of_forall {pairs : List (Correspondence α)} {toCamera : Mat3 α} {limit : α}
    (h : ∀ pair ∈ pairs, pair.isKept toCamera limit) :
    numberedKept pairs toCamera limit = pairs.zipIdx :=
  List.filter_eq_self.mpr fun x hx => h x.1 (List.fst_mem_of_mem_zipIdx hx)

/-- A kept correspondence stands at its place. -/
theorem getElem?_of_mem_numberedKept {pairs : List (Correspondence α)} {toCamera : Mat3 α}
    {limit : α} {x : Correspondence α × Nat} (hx : x ∈ numberedKept pairs toCamera limit) :
    pairs[x.2]? = some x.1 :=
  List.mem_zipIdx_iff_getElem?.mp (List.mem_filter.mp hx).1

end Correspondence

namespace Visibility

open Correspondence

variable (pairs : List (Correspondence α)) (toCamera : Mat3 α) (limit : α)

theorem kept_of : (of pairs toCamera limit).kept =
    (numberedKept pairs toCamera limit).map (·.2) :=
  filterMap_isKept toCamera limit (·.2) pairs.zipIdx

theorem map_fst_excluded_of : (of pairs toCamera limit).excluded.map (·.1) =
    (pairs.zipIdx.filter fun x => !x.1.isKept toCamera limit).map (·.2) := by
  show (pairs.zipIdx.filterMap fun x =>
    (x.1.star.exclusion? toCamera limit).map fun reason => (x.2, reason)).map (·.1) = _
  induction pairs.zipIdx with
  | nil => rfl
  | cons x l ih =>
    cases hexclusion : x.1.star.exclusion? toCamera limit with
    | none => simpa [isKept, hexclusion] using ih
    | some reason => simpa [isKept, hexclusion] using ih

theorem pairwise_filter_zipIdx {β : Type} (p : β × Nat → Bool) (l : List β) :
    ((l.zipIdx.filter p).map (·.2)).Pairwise (· < ·) := by
  have hsublist : List.Sublist ((l.zipIdx.filter p).map (·.2)) (List.range l.length) := by
    rw [List.range_eq_range', ← List.zipIdx_map_snd]
    exact List.filter_sublist.map _
  exact List.pairwise_lt_range.sublist hsublist

theorem pairwise_kept_of : (of pairs toCamera limit).kept.Pairwise (· < ·) := by
  rw [kept_of]
  exact pairwise_filter_zipIdx _ pairs

theorem pairwise_excluded_of :
    ((of pairs toCamera limit).excluded.map (·.1)).Pairwise (· < ·) := by
  rw [map_fst_excluded_of]
  exact pairwise_filter_zipIdx _ pairs

/-- Every place is that of one correspondence, which is either kept or left out. -/
theorem perm_range_of :
    ((of pairs toCamera limit).kept ++ (of pairs toCamera limit).excluded.map (·.1)).Perm
      (List.range pairs.length) := by
  have hperm := List.filter_append_perm (fun x : Correspondence α × Nat =>
    x.1.isKept toCamera limit) pairs.zipIdx
  have hplaces := hperm.map Prod.snd
  rw [List.map_append, List.zipIdx_map_snd, ← List.range_eq_range'] at hplaces
  rw [kept_of, map_fst_excluded_of]
  exact hplaces

end Visibility

namespace StarFit

def ofStars (camera : Camera α) (orientation : Quaternion α) (stars : List (KeptStar α))
    (excluded : List (Nat × Exclusion)) : Except (FitError α) (StarFit α) :=
  if stars.isEmpty then .error .noCorrespondences
  else .ok ⟨camera, orientation, stars.toArray, excluded⟩

/-- A star fit begins with the kept stars in their order, or fails for want of any. -/
theorem ofCorrespondences_eq (camera : Camera α) (orientation : Quaternion α)
    (pairs : List (Correspondence α)) (gmst : α) (site : Sky.Site α) (limit : α) :
    ofCorrespondences camera orientation pairs gmst site limit =
      let toHorizon := site.celestialToHorizon gmst
      let toCamera := orientation.toMatrix.mul toHorizon
      ofStars camera orientation (Correspondence.keptStars pairs toHorizon toCamera limit)
        (Visibility.of pairs toCamera limit).excluded := by
  let toHorizon := site.celestialToHorizon gmst
  let toCamera := orientation.toMatrix.mul toHorizon
  have hstars := Correspondence.filterMap_isKept toCamera limit
    (fun x => x.1.keptStar toHorizon x.2) pairs.zipIdx
  exact congrArg (fun stars => ofStars camera orientation stars
    (Visibility.of pairs toCamera limit).excluded) hstars

variable {camera : Camera α} {orientation : Quaternion α} {pairs : List (Correspondence α)}
  {gmst : α} {site : Sky.Site α} {limit : α} {f : StarFit α}

/-- A calibration can be made of correspondences that are all kept. -/
theorem exists_ofCorrespondences (hpairs : pairs ≠ []) (hkept : ∀ pair ∈ pairs,
      pair.isKept (orientation.toMatrix.mul (site.celestialToHorizon gmst)) limit) :
    ∃ f, ofCorrespondences camera orientation pairs gmst site limit = .ok f ∧
      f.stars.size = pairs.length := by
  rw [ofCorrespondences_eq]
  dsimp only [Correspondence.keptStars]
  rw [Correspondence.numberedKept_of_forall hkept, ofStars, if_neg (by simpa using hpairs)]
  exact ⟨_, rfl, by simp⟩

theorem stars_of_ofCorrespondences
    (hf : ofCorrespondences camera orientation pairs gmst site limit = .ok f) :
    let toHorizon := site.celestialToHorizon gmst
    let toCamera := orientation.toMatrix.mul toHorizon
    f.stars.size ≠ 0 ∧ f.stars.toList = Correspondence.keptStars pairs toHorizon toCamera limit ∧
      f.kept = (Visibility.of pairs toCamera limit).kept ∧
      f.excluded = (Visibility.of pairs toCamera limit).excluded := by
  intro toHorizon toCamera
  rw [ofCorrespondences_eq] at hf
  dsimp only [ofStars] at hf
  split at hf
  · cases hf
  next hnonempty =>
    cases hf
    refine ⟨?_, rfl, ?_, rfl⟩
    · simpa [List.isEmpty_iff] using hnonempty
    · rw [Visibility.kept_of]
      simp only [kept, Correspondence.keptStars, List.map_map]
      rfl

end StarFit
end SkyCamera
