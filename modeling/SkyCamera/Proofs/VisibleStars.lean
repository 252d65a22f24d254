import Mathlib.Data.List.Nodup
import SkyCamera.Proofs.FloatOrder
import SkyCamera.Proofs.KeptStars

/-!
How correspondences are split for a fit. The two comparisons that decide are asked so that an
undefined magnitude is too faint, but an undefined depth is not behind the camera: such a star is
kept. Depths are undefined wherever something that they are computed from is.
-/
namespace SkyCamera

section Scalars

variable {α : Type} [Scalar α]

def Correspondence.depth (toCamera : Mat3 α) (c : Correspondence α) : α :=
  (toCamera.mulVec c.star.direction).z

/-- A correspondence is left out at its place, with its reason. -/
theorem Visibility.mem_excluded_of_iff {pairs : List (Correspondence α)} {toCamera : Mat3 α}
    {limit : α} {i : Nat} {reason : Exclusion} :
    (i, reason) ∈ (Visibility.of pairs toCamera limit).excluded ↔
      ∃ c, pairs[i]? = some c ∧ c.star.exclusion? toCamera limit = some reason := by
  constructor
  · intro h
    obtain ⟨⟨c, j⟩, hc, hreason⟩ := List.mem_filterMap.mp h
    obtain ⟨_, hexcluded, hsame⟩ := Option.map_eq_some_iff.mp hreason
    cases hsame
    exact ⟨c, List.mk_mem_zipIdx_iff_getElem?.mp hc, hexcluded⟩
  · rintro ⟨c, hc, hexcluded⟩
    refine List.mem_filterMap.mpr ⟨(c, i), List.mk_mem_zipIdx_iff_getElem?.mpr hc, ?_⟩
    exact congrArg (Option.map fun reason => (i, reason)) hexcluded

theorem Visibility.mem_kept_of_iff {pairs : List (Correspondence α)} {toCamera : Mat3 α}
    {limit : α} {i : Nat} :
    i ∈ (Visibility.of pairs toCamera limit).kept ↔
      ∃ c, pairs[i]? = some c ∧ c.star.exclusion? toCamera limit = none := by
  rw [kept_of, List.mem_map]
  constructor
  · rintro ⟨⟨c, j⟩, hc, rfl⟩
    obtain ⟨hplace, hkept⟩ := List.mem_filter.mp hc
    exact ⟨c, List.mk_mem_zipIdx_iff_getElem?.mp hplace, Option.isNone_iff_eq_none.mp hkept⟩
  · rintro ⟨c, hc, hkept⟩
    exact ⟨(c, i), List.mem_filter.mpr ⟨List.mk_mem_zipIdx_iff_getElem?.mpr hc,
      Option.isNone_iff_eq_none.mpr hkept⟩, rfl⟩

/-- The depth is looked at only of stars that are bright enough. -/
theorem Sky.Star.exclusion?_eq_behindCamera_iff (toCamera : Mat3 α) (limit : α)
    (star : Sky.Star α) :
    star.exclusion? toCamera limit = some .behindCamera ↔
      star.IsBright limit ∧ (toCamera.mulVec star.direction).z ≤ 0 := by
  unfold Sky.Star.exclusion?
  by_cases hbright : star.IsBright limit
  · simp [hbright]
  · simp [hbright]

end Scalars

namespace Vec3

/-- Whether no coordinate is undefined. -/
structure IsNumber (v : Vec3 Float) : Prop where
  x : Scalar.IsNumber v.x
  y : Scalar.IsNumber v.y
  z : Scalar.IsNumber v.z

theorem isNumber_of_dot {u v : Vec3 Float} (h : Scalar.IsNumber (u.dot v)) :
    u.IsNumber ∧ v.IsNumber := by
  obtain ⟨hxy, hz⟩ := Binary64.isNumber_of_add h
  obtain ⟨hx, hy⟩ := Binary64.isNumber_of_add hxy
  obtain ⟨hux, hvx⟩ := Binary64.isNumber_of_mul hx
  obtain ⟨huy, hvy⟩ := Binary64.isNumber_of_mul hy
  obtain ⟨huz, hvz⟩ := Binary64.isNumber_of_mul hz
  exact ⟨⟨hux, huy, huz⟩, ⟨hvx, hvy, hvz⟩⟩

end Vec3

namespace Correspondence

/-- A depth is not refused where it is above zero, and where it is undefined. -/
theorem not_depth_le_zero_iff (toCamera : Mat3 Float) (c : Correspondence Float) :
    ¬ c.depth toCamera ≤ 0 ↔
      0 < c.depth toCamera ∨ ¬ Scalar.IsNumber (c.depth toCamera) := by
  constructor
  · intro h
    by_cases hnumber : Scalar.IsNumber (c.depth toCamera)
    · have hle := (OrderedScalar.le_total Binary64.isNumber_zero hnumber).resolve_right h
      exact Or.inl (OrderedScalar.lt_iff.mpr ⟨hle, h⟩)
    · exact Or.inr hnumber
  · rintro (hpos | hundefined) hle
    · exact (OrderedScalar.lt_iff.mp hpos).2 hle
    · exact hundefined (OrderedScalar.isNumber_of_le hle).1

end Correspondence

/-- What a fit uses of its correspondences, what it leaves out, and why. -/
structure Visibility.Splits (pairs : List (Correspondence Float)) (toCamera : Mat3 Float)
    (limit : Float) (v : Visibility) : Prop where
  kept_ascending : v.kept.Pairwise (· < ·)
  excluded_ascending : (v.excluded.map (·.1)).Pairwise (· < ·)
  disjoint : v.kept.Disjoint (v.excluded.map (·.1))
  perm_range : (v.kept ++ v.excluded.map (·.1)).Perm (List.range pairs.length)
  mem_kept_iff : ∀ i, i ∈ v.kept ↔ ∃ c, pairs[i]? = some c ∧ c.star.magnitude ≤ limit ∧
    (0 < c.depth toCamera ∨ ¬ Scalar.IsNumber (c.depth toCamera))
  tooFaint_iff : ∀ i, (i, Exclusion.tooFaint) ∈ v.excluded ↔
    ∃ c, pairs[i]? = some c ∧ ¬ c.star.magnitude ≤ limit
  behindCamera_iff : ∀ i, (i, Exclusion.behindCamera) ∈ v.excluded ↔
    ∃ c, pairs[i]? = some c ∧ c.star.magnitude ≤ limit ∧ c.depth toCamera ≤ 0
  undefined : ∀ c ∈ pairs, ¬ (toCamera.row2.IsNumber ∧ c.star.direction.IsNumber) →
    ¬ Scalar.IsNumber (c.depth toCamera)
  /-- The stars of a fit are those that are kept under its first orientation. -/
  kept_fit : ∀ (camera : Camera Float) (orientation : Quaternion Float) (gmst : Float)
    (site : Sky.Site Float) (f : StarFit Float),
    toCamera = orientation.toMatrix.mul (site.celestialToHorizon gmst) →
    StarFit.ofCorrespondences camera orientation pairs gmst site limit = .ok f → f.kept = v.kept

/-- Which correspondences are kept, whatever the numbers are. -/
theorem Visibility.splits_of (pairs : List (Correspondence Float)) (toCamera : Mat3 Float)
    (limit : Float) : Splits pairs toCamera limit (Visibility.of pairs toCamera limit) where
  kept_ascending := pairwise_kept_of pairs toCamera limit
  excluded_ascending := pairwise_excluded_of pairs toCamera limit
  disjoint := by
    have hnodup := (perm_range_of pairs toCamera limit).nodup_iff.mpr List.nodup_range
    exact List.disjoint_of_nodup_append hnodup
  perm_range := perm_range_of pairs toCamera limit
  mem_kept_iff i := by
    rw [mem_kept_of_iff]
    refine exists_congr fun c => and_congr_right' ?_
    rw [Sky.Star.exclusion?_eq_none_iff, ← c.not_depth_le_zero_iff]
    exact Iff.rfl
  tooFaint_iff i := by
    rw [mem_excluded_of_iff]
    exact exists_congr fun c => and_congr_right' (c.star.exclusion?_eq_tooFaint_iff toCamera limit)
  behindCamera_iff i := by
    rw [mem_excluded_of_iff]
    exact exists_congr fun c =>
      and_congr_right' (c.star.exclusion?_eq_behindCamera_iff toCamera limit)
  undefined c _ h hnumber := h (Vec3.isNumber_of_dot hnumber)
  kept_fit camera orientation gmst site f htoCamera hf := by
    rw [htoCamera]
    exact (StarFit.stars_of_ofCorrespondences hf).2.2.1

def equinoxPair : Correspondence Float := ⟨⟨0, 0, none, none⟩, ⟨1, 0, 0, 0⟩⟩

def undefinedRotation : Mat3 Float := (Quaternion.normalize ⟨0, 0, 0, 0⟩).toMatrix

/-- A star is kept though its depth is not above zero. -/
theorem Visibility.kept_of_undefinedDepth :
    (Visibility.of [equinoxPair] undefinedRotation Scalar.infinity).kept = [0] ∧
      equinoxPair.star.magnitude ≤ Scalar.infinity ∧ ¬ 0 < equinoxPair.depth undefinedRotation := by
  have hrow : ¬ Scalar.IsNumber undefinedRotation.row2.x := by decide +kernel
  have hbright : equinoxPair.star.magnitude ≤ Scalar.infinity := by decide +kernel
  have hundefined : ¬ Scalar.IsNumber (equinoxPair.depth undefinedRotation) :=
    fun hnumber => hrow (Vec3.isNumber_of_dot hnumber).1.x
  have hfront := (equinoxPair.not_depth_le_zero_iff undefinedRotation).mpr (.inr hundefined)
  have hkept := (Sky.Star.exclusion?_eq_none_iff undefinedRotation Scalar.infinity
    equinoxPair.star).mpr ⟨hbright, hfront⟩
  refine ⟨by simp [Visibility.of, hkept], hbright, fun hpos => ?_⟩
  exact hundefined (OrderedScalar.isNumber_of_le (OrderedScalar.lt_iff.mp hpos).1).2

end SkyCamera
