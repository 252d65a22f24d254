import SkyCamera.Proofs.KeptCalibration
import SkyCamera.Proofs.ReorderedFit

/-!
The stars of a calibration in another order. The two data of a star stay together and in their
order, so that the rows of the Jacobian and the blocks of the covariance move with the star;
whether a covariance is accepted is a matter of all its entries and of its being positive
definite.
-/
namespace SkyCamera

open Matrix Linear

namespace DataCovariance

variable {n n' : Nat} {e : Fin n' ≃ Fin n}

/-- The lower triangle has a factor where it is that of a positive definite matrix, whose inverse
is then the inverse of the factor. -/
theorem exists_factor_iff (a : Mat ℝ n n) :
    (∃ f, cholesky a = some f) ↔ (mirrored a).toMatrix.PosDef := by
  rw [← cholesky_mirrored]
  constructor
  · rintro ⟨f, hf⟩
    exact posDef_of_cholesky (isSymm_mirrored a) hf
  · intro h
    obtain ⟨f, hf, -⟩ := exists_cholesky _ h
    exact ⟨f, hf⟩

/-- A covariance with its rows and columns in another order is accepted where it is accepted itself,
if the triangle that counts is the same. -/
theorem endAlike_ofMatrix {a : Mat ℝ n n} {a' : Mat ℝ n' n'}
    (h : a'.toMatrix = a.toMatrix.submatrix e e)
    (hmirrored : (mirrored a').toMatrix = (mirrored a).toMatrix.submatrix e e) :
    EndAlike (Reorders e) (ofMatrix a) (ofMatrix a') := by
  have hfactors : (∃ f', cholesky a' = some f') ↔ ∃ f, cholesky a = some f := by
    rw [exists_factor_iff, exists_factor_iff, hmirrored]
    exact ⟨fun h => by simpa using h.submatrix e.symm.injective, fun h => h.submatrix e.injective⟩
  unfold ofMatrix
  by_cases hsymm : a.IsSymmetric symmetryTolerance
  · rw [if_pos hsymm, if_pos ((Mat.isSymmetric_submatrix e h _).mpr hsymm)]
    cases hf : cholesky a with
    | none =>
      have hnone : cholesky a' = none := by
        refine Option.eq_none_iff_forall_ne_some.mpr fun f' hf' => ?_
        obtain ⟨f, hsome⟩ := hfactors.mp ⟨f', hf'⟩
        rw [hf] at hsome
        cases hsome
      rw [hnone]
      exact .error _
    | some f =>
      obtain ⟨f', hf'⟩ := hfactors.mpr ⟨f, hf⟩
      have hinverse {k : Nat} {b : Mat ℝ k k} {g : Factor ℝ k} (hg : cholesky b = some g) :
          g.inverse.toMatrix = (mirrored b).toMatrix⁻¹ :=
        toMatrix_inverse ((exists_factor_iff b).mp ⟨g, hg⟩) ((cholesky_mirrored b).trans hg)
      rw [hf']
      refine .ok ?_
      rw [Reorders, weightMatrix, weightMatrix, hinverse hf, hinverse hf', hmirrored,
        inv_submatrix_equiv]
  · rw [if_neg hsymm, if_neg (mt (Mat.isSymmetric_submatrix e h _).mp hsymm)]
    exact .error _

theorem endAlike_ofVariances_replicate (e : Fin n' ≃ Fin n) (variance : ℝ) :
    EndAlike (Reorders e) (ofVariances (.replicate n variance))
      (ofVariances (.replicate n' variance)) := by
  obtain rfl : n' = n := by simpa using Fintype.card_congr e
  refine (EndAlike.refl _).imp fun cov cov' hcov _ heq => ?_
  obtain ⟨rfl, -⟩ := pos_of_ofVariances hcov
  rw [← heq, Reorders, weightMatrix]
  ext i j
  simp [Matrix.diagonal_apply]

end DataCovariance

def Covariance2.entry {α : Type} (b : Covariance2 α) (x y : Fin 2) : α :=
  match x, y with
  | 0, 0 => b.xx
  | 0, 1 => b.xy
  | 1, 0 => b.yx
  | 1, 1 => b.yy

/-- The entry for two data of which one is that numbered `x` of star `k` and one `y` of star `l`. -/
theorem toMatrix_blockDiagonal {n : Nat} (blocks : List (Covariance2 ℝ)) {i j : Fin n} {k l : Nat}
    {x y : Fin 2} (hi : i.val = 2 * k + x) (hj : j.val = 2 * l + y) :
    (blockDiagonal n blocks).toMatrix i j =
      if k = l then (blocks[k]?.map (·.entry x y)).getD 0 else 0 := by
  have hdiv {i k : Nat} {x : Fin 2} (hi : i = 2 * k + x) : i / 2 = k := by omega
  have hmod {i k : Nat} {x : Fin 2} (hi : i = 2 * k + x) : i % 2 = x.val := by omega
  unfold blockDiagonal
  rw [Mat.toMatrix_ofFn]
  simp only [hdiv hi, hdiv hj, hmod hi, hmod hj, List.getElem?_toArray]
  cases blocks[k]? with
  | none => simp
  | some b =>
    by_cases hkl : k = l
    · simp only [hkl, if_true]
      fin_cases x <;> fin_cases y <;> rfl
    · simp [hkl]

namespace StarFit

section Places

variable {α : Type} {f g : StarFit α} (e : Fin g.stars.size ≃ Fin f.stars.size)

/-- The data of `g`, two for each star, at the places of those stars in `f`. -/
def places : Fin g.dataCount ≃ Fin f.dataCount :=
  (g.placeEquiv.symm.trans (e.prodCongr (Equiv.refl (Fin 2)))).trans f.placeEquiv

theorem places_place (k : Fin g.stars.size) (x : Fin 2) :
    places e (g.place k x) = f.place (e k) x := by
  rw [← placeEquiv_apply, ← placeEquiv_apply]
  simp [places]

/-- Stars in another order are data in another order; both coordinates of a star stay together. -/
theorem flatten_reorder {β : Type} {rows : Fin f.stars.size → Vector β 2}
    {rows' : Fin g.stars.size → Vector β 2} (hrows : ∀ k, rows' k = rows (e k)) :
    ((Vector.ofFn rows').flatten : Vector β g.dataCount) =
      reorder (places e) ((Vector.ofFn rows).flatten : Vector β f.dataCount) := by
  refine Vector.ext fun i hi => ?_
  obtain ⟨⟨k, x⟩, hk⟩ := g.placeEquiv.surjective ⟨i, hi⟩
  rw [placeEquiv_apply] at hk
  have hright := getElem_reorder (places e) ((Vector.ofFn rows).flatten : Vector β f.dataCount)
    ⟨i, hi⟩
  have hleft : ((Vector.ofFn rows').flatten : Vector β g.dataCount)[g.place k x] = (rows' k)[x] :=
    g.getElem_place rfl k x
  rw [← hk, places_place, f.getElem_place rfl, ← hrows] at hright
  rw [hk] at hleft hright
  exact hleft.trans hright.symm

end Places

section Blocks

variable {f : StarFit ℝ}

theorem blockDiagonal_place (blocks : List (Covariance2 ℝ)) (k l : Fin f.stars.size)
    (x y : Fin 2) :
    (blockDiagonal f.dataCount blocks).toMatrix (f.place k x) (f.place l y) =
      if k = l then (blocks[k.val]?.map (·.entry x y)).getD 0 else 0 := by
  rw [toMatrix_blockDiagonal blocks (i := f.place k x) (j := f.place l y) rfl rfl]
  simp only [Fin.val_inj]

/-- Entries of different stars are zero, and those of one star come from its block, the lower
triangle taken twice. -/
theorem mirrored_blockDiagonal_place (blocks : List (Covariance2 ℝ)) (k l : Fin f.stars.size)
    (x y : Fin 2) :
    (DataCovariance.mirrored (blockDiagonal f.dataCount blocks)).toMatrix (f.place k x)
        (f.place l y) =
      if k = l then (blocks[k.val]?.map (·.entry (max x y) (min x y))).getD 0 else 0 := by
  have hentry (k l : Fin f.stars.size) (x y : Fin 2) := blockDiagonal_place blocks k l x y
  have hle : f.place k y ≤ f.place k x ↔ y ≤ x := by
    simp only [Fin.le_def, place]
    omega
  rw [DataCovariance.toMatrix_mirrored]
  by_cases hkl : k = l
  · subst hkl
    by_cases hyx : y ≤ x
    · rw [if_pos (hle.mpr hyx), max_eq_left hyx, min_eq_right hyx]
      exact hentry k k x y
    · rw [if_neg (mt hle.mp hyx), max_eq_right (not_le.mp hyx).le, min_eq_left (not_le.mp hyx).le]
      exact hentry k k y x
  · have hzero : (blockDiagonal f.dataCount blocks).toMatrix (f.place k x) (f.place l y) = 0 ∧
        (blockDiagonal f.dataCount blocks).toMatrix (f.place l y) (f.place k x) = 0 :=
      ⟨(hentry k l x y).trans (if_neg hkl), (hentry l k y x).trans (if_neg (Ne.symm hkl))⟩
    rw [if_neg hkl]
    split
    · exact hzero.1
    · exact hzero.2

variable {g : StarFit ℝ} (e : Fin g.stars.size ≃ Fin f.stars.size)

/-- Matrices that have the same entries for two stars wherever these stand. -/
theorem eq_submatrix_places {a : Matrix (Fin f.dataCount) (Fin f.dataCount) ℝ}
    {a' : Matrix (Fin g.dataCount) (Fin g.dataCount) ℝ}
    (h : ∀ k l x y, a' (g.place k x) (g.place l y) = a (f.place (e k) x) (f.place (e l) y)) :
    a' = a.submatrix (places e) (places e) := by
  ext i j
  obtain ⟨⟨k, x⟩, rfl⟩ := g.placeEquiv.surjective i
  obtain ⟨⟨l, y⟩, rfl⟩ := g.placeEquiv.surjective j
  rw [submatrix_apply, placeEquiv_apply, placeEquiv_apply, places_place, places_place]
  exact h k l x y

/-- Blocks that move with their stars. -/
theorem endAlike_ofMatrix_blockDiagonal {blocks blocks' : List (Covariance2 ℝ)}
    (hblocks : ∀ k : Fin g.stars.size, blocks'[k.val]? = blocks[(e k).val]?) :
    EndAlike (DataCovariance.Reorders (places e))
      (DataCovariance.ofMatrix (blockDiagonal f.dataCount blocks))
      (DataCovariance.ofMatrix (blockDiagonal g.dataCount blocks')) := by
  refine DataCovariance.endAlike_ofMatrix (eq_submatrix_places e fun k l x y => ?_)
    (eq_submatrix_places e fun k l x y => ?_)
  · rw [blockDiagonal_place, blockDiagonal_place, hblocks]
    simp only [e.injective.eq_iff]
  · rw [mirrored_blockDiagonal_place, mirrored_blockDiagonal_place, hblocks]
    simp only [e.injective.eq_iff]

end Blocks

theorem getElem?_of_mapM {β γ : Type} {g : β → Option γ} {l : List β} {results : List γ}
    (h : l.mapM g = some results) (k : Nat) : results[k]? = l[k]?.bind g := by
  have hentry := congrArg (fun entries : List (Option γ) => entries[k]?.join)
    (mapM_eq_some_iff.mp h)
  simp only [List.getElem?_map] at hentry
  calc
    results[k]? = (results[k]?.map some).join := by cases results[k]? <;> rfl
    _ = (l[k]?.map g).join := hentry.symm
    _ = l[k]?.bind g := by cases l[k]? <;> rfl

/-- The stars of `f` in another order, of which only the places in the list may differ. -/
def SameStars {α : Type} {f g : StarFit α} (e : Fin g.stars.size ≃ Fin f.stars.size) : Prop :=
  ∀ k, (g.star k).unnumbered = (f.star (e k)).unnumbered

section SameStars

variable {f g : StarFit ℝ} {e : Fin g.stars.size ≃ Fin f.stars.size} (h : SameStars e)
include h

theorem covariance_eq (k : Fin g.stars.size) :
    (g.star k).covariance = (f.star (e k)).covariance := by
  have hstar := congrArg KeptStar.covariance (h k)
  exact hstar

theorem covariances?_eq_none_iff_of_sameStars : g.covariances? = none ↔ f.covariances? = none := by
  have hindex (f : StarFit ℝ) : f.covariances? = none ↔ ∃ k, (f.star k).covariance = none := by
    rw [covariances?_eq_none_iff]
    constructor
    · rintro ⟨star, hmem, hnone⟩
      obtain ⟨k, hk, rfl⟩ := List.getElem_of_mem hmem
      exact ⟨⟨k, by simpa using hk⟩, by simpa using hnone⟩
    · rintro ⟨k, hnone⟩
      exact ⟨f.star k, by simp, hnone⟩
  rw [hindex, hindex]
  simp only [covariance_eq h]
  exact e.exists_congr fun _ => Iff.rfl

/-- The check of the covariance does not depend on the order of the stars: the scale is the largest
entry of all, and a factor exists for one order if for another. -/
theorem endAlike_dataCovariance (sigma : ℝ) :
    EndAlike (DataCovariance.Reorders (places e)) (f.dataCovariance sigma)
      (g.dataCovariance sigma) := by
  have hnone := covariances?_eq_none_iff_of_sameStars h
  unfold dataCovariance
  cases hf : f.covariances? with
  | none =>
    rw [hnone.mpr hf]
    exact DataCovariance.endAlike_ofVariances_replicate (places e) (sigma * sigma)
  | some blocks =>
    cases hg : g.covariances? with
    | none =>
      rw [hnone.mp hg] at hf
      cases hf
    | some blocks' =>
      refine endAlike_ofMatrix_blockDiagonal e fun k => ?_
      rw [getElem?_of_mapM hf, getElem?_of_mapM hg]
      simpa using covariance_eq h k

end SameStars

section Solver

variable (f : StarFit ℝ) (stars : Array (KeptStar ℝ)) (excluded : List (Nat × Exclusion))

def withStars : StarFit ℝ := { f with stars, excluded }

variable {f stars excluded}
  {e : Fin (f.withStars stars excluded).stars.size ≃ Fin f.stars.size} (h : SameStars e)
include h

theorem observed_reorder :
    (f.withStars stars excluded).observed = reorder (places e) f.observed := by
  refine flatten_reorder e fun k => ?_
  have hstar := congrArg (fun star => #v[star.i, star.j]) (h k)
  exact hstar

theorem values_reorder (p : Vector ℝ f.parameterCount) :
    (f.withStars stars excluded).values p = reorder (places e) (f.values p) := by
  refine flatten_reorder e fun k => ?_
  have hstar := congrArg (pixelOf (f.cameraAt p) (f.quaternionAt p)) (h k)
  exact hstar

theorem jacobian_reorder (p : Vector ℝ f.parameterCount) :
    (f.withStars stars excluded).jacobian p = reorder (places e) (f.jacobian p) := by
  refine flatten_reorder e fun k => ?_
  let row (entries : List ℝ) : Vector ℝ f.parameterCount :=
    .ofFn fun c => entries.toArray.getD c 0
  have hstar := congrArg (fun star => #v[row (rowsOf (f.cameraAt p) (f.quaternionAt p) star).1,
    row (rowsOf (f.cameraAt p) (f.quaternionAt p) star).2]) (h k)
  exact hstar

/-- A solver is told of the stars in either order. -/
theorem endAlike_solver? (config : CalibrationConfig ℝ) :
    EndAlike (Solver.Reorders (places e)) (f.solver? config)
      ((f.withStars stars excluded).solver? config) := by
  have hsolver (f : StarFit ℝ) : f.solver? config =
      (f.dataCovariance config.pixelSigma).mapError FitError.badCovariance >>= fun covariance =>
        .ok (f.solverUnder config covariance) := rfl
  rw [hsolver, hsolver]
  refine ((endAlike_dataCovariance h config.pixelSigma).mapError FitError.badCovariance).bind ?_
  intro covariance covariance' _ _ hcovariance
  have hjacobian := Model.jacobian_reorder (places e) (values_reorder h) (jacobian_reorder h)
    config.jacobian (fun p => f.stepsOf p.toList) f.withUnitQuaternion
  exact .ok ⟨values_reorder h, hjacobian, rfl, rfl, congrArg some (observed_reorder h), rfl,
    hcovariance, rfl⟩

end Solver

end StarFit
end SkyCamera
