import Mathlib.Analysis.SpecialFunctions.Trigonometric.Arctan
import SkyCamera.Proofs.GreedyMatching
import SkyCamera.Proofs.PermutedLists
import SkyCamera.Proofs.RealScalar

/-!
Matching does not depend on the order of the sources and of the stars where it is unambiguous: where
no two candidates are equally far apart, and brightness leaves no choice among the sources that are
considered. Candidates of reordered lists are those of the lists with other places, a strict order
by distance brings them into one line, and assignment looks at places only to tell them apart.
-/
namespace SkyCamera

namespace Matching

def Candidate.renumber {α : Type} (source star : Nat → Nat) (c : Candidate α) : Candidate α :=
  { c with sourceIndex := source c.sourceIndex, starIndex := star c.starIndex }

end Matching

def SeenStar.renumber {α : Type} (place : Nat → Nat) (seen : SeenStar α) : SeenStar α :=
  { seen with index := place seen.index }

namespace Matching

section Assign

variable {α : Type}

/-- Places that are told apart are assigned alike, whatever they are. -/
theorem assign_renumber {source star : Nat → Nat} (hsource : Function.Injective source)
    (hstar : Function.Injective star) (sources stars : List Nat) (cs : List (Candidate α)) :
    assign (sources.map source) (stars.map star) (cs.map (·.renumber source star)) =
      (assign sources stars cs).map (·.renumber source star) := by
  induction cs generalizing sources stars with
  | nil => rfl
  | cons c rest ih =>
    have htaken : ((c.renumber source star).sourceIndex ∈ sources.map source ∨
        (c.renumber source star).starIndex ∈ stars.map star) ↔
          (c.sourceIndex ∈ sources ∨ c.starIndex ∈ stars) :=
      or_congr (List.mem_map_of_injective hsource) (List.mem_map_of_injective hstar)
    rw [List.map_cons, assign, assign]
    by_cases h : c.sourceIndex ∈ sources ∨ c.starIndex ∈ stars
    · rw [if_pos h, if_pos (htaken.mpr h)]
      exact ih sources stars
    · rw [if_neg h, if_neg (mt htaken.mp h), List.map_cons]
      exact congrArg _ (ih (c.sourceIndex :: sources) (c.starIndex :: stars))

end Assign

section Candidates

variable {α : Type} [Scalar α]

theorem map_renumber_candidates (source star : Nat → Nat) (considered : List (Source α × Nat))
    (seen : List (SeenStar α)) (radius : α) :
    (candidates considered seen radius).map (·.renumber source star) =
      candidates (considered.map fun x => (x.1, source x.2)) (seen.map (·.renumber star))
        radius := by
  unfold candidates
  rw [List.map_flatMap, List.flatMap_map]
  refine congrArg (List.flatMap · considered) (funext fun x => ?_)
  dsimp only
  rw [List.map_filterMap, List.filterMap_map]
  refine congrArg (List.filterMap · seen) (funext fun s => ?_)
  dsimp only [Function.comp, SeenStar.renumber]
  split
  · rfl
  · rfl

theorem candidates_perm {considered considered' : List (Source α × Nat)}
    {seen seen' : List (SeenStar α)} (hconsidered : considered'.Perm considered)
    (hseen : seen'.Perm seen) (radius : α) :
    (candidates considered' seen' radius).Perm (candidates considered seen radius) :=
  hconsidered.flatMap fun _ _ => hseen.filterMap _

/-- The stars seen do not depend on the order of the catalogue but for their places. -/
theorem starsSeen_permuted (camera : Camera α) (stars : List (Sky.Star α)) (toCamera : Mat3 α)
    (limit : α) (τ : Equiv.Perm (Fin stars.length)) :
    ((camera.starsSeen (permuted stars τ) toCamera limit).map
      (·.renumber (placeUnder stars τ))).Perm (camera.starsSeen stars toCamera limit) := by
  refine filterMap_zipIdx_permuted stars τ fun star i => ?_
  dsimp only
  split
  · split
    · split
      · rfl
      · rfl
    · rfl
  · rfl

end Candidates

section Sorted

variable {α : Type} [Scalar α]

/-- What has an order without ties is in order in one way only. -/
theorem eq_of_perm_of_distinct {β : Type} (key : β → α) {before : β → β → Prop} {l l' : List β}
    (hbefore : ∀ b c, before b c → before c b → Scalar.Same (key b) (key c))
    (hdistinct : l.Pairwise fun b c => ¬ Scalar.Same (key b) (key c)) (hperm : l'.Perm l)
    (hl' : l'.Pairwise before) (hl : l.Pairwise before) : l' = l := by
  have hsame : ∀ b ∈ l, ∀ c ∈ l, Scalar.Same (key b) (key c) → b = c := by
    refine List.Pairwise.forall_of_forall_of_flip (fun _ _ _ => rfl) ?_ ?_
    · exact hdistinct.imp fun hne hbc => absurd hbc hne
    · exact hdistinct.imp fun hne hcb => absurd hcb.symm hne
  refine List.Perm.eq_of_pairwise (fun b c hb hc hbc hcb => ?_) hl' hl hperm
  exact hsame b (hperm.mem_iff.mp hb) c hc (hbefore b c hbc hcb)

variable [OrderedScalar α]

/-- With distances that differ there is one order of them, whatever the list began with. -/
theorem closestFirst_renumber {source star : Nat → Nat} {cs cs' : List (Candidate α)}
    (hperm : (cs'.map (·.renumber source star)).Perm cs)
    (hnumbers : ∀ c ∈ cs, Scalar.IsNumber c.distanceSquared)
    (hdistinct : cs.Pairwise fun c d => ¬ Scalar.Same c.distanceSquared d.distanceSquared) :
    (closestFirst cs').map (·.renumber source star) = closestFirst cs := by
  have hnumbers' : ∀ c ∈ cs', Scalar.IsNumber c.distanceSquared := fun c hc =>
    hnumbers (c.renumber source star) (hperm.mem_iff.mp (List.mem_map.mpr ⟨c, hc, rfl⟩))
  have hsorted : (closestFirst cs).Perm cs := List.mergeSort_perm cs _
  have hsorted' : (closestFirst cs').Perm cs' := List.mergeSort_perm cs' _
  refine eq_of_perm_of_distinct (·.distanceSquared) (fun _ _ hcd hdc => ⟨hcd, hdc⟩) ?_ ?_
    (List.pairwise_map.mpr (pairwise_closestFirst hnumbers')) (pairwise_closestFirst hnumbers)
  · refine hdistinct.perm hsorted.symm fun hne h => hne h.symm
  · exact (hsorted'.map _).trans (hperm.trans hsorted.symm)

/-- Whether brightness leaves no choice among the sources: each is considered, or no two are
equally bright. -/
structure IsDecided (sources : List (Source α)) (limit : Nat) : Prop where
  isNumber : ∀ source ∈ sources, Scalar.IsNumber (brightnessOf source)
  decided : sources.length ≤ limit ∨
    sources.Pairwise fun s t => ¬ Scalar.Same (brightnessOf s) (brightnessOf t)

/-- Where the brightest sources are decided, they are the brightest in any order of the sources. -/
theorem brightest_permuted {sources : List (Source α)} {limit : Nat}
    (h : IsDecided sources limit) (σ : Equiv.Perm (Fin sources.length)) :
    ((brightest limit (permuted sources σ)).map fun x => (x.1, placeUnder sources σ x.2)).Perm
      (brightest limit sources) := by
  let before (a b : Source α × Nat) : Bool := brightnessOf b.1 < brightnessOf a.1
  let move (x : Source α × Nat) : Source α × Nat := (x.1, placeUnder sources σ x.2)
  have hperm : ((sortStably before (permuted sources σ).zipIdx).map move).Perm
      (sortStably before sources.zipIdx) :=
    ((sortStably_perm before _).map move).trans
      ((zipIdx_permuted sources σ).trans (sortStably_perm before _).symm)
  rcases h.decided with hall | hdistinct
  · have htake (l : List (Source α)) (hl : l.length ≤ limit) :
        brightest limit l = sortStably before l.zipIdx := by
      refine List.take_of_length_le ?_
      rwa [(sortStably_perm before _).length_eq, List.length_zipIdx]
    rw [htake sources hall, htake _ (by rwa [permuted, List.length_ofFn])]
    exact hperm
  · have hsorted (l : List (Source α)) (hl : ∀ s ∈ l, s ∈ sources) :
        (sortStably before l.zipIdx).Pairwise fun a b => brightnessOf b.1 ≤ brightnessOf a.1 :=
      pairwise_sortStably (fun a : Source α × Nat => brightnessOf a.1) fun a ha =>
        h.isNumber a.1 (hl a.1 (List.fst_mem_of_mem_zipIdx ha))
    have hties : sources.zipIdx.Pairwise fun a b =>
        ¬ Scalar.Same (brightnessOf a.1) (brightnessOf b.1) := by
      rw [← List.zipIdx_map_fst 0 sources] at hdistinct
      exact List.pairwise_map.mp hdistinct
    have heq : (sortStably before (permuted sources σ).zipIdx).map move =
        sortStably before sources.zipIdx := by
      refine eq_of_perm_of_distinct (fun a : Source α × Nat => brightnessOf a.1)
        (fun _ _ hcd hdc => ⟨hdc, hcd⟩) ?_ hperm (List.pairwise_map.mpr (hsorted _ ?_))
        (hsorted sources fun _ hs => hs)
      · exact hties.perm (sortStably_perm before _).symm fun hne h => hne h.symm
      · exact fun s hs => (List.mem_ofFn.mp hs).elim fun i hi => hi ▸ List.getElem_mem _
    rw [brightest, brightest, ← heq, List.map_take]

end Sorted

section Run

variable {α : Type} [Scalar α]

def considered (sources : List (Source α)) (stars : List (Sky.Star α)) (camera : Camera α)
    (toCamera : Mat3 α) (radius : α) (maxSources : Nat) : List (Candidate α) :=
  candidates (brightest maxSources sources) (camera.starsSeen stars toCamera Scalar.infinity) radius

/-- Where no two candidates are equally far apart, and the sources that are considered are decided,
the order of sources and stars has no part in what is matched, nor in the order of the matches. -/
theorem run_permuted [OrderedScalar α] (sources : List (Source α)) (stars : List (Sky.Star α))
    (camera : Camera α) (toCamera : Mat3 α) (radius : α) (maxSources : Nat)
    (hsources : IsDecided sources maxSources)
    (hdistances : (considered sources stars camera toCamera radius maxSources).Pairwise
      fun c d => ¬ Scalar.Same c.distanceSquared d.distanceSquared)
    (σ : Equiv.Perm (Fin sources.length)) (τ : Equiv.Perm (Fin stars.length)) :
    (run (permuted sources σ) (permuted stars τ) camera toCamera radius maxSources).pairs =
      (run sources stars camera toCamera radius maxSources).pairs := by
  let source := placeUnder sources σ
  let star := placeUnder stars τ
  let cs := considered sources stars camera toCamera radius maxSources
  let cs' := considered (permuted sources σ) (permuted stars τ) camera toCamera radius maxSources
  have hperm : (cs'.map (·.renumber source star)).Perm cs := by
    show ((candidates _ _ radius).map _).Perm _
    rw [map_renumber_candidates]
    exact candidates_perm (brightest_permuted hsources σ)
      (starsSeen_permuted camera stars toCamera Scalar.infinity τ) radius
  have hnumbers : ∀ c ∈ cs, Scalar.IsNumber c.distanceSquared := fun c hc =>
    (OrderedScalar.isNumber_of_le (mem_candidates_iff.mp hc).2.1).1
  have hassigned : (assign [] [] (closestFirst cs')).map (·.renumber source star) =
      assign [] [] (closestFirst cs) := by
    rw [← assign_renumber (placeUnder_injective sources σ) (placeUnder_injective stars τ),
      closestFirst_renumber hperm hnumbers hdistances]
    rfl
  show (assign [] [] (closestFirst cs')).map _ = (assign [] [] (closestFirst cs)).map _
  rw [← hassigned, List.map_map]
  rfl

end Run

section ThreeSources

instance : OrderedScalar ℝ where
  isNumber_of_le _ := ⟨le_rfl, le_rfl⟩
  le_trans := le_trans
  le_total _ _ := le_total _ _
  lt_iff := lt_iff_le_not_ge

def threeSources : List (Source ℝ) :=
  [⟨10, 90, some (-1), none⟩, ⟨51, 50, some 1, none⟩, ⟨148, 50, some 0, none⟩]

/-- A star straight ahead, and one at half a right angle from it. In exact arithmetic `infinity` is
zero, so that stars of magnitude zero are within the limit. -/
noncomputable def twoStars : List (Sky.Star ℝ) :=
  [⟨1, 0, Real.arcsin 1, 0⟩, ⟨2, 0, Real.arctan 1, 0⟩]

def wideCamera : Camera ℝ := ⟨100, 100, 50, 50, 200, 200, .none⟩

def ahead : Mat3 ℝ := ⟨⟨1, 0, 0⟩, ⟨0, 1, 0⟩, ⟨0, 0, 1⟩⟩

theorem project_ahead {v : Vec3 ℝ} (hv : 0 < v.z) :
    wideCamera.project (ahead.mulVec v) =
      some (100 * (v.x / v.z) + 50, 100 * (v.y / v.z) + 50) := by
  simp [wideCamera, ahead, Camera.project, Camera.tangentToPixel, Distortion.distort,
    Mat3.mulVec, Vec3.dot, not_le.mpr hv]

theorem starsSeen_twoStars : wideCamera.starsSeen twoStars ahead Scalar.infinity =
    [⟨0, ⟨1, 0, Real.arcsin 1, 0⟩, 50, 50⟩, ⟨1, ⟨2, 0, Real.arctan 1, 0⟩, 150, 50⟩] := by
  have hfirst : wideCamera.project (ahead.mulVec (Sky.ofSpherical 1 0 (Real.arcsin 1))) =
      some (50, 50) := by
    rw [Real.arcsin_one, project_ahead (by simp [Sky.ofSpherical])]
    simp [Sky.ofSpherical]
  have hsecond : wideCamera.project (ahead.mulVec (Sky.ofSpherical 1 0 (Real.arctan 1))) =
      some (150, 50) := by
    rw [Real.arctan_one, project_ahead (by simp [Sky.ofSpherical])]
    norm_num [Sky.ofSpherical]
  have hcontains (i : ℝ) (h0 : 0 ≤ i) (h200 : i < 200) : wideCamera.Contains i 50 := by
    have hsize : wideCamera.widthPx = 200 ∧ wideCamera.heightPx = 200 :=
      ⟨Nat.cast_ofNat, Nat.cast_ofNat⟩
    rw [Camera.Contains, hsize.1, hsize.2]
    norm_num [h0, h200]
  have h50 := hcontains 50 (by norm_num) (by norm_num)
  have h150 := hcontains 150 (by norm_num) (by norm_num)
  have hbright (id : UInt64) (dec : ℝ) :
      Sky.Star.IsBright Scalar.infinity (⟨id, 0, dec, 0⟩ : Sky.Star ℝ) := by
    simp [Sky.Star.IsBright, Scalar.infinity]
  -- The declinations stay as they stand in the facts about the two pixels.
  simp [Camera.starsSeen, twoStars, Sky.Star.direction, hfirst, hsecond, h50, h150, hbright,
    -Real.arcsin_one, -Real.arctan_one]

theorem distances_threeSources :
    (considered threeSources twoStars wideCamera ahead 100 2).map (·.distanceSquared) =
      [1, 9801, 9604, 4] := by
  have hbrightest : brightest 2 threeSources =
      [(⟨51, 50, some 1, none⟩, 1), (⟨148, 50, some 0, none⟩, 2)] := by
    norm_num [brightest, threeSources, sortStably, insertFromEnd, brightnessOf]
  rw [considered, hbrightest, starsSeen_twoStars]
  norm_num [candidates, Source.distanceSquared, List.filterMap_cons]

theorem run_permuted_threeSources :
    IsDecided threeSources 2 ∧
      ((considered threeSources twoStars wideCamera ahead 100 2).Pairwise fun c d =>
        ¬ Scalar.Same c.distanceSquared d.distanceSquared) ∧
      (run (permuted threeSources Fin.revPerm) (permuted twoStars Fin.revPerm) wideCamera ahead
        100 2).pairs = (run threeSources twoStars wideCamera ahead 100 2).pairs := by
  have hsources : IsDecided threeSources 2 := by
    refine ⟨fun _ _ => le_rfl, .inr ?_⟩
    norm_num [threeSources, brightnessOf, Scalar.Same]
  have hdistances : (considered threeSources twoStars wideCamera ahead 100 2).Pairwise
      fun c d => ¬ Scalar.Same c.distanceSquared d.distanceSquared := by
    refine (List.pairwise_map (R := fun x y => ¬ Scalar.Same x y)).mp ?_
    rw [distances_threeSources]
    norm_num [Scalar.Same]
  exact ⟨hsources, hdistances,
    run_permuted threeSources twoStars wideCamera ahead 100 2 hsources hdistances _ _⟩

end ThreeSources

end Matching
end SkyCamera
