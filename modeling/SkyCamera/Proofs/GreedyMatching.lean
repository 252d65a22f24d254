import SkyCamera.Matching.Assignment
import SkyCamera.Proofs.FloatOrder

/-!
Matching is a greedy assignment. A candidate that is passed over shares its source or its star with
one that was assigned before, and candidates come in the order of their distances; so what is left
out is blocked by a pair at most as far apart. Distances within a radius are never undefined, and a
pixel on the detector has a depth above zero, since an undefined depth makes an undefined pixel.
-/
namespace SkyCamera

namespace Matching

section Assign

variable {α : Type}

theorem assign_sublist (sources stars : List Nat) (cs : List (Candidate α)) :
    (assign sources stars cs).Sublist cs := by
  induction cs generalizing sources stars with
  | nil => exact List.Sublist.refl []
  | cons c rest ih =>
    rw [assign]
    split
    · exact (ih sources stars).cons c
    · exact (ih _ _).cons_cons c

/-- What is assigned was free before. -/
theorem free_of_mem_assign {sources stars : List Nat} {cs : List (Candidate α)} {c : Candidate α}
    (hc : c ∈ assign sources stars cs) : c.sourceIndex ∉ sources ∧ c.starIndex ∉ stars := by
  induction cs generalizing sources stars with
  | nil => cases hc
  | cons first rest ih =>
    rw [assign] at hc
    split at hc
    · exact ih hc
    next hfree =>
      rcases List.mem_cons.mp hc with rfl | hrest
      · exact not_or.mp hfree
      · obtain ⟨hsource, hstar⟩ := ih hrest
        exact ⟨fun h => hsource (List.mem_cons_of_mem _ h),
          fun h => hstar (List.mem_cons_of_mem _ h)⟩

/-- No two assigned candidates share their source or their star. -/
theorem pairwise_assign (sources stars : List Nat) (cs : List (Candidate α)) :
    (assign sources stars cs).Pairwise fun c d =>
      c.sourceIndex ≠ d.sourceIndex ∧ c.starIndex ≠ d.starIndex := by
  induction cs generalizing sources stars with
  | nil => exact List.Pairwise.nil
  | cons first rest ih =>
    rw [assign]
    split
    · exact ih sources stars
    · refine List.pairwise_cons.mpr ⟨fun d hd => ?_, ih _ _⟩
      obtain ⟨hsource, hstar⟩ := free_of_mem_assign hd
      exact ⟨fun h => hsource (h ▸ List.mem_cons_self), fun h => hstar (h ▸ List.mem_cons_self)⟩

/-- A candidate that is not assigned was not free, or one that came before it took what it needs. -/
theorem blocked_of_not_mem_assign {before : Candidate α → Candidate α → Prop}
    {cs : List (Candidate α)} (hordered : cs.Pairwise before) {sources stars : List Nat}
    {c : Candidate α} (hc : c ∈ cs) (hnot : c ∉ assign sources stars cs) :
    (c.sourceIndex ∈ sources ∨ c.starIndex ∈ stars) ∨
      ∃ d ∈ assign sources stars cs,
        (d.sourceIndex = c.sourceIndex ∨ d.starIndex = c.starIndex) ∧ before d c := by
  induction cs generalizing sources stars with
  | nil => cases hc
  | cons first rest ih =>
    obtain ⟨hfirst, hrest⟩ := List.pairwise_cons.mp hordered
    rw [assign] at hnot ⊢
    split
    next htaken =>
      rw [if_pos htaken] at hnot
      rcases List.mem_cons.mp hc with rfl | hcrest
      · exact Or.inl htaken
      · exact ih hrest hcrest hnot
    next hfree =>
      rw [if_neg hfree] at hnot
      obtain ⟨hne, hnotRest⟩ := not_or.mp (fun h => hnot (List.mem_cons.mpr h))
      have hcrest := (List.mem_cons.mp hc).resolve_left hne
      obtain htaken | ⟨d, hd, hshared, hbefore⟩ := ih hrest hcrest hnotRest
      · by_cases hold : c.sourceIndex ∈ sources ∨ c.starIndex ∈ stars
        · exact Or.inl hold
        · -- It was free, and is not once `first` has been assigned: they share something.
          obtain ⟨hsource, hstar⟩ := not_or.mp hold
          refine Or.inr ⟨first, List.mem_cons_self, ?_, hfirst c hcrest⟩
          rcases htaken with h | h
          · exact Or.inl ((List.mem_cons.mp h).resolve_right hsource).symm
          · exact Or.inr ((List.mem_cons.mp h).resolve_right hstar).symm
      · exact Or.inr ⟨d, List.mem_cons_of_mem _ hd, hshared, hbefore⟩

end Assign

section Sorted

variable {α : Type} [Scalar α] [OrderedScalar α]

/-- Candidates whose distances are all defined come in the order of their distances. -/
theorem pairwise_closestFirst {cs : List (Candidate α)}
    (hcs : ∀ c ∈ cs, Scalar.IsNumber c.distanceSquared) :
    (closestFirst cs).Pairwise fun c d => c.distanceSquared ≤ d.distanceSquared := by
  -- The same order with undefined distances at its end, where it is total.
  let before (c d : Candidate α) : Bool :=
    c.distanceSquared ≤ d.distanceSquared ∨ ¬ Scalar.IsNumber d.distanceSquared
  have hsame : closestFirst cs = cs.mergeSort before := by
    have hmap := List.map_mergeSort (f := id) (l := cs)
      (r := fun c d => decide (c.distanceSquared ≤ d.distanceSquared)) (s := before)
      fun c _ d hd => by simp [before, hcs d hd]
    rwa [List.map_id, List.map_id] at hmap
  have htrans (c d e : Candidate α) (hcd : before c d) (hde : before d e) : before c e := by
    simp only [before, decide_eq_true_eq] at hcd hde ⊢
    rcases hde with hde | hundefined
    · have hd := (OrderedScalar.isNumber_of_le hde).1
      exact Or.inl (OrderedScalar.le_trans (hcd.resolve_right (not_not_intro hd)) hde)
    · exact Or.inr hundefined
  have htotal (c d : Candidate α) : before c d || before d c := by
    simp only [before, Bool.or_eq_true, decide_eq_true_eq]
    by_cases hc : Scalar.IsNumber c.distanceSquared
    · by_cases hd : Scalar.IsNumber d.distanceSquared
      · rcases OrderedScalar.le_total hc hd with h | h
        · exact Or.inl (Or.inl h)
        · exact Or.inr (Or.inl h)
      · exact Or.inl (Or.inr hd)
    · exact Or.inr (Or.inr hc)
  have hsorted := List.pairwise_mergeSort htrans htotal cs
  rw [← hsame] at hsorted
  refine hsorted.imp_of_mem fun {c d} _ hd hcd => ?_
  have hnumber := hcs d ((List.mergeSort_perm cs _).mem_iff.mp hd)
  exact (of_decide_eq_true hcd).resolve_right (not_not_intro hnumber)

/-- Insertion keeps a list in order, seen from its end. -/
theorem pairwise_insertFromEnd {β : Type} {key : β → α} {x : β} {xs : List β}
    (hx : Scalar.IsNumber (key x)) (hxs : ∀ y ∈ xs, Scalar.IsNumber (key y))
    (hsorted : xs.Pairwise fun y z => key y ≤ key z) :
    (insertFromEnd (fun a b => decide (key b < key a)) x xs).Pairwise
      fun y z => key y ≤ key z := by
  induction xs with
  | nil => exact List.pairwise_singleton _ _
  | cons y rest ih =>
    obtain ⟨hy, hrest⟩ := List.pairwise_cons.mp hsorted
    obtain ⟨hynumber, hrestnumber⟩ := List.forall_mem_cons.mp hxs
    rw [insertFromEnd]
    split
    next hbefore =>
      refine List.pairwise_cons.mpr ⟨fun z hz => ?_, ih hrestnumber hrest⟩
      rcases List.mem_cons.mp ((insertFromEnd_perm _ x rest).mem_iff.mp hz) with rfl | hz
      · exact (OrderedScalar.lt_iff.mp (of_decide_eq_true hbefore)).1
      · exact hy z hz
    next hbehind =>
      have hxy : key x ≤ key y :=
        OrderedScalar.le_of_not_lt hx hynumber fun h => hbehind (decide_eq_true h)
      refine List.pairwise_cons.mpr ⟨fun z hz => ?_, hsorted⟩
      rcases List.mem_cons.mp hz with rfl | hz
      · exact hxy
      · exact OrderedScalar.le_trans hxy (hy z hz)

/-- Insertion sorts by a key that is a number throughout. Numbers are needed: only these are
compared in one way or the other. -/
theorem pairwise_foldl_insertFromEnd {β : Type} {key : β → α} {xs sorted : List β}
    (hxs : ∀ x ∈ xs, Scalar.IsNumber (key x)) (hnumbers : ∀ x ∈ sorted, Scalar.IsNumber (key x))
    (hsorted : sorted.Pairwise fun y z => key y ≤ key z) :
    (xs.foldl (fun sorted x => insertFromEnd (fun a b => decide (key b < key a)) x sorted)
      sorted).Pairwise fun y z => key y ≤ key z := by
  induction xs generalizing sorted with
  | nil => exact hsorted
  | cons x rest ih =>
    obtain ⟨hx, hrest⟩ := List.forall_mem_cons.mp hxs
    refine ih hrest (fun y hy => ?_) (pairwise_insertFromEnd hx hnumbers hsorted)
    rcases List.mem_cons.mp ((insertFromEnd_perm _ x sorted).mem_iff.mp hy) with rfl | hy
    · exact hx
    · exact hnumbers y hy

/-- A stable order goes down where every key is defined. -/
theorem pairwise_sortStably {β : Type} (key : β → α) {xs : List β}
    (hxs : ∀ x ∈ xs, Scalar.IsNumber (key x)) :
    (sortStably (fun a b => decide (key b < key a)) xs).Pairwise fun y z => key z ≤ key y :=
  List.pairwise_reverse.mpr
    (pairwise_foldl_insertFromEnd hxs (fun _ h => absurd h List.not_mem_nil) List.Pairwise.nil)

end Sorted

section Candidates

variable {α : Type} [Scalar α]

/-- Which stars are seen, and where: bright ones in front of the camera whose pixel is within the
image. -/
theorem mem_starsSeen_iff {camera : Camera α} {stars : List (Sky.Star α)} {toCamera : Mat3 α}
    {limit : α} {seen : SeenStar α} :
    seen ∈ camera.starsSeen stars toCamera limit ↔
      stars[seen.index]? = some seen.star ∧ seen.star.IsBright limit ∧
        camera.project (toCamera.mulVec seen.star.direction) = some (seen.i, seen.j) ∧
        camera.Contains seen.i seen.j := by
  constructor
  · intro h
    obtain ⟨⟨star, index⟩, hmem, hstar⟩ := List.mem_filterMap.mp h
    by_cases hbright : star.IsBright limit
    · cases hproject : camera.project (toCamera.mulVec star.direction) with
      | none => simp only [hbright, hproject, if_true, reduceCtorEq] at hstar
      | some pixel =>
        simp only [hbright, hproject, if_true, Option.ite_none_right_eq_some,
          Option.some.injEq] at hstar
        obtain ⟨hcontains, rfl⟩ := hstar
        exact ⟨List.mk_mem_zipIdx_iff_getElem?.mp hmem, hbright, hproject, hcontains⟩
    · simp only [hbright, if_false, reduceCtorEq] at hstar
  · rintro ⟨hstar, hbright, hproject, hcontains⟩
    refine List.mem_filterMap.mpr
      ⟨(seen.star, seen.index), List.mk_mem_zipIdx_iff_getElem?.mpr hstar, ?_⟩
    simp only [hbright, hproject, hcontains, if_true]

/-- Whether a candidate pairs a considered source with a star that the camera sees within the
radius. -/
structure IsCandidate (considered : List (Source α × Nat)) (stars : List (Sky.Star α))
    (camera : Camera α) (toCamera : Mat3 α) (radius : α) (c : Candidate α) : Prop where
  considered : (c.source, c.sourceIndex) ∈ considered
  star_eq : stars[c.starIndex]? = some c.star
  isNumber_magnitude : Scalar.IsNumber c.star.magnitude
  depth_pos : 0 < (toCamera.mulVec c.star.direction).z
  seen : ∃ i j, camera.project (toCamera.mulVec c.star.direction) = some (i, j) ∧
    camera.Contains i j ∧ c.distanceSquared = c.source.distanceSquared i j
  near : c.distanceSquared ≤ radius * radius

/-- A candidate is a considered source with a seen star within the radius. -/
theorem mem_candidates_iff {considered : List (Source α × Nat)} {predictions : List (SeenStar α)}
    {radius : α} {c : Candidate α} :
    c ∈ candidates considered predictions radius ↔
      (c.source, c.sourceIndex) ∈ considered ∧ c.distanceSquared ≤ radius * radius ∧
        ∃ i j, (⟨c.starIndex, c.star, i, j⟩ : SeenStar α) ∈ predictions ∧
          c.distanceSquared = c.source.distanceSquared i j := by
  constructor
  · intro h
    obtain ⟨⟨source, index⟩, hsource, hstars⟩ := List.mem_flatMap.mp h
    obtain ⟨seen, hseen, hnear⟩ := List.mem_filterMap.mp hstars
    simp only [Option.ite_none_right_eq_some, Option.some.injEq] at hnear
    obtain ⟨hwithin, rfl⟩ := hnear
    exact ⟨hsource, hwithin, seen.i, seen.j, hseen, rfl⟩
  · rintro ⟨hsource, hwithin, i, j, hseen, hdistance⟩
    refine List.mem_flatMap.mpr ⟨_, hsource, List.mem_filterMap.mpr ⟨_, hseen, ?_⟩⟩
    dsimp only
    rw [← hdistance, if_pos hwithin]

/-- A greedy assignment of candidates, closest first. -/
structure IsGreedy (Possible : Candidate α → Prop) (assigned : List (Candidate α)) : Prop where
  possible : ∀ c ∈ assigned, Possible c
  sources_nodup : (assigned.map (·.sourceIndex)).Nodup
  stars_nodup : (assigned.map (·.starIndex)).Nodup
  closest_first : assigned.Pairwise fun c d => c.distanceSquared ≤ d.distanceSquared
  blocked : ∀ c, Possible c → c ∉ assigned → ∃ d ∈ assigned,
    (d.sourceIndex = c.sourceIndex ∨ d.starIndex = c.starIndex) ∧
      d.distanceSquared ≤ c.distanceSquared
  /-- The order by distance never meets a pair that it cannot compare. -/
  comparable : ∀ c d, Possible c → Possible d →
    c.distanceSquared ≤ d.distanceSquared ∨ d.distanceSquared ≤ c.distanceSquared

/-- Assignment from the closest candidate on is greedy: what is left out is blocked by one that is
at most as far and shares its source or its star. -/
theorem isGreedy_assign [OrderedScalar α] {Possible : Candidate α → Prop}
    {cs : List (Candidate α)} (hcs : ∀ c, c ∈ cs ↔ Possible c)
    (hnumbers : ∀ c ∈ cs, Scalar.IsNumber c.distanceSquared) :
    IsGreedy Possible (assign [] [] (closestFirst cs)) := by
  have hmem (c : Candidate α) : c ∈ closestFirst cs ↔ c ∈ cs := (List.mergeSort_perm cs _).mem_iff
  have hordered := pairwise_closestFirst hnumbers
  have hsublist := assign_sublist [] [] (closestFirst cs)
  have hapart := pairwise_assign [] [] (closestFirst cs)
  refine ⟨fun c hc => (hcs c).mp ((hmem c).mp (hsublist.subset hc)), ?_, ?_,
    hordered.sublist hsublist, fun c hc hnot => ?_, fun c d hc hd => ?_⟩
  · exact List.pairwise_map.mpr (hapart.imp fun h => h.1)
  · exact List.pairwise_map.mpr (hapart.imp fun h => h.2)
  · have hplace := (hmem c).mpr ((hcs c).mpr hc)
    obtain (h | h) | hblocked := blocked_of_not_mem_assign hordered hplace hnot
    · cases h
    · cases h
    · exact hblocked
  · exact OrderedScalar.le_total (hnumbers c ((hcs c).mpr hc)) (hnumbers d ((hcs d).mpr hd))

end Candidates

section Floats

/-- The depth of what is seen on the detector is a number, and above zero. -/
theorem depth_pos_of_contains {camera : Camera Float} {v : Vec3 Float} {i j : Float}
    (hproject : camera.project v = some (i, j)) (hcontains : camera.Contains i j) : 0 < v.z := by
  unfold Camera.project at hproject
  split at hproject
  · cases hproject
  next hfront =>
    -- A depth that is not refused could still be undefined, but then the pixel were undefined too.
    have hi : i = camera.fi * (camera.distortion.distort (v.x / v.z) (v.y / v.z)).1 + camera.pi :=
      (congrArg Prod.fst (Option.some.inj hproject)).symm
    have hpixel : Scalar.IsNumber i := (OrderedScalar.isNumber_of_le hcontains.1).2
    rw [hi] at hpixel
    have hdistorted := (Binary64.isNumber_of_mul (Binary64.isNumber_of_add hpixel).1).2
    have htangent : Scalar.IsNumber (v.x / v.z) := by
      cases hdistortion : camera.distortion with
      | none =>
        rw [hdistortion] at hdistorted
        exact hdistorted
      | radial d =>
        rw [hdistortion] at hdistorted
        exact (Binary64.isNumber_of_mul hdistorted).1
    have hdepth := (Binary64.isNumber_of_div htangent).2
    have hle := (OrderedScalar.le_total Binary64.isNumber_zero hdepth).resolve_right hfront
    exact OrderedScalar.lt_iff.mpr ⟨hle, hfront⟩

theorem mem_candidates_seen_iff {considered : List (Source Float × Nat)}
    {stars : List (Sky.Star Float)} {camera : Camera Float} {toCamera : Mat3 Float}
    {radius : Float} {c : Candidate Float} :
    c ∈ candidates considered (camera.starsSeen stars toCamera Scalar.infinity) radius ↔
      IsCandidate considered stars camera toCamera radius c := by
  rw [mem_candidates_iff]
  constructor
  · rintro ⟨hconsidered, hnear, i, j, hseen, hdistance⟩
    obtain ⟨hstar, hbright, hproject, hcontains⟩ := mem_starsSeen_iff.mp hseen
    exact ⟨hconsidered, hstar, (OrderedScalar.isNumber_of_le hbright).1,
      depth_pos_of_contains hproject hcontains, ⟨i, j, hproject, hcontains, hdistance⟩, hnear⟩
  · rintro ⟨hconsidered, hstar, hmagnitude, -, ⟨i, j, hproject, hcontains, hdistance⟩, hnear⟩
    exact ⟨hconsidered, hnear, i, j,
      mem_starsSeen_iff.mpr ⟨hstar, Binary64.le_infinity hmagnitude, hproject, hcontains⟩,
      hdistance⟩

/-- Matching assigns greedily, closest first, among the sources that come first by brightness,
whatever the numbers are. -/
theorem run_isGreedy (sources : List (Source Float)) (stars : List (Sky.Star Float))
    (camera : Camera Float) (toCamera : Mat3 Float) (radius : Float) (maxSources : Nat) :
    ∃ (order : List (Source Float × Nat)) (assigned : List (Candidate Float)),
      order.Perm sources.zipIdx ∧
      ((∀ source ∈ sources, Scalar.IsNumber (brightnessOf source)) →
        order.Pairwise fun a b => brightnessOf b.1 ≤ brightnessOf a.1) ∧
      (run sources stars camera toCamera radius maxSources).pairs =
        assigned.map (fun c => ⟨c.source, c.star⟩) ∧
      IsGreedy (IsCandidate (order.take maxSources) stars camera toCamera radius) assigned := by
  let order := sortStably
    (fun a b : Source Float × Nat => decide (brightnessOf b.1 < brightnessOf a.1)) sources.zipIdx
  refine ⟨order, _, sortStably_perm _ _, fun hnumbers => ?_, rfl, ?_⟩
  · refine pairwise_sortStably (fun a : Source Float × Nat => brightnessOf a.1) ?_
    intro a ha
    exact hnumbers a.1 (List.fst_mem_of_mem_zipIdx ha)
  · refine isGreedy_assign (fun c => mem_candidates_seen_iff) fun c hc => ?_
    exact (OrderedScalar.isNumber_of_le (mem_candidates_iff.mp hc).2.1).1

end Floats

end Matching
end SkyCamera
