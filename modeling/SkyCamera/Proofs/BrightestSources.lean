import Mathlib.Data.List.Nodup
import SkyCamera.Proofs.FloatOverflow
import SkyCamera.Proofs.GreedyMatching

/-!
The sources that a matching considers. They are the brightest, and of equally bright ones those that
come first, as long as every brightness is defined. A source of undefined brightness compares with
nothing. Up to 20 sources are ordered by insertion, where it stays at its place and no other source
passes it: the sources before it and those behind it are ordered apart, and a brighter source behind
it is left out for a dimmer one before it. What becomes of more than 20 sources is left open if the
brightness of one is undefined.
-/
namespace SkyCamera.Matching

section Order

variable {β : Type} {before : β → β → Bool}

/-- An element to which all of a list stand in `R` may be inserted: what it passes comes after it by
the order, what it stays behind precedes it by `R`. -/
theorem pairwise_insertFromEnd_of {R : β → β → Prop} {x : β} {sorted : List β}
    (hx : ∀ y ∈ sorted, R y x) (h : sorted.Pairwise fun y z => R z y ∨ before z y) :
    (insertFromEnd before x sorted).Pairwise fun y z => R z y ∨ before z y := by
  induction sorted with
  | nil => exact List.pairwise_singleton _ _
  | cons y rest ih =>
    obtain ⟨hy, hrest⟩ := List.pairwise_cons.mp h
    obtain ⟨hyx, hrestx⟩ := List.forall_mem_cons.mp hx
    rw [insertFromEnd]
    split
    next hbefore =>
      refine List.pairwise_cons.mpr ⟨fun z hz => ?_, ih hrestx hrest⟩
      rcases List.mem_cons.mp ((insertFromEnd_perm _ x rest).mem_iff.mp hz) with rfl | hz
      · exact Or.inr hbefore
      · exact hy z hz
    next => exact List.pairwise_cons.mpr ⟨fun z hz => Or.inl (hx z hz), h⟩

theorem pairwise_foldl_insertFromEnd_of {R : β → β → Prop} {xs sorted : List β}
    (hxs : xs.Pairwise R) (hbefore : ∀ y ∈ sorted, ∀ x ∈ xs, R y x)
    (h : sorted.Pairwise fun y z => R z y ∨ before z y) :
    (xs.foldl (fun sorted x => insertFromEnd before x sorted) sorted).Pairwise
      fun y z => R z y ∨ before z y := by
  induction xs generalizing sorted with
  | nil => exact h
  | cons x rest ih =>
    obtain ⟨hx, hrest⟩ := List.pairwise_cons.mp hxs
    refine ih hrest (fun y hy z hz => ?_)
      (pairwise_insertFromEnd_of (fun y hy => hbefore y hy x List.mem_cons_self) h)
    rcases List.mem_cons.mp ((insertFromEnd_perm _ x sorted).mem_iff.mp hy) with rfl | hy
    · exact hx z hz
    · exact hbefore y hy z (List.mem_cons_of_mem _ hz)

/-- Elements stay in the order in which they come unless one is to come before the other. -/
theorem pairwise_sortStably_of {R : β → β → Prop} {xs : List β} (hxs : xs.Pairwise R) :
    (sortStably before xs).Pairwise fun y z => R y z ∨ before y z :=
  List.pairwise_reverse.mpr
    (pairwise_foldl_insertFromEnd_of hxs (fun _ h => absurd h List.not_mem_nil) .nil)

theorem pairwise_zipIdx {β : Type} (l : List β) :
    l.zipIdx.Pairwise fun a b => a.2 < b.2 := by
  have hplaces : (l.zipIdx.map (·.2)).Pairwise (· < ·) := by
    rw [List.zipIdx_map_snd]
    exact List.pairwise_lt_range'
  exact List.pairwise_map.mp hplaces

/-- An element that comes before no other, and before which no other comes. -/
structure IsBarrier (before : β → β → Bool) (u : β) : Prop where
  stays : ∀ x, before u x = false
  holds : ∀ x, before x u = false

variable {u : β} (hu : IsBarrier before u)
include hu

/-- An insertion from the end stops at a barrier. -/
theorem IsBarrier.insertFromEnd_append (x : β) (behind sorted : List β) :
    insertFromEnd before x (behind ++ u :: sorted) =
      insertFromEnd before x behind ++ u :: sorted := by
  induction behind with
  | nil => exact if_neg (Bool.eq_false_iff.mp (hu.holds x))
  | cons y behind ih =>
    rw [List.cons_append, insertFromEnd, insertFromEnd, ih]
    split
    · rfl
    · rfl

/-- So all insertions leave the barrier and what stands before it where they are. -/
theorem IsBarrier.foldl_insertFromEnd_append (xs behind sorted : List β) :
    xs.foldl (fun sorted x => insertFromEnd before x sorted) (behind ++ u :: sorted) =
      xs.foldl (fun sorted x => insertFromEnd before x sorted) behind ++ u :: sorted := by
  induction xs generalizing behind with
  | nil => rfl
  | cons x xs ih =>
    rw [List.foldl_cons, List.foldl_cons, hu.insertFromEnd_append]
    exact ih _

/-- What comes before a barrier and what comes behind it are ordered apart. -/
theorem IsBarrier.sortStably_append (xs ys : List β) :
    sortStably before (xs ++ u :: ys) = sortStably before xs ++ u :: sortStably before ys := by
  have hinsert (sorted : List β) : insertFromEnd before u sorted = u :: sorted := by
    cases sorted with
    | nil => rfl
    | cons y rest => exact if_neg (Bool.eq_false_iff.mp (hu.stays y))
  have hbehind := hu.foldl_insertFromEnd_append ys []
  rw [sortStably, List.foldl_append, List.foldl_cons, hinsert]
  refine (congrArg List.reverse (hbehind _)).trans ?_
  rw [List.reverse_append, List.reverse_cons, List.append_assoc]
  rfl

end Order

section Places

variable {α : Type} [Scalar α]

def brighterFirst (a b : Source α × Nat) : Bool := brightnessOf b.1 < brightnessOf a.1

theorem brightest_sublist (limit : Nat) (sources : List (Source α)) :
    List.Sublist (brightest limit sources) (sortStably brighterFirst sources.zipIdx) :=
  List.take_sublist _ _

def IsDivided (sources : List (Source α × Nat)) (i j : Nat) : Prop :=
  ∃ u ∈ sources, ¬ Scalar.IsNumber (brightnessOf u.1) ∧ i < u.2 ∧ u.2 < j

/-- Whether a source is considered earlier than another. A source is passed by one behind it exactly
if it is dimmer and no source of undefined brightness divides the two. -/
def Precedes (sources : List (Source α × Nat)) (a b : Source α × Nat) : Prop :=
  (a.2 < b.2 ∧ (brightnessOf a.1 < brightnessOf b.1 → IsDivided sources a.2 b.2)) ∨
    (b.2 < a.2 ∧ brightnessOf b.1 < brightnessOf a.1 ∧ ¬ IsDivided sources b.2 a.2)

/-- Only the sources between two others matter for these. -/
theorem Precedes.of_subset {part sources : List (Source α × Nat)} {a b : Source α × Nat}
    (hpart : part ⊆ sources)
    (hbetween : ∀ u ∈ sources, b.2 < u.2 → u.2 < a.2 → u ∈ part) (h : Precedes part a b) :
    Precedes sources a b := by
  obtain ⟨hplace, hdivided⟩ | ⟨hplace, hbrighter, hundivided⟩ := h
  · refine Or.inl ⟨hplace, fun hdimmer => ?_⟩
    obtain ⟨u, hu, hundefined, hau, hub⟩ := hdivided hdimmer
    exact ⟨u, hpart hu, hundefined, hau, hub⟩
  · refine Or.inr ⟨hplace, hbrighter, ?_⟩
    rintro ⟨u, hu, hundefined, hbu, hua⟩
    exact hundivided ⟨u, hbetween u hu hbu hua, hundefined, hbu, hua⟩

section Parts

variable {xs ys : List (Source α × Nat)} {u a b : Source α × Nat}
  (hplaces : (xs ++ u :: ys).Pairwise fun a b => a.2 < b.2)
include hplaces

theorem Precedes.append_left (ha : a ∈ xs) (h : Precedes xs a b) :
    Precedes (xs ++ u :: ys) a b := by
  obtain ⟨-, -, hbefore⟩ := List.pairwise_append.mp hplaces
  refine h.of_subset (List.subset_append_left _ _) fun w hw _ hwa => ?_
  refine (List.mem_append.mp hw).resolve_right fun hbehind => ?_
  exact absurd (hbefore a ha w hbehind) (Nat.lt_asymm hwa)

/-- Sources before a barrier do not stand between two that come after it. -/
theorem Precedes.append_right (hb : b ∈ ys) (h : Precedes ys a b) :
    Precedes (xs ++ u :: ys) a b := by
  obtain ⟨-, hbehind, hbefore⟩ := List.pairwise_append.mp hplaces
  have hub := (List.pairwise_cons.mp hbehind).1 b hb
  refine h.of_subset (fun w hw => List.mem_append_right _ (List.mem_cons_of_mem _ hw))
    fun w hw hbw _ => ?_
  obtain hw | hw := List.mem_append.mp hw
  · exact absurd (hbefore w hw b (List.mem_cons_of_mem _ hb)) (Nat.lt_asymm hbw)
  · obtain rfl | hw := List.mem_cons.mp hw
    · exact absurd hub (Nat.lt_asymm hbw)
    · exact hw

end Parts

variable [OrderedScalar α]

theorem isBarrier_brighterFirst {u : Source α × Nat}
    (hu : ¬ Scalar.IsNumber (brightnessOf u.1)) : IsBarrier brighterFirst u where
  stays _ := decide_eq_false fun h =>
    hu (OrderedScalar.isNumber_of_le (OrderedScalar.lt_iff.mp h).1).2
  holds _ := decide_eq_false fun h =>
    hu (OrderedScalar.isNumber_of_le (OrderedScalar.lt_iff.mp h).1).1

section Ascending

variable {sources : List (Source α × Nat)} (hplaces : sources.Pairwise fun a b => a.2 < b.2)
include hplaces

/-- Where every brightness is a number nothing is divided, and the sort is the order by brightness
with equal ones as they came. -/
theorem pairwise_precedes_of_numbers
    (hnumbers : ∀ a ∈ sources, Scalar.IsNumber (brightnessOf a.1)) :
    (sortStably brighterFirst sources).Pairwise (Precedes sources) := by
  have hbright := pairwise_sortStably (fun a : Source α × Nat => brightnessOf a.1) hnumbers
  have hstable : (sortStably brighterFirst sources).Pairwise fun a b =>
      a.2 < b.2 ∨ brighterFirst a b := pairwise_sortStably_of hplaces
  have hapart : (sortStably brighterFirst sources).Pairwise fun a b => a.2 ≠ b.2 :=
    (hplaces.imp Nat.ne_of_lt).perm (sortStably_perm _ _).symm fun hne => hne.symm
  refine ((hbright.and hstable).and hapart).imp fun {a b} h => ?_
  obtain ⟨⟨hle, hstays⟩, hne⟩ := h
  by_cases hplace : a.2 < b.2
  · exact Or.inl ⟨hplace, fun hdimmer => absurd hle (OrderedScalar.lt_iff.mp hdimmer).2⟩
  · refine Or.inr ⟨by omega, of_decide_eq_true (hstays.resolve_left hplace), ?_⟩
    rintro ⟨u, hu, hundefined, -⟩
    exact hundefined (hnumbers u hu)

/-- A list of sources around one of undefined brightness. -/
theorem pairwise_precedes_append {xs ys : List (Source α × Nat)} {u : Source α × Nat}
    (hsources : sources = xs ++ u :: ys) (hu : ¬ Scalar.IsNumber (brightnessOf u.1))
    (hxs : (sortStably brighterFirst xs).Pairwise (Precedes xs))
    (hys : (sortStably brighterFirst ys).Pairwise (Precedes ys)) :
    (sortStably brighterFirst sources).Pairwise (Precedes sources) := by
  subst hsources
  obtain ⟨-, hbehind, hbefore⟩ := List.pairwise_append.mp hplaces
  have hbarrier := isBarrier_brighterFirst hu
  have hmemx {a : Source α × Nat} : a ∈ sortStably brighterFirst xs ↔ a ∈ xs :=
    (sortStably_perm _ xs).mem_iff
  have hmemy {a : Source α × Nat} : a ∈ sortStably brighterFirst ys ↔ a ∈ ys :=
    (sortStably_perm _ ys).mem_iff
  have huy (b : Source α × Nat) (hb : b ∈ sortStably brighterFirst ys) : u.2 < b.2 :=
    (List.pairwise_cons.mp hbehind).1 b (hmemy.mp hb)
  rw [hbarrier.sortStably_append]
  refine List.pairwise_append.mpr ⟨?_, List.pairwise_cons.mpr ⟨fun b hb => ?_, ?_⟩, ?_⟩
  · exact hxs.imp_of_mem fun ha _ h => h.append_left hplaces (hmemx.mp ha)
  · exact Or.inl ⟨huy b hb, fun hdimmer => absurd hdimmer (of_decide_eq_false (hbarrier.holds b))⟩
  · exact hys.imp_of_mem fun _ hb h => h.append_right hplaces (hmemy.mp hb)
  · intro a ha b hb
    have hau : a.2 < u.2 := hbefore a (hmemx.mp ha) u List.mem_cons_self
    obtain rfl | hb := List.mem_cons.mp hb
    · exact Or.inl ⟨hau, fun hdimmer => absurd hdimmer (of_decide_eq_false (hbarrier.stays a))⟩
    · have hub := huy b hb
      exact Or.inl ⟨hau.trans hub,
        fun _ => ⟨u, List.mem_append_right _ List.mem_cons_self, hu, hau, hub⟩⟩

end Ascending

/-- The order by brightness, whatever is undefined. -/
theorem pairwise_precedes (sources : List (Source α × Nat))
    (hplaces : sources.Pairwise fun a b => a.2 < b.2) :
    (sortStably brighterFirst sources).Pairwise (Precedes sources) := by
  by_cases hnumbers : ∀ a ∈ sources, Scalar.IsNumber (brightnessOf a.1)
  · exact pairwise_precedes_of_numbers hplaces hnumbers
  · obtain ⟨u, hmem, hu⟩ : ∃ u ∈ sources, ¬ Scalar.IsNumber (brightnessOf u.1) := by
      simpa using hnumbers
    obtain ⟨xs, ys, hsources⟩ := List.append_of_mem hmem
    have hparts : (xs ++ u :: ys).Pairwise fun a b => a.2 < b.2 := hsources ▸ hplaces
    obtain ⟨hxs, huys, -⟩ := List.pairwise_append.mp hparts
    have hlength : sources.length = xs.length + ys.length + 1 := by
      rw [hsources, List.length_append, List.length_cons, Nat.add_assoc]
    exact pairwise_precedes_append hplaces hsources hu (pairwise_precedes xs hxs)
      (pairwise_precedes ys (List.pairwise_cons.mp huys).2)
termination_by sources.length
decreasing_by all_goals omega

/-- What is left out comes later in the order than all that is considered. -/
theorem precedes_of_not_mem_brightest {sources : List (Source α)} {limit : Nat}
    {a b : Source α × Nat} (ha : a ∈ brightest limit sources) (hb : b ∈ sources.zipIdx)
    (hnot : b ∉ brightest limit sources) : Precedes sources.zipIdx a b := by
  have hsplit : sortStably brighterFirst sources.zipIdx = brightest limit sources ++
      (sortStably brighterFirst sources.zipIdx).drop limit := (List.take_append_drop _ _).symm
  have hordered := pairwise_precedes _ (pairwise_zipIdx sources)
  have hmem : b ∈ sortStably brighterFirst sources.zipIdx := (sortStably_perm _ _).mem_iff.mpr hb
  rw [hsplit] at hordered hmem
  exact (List.pairwise_append.mp hordered).2.2 a ha b ((List.mem_append.mp hmem).resolve_left hnot)

/-- Without a source of undefined brightness the order is that by brightness, then by place. -/
theorem Precedes.le_of_numbers {sources : List (Source α × Nat)} {a b : Source α × Nat}
    (hnumbers : ∀ u ∈ sources, Scalar.IsNumber (brightnessOf u.1)) (ha : a ∈ sources)
    (hb : b ∈ sources) (h : Precedes sources a b) :
    brightnessOf b.1 ≤ brightnessOf a.1 ∧
      (Scalar.Same (brightnessOf a.1) (brightnessOf b.1) → a.2 < b.2) := by
  have hundivided (i j : Nat) : ¬ IsDivided sources i j := by
    rintro ⟨u, hu, hundefined, -⟩
    exact hundefined (hnumbers u hu)
  obtain ⟨hplace, hdivided⟩ | ⟨-, hbrighter, -⟩ := h
  · have hstays : ¬ brightnessOf a.1 < brightnessOf b.1 :=
      fun hdimmer => hundivided _ _ (hdivided hdimmer)
    exact ⟨OrderedScalar.le_of_not_lt (hnumbers b hb) (hnumbers a ha) hstays, fun _ => hplace⟩
  · obtain ⟨hle, hnotle⟩ := OrderedScalar.lt_iff.mp hbrighter
    exact ⟨hle, fun hsame => absurd hsame.1 hnotle⟩

/-- A source of undefined brightness keeps its place, and is considered if that is below the
limit. -/
theorem mem_brightest_iff_of_undefined {sources : List (Source α)} {limit : Nat}
    {u : Source α × Nat} (hmem : u ∈ sources.zipIdx)
    (hu : ¬ Scalar.IsNumber (brightnessOf u.1)) :
    u ∈ brightest limit sources ↔ u.2 < limit := by
  obtain ⟨xs, ys, hsources⟩ := List.append_of_mem hmem
  have hplaces := pairwise_zipIdx sources
  rw [hsources] at hplaces
  have hplace : u.2 = xs.length := by
    have hentry : sources.zipIdx[xs.length]? = some u := by simp [hsources]
    rw [List.getElem?_zipIdx, Nat.zero_add, Option.map_eq_some_iff] at hentry
    obtain ⟨_, -, rfl⟩ := hentry
    rfl
  have hfresh : u ∉ sortStably brighterFirst xs := by
    intro h
    have hlt := (List.pairwise_append.mp hplaces).2.2 u ((sortStably_perm _ xs).mem_iff.mp h) u
      List.mem_cons_self
    exact absurd hlt (Nat.lt_irrefl _)
  have hlength : (sortStably brighterFirst xs).length = xs.length :=
    (sortStably_perm _ xs).length_eq
  show u ∈ (sortStably brighterFirst sources.zipIdx).take limit ↔ _
  rw [hsources, (isBarrier_brighterFirst hu).sortStably_append, List.take_append, hlength,
    List.mem_append, hplace]
  constructor
  · rintro (h | h)
    · exact absurd (List.mem_of_mem_take h) hfresh
    · by_contra hle
      rw [Nat.sub_eq_zero_of_le (Nat.le_of_not_lt hle)] at h
      cases h
  · intro hlt
    obtain ⟨k, hk⟩ := Nat.exists_eq_succ_of_ne_zero (Nat.sub_ne_zero_of_lt hlt)
    rw [hk]
    exact Or.inr List.mem_cons_self

end Places

section Floats

/-- What is neither undefined nor infinite has its place behind negative infinity. -/
theorem exists_place_of_bounded {a : Float.Model.UnpackedFloat}
    (h : ¬ Binary64.IsUnbounded a) :
    ∃ q, Binary64.place a = some q ∧ Binary64.order (-2, 0, 0) q = .lt := by
  rcases a with s | _ | _ | ⟨_ | _, m, e, _⟩
  case infinity => exact absurd (.infinity s) h
  case notANumber => exact absurd .notANumber h
  all_goals exact ⟨_, rfl, rfl⟩

theorem negInfinity_lt {x : Float} (hx : Scalar.IsFinite x) : -Scalar.infinity < x := by
  obtain ⟨q, hq, horder⟩ :=
    exists_place_of_bounded ((Binary64.isFinite_iff_not_isUnbounded x).mp hx)
  exact (Binary64.lt_iff _ x).mpr ⟨_, q, rfl, hq, horder⟩

/-- What is known of the order into which sources, given with their places, are brought. The sort is
stable; which one it is matters where a brightness is undefined, and is known for few sources. -/
structure IsOrderByBrightness (sources : List (Source Float))
    (order : List (Source Float × Nat)) : Prop where
  perm : order.Perm sources.zipIdx
  stable : (∀ source ∈ sources, Scalar.IsNumber (brightnessOf source)) →
    order.Pairwise fun a b => brightnessOf b.1 ≤ brightnessOf a.1 ∧
      (Scalar.Same (brightnessOf a.1) (brightnessOf b.1) → a.2 < b.2)
  inserted : sources.length ≤ 20 → order = sortStably brighterFirst sources.zipIdx

/-- Insertion is such an order for lists of every length. -/
theorem isOrderByBrightness_sortStably (sources : List (Source Float)) :
    IsOrderByBrightness sources (sortStably brighterFirst sources.zipIdx) where
  perm := sortStably_perm _ _
  stable hnumbers := by
    have hplaced (u : Source Float × Nat) (hu : u ∈ sources.zipIdx) :
        Scalar.IsNumber (brightnessOf u.1) := hnumbers u.1 (List.fst_mem_of_mem_zipIdx hu)
    have hmem {u : Source Float × Nat} (hu : u ∈ sortStably brighterFirst sources.zipIdx) :
        u ∈ sources.zipIdx := (sortStably_perm _ _).mem_iff.mp hu
    exact (pairwise_precedes _ (pairwise_zipIdx sources)).imp_of_mem fun ha hb h =>
      h.le_of_numbers hplaced (hmem ha) (hmem hb)
  inserted _ := rfl

/-- Of few sources, and of any number of them whose brightness is defined, there is one order. -/
theorem IsOrderByBrightness.eq_sortStably {sources : List (Source Float)}
    {order : List (Source Float × Nat)} (h : IsOrderByBrightness sources order)
    (hsettled : sources.length ≤ 20 ∨
      ∀ source ∈ sources, Scalar.IsNumber (brightnessOf source)) :
    order = sortStably brighterFirst sources.zipIdx := by
  obtain hfew | hnumbers := hsettled
  · exact h.inserted hfew
  · have hinsertion := isOrderByBrightness_sortStably sources
    refine List.Perm.eq_of_pairwise (fun a b _ _ hab hba => ?_) (h.stable hnumbers)
      (hinsertion.stable hnumbers) (h.perm.trans hinsertion.perm.symm)
    -- Of two that are equally bright, each would come before the other.
    have hbefore := hab.2 ⟨hba.1, hab.1⟩
    have hbehind := hba.2 ⟨hab.1, hba.1⟩
    exact absurd hbefore (Nat.lt_asymm hbehind)

/-- The sources among which a matching looks for pairs, out of a list of which it takes at most
`limit`. -/
structure ConsidersBrightest (sources : List (Source Float)) (limit : Nat)
    (considered : List (Source Float × Nat)) : Prop where
  length_eq : considered.length = min limit sources.length
  nodup : (considered.map (·.2)).Nodup
  place : ∀ a ∈ considered, sources[a.2]? = some a.1
  ordered : considered.Pairwise (Precedes sources.zipIdx)
  left_out : ∀ a ∈ considered, ∀ b ∈ sources.zipIdx, b ∉ considered → Precedes sources.zipIdx a b
  /-- Where every brightness is defined, nothing that is left out is brighter, and what is as bright
  comes later. -/
  of_numbers : (∀ source ∈ sources, Scalar.IsNumber (brightnessOf source)) →
    ∀ a ∈ considered, ∀ b ∈ sources.zipIdx, b ∉ considered →
      brightnessOf b.1 ≤ brightnessOf a.1 ∧
        (Scalar.Same (brightnessOf a.1) (brightnessOf b.1) → a.2 < b.2)
  undefined_iff : ∀ u ∈ sources.zipIdx, ¬ Scalar.IsNumber (brightnessOf u.1) →
    (u ∈ considered ↔ u.2 < limit)
  missing_lt : ∀ source : Source Float, source.brightness = none → ∀ x : Float,
    Scalar.IsFinite x → brightnessOf source < x
  counted : ∀ (stars : List (Sky.Star Float)) (camera : Camera Float) (toCamera : Mat3 Float)
    (radius : Float),
    (run sources stars camera toCamera radius limit).consideredSources = considered.length
  /-- All pairs of these sources with a star are candidates, and no others are. -/
  assigned : ∀ (stars : List (Sky.Star Float)) (camera : Camera Float) (toCamera : Mat3 Float)
    (radius : Float), IsGreedy (IsCandidate considered stars camera toCamera radius)
      (run sources stars camera toCamera radius limit).assigned

/-- Matching considers the sources that come first by brightness. Where one is undefined among up to
20 sources, they are the first of an order in which it divides the list. -/
theorem considersBrightest {sources : List (Source Float)} {order : List (Source Float × Nat)}
    (horder : IsOrderByBrightness sources order)
    (hsettled : sources.length ≤ 20 ∨
      ∀ source ∈ sources, Scalar.IsNumber (brightnessOf source)) (limit : Nat) :
    ConsidersBrightest sources limit (order.take limit) := by
  have hperm : (sortStably brighterFirst sources.zipIdx).Perm sources.zipIdx := sortStably_perm _ _
  have hsublist := brightest_sublist limit sources
  have hsubset : brightest limit sources ⊆ sources.zipIdx :=
    fun _ ha => hperm.subset (hsublist.subset ha)
  have hconsidered : order.take limit = brightest limit sources :=
    congrArg (List.take limit) (horder.eq_sortStably hsettled)
  rw [hconsidered]
  exact {
    length_eq := by
      show ((sortStably brighterFirst sources.zipIdx).take limit).length = _
      rw [List.length_take, hperm.length_eq, List.length_zipIdx]
    nodup := by
      have hplaces : ((sortStably brighterFirst sources.zipIdx).map (·.2)).Nodup := by
        rw [(hperm.map _).nodup_iff, List.zipIdx_map_snd]
        exact List.nodup_range'
      exact hplaces.sublist (hsublist.map _)
    place := fun a ha => List.mem_zipIdx_iff_getElem?.mp (hsubset ha)
    ordered := (pairwise_precedes _ (pairwise_zipIdx sources)).sublist hsublist
    left_out := fun a ha b hb hnot => precedes_of_not_mem_brightest ha hb hnot
    of_numbers := by
      intro hnumbers a ha b hb hnot
      have hplaced (u : Source Float × Nat) (hu : u ∈ sources.zipIdx) :
          Scalar.IsNumber (brightnessOf u.1) := hnumbers u.1 (List.fst_mem_of_mem_zipIdx hu)
      exact (precedes_of_not_mem_brightest ha hb hnot).le_of_numbers hplaced (hsubset ha) hb
    undefined_iff := fun u hu hundefined => mem_brightest_iff_of_undefined hu hundefined
    missing_lt := by
      intro source hnone x hx
      rw [brightnessOf, hnone]
      exact negInfinity_lt hx
    counted := fun _ _ _ _ => rfl
    assigned := fun stars camera toCamera radius =>
      isGreedy_assign (fun c => mem_candidates_seen_iff) fun c hc =>
        (OrderedScalar.isNumber_of_le (mem_candidates_iff.mp hc).2.1).1 }

def brighterLast : List (Source Float) :=
  [⟨5, 95, some 1, none⟩, ⟨95, 5, some Scalar.undefined, none⟩, ⟨50, 50, some 2, none⟩]

theorem considersBrightest_brighterLast :
    let order := sortStably brighterFirst brighterLast.zipIdx
    IsOrderByBrightness brighterLast order ∧ brighterLast.length ≤ 20 ∧
      ConsidersBrightest brighterLast 2 (order.take 2) := by
  have horder := isOrderByBrightness_sortStably brighterLast
  have hfew : brighterLast.length ≤ 20 := by decide
  exact ⟨horder, hfew, considersBrightest horder (.inl hfew) 2⟩

/-- The brightest of three sources is not among the two that are considered. -/
theorem brightest_brighterLast :
    (brightest 2 brighterLast).map (·.2) = [0, 1] ∧
      ∃ a b, brighterLast[0]? = some a ∧ brighterLast[2]? = some b ∧
        brightnessOf a < brightnessOf b := by
  refine ⟨by decide +kernel, _, _, rfl, rfl, by decide +kernel⟩

end Floats

end SkyCamera.Matching
