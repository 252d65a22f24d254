import SkyCamera.Log
import SkyCamera.Matching.Visibility

/-!
Sources are matched with the stars that a camera is predicted to see. Candidates are the pairs
within a radius; they are assigned closest first, each source and each star at most once. Only the
brightest sources are considered.
-/
namespace SkyCamera.Matching

variable {α : Type} [Scalar α]

/-- Adds `x` behind every element that `x` does not come before, seen from the end of a list in
reverse order. -/
def insertFromEnd {β : Type} (before : β → β → Bool) (x : β) : List β → List β
  | [] => [x]
  | y :: rest => if before x y then y :: insertFromEnd before x rest else x :: y :: rest

/-- A stable order by insertion of one element after the other, where elements that cannot be
compared stay as they come. Up to 20 elements are ordered in this way. A longer list is ordered in
another way, with the same result where all can be compared; where some cannot, its order is left
open. -/
def sortStably {β : Type} (before : β → β → Bool) (xs : List β) : List β :=
  (xs.foldl (fun sorted x => insertFromEnd before x sorted) []).reverse

theorem insertFromEnd_perm {β : Type} (before : β → β → Bool) (x : β) (xs : List β) :
    (insertFromEnd before x xs).Perm (x :: xs) := by
  induction xs with
  | nil => rfl
  | cons y rest ih =>
    simp only [insertFromEnd]
    split
    · exact (ih.cons y).trans (List.Perm.swap x y rest)
    · rfl

theorem foldl_insertFromEnd_perm {β : Type} (before : β → β → Bool) (xs sorted : List β) :
    (xs.foldl (fun sorted x => insertFromEnd before x sorted) sorted).Perm (xs ++ sorted) := by
  induction xs generalizing sorted with
  | nil => rfl
  | cons x rest ih =>
    exact ((ih _).trans ((insertFromEnd_perm before x sorted).append_left rest)).trans
      List.perm_middle

/-- Nothing is lost or added, whatever `before` is. -/
theorem sortStably_perm {β : Type} (before : β → β → Bool) (xs : List β) :
    (sortStably before xs).Perm xs := by
  have h := foldl_insertFromEnd_perm before xs []
  rw [List.append_nil] at h
  exact (List.reverse_perm _).trans h

/-- A source without brightness is dimmer than all others. -/
def brightnessOf (source : Source α) : α := source.brightness.getD (-Scalar.infinity)

/-- The `limit` brightest sources with their indices, brightest first. -/
def brightest (limit : Nat) (sources : List (Source α)) : List (Source α × Nat) :=
  (sortStably (fun a b => brightnessOf b.1 < brightnessOf a.1) sources.zipIdx).take limit

structure Candidate (α : Type) where
  distanceSquared : α
  source : Source α
  sourceIndex : Nat
  star : Sky.Star α
  starIndex : Nat

/-- The pairs within the radius, source after source. -/
def candidates (sources : List (Source α × Nat)) (stars : List (SeenStar α)) (radius : α) :
    List (Candidate α) :=
  sources.flatMap fun (source, sourceIndex) => stars.filterMap fun seen =>
    let d := source.distanceSquared seen.i seen.j
    if d ≤ radius * radius then some ⟨d, source, sourceIndex, seen.star, seen.index⟩ else none

/-- Each candidate in turn, unless its source or its star has been taken. -/
def assign : (sources stars : List Nat) → List (Candidate α) → List (Candidate α)
  | _, _, [] => []
  | sources, stars, c :: rest =>
    if c.sourceIndex ∈ sources ∨ c.starIndex ∈ stars then assign sources stars rest
    else c :: assign (c.sourceIndex :: sources) (c.starIndex :: stars) rest

/-- The candidates ordered by distance, and by source and star as they come where it is equal. -/
def closestFirst (cs : List (Candidate α)) : List (Candidate α) :=
  cs.mergeSort fun a b => a.distanceSquared ≤ b.distanceSquared

structure Outcome (α : Type) where
  assigned : List (Candidate α)
  consideredSources : Nat
  seenStars : Nat

def run (sources : List (Source α)) (stars : List (Sky.Star α)) (camera : Camera α)
    (toCamera : Mat3 α) (radius : α) (maxSources : Nat) : Outcome α :=
  let considered := brightest maxSources sources
  let seen := camera.starsSeen stars toCamera Scalar.infinity
  ⟨assign [] [] (closestFirst (candidates considered seen radius)), considered.length, seen.length⟩

/-- The correspondences, closest first. -/
def Outcome.pairs (o : Outcome α) : List (Correspondence α) :=
  o.assigned.map fun c => ⟨c.source, c.star⟩

def Outcome.log (o : Outcome α) : List LogLine :=
  [⟨.debug, s!"Matched {o.assigned.length} of {o.consideredSources} sources against " ++
    s!"{o.seenStars} projected stars"⟩]

end SkyCamera.Matching
