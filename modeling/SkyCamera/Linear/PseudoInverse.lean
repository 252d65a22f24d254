import SkyCamera.Binary64
import SkyCamera.Linear.Matrix

/-!
Pseudo-inverses, which map directions without curvature to zero. An arithmetic says how it finds
one; floating point rotates pairs of columns until all are orthogonal, and then inverts each
length that is not negligible beside the largest.
-/
namespace SkyCamera.Linear

inductive MatrixFault
  /-- A matrix without entries has no singular values. -/
  | noEntries
  | notFinite

/-- Singular values up to this fraction of the largest count as zero. -/
def rankTolerance {α : Type} [Scalar α] : α := 1e-12

class HasPseudoInverse (α : Type) [Scalar α] where
  pseudoInverse {r c : Nat} : Mat α r c → Except MatrixFault (Mat α c r)

export HasPseudoInverse (pseudoInverse)

namespace Orthogonal

variable {α : Type} [Scalar α] {r c : Nat}

/-- A column of `A V` beside the same column of `V`. -/
structure Column (α : Type) (r c : Nat) where
  image : Vector α r
  direction : Vector α c

def Column.combine (u v : Column α r c) (a b : α) : Column α r c where
  image := u.image.zipWith (fun x y => a * x + b * y) v.image
  direction := u.direction.zipWith (fun x y => a * x + b * y) v.direction

/-- The columns `p` and `q` turned in their plane until their images are orthogonal, and whether
that was needed. An image shorter than `1e-14` is noise in a matrix whose largest entry is one. -/
def turn (p q : Column α r c) : Column α r c × Column α r c × Bool :=
  let a := dot p.image p.image
  let b := dot q.image q.image
  let g := dot p.image q.image
  let (length, length') := (Scalar.sqrt a, Scalar.sqrt b)
  if length ≤ 1e-14 ∨ length' ≤ 1e-14 ∨ Scalar.abs g ≤ 1e-15 * (length * length') then
    (p, q, false)
  else
    let z := (b - a) / (2.0 * g)
    let size := 1 / (Scalar.abs z + Scalar.sqrt (1 + z * z))
    let t := if z < 0 then -size else size
    let cosine := 1 / Scalar.sqrt (1 + t * t)
    let sine := cosine * t
    (p.combine q cosine (-sine), p.combine q sine cosine, true)

/-- One turn of each pair of columns, and whether any was needed. -/
def sweep (columns : Vector (Column α r c) c) : Vector (Column α r c) c × Bool :=
  let pairs := (List.finRange c).flatMap fun p =>
    ((List.finRange c).filter (p < ·)).map fun q => (p, q)
  pairs.foldl (fun (columns, moved) (p, q) =>
    let (u, v, turned) := turn columns[p] columns[q]
    ((columns.set p u p.isLt).set q v q.isLt, moved || turned)) (columns, false)

def sweeps : Nat → Vector (Column α r c) c → Vector (Column α r c) c
  | 0, columns => columns
  | limit + 1, columns =>
    let (columns, moved) := sweep columns
    if moved then sweeps limit columns else columns

/-- Orthogonal columns of `A V` for an orthogonal `V`, found within 60 sweeps. -/
def columns (a : Mat α r c) : Vector (Column α r c) c :=
  sweeps 60 (.ofFn fun j => ⟨.ofFn fun i => a[i][j], single j 1⟩)

/-- Whether a matrix is symmetric to rounding. -/
def isSymmetric (a : Mat α r c) : Bool :=
  if h : r = c then decide ((h ▸ a : Mat α c c).IsSymmetric 1e-12) else false

/-- A direction of a symmetric matrix that is its own image, in which case small components are
more exact in the image; else the direction as it is. -/
def refine (symmetric : Bool) (image : Vector α r) (direction : Vector α c) : Vector α c :=
  if h : r = c then
    let own : Vector α c := image.cast h
    if symmetric ∧ ∀ i : Fin c, Scalar.abs (own[i] - direction[i]) ≤ 1e-3 then own else direction
  else direction

/-- A part `value * image directionᵀ` of a matrix, with directions of length one. -/
structure Part (α : Type) (r c : Nat) where
  value : α
  image : Vector α r
  direction : Vector α c

/-- The parts whose sum is the matrix. Entries are first divided by `size`, the largest of them, so
that no square overflows. -/
def parts (size : α) (a : Mat α r c) : List (Part α r c) :=
  let scaled : Mat α r c := .ofFn fun i j => a[i][j] / size
  let symmetric := isSymmetric a
  (columns scaled).toList.map fun u =>
    let length := norm u.image
    let image := u.image.map (· / length)
    ⟨length * size, image, refine symmetric image u.direction⟩

/-- The sum of the parts with each value inverted. Products are taken from the left, which shows
where an inverse is infinite: an infinite value times a component that is zero is undefined. -/
def inverseSum (parts : List (Part α r c)) : Mat α c r :=
  let scaled := parts.map fun u => { u with image := u.image.map (· * (1 / u.value)) }
  .ofFn fun j i => scaled.foldl (fun s u => s + u.image[i] * u.direction[j]) 0

/-- Parts are kept if they are not negligible beside the largest. -/
def pseudoInverse (a : Mat α r c) : Except MatrixFault (Mat α c r) :=
  if r = 0 ∨ c = 0 then .error .noEntries
  else if ¬ ∀ (i : Fin r) (j : Fin c), Scalar.IsFinite a[i][j] then .error .notFinite
  else
    let size := a.largest
    if Scalar.IsZero size then .ok Mat.zero
    else
      let parts := parts size a
      let largest := parts.foldl (fun s u => Scalar.atLeast s u.value) 0
      if ¬ Scalar.IsFinite largest then .error .notFinite
      else .ok (inverseSum (parts.filter (largest * rankTolerance < ·.value)))

end Orthogonal

instance : HasPseudoInverse Float := ⟨Orthogonal.pseudoInverse⟩

end SkyCamera.Linear
