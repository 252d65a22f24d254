import SkyCamera.Scalar

/-!
Lens distortion in the tangent plane, where coordinates are divided by the depth. A point at
radius `r` is moved along its direction to `r s(r²)`, with a polynomial `s` whose first coefficients
can be fitted.
-/
namespace SkyCamera

/-- `s(r²) = 1 + k1 r² + k2 r⁴ + k3 r⁶`, of which the first `terms` coefficients are free. -/
structure RadialDistortion (α : Type) where
  k1 : α
  k2 : α
  k3 : α
  terms : Nat

namespace RadialDistortion

variable {α : Type} [Scalar α]

/-- All coefficients given and free. -/
def ofCoefficients (k1 k2 k3 : α) : RadialDistortion α := ⟨k1, k2, k3, 3⟩

/-- No distortion yet, with one to three coefficients free. -/
def ofTerms (terms : Nat) : RadialDistortion α := ⟨0, 0, 0, max 1 (min terms 3)⟩

def scale (d : RadialDistortion α) (r2 : α) : α := 1 + r2 * (d.k1 + r2 * (d.k2 + r2 * d.k3))

/-- The derivative of `scale`. -/
def scaleSlope (d : RadialDistortion α) (r2 : α) : α :=
  d.k1 + r2 * (2.0 * d.k2 + 3.0 * d.k3 * r2)

def distort (d : RadialDistortion α) (x y : α) : α × α :=
  let s := d.scale (x * x + y * y)
  (x * s, y * s)

/-- What a Newton step from `r` divides by, the derivative of `r s(r²)`. -/
def divisor (d : RadialDistortion α) (r : α) : α :=
  d.scale (r * r) + 2.0 * (r * r) * d.scaleSlope (r * r)

/-- One Newton step for `r s(r²) = rd`, as the amount to take from `r`. -/
def newtonStep (d : RadialDistortion α) (rd r : α) : α :=
  (r * d.scale (r * r) - rd) / d.divisor r

/-- At most `limit` Newton steps from `r`; the last one is less than `1e-15`. -/
def newton (d : RadialDistortion α) (rd : α) : Nat → α → α
  | 0, r => r
  | limit + 1, r =>
    let step := d.newtonStep rd r
    if Scalar.abs step < 1e-15 then r - step else newton d rd limit (r - step)

/-- The point that is distorted to `(xd, yd)`, by Newton's method on the radius from there. A point
at the centre stays. -/
def undistort (d : RadialDistortion α) (xd yd : α) : α × α :=
  let rd := Scalar.hypot xd yd
  if rd < 1e-15 then (xd, yd)
  else
    let k := d.newton rd 20 rd / rd
    (xd * k, yd * k)

def freeCount (d : RadialDistortion α) : Nat := min d.terms 3

def freeCoefficients (d : RadialDistortion α) : List α := [d.k1, d.k2, d.k3].take d.freeCount

/-- The free coefficients are taken from the list, as far as it goes. -/
def withFree (d : RadialDistortion α) (ks : List α) : RadialDistortion α :=
  let ks := ks.take d.freeCount
  { d with k1 := ks.getD 0 d.k1, k2 := ks.getD 1 d.k2, k3 := ks.getD 2 d.k3 }

def IsZero (d : RadialDistortion α) : Prop :=
  Scalar.IsZero d.k1 ∧ Scalar.IsZero d.k2 ∧ Scalar.IsZero d.k3

instance (d : RadialDistortion α) : Decidable d.IsZero := by unfold IsZero; infer_instance

theorem freeCount_le_three {β : Type} (d : RadialDistortion β) : d.freeCount ≤ 3 :=
  Nat.min_le_right ..

@[simp] theorem length_freeCoefficients {β : Type} (d : RadialDistortion β) :
    d.freeCoefficients.length = d.freeCount := by
  simp only [freeCoefficients, List.length_take, List.length_cons, List.length_nil]
  have := d.freeCount_le_three
  omega

end RadialDistortion

inductive Distortion (α : Type)
  | none
  | radial (d : RadialDistortion α)

namespace Distortion

variable {α : Type} [Scalar α]

def distort (x y : α) : Distortion α → α × α
  | none => (x, y)
  | radial d => d.distort x y

def undistort (x y : α) : Distortion α → α × α
  | none => (x, y)
  | radial d => d.undistort x y

/-- The factor `s(r²)` and its derivative. -/
def scaleAndSlope (r2 : α) : Distortion α → α × α
  | none => (1, 0)
  | radial d => (d.scale r2, d.scaleSlope r2)

def freeCount : Distortion α → Nat
  | none => 0
  | radial d => d.freeCount

def freeCoefficients : Distortion α → List α
  | none => []
  | radial d => d.freeCoefficients

def withFree (ks : List α) : Distortion α → Distortion α
  | none => none
  | radial d => radial (d.withFree ks)

/-- Whether two distortions have the same numbers, none of them undefined. -/
def Same : Distortion α → Distortion α → Prop
  | none, none => True
  | radial d, radial e =>
    Scalar.Same d.k1 e.k1 ∧ Scalar.Same d.k2 e.k2 ∧ Scalar.Same d.k3 e.k3 ∧ d.terms = e.terms
  | _, _ => False

instance (d e : Distortion α) : Decidable (d.Same e) := by
  cases d <;> cases e <;> unfold Same <;> infer_instance

/-- The names of the free coefficients. -/
def names (d : Distortion α) : List String := ["k1", "k2", "k3"].take d.freeCount

theorem freeCount_le_three {β : Type} (d : Distortion β) : d.freeCount ≤ 3 := by
  cases d with
  | none => exact Nat.zero_le 3
  | radial d => exact d.freeCount_le_three

@[simp] theorem length_freeCoefficients {β : Type} (d : Distortion β) :
    d.freeCoefficients.length = d.freeCount := by
  cases d with
  | none => rfl
  | radial d => exact d.length_freeCoefficients

@[simp] theorem length_names {β : Type} (d : Distortion β) : d.names.length = d.freeCount := by
  simp only [names, List.length_take, List.length_cons, List.length_nil]
  have := d.freeCount_le_three
  omega

end Distortion
end SkyCamera
