import SkyCamera.Scalar

/-!
Matrices as vectors of rows, with the products that least squares needs. Every entry is given by
a formula in the entries of the arguments, so products are read off by `getElem_ofFn`.
-/
namespace SkyCamera

/-- An index that is bounded by the length of a vector is in its range. -/
instance getElemFin {α : Type} {n : Nat} : GetElem (Vector α n) (Fin n) α fun _ _ => True where
  getElem v i _ := v.get i

@[simp] theorem getElem_fin {α : Type} {n : Nat} (v : Vector α n) (i : Fin n) :
    v[i] = getElem v i.val i.isLt := rfl

abbrev Mat (α : Type) (r c : Nat) := Vector (Vector α c) r

namespace Linear

variable {α : Type} [Scalar α] {r c k n : Nat}

def dot (u v : Vector α n) : α := Scalar.sum fun i : Fin n => u[i] * v[i]

def norm (v : Vector α n) : α := Scalar.sqrt (dot v v)

/-- The vector with `x` at place `j` and zero elsewhere. -/
def single (j : Fin n) (x : α) : Vector α n := .ofFn fun i => if i = j then x else 0

end Linear

namespace Mat

variable {α : Type} [Scalar α] {r c k n : Nat}

def ofFn (f : Fin r → Fin c → α) : Mat α r c := Vector.ofFn fun i => Vector.ofFn (f i)

/-- The matrix whose rows stand one after the other in `v`. -/
def ofRows (v : Vector α (r * c)) : Mat α r c :=
  ofFn fun i j =>
    have h : i.val * c + j.val < r * c := by
      have := Nat.mul_le_mul_right c (Nat.succ_le_of_lt i.isLt)
      rw [Nat.succ_mul] at this
      omega
    v[i.val * c + j.val]

def zero : Mat α r c := ofFn fun _ _ => 0

def transpose (a : Mat α r c) : Mat α c r := ofFn fun i j => a[j][i]

def mul (a : Mat α r k) (b : Mat α k c) : Mat α r c :=
  let columns := b.transpose
  ofFn fun i j => Linear.dot a[i] columns[j]

def mulVec (a : Mat α r c) (v : Vector α c) : Vector α r := a.map (Linear.dot · v)

def scale (a : Mat α r c) (s : α) : Mat α r c := ofFn fun i j => a[i][j] * s

def diagonal (a : Mat α n n) : Vector α n := .ofFn fun i => a[i][i]

def ofDiagonal (v : Vector α n) : Mat α n n := ofFn fun i j => if i = j then v[i] else 0

/-- The matrix whose row `i` is the row `i` of `a` times `v i`. -/
def scaleRows (v : Vector α r) (a : Mat α r c) : Mat α r c := ofFn fun i j => a[i][j] * v[i]

/-- The matrix whose row `i` is the row `i` of `a` over `v i`. -/
def divideRows (v : Vector α r) (a : Mat α r c) : Mat α r c := ofFn fun i j => a[i][j] / v[i]

/-- The size of the largest entry, taken column after column. No size compares with an undefined
entry, so only those after the last of them count. -/
def largest (a : Mat α r c) : α :=
  let larger (s x : α) : α := if Scalar.abs x ≤ s then s else Scalar.abs x
  a.transpose.foldl (fun s column => column.foldl larger s) 0

/-- The largest entry where it is a number that has all its digits. -/
def magnitude (a : Mat α r c) : α := Scalar.atLeast Scalar.smallest a.largest

/-- Equal to its transpose, up to a difference of `bound`. -/
def IsSymmetricWithin (bound : α) (a : Mat α n n) : Prop :=
  ∀ i j : Fin n, i < j → ¬ bound < Scalar.abs (a[i][j] - a[j][i])

instance (bound : α) (a : Mat α n n) : Decidable (a.IsSymmetricWithin bound) := by
  unfold IsSymmetricWithin; infer_instance

/-- Equal to its transpose, up to `tolerance` times the largest entry of the whole matrix. -/
def IsSymmetric (tolerance : α) (a : Mat α n n) : Prop :=
  a.IsSymmetricWithin (tolerance * a.magnitude)

instance (tolerance : α) (a : Mat α n n) : Decidable (a.IsSymmetric tolerance) :=
  inferInstanceAs (Decidable (a.IsSymmetricWithin (tolerance * a.magnitude)))

@[simp] theorem getElem_ofFn {β : Type} (f : Fin r → Fin c → β) (i j : Nat) (hi : i < r)
    (hj : j < c) : (ofFn f)[i][j] = f ⟨i, hi⟩ ⟨j, hj⟩ := by
  simp [ofFn]

@[simp] theorem getElem_transpose {β : Type} (a : Mat β r c) (i j : Nat) (hi : i < c)
    (hj : j < r) : a.transpose[i][j] = a[j][i] := by
  simp [transpose]

@[simp] theorem getElem_mul (a : Mat α r k) (b : Mat α k c) (i j : Nat) (hi : i < r)
    (hj : j < c) : (a.mul b)[i][j] = Linear.dot a[i] b.transpose[j] := by
  simp [mul]

@[simp] theorem getElem_mulVec (a : Mat α r c) (v : Vector α c) (i : Nat) (hi : i < r) :
    (a.mulVec v)[i] = Linear.dot a[i] v := by
  simp [mulVec]

@[simp] theorem transpose_transpose {β : Type} (a : Mat β r c) : a.transpose.transpose = a := by
  ext i hi j hj
  simp

end Mat
end SkyCamera
