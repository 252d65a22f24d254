import Mathlib.Data.Fintype.Card
import Mathlib.Data.List.FinRange
import Mathlib.Logic.Equiv.Fin.Basic

/-!
Lists in another order. A permutation of places gives the permuted list, and says for each of its
places where the entry stood before; what is selected with its place from both lists is the same up
to the numbering of places.
-/
namespace SkyCamera

/-- Lists that are permutations of each other, entry by entry. -/
theorem exists_equiv_of_perm {β γ : Type} {g : γ → β} {l : List β} {l' : List γ}
    (h : (l'.map g).Perm l) :
    ∃ e : Fin l'.length ≃ Fin l.length, ∀ k : Fin l'.length, g l'[k] = l[e k] := by
  classical
  have hlength : (l'.map g).length = l'.length := List.length_map _
  let e := Equiv.ofBijective h.idxBij ⟨h.idxBij_injective, h.idxBij_surjective⟩
  refine ⟨(finCongr hlength.symm).trans e, fun k => ?_⟩
  have hentry := h.getElem_idxBij_eq_getElem (finCongr hlength.symm k)
  exact (List.getElem_map g).symm.trans hentry.symm

theorem ofFn_comp_equiv_perm {β : Type} {n n' : Nat} (e : Fin n' ≃ Fin n) (g : Fin n → β) :
    (List.ofFn (g ∘ e)).Perm (List.ofFn g) := by
  obtain rfl : n' = n := by simpa using Fintype.card_congr e
  exact Equiv.Perm.ofFn_comp_perm e g

theorem zipIdx_eq_ofFn {β : Type} (l : List β) :
    l.zipIdx = List.ofFn fun i : Fin l.length => (l[i], i.val) :=
  List.ext_getElem (by simp) fun i hi hi' => by simp

section Permuted

variable {β γ : Type} (l : List β) (σ : Equiv.Perm (Fin l.length))

/-- The list with the entry of place `σ i` at place `i`. -/
def permuted : List β := List.ofFn fun i => l[σ i]

/-- The place in the list of what the permuted list has at place `i`. -/
def placeUnder (i : Nat) : Nat := if h : i < l.length then σ ⟨i, h⟩ else i

/-- No two places of the permuted list have the entry of one. -/
theorem placeUnder_injective : Function.Injective (placeUnder l σ) := by
  have hrange {i : Nat} (hi : i < l.length) : placeUnder l σ i = σ ⟨i, hi⟩ := dif_pos hi
  have hbeyond {i : Nat} (hi : ¬ i < l.length) : placeUnder l σ i = i := dif_neg hi
  intro i j h
  by_cases hi : i < l.length
  · by_cases hj : j < l.length
    · rw [hrange hi, hrange hj] at h
      exact congrArg Fin.val (σ.injective (Fin.ext h))
    · rw [hrange hi, hbeyond hj] at h
      exact absurd (h ▸ (σ ⟨i, hi⟩).isLt) hj
  · by_cases hj : j < l.length
    · rw [hbeyond hi, hrange hj] at h
      exact absurd (h ▸ (σ ⟨j, hj⟩).isLt) hi
    · rw [hbeyond hi, hbeyond hj] at h
      exact h

theorem zipIdx_permuted :
    ((permuted l σ).zipIdx.map fun x => (x.1, placeUnder l σ x.2)).Perm l.zipIdx := by
  have hpermuted : (permuted l σ).zipIdx.map (fun x => (x.1, placeUnder l σ x.2)) =
      List.ofFn ((fun i : Fin l.length => (l[i], i.val)) ∘ σ) := by
    refine List.ext_getElem (by simp [permuted]) fun i hi hi' => ?_
    have hlt : i < l.length := by simpa using hi'
    simp [permuted, placeUnder, hlt]
  rw [hpermuted, zipIdx_eq_ofFn l]
  exact σ.ofFn_comp_perm _

/-- What is selected with its place from the permuted list. -/
theorem filterMap_zipIdx_permuted {g : β × Nat → Option γ} {renumber : γ → γ}
    (hg : ∀ b i, (g (b, i)).map renumber = g (b, placeUnder l σ i)) :
    (((permuted l σ).zipIdx.filterMap g).map renumber).Perm (l.zipIdx.filterMap g) := by
  have hmap : ((permuted l σ).zipIdx.filterMap g).map renumber =
      ((permuted l σ).zipIdx.map fun x => (x.1, placeUnder l σ x.2)).filterMap g := by
    rw [List.map_filterMap, List.filterMap_map]
    exact List.filterMap_congr fun x _ => hg x.1 x.2
  rw [hmap]
  exact (zipIdx_permuted l σ).filterMap g

end Permuted

end SkyCamera
