import SkyCamera.Proofs.CalibrationErrors
import SkyCamera.Proofs.CalibrationReport

/-!
The slots of a list of parameters. A camera has a slot for each intrinsic that can be fitted, and
its parameters, their names and the derivatives of a pixel follow the slots, whatever number of
coefficients is free. A calibration reads its first parameters by the same slots.
-/
namespace SkyCamera

/-- An intrinsic that can have a slot. -/
inductive Intrinsic
  | fi
  | fj
  | pi
  | pj
  | k1
  | k2
  | k3
  deriving DecidableEq

namespace Distortion

variable {α : Type}

def radial? : Distortion α → Option (RadialDistortion α)
  | none => .none
  | radial d => some d

def modify (g : RadialDistortion α → RadialDistortion α) : Distortion α → Distortion α
  | none => none
  | radial d => radial (g d)

theorem freeCount_eq (d : Distortion α) :
    d.freeCount = (d.radial?.map (·.terms)).elim 0 (min · 3) := by
  cases d <;> rfl

def slots (d : Distortion α) : List Intrinsic := [.k1, .k2, .k3].take d.freeCount

end Distortion

namespace Intrinsic

variable {α : Type}

def name : Intrinsic → String
  | fi => "fi"
  | fj => "fj"
  | pi => "pi"
  | pj => "pj"
  | k1 => "k1"
  | k2 => "k2"
  | k3 => "k3"

def get? (c : Camera α) : Intrinsic → Option α
  | fi => some c.fi
  | fj => some c.fj
  | pi => some c.pi
  | pj => some c.pj
  | k1 => c.distortion.radial?.map (·.k1)
  | k2 => c.distortion.radial?.map (·.k2)
  | k3 => c.distortion.radial?.map (·.k3)

def put (x : α) (c : Camera α) : Intrinsic → Camera α
  | fi => { c with fi := x }
  | fj => { c with fj := x }
  | pi => { c with pi := x }
  | pj => { c with pj := x }
  | k1 => { c with distortion := c.distortion.modify fun d => { d with k1 := x } }
  | k2 => { c with distortion := c.distortion.modify fun d => { d with k2 := x } }
  | k3 => { c with distortion := c.distortion.modify fun d => { d with k3 := x } }

theorem eq_of_name_eq {s t : Intrinsic} (h : s.name = t.name) : s = t := by
  cases s <;> cases t <;> first | rfl | exact absurd h (by decide)

end Intrinsic

/-- What no slot stands for. -/
structure Camera.SameFrame {α : Type} (c c' : Camera α) : Prop where
  width_eq : c'.width = c.width
  height_eq : c'.height = c.height
  terms_eq : c'.distortion.radial?.map (·.terms) = c.distortion.radial?.map (·.terms)

theorem Camera.SameFrame.trans {α : Type} {c c' c'' : Camera α} (h : c.SameFrame c')
    (h' : c'.SameFrame c'') : c.SameFrame c'' :=
  ⟨h'.width_eq.trans h.width_eq, h'.height_eq.trans h.height_eq, h'.terms_eq.trans h.terms_eq⟩

/-- `c'` is `c` with another value of the intrinsic `s`. -/
structure Intrinsic.Changes {α : Type} (s : Intrinsic) (x : α) (c c' : Camera α) : Prop where
  get?_self : s.get? c' = some x
  get?_of_ne : ∀ t, t ≠ s → t.get? c' = t.get? c
  frame : c.SameFrame c'

namespace Camera

variable {α : Type} (c : Camera α)

def slots : List Intrinsic := [.fi, .fj, .pi, .pj] ++ c.distortion.slots

def write (c : Camera α) (w : Intrinsic × α) : Camera α := w.1.put w.2 c

/-- Replaces the intrinsics in place, one after the other, if there is a number for each. -/
def overwrite (p : List α) : ExceptT (FitError α) (StateM (Camera α)) Unit := do
  let c ← get
  if p.length = c.parameterCount then
    (c.slots.zip p).forM fun w => modify fun c => c.write w
  else
    throw (.wrongLength .cameraParameters c.parameterCount p.length)

section Put

variable (s : Intrinsic) (x : α)

theorem get?_put_of_ne {t : Intrinsic} (ht : t ≠ s) : t.get? (s.put x c) = t.get? c := by
  obtain ⟨fi, fj, pi, pj, width, height, distortion⟩ := c
  cases distortion with
  | none => cases s <;> cases t <;> first | rfl | exact absurd rfl ht
  | radial d => cases s <;> cases t <;> first | rfl | exact absurd rfl ht

theorem sameFrame_put : c.SameFrame (s.put x c) := by
  obtain ⟨fi, fj, pi, pj, width, height, distortion⟩ := c
  cases distortion with
  | none => cases s <;> exact ⟨rfl, rfl, rfl⟩
  | radial d => cases s <;> exact ⟨rfl, rfl, rfl⟩

theorem changes_put {s : Intrinsic} (hs : s ∈ c.slots) : s.Changes x c (s.put x c) := by
  refine ⟨?_, fun t ht => c.get?_put_of_ne s x ht, c.sameFrame_put s x⟩
  obtain ⟨fi, fj, pi, pj, width, height, distortion⟩ := c
  cases distortion with
  | none =>
    have hpinhole : s = .fi ∨ s = .fj ∨ s = .pi ∨ s = .pj := by
      simpa [slots, Distortion.slots, Distortion.freeCount] using hs
    obtain rfl | rfl | rfl | rfl := hpinhole <;> rfl
  | radial d => cases s <;> rfl

end Put

section Writes

variable (writes : List (Intrinsic × α))

/-- Writes leave what none of them is for. -/
theorem get?_foldl_write {t : Intrinsic} (ht : ∀ w ∈ writes, t ≠ w.1) :
    t.get? (writes.foldl write c) = t.get? c := by
  induction writes generalizing c with
  | nil => rfl
  | cons w writes ih =>
    obtain ⟨hw, hrest⟩ := List.forall_mem_cons.mp ht
    exact (ih _ hrest).trans (c.get?_put_of_ne w.1 w.2 hw)

theorem sameFrame_foldl_write : c.SameFrame (writes.foldl write c) := by
  induction writes generalizing c with
  | nil => exact ⟨rfl, rfl, rfl⟩
  | cons w writes ih => exact (c.sameFrame_put w.1 w.2).trans (ih _)

theorem run_forM_write :
    (writes.forM fun w => modify fun c => c.write w :
      ExceptT (FitError α) (StateM (Camera α)) Unit).run.run c =
        (.ok (), writes.foldl write c) := by
  induction writes generalizing c with
  | nil => rfl
  | cons w writes ih => exact ih _

end Writes

theorem foldl_write_coefficients (ks : List α) (hks : ks.length = c.distortion.freeCount) :
    (c.distortion.slots.zip ks).foldl write c =
      { c with distortion := c.distortion.withFree ks } := by
  obtain ⟨fi, fj, pi, pj, width, height, distortion⟩ := c
  cases distortion with
  | none =>
    rw [List.length_eq_zero_iff.mp hks]
    rfl
  | radial d =>
    have hthree := d.freeCount_le_three
    have hfree : d.freeCount = ks.length := hks.symm
    simp only [Distortion.slots, Distortion.freeCount, Distortion.withFree,
      RadialDistortion.withFree, hfree]
    rcases ks with _ | ⟨k1, _ | ⟨k2, _ | ⟨k3, _ | ⟨k4, ks⟩⟩⟩⟩
    · rfl
    · rfl
    · rfl
    · rfl
    · simp only [List.length_cons] at hfree
      omega

theorem foldl_write (p : List α) (hp : p.length = c.parameterCount) :
    (c.slots.zip p).foldl write c = c.withParameters p := by
  obtain ⟨fi, fj, pi, pj, ks, rfl, hks⟩ := c.exists_pinhole_of_length p hp
  exact foldl_write_coefficients { c with fi, fj, pi, pj } ks hks

/-- A vector of the wrong length is refused and leaves the camera; one of the right length is
written slot by slot. -/
theorem run_overwrite (p : List α) :
    (overwrite p).run.run c =
      if p.length = c.parameterCount then (.ok (), c.withParameters p)
      else (.error (.wrongLength .cameraParameters c.parameterCount p.length), c) := by
  show (ite _ _ _ : ExceptT (FitError α) (StateM (Camera α)) Unit).run.run c = _
  split
  next hp =>
    rw [← c.foldl_write p hp]
    exact c.run_forM_write _
  next => rfl

/-- A coefficient is replaced in the list as it is in the camera. -/
theorem withFree_set {j : Nat} {s : Intrinsic} (hj : c.distortion.slots[j]? = some s) (x : α) :
    { c with distortion := c.distortion.withFree (c.distortion.freeCoefficients.set j x) } =
      s.put x c := by
  obtain ⟨fi, fj, pi, pj, width, height, distortion⟩ := c
  cases distortion with
  | none => cases hj
  | radial d =>
    have hthree := d.freeCount_le_three
    have hcount : d.freeCount = 0 ∨ d.freeCount = 1 ∨ d.freeCount = 2 ∨ d.freeCount = 3 := by omega
    simp only [Distortion.slots, Distortion.freeCount, Distortion.freeCoefficients,
      Distortion.withFree, RadialDistortion.withFree, RadialDistortion.freeCoefficients] at hj ⊢
    -- For each number of free coefficients the list has so many places, and `j` is one of them.
    obtain h | h | h | h := hcount
    all_goals
      rw [h] at hj ⊢
      rcases j with _ | _ | _ | j <;> cases hj <;> rfl

theorem withParameters_set {i : Nat} {s : Intrinsic} (hi : c.slots[i]? = some s) (x : α) :
    c.withParameters (c.parameters.set i x) = s.put x c := by
  have hkept := c.distortion.withFree_freeCoefficients
  match i with
  | 0 =>
    cases hi
    exact congrArg (fun d => { c with fi := x, distortion := d }) hkept
  | 1 =>
    cases hi
    exact congrArg (fun d => { c with fj := x, distortion := d }) hkept
  | 2 =>
    cases hi
    exact congrArg (fun d => { c with pi := x, distortion := d }) hkept
  | 3 =>
    cases hi
    exact congrArg (fun d => { c with pj := x, distortion := d }) hkept
  | j + 4 => exact c.withFree_set hi x

theorem parameters_map_some : c.parameters.map some = c.slots.map (·.get? c) := by
  obtain ⟨fi, fj, pi, pj, width, height, distortion⟩ := c
  cases distortion with
  | none => rfl
  | radial d =>
    rw [parameters, slots, List.map_append, List.map_append, Distortion.freeCoefficients,
      RadialDistortion.freeCoefficients, Distortion.slots, List.map_take, List.map_take]
    rfl

section SameFrame

variable {c} {c' : Camera α}

/-- There is nothing in a camera but its intrinsics and its frame. -/
theorem eq_of_get?_eq (hframe : c.SameFrame c') (hget : ∀ s : Intrinsic, s.get? c' = s.get? c) :
    c' = c := by
  obtain ⟨fi, fj, pi, pj, width, height, distortion⟩ := c
  obtain ⟨fi', fj', pi', pj', width', height', distortion'⟩ := c'
  obtain ⟨rfl, rfl, hterms⟩ := hframe
  cases hget .fi
  cases hget .fj
  cases hget .pi
  cases hget .pj
  cases distortion with
  | none =>
    cases distortion' with
    | none => rfl
    | radial d' => cases hterms
  | radial d =>
    cases distortion' with
    | none => cases hterms
    | radial d' =>
      cases d
      cases d'
      cases hterms
      cases hget .k1
      cases hget .k2
      cases hget .k3
      rfl

theorem slots_eq_of_sameFrame (hframe : c.SameFrame c') : c'.slots = c.slots := by
  rw [slots, slots, Distortion.slots, Distortion.slots, Distortion.freeCount_eq, hframe.terms_eq,
    ← Distortion.freeCount_eq]

/-- The parameters are all that a camera has beyond its frame and the intrinsics without a slot. -/
theorem eq_of_parameters_eq (hframe : c.SameFrame c')
    (hfixed : ∀ s, s ∉ c.slots → s.get? c' = s.get? c)
    (hparameters : c'.parameters = c.parameters) : c' = c := by
  refine eq_of_get?_eq hframe fun s => ?_
  by_cases hs : s ∈ c.slots
  · have hlists : c.slots.map (·.get? c') = c.slots.map (·.get? c) := by
      rw [← parameters_map_some, ← hparameters, parameters_map_some,
        slots_eq_of_sameFrame hframe]
    exact List.map_inj_left.mp hlists s hs
  · exact hfixed s hs

end SameFrame

section WithParameters

variable {p : List α} (hp : p.length = c.parameterCount)
include hp

theorem sameFrame_withParameters : c.SameFrame (c.withParameters p) :=
  c.foldl_write p hp ▸ c.sameFrame_foldl_write _

theorem get?_withParameters_of_not_mem {s : Intrinsic} (hs : s ∉ c.slots) :
    s.get? (c.withParameters p) = s.get? c := by
  rw [← c.foldl_write p hp]
  refine c.get?_foldl_write _ fun w hw hsame => hs ?_
  rw [hsame]
  exact (List.of_mem_zip hw).1

/-- The parameters that a camera had bring it back. -/
theorem setParameters_withParameters : (c.withParameters p).setParameters c.parameters = .ok c := by
  have hcount : c.parameters.length = (c.withParameters p).parameterCount := by
    rw [length_parameters, parameterCount_withParameters]
  have hframe := c.sameFrame_withParameters hp
  have hback := (c.withParameters p).sameFrame_withParameters hcount
  have hrestored : (c.withParameters p).withParameters c.parameters = c := by
    -- Neither replacement touches what has no slot.
    refine eq_of_parameters_eq (hframe.trans hback) ?_ ?_
    · intro s hs
      have hs' : s ∉ (c.withParameters p).slots := slots_eq_of_sameFrame hframe ▸ hs
      rw [get?_withParameters_of_not_mem _ hcount hs', c.get?_withParameters_of_not_mem hp hs]
    · exact (c.withParameters p).parameters_withParameters hcount
  rw [setParameters, if_pos hcount, hrestored]

end WithParameters

/-- What a camera has after its intrinsics are replaced by a list. -/
structure IsReplaced (p : List α) (c' : Camera α) : Prop where
  inPlace : (overwrite p).run.run c = (.ok (), c')
  parameters_eq : c'.parameters = p
  restored : c'.setParameters c.parameters = .ok c
  get?_of_not_mem : ∀ s, s ∉ c.slots → s.get? c' = s.get? c
  frame : c.SameFrame c'

theorem isReplaced_withParameters {p : List α} (hp : p.length = c.parameterCount) :
    c.IsReplaced p (c.withParameters p) where
  inPlace := by rw [run_overwrite, if_pos hp]
  parameters_eq := c.parameters_withParameters hp
  restored := c.setParameters_withParameters hp
  get?_of_not_mem _ hs := c.get?_withParameters_of_not_mem hp hs
  frame := c.sameFrame_withParameters hp

/-- When the intrinsics are replaced, and what becomes of the camera. -/
structure IsReplaceable : Prop where
  isOk_iff : ∀ p, (∃ c', c.setParameters p = .ok c') ↔ p.length = c.parameterCount
  replaced : ∀ p c', c.setParameters p = .ok c' → c.IsReplaced p c'
  refused : ∀ p e, c.setParameters p = .error e →
    e = .wrongLength .cameraParameters c.parameterCount p.length ∧
      (overwrite p).run.run c = (.error e, c)

theorem isReplaceable : c.IsReplaceable where
  isOk_iff p := by
    unfold setParameters
    split
    next hp => exact ⟨fun _ => hp, fun _ => ⟨_, rfl⟩⟩
    next hp => exact ⟨fun ⟨c', hc'⟩ => (nomatch hc'), fun h => absurd h hp⟩
  replaced p c' hc' := by
    unfold setParameters at hc'
    split at hc'
    next hp =>
      cases hc'
      exact c.isReplaced_withParameters hp
    next => cases hc'
  refused p e he := by
    unfold setParameters at he
    split at he
    next => cases he
    next hp =>
      cases he
      exact ⟨rfl, by rw [run_overwrite, if_neg hp]⟩

/-- The lists of a camera follow its slots. -/
structure IsListed : Prop where
  length_slots : c.slots.length = c.parameterCount
  length_parameters : c.parameters.length = c.parameterCount
  length_names : c.parameterNames.length = c.parameterCount
  parameters_eq : c.parameters.map some = c.slots.map (·.get? c)
  names_eq : c.parameterNames = c.slots.map Intrinsic.name
  set_eq : ∀ i s, c.slots[i]? = some s → ∀ x,
    c.setParameters (c.parameters.set i x) = .ok (s.put x c) ∧ s.Changes x c (s.put x c)

theorem isListed : c.IsListed where
  length_slots := by
    have hthree := c.distortion.freeCount_le_three
    simp only [slots, Distortion.slots, parameterCount, List.length_append, List.length_cons,
      List.length_nil, List.length_take]
    omega
  length_parameters := c.length_parameters
  length_names := c.length_parameterNames
  parameters_eq := c.parameters_map_some
  names_eq := by
    rw [parameterNames, slots, List.map_append, Distortion.slots, List.map_take]
    rfl
  set_eq i s hi x := by
    have hlength : (c.parameters.set i x).length = c.parameterCount := by
      rw [List.length_set, c.length_parameters]
    refine ⟨?_, c.changes_put x (List.mem_of_getElem? hi)⟩
    rw [setParameters, if_pos hlength, c.withParameters_set hi]

/-- The slope in the i-th place is the derivative in the i-th slot, in every layout. -/
theorem hasPixelSlope_slot (c : Camera ℝ) {v : Vec3 ℝ} {slopes : PixelSlopes ℝ}
    (hslopes : c.projectWithSlopes v = some slopes) {i : Nat} {s : Intrinsic}
    (hi : c.slots[i]? = some s) (hidden : ℝ × ℝ) (t : ℝ) :
    HasPixelSlope (fun x => ((s.put x c).project v).getD hidden)
      (slopes.byIntrinsics.getD i (0, 0)) t := by
  have hdepth : 0 < v.z := by
    by_contra hbehind
    rw [projectWithSlopes, if_pos (not_lt.mp hbehind)] at hslopes
    cases hslopes
  have hlt : i < c.parameters.length := by
    rw [c.length_parameters, ← c.isListed.length_slots]
    exact (List.getElem?_eq_some_iff.mp hi).1
  rw [← c.withParameters_parameters] at hslopes
  have hslope := c.hasPixelSlope_intrinsic c.parameters c.length_parameters hlt v hdepth hslopes
    hidden t
  simpa only [c.withParameters_set hi] using hslope

end Camera

namespace StarFit

section Unpacked

variable {α : Type} (f : StarFit α)

def unpacked (p : List α) : Camera α :=
  { f.camera with
    fi := p.getD 0 f.camera.fi
    fj := p.getD 1 f.camera.fj
    pi := p.getD 2 f.camera.pi
    pj := p.getD 3 f.camera.pj
    distortion := f.camera.distortion.withFree ((p.take f.intrinsicCount).drop 4) }

theorem cameraAt_eq_unpacked (v : Vector α f.parameterCount) :
    f.cameraAt v = f.unpacked v.toList := by
  obtain ⟨fi, fj, pi, pj, ks, htake, -⟩ :=
    f.camera.exists_pinhole_of_length _ (f.length_take_intrinsicCount v)
  have hget (i : Nat) (hi : i < f.intrinsicCount) (x : α) :
      v.toList.getD i x = (fi :: fj :: pi :: pj :: ks).getD i x := by
    rw [← htake, List.getD_eq_getElem?_getD, List.getD_eq_getElem?_getD,
      List.getElem?_take_of_lt hi]
  have hfour : 4 ≤ f.intrinsicCount := Nat.le_add_right ..
  rw [cameraAt, unpacked, htake, hget 0 (by omega), hget 1 (by omega), hget 2 (by omega),
    hget 3 (by omega)]
  rfl

theorem parametersOf_toList (v : Vector α f.parameterCount) : f.parametersOf v.toList = .ok v :=
  vectorOfLength_toList ..

end Unpacked

variable {α : Type} [Scalar α] (f : StarFit α)

/-- How a list of parameters is read: one camera and one quaternion, in values and derivatives. -/
structure Decodes (p : List α) (v : Vector α f.parameterCount) : Prop where
  parametersOf_eq : f.parametersOf p = .ok v
  camera_eq : f.cameraOf p = .ok (f.unpacked p)
  quaternion_eq : (f.quaternionAt v).toList = p.drop f.intrinsicCount
  values_eq : ∀ k e, (f.values v)[f.place k e] =
    (pixelOf (f.unpacked p) (f.quaternionAt v) (f.star k))[e]
  jacobian_eq : ∀ k e (c : Fin f.parameterCount), (f.jacobian v)[f.place k e][c] =
    (coordinate (rowsOf (f.unpacked p) (f.quaternionAt v) (f.star k)) e).getD c 0

theorem decodes (v : Vector α f.parameterCount) : f.Decodes v.toList v where
  parametersOf_eq := f.parametersOf_toList v
  camera_eq := by rw [cameraOf_toList, cameraAt_eq_unpacked]
  quaternion_eq := (f.drop_intrinsicCount v).symm
  values_eq k e := by rw [values_place, cameraAt_eq_unpacked]
  jacobian_eq k e c := by rw [jacobian_place, cameraAt_eq_unpacked]

/-- A calibration reads its parameters by the slots of its camera, and those it starts from are its
camera and its orientation. -/
structure ReadsSlots : Prop where
  decodes : ∀ p, p.length = f.parameterCount → ∃ v, f.Decodes p v
  refused : ∀ p, p.length ≠ f.parameterCount →
    f.cameraOf p = .error (.wrongLength .calibrationParameters f.parameterCount p.length)
  initial_eq : f.cameraOf f.initialList = .ok f.camera

theorem readsSlots : f.ReadsSlots where
  decodes p hp := by
    obtain ⟨v, rfl⟩ : ∃ v : Vector α f.parameterCount, p = v.toList := ⟨⟨p.toArray, hp⟩, rfl⟩
    exact ⟨v, f.decodes v⟩
  refused p hp := by
    rw [cameraOf, parametersOf, vectorOfLength, dif_neg hp]
    rfl
  initial_eq := by rw [← toList_initial, cameraOf_toList, cameraAt_initial]

end StarFit

/-- Parameters, their names and the derivatives by them follow the slots of a camera; so do the
replacement of its intrinsics and the calibration that reads them. -/
theorem intrinsicSlots_agree :
    (∀ s t : Intrinsic, s.name = t.name → s = t) ∧
    (∀ {α : Type} (c : Camera α), c.IsReplaceable ∧ c.IsListed) ∧
    (∀ {α : Type} [Scalar α] (c : Camera α) (v : Vec3 α) (slopes : PixelSlopes α),
      c.projectWithSlopes v = some slopes → slopes.byIntrinsics.length = c.parameterCount) ∧
    (∀ (c : Camera ℝ) (v : Vec3 ℝ) (slopes : PixelSlopes ℝ),
      c.projectWithSlopes v = some slopes → ∀ i s, c.slots[i]? = some s → ∀ hidden t,
        HasPixelSlope (fun x => ((s.put x c).project v).getD hidden)
          (slopes.byIntrinsics.getD i (0, 0)) t) ∧
    (∀ {α : Type} [Scalar α] (f : StarFit α), f.ReadsSlots) ∧
    ∀ f : StarFit ℝ, f.orientation.norm = 1 →
      f.orientationOf f.initialList = .ok f.orientation := by
  refine ⟨fun _ _ h => Intrinsic.eq_of_name_eq h, fun c => ⟨c.isReplaceable, c.isListed⟩,
    fun _ _ _ h => Camera.length_byIntrinsics h,
    fun c _ _ h _ _ hi => c.hasPixelSlope_slot h hi, fun f => f.readsSlots, fun f hunit => ?_⟩
  have hinitial : (f.quaternionAt f.initial).norm = 1 := by rw [f.quaternionAt_initial, hunit]
  rw [← f.toList_initial, f.orientationOf_toList, f.orientationAt_of_norm_eq_one hinitial,
    f.quaternionAt_initial]

theorem intrinsicSlots_agree_oneFree :
    let c : Camera ℝ := ⟨2, 2, 1, 1, 8, 8, .radial ⟨0, 0, 5, 1⟩⟩
    let c' : Camera ℝ := ⟨3, 3, 1, 1, 8, 8, .radial ⟨7, 0, 5, 1⟩⟩
    let f : StarFit ℝ := ⟨c, .identity, #[], []⟩
    (c.setParameters [3, 3, 1, 1, 7] = .ok c' ∧ c.IsReplaced [3, 3, 1, 1, 7] c') ∧
      (c.setParameters [3] = .error (.wrongLength .cameraParameters 5 1) ∧
        (Camera.overwrite [3]).run.run c = (.error (.wrongLength .cameraParameters 5 1), c)) ∧
      (c.slots[4]? = some .k1 ∧ Intrinsic.k1.Changes 7 c (Intrinsic.k1.put 7 c)) ∧
      (∃ slopes, c.projectWithSlopes ⟨0, 0, 1⟩ = some slopes ∧ slopes.byIntrinsics.length = 5) ∧
      f.orientation.norm = 1 ∧ f.orientationOf f.initialList = .ok f.orientation := by
  intro c c' f
  have hset : c.setParameters [3, 3, 1, 1, 7] = .ok c' := rfl
  have hrefused : c.setParameters [3] = .error (.wrongLength .cameraParameters 5 1) := rfl
  have hslot : c.slots[4]? = some .k1 := rfl
  have hunit : f.orientation.norm = 1 := Quaternion.norm_identity
  obtain ⟨slopes, hslopes⟩ := c.exists_projectWithSlopes ⟨0, 0, 1⟩ one_pos
  obtain ⟨-, hcamera, hlength, -, -, horientation⟩ := intrinsicSlots_agree
  exact ⟨⟨hset, (hcamera c).1.replaced _ _ hset⟩,
    ⟨hrefused, ((hcamera c).1.refused _ _ hrefused).2⟩,
    ⟨hslot, ((hcamera c).2.set_eq _ _ hslot 7).2⟩, ⟨slopes, hslopes, hlength _ _ _ hslopes⟩,
    hunit, horientation f hunit⟩

end SkyCamera
