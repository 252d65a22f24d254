import Mathlib.Order.Interval.Set.UnorderedInterval
import SkyCamera.Proofs.ProjectionSlopes

/-!
Undistortion in exact arithmetic. Where the coefficients of a distortion have one sign, the curve of
distorted radii lies on one side of each of its tangents. From the distorted radius Newton's method
then comes nearer to the true one with each step, does not pass it, and never divides by zero.
-/
namespace SkyCamera.RadialDistortion

variable (d : RadialDistortion ℝ)

/-- The distance from the centre at which a point at radius `ρ` is seen. -/
noncomputable def radius (ρ : ℝ) : ℝ := ρ * d.scale (ρ * ρ)

theorem newtonStep_eq (rd ρ : ℝ) : d.newtonStep rd ρ = (d.radius ρ - rd) / d.divisor ρ := rfl

/-- The divisor is the slope of the curve of distorted radii. -/
theorem hasDerivAt_radius (ρ : ℝ) : HasDerivAt d.radius (d.divisor ρ) ρ := by
  have hsquare := (hasDerivAt_id' ρ).fun_mul (hasDerivAt_id' ρ)
  have hscale := HasDerivAt.comp (h := fun ρ => ρ * ρ) ρ
    ((Distortion.radial d).hasDerivAt_scale (ρ * ρ)) hsquare
  refine ((hasDerivAt_id' ρ).fun_mul hscale).congr_deriv ?_
  simp only [Function.comp_apply, Distortion.scaleAndSlope, divisor, Scalar.two_real]
  ring

/-- What the curve is above its tangent at `a`. -/
theorem radius_sub_tangent (a b : ℝ) :
    d.radius b - (d.radius a + d.divisor a * (b - a)) =
      (b - a) ^ 2 * (d.k1 * (b + 2 * a) +
        d.k2 * (b ^ 3 + 2 * b ^ 2 * a + 3 * b * a ^ 2 + 4 * a ^ 3) +
        d.k3 * (b ^ 5 + 2 * b ^ 4 * a + 3 * b ^ 3 * a ^ 2 + 4 * b ^ 2 * a ^ 3 + 5 * b * a ^ 4 +
          6 * a ^ 5)) := by
  simp only [radius, divisor, scale, scaleSlope, Scalar.two_real, Scalar.three_real]
  ring

/-- A distortion that moves points outwards (`σ = 1`) or inwards (`σ = -1`), and moves the farther
of two points farther out up to the radius `r`. -/
structure Bends (σ r : ℝ) : Prop where
  sign : σ = 1 ∨ σ = -1
  k1_nonneg : 0 ≤ σ * d.k1
  k2_nonneg : 0 ≤ σ * d.k2
  k3_nonneg : 0 ≤ σ * d.k3
  radius_pos : 0 < r
  divisor_pos : 0 < d.divisor r

/-- Whether `ρ` lies on the side of `r` to which points are moved. -/
structure OnSide (σ r ρ : ℝ) : Prop where
  pos : 0 < ρ
  side : 0 ≤ σ * (ρ - r)

theorem OnSide.abs_sub_eq {σ r ρ : ℝ} (hρ : OnSide σ r ρ) (hσ : σ = 1 ∨ σ = -1) :
    |ρ - r| = σ * (ρ - r) := by
  have hside := hρ.side
  obtain rfl | rfl := hσ
  · rw [abs_of_nonneg (by linarith), one_mul]
  · rw [abs_of_nonpos (by linarith), neg_one_mul]

theorem mem_uIcc_of_side {σ a b c : ℝ} (hσ : σ = 1 ∨ σ = -1) (hab : 0 ≤ σ * (a - b))
    (hbc : 0 ≤ σ * (b - c)) : b ∈ Set.uIcc a c := by
  rw [Set.mem_uIcc]
  obtain rfl | rfl := hσ
  · exact Or.inr ⟨by linarith, by linarith⟩
  · exact Or.inl ⟨by linarith, by linarith⟩

namespace Bends

variable {d} {σ r : ℝ} (h : d.Bends σ r)
include h

/-- By the bend the radius stays on one side of its tangents. -/
theorem tangent_le {a b : ℝ} (ha : 0 ≤ a) (hb : 0 ≤ b) :
    σ * (d.radius a + d.divisor a * (b - a)) ≤ σ * d.radius b := by
  have hgap := congrArg (σ * ·) (d.radius_sub_tangent a b)
  have hnonneg : 0 ≤ (b - a) ^ 2 * (σ * d.k1 * (b + 2 * a) +
      σ * d.k2 * (b ^ 3 + 2 * b ^ 2 * a + 3 * b * a ^ 2 + 4 * a ^ 3) +
      σ * d.k3 * (b ^ 5 + 2 * b ^ 4 * a + 3 * b ^ 3 * a ^ 2 + 4 * b ^ 2 * a ^ 3 + 5 * b * a ^ 4 +
        6 * a ^ 5)) := by
    have h1 := h.k1_nonneg
    have h2 := h.k2_nonneg
    have h3 := h.k3_nonneg
    positivity
  linarith

/-- Distorted radii grow on that side as well. -/
theorem radius_le {ρ : ℝ} (hρ : OnSide σ r ρ) :
    d.divisor r * (σ * (ρ - r)) ≤ σ * (d.radius ρ - d.radius r) := by
  have htangent := h.tangent_le h.radius_pos.le hρ.pos.le
  linarith

/-- On the side of the iterates the divisor is least at the root. -/
theorem divisor_le {ρ : ℝ} (hρ : OnSide σ r ρ) : d.divisor r ≤ d.divisor ρ := by
  rcases hρ.side.eq_or_lt with hzero | hside
  · have hσ : σ ≠ 0 := by
      obtain rfl | rfl := h.sign <;> norm_num
    have hsame : ρ = r := sub_eq_zero.mp ((mul_eq_zero.mp hzero.symm).resolve_left hσ)
    rw [hsame]
  · -- Of two tangents, each is below the curve where it touches the other.
    have hfrom := h.tangent_le h.radius_pos.le hρ.pos.le
    have hto := h.tangent_le hρ.pos.le h.radius_pos.le
    have hproduct : 0 ≤ (d.divisor ρ - d.divisor r) * (σ * (ρ - r)) := by linarith
    exact sub_nonneg.mp (nonneg_of_mul_nonneg_left hproduct hside)

theorem divisor_pos_of_onSide {ρ : ℝ} (hρ : OnSide σ r ρ) : 0 < d.divisor ρ :=
  h.divisor_pos.trans_le (h.divisor_le hρ)

theorem eq_of_radius_eq {ρ : ℝ} (hρ : OnSide σ r ρ) (heq : d.radius ρ = d.radius r) : ρ = r := by
  have hle := h.radius_le hρ
  rw [heq, sub_self, mul_zero] at hle
  have hside : σ * (ρ - r) = 0 :=
    le_antisymm (nonpos_of_mul_nonpos_right hle h.divisor_pos) hρ.side
  obtain rfl | rfl := h.sign <;> linarith

/-- A step goes towards `r`, at most as far. -/
theorem newtonStep_bounds {ρ : ℝ} (hρ : OnSide σ r ρ) :
    0 ≤ σ * d.newtonStep (d.radius r) ρ ∧ σ * d.newtonStep (d.radius r) ρ ≤ σ * (ρ - r) := by
  have hpos := h.divisor_pos_of_onSide hρ
  rw [newtonStep_eq, ← mul_div_assoc]
  constructor
  · have hgrow := h.radius_le hρ
    exact div_nonneg ((mul_nonneg h.divisor_pos.le hρ.side).trans hgrow) hpos.le
  · rw [div_le_iff₀ hpos]
    have htangent := h.tangent_le hρ.pos.le h.radius_pos.le
    linarith

/-- A step from another radius than `r` is not zero. -/
theorem newtonStep_pos {ρ : ℝ} (hρ : OnSide σ r ρ) (hne : ρ ≠ r) :
    0 < σ * d.newtonStep (d.radius r) ρ := by
  have hapart : 0 < σ * (ρ - r) := by
    refine hρ.side.lt_of_ne' (mul_ne_zero ?_ (sub_ne_zero.mpr hne))
    obtain rfl | rfl := h.sign <;> norm_num
  have hgrow := h.radius_le hρ
  rw [newtonStep_eq, ← mul_div_assoc]
  exact div_pos ((mul_pos h.divisor_pos hapart).trans_le hgrow) (h.divisor_pos_of_onSide hρ)

theorem step_mem_uIcc {ρ : ℝ} (hρ : OnSide σ r ρ) :
    ρ - d.newtonStep (d.radius r) ρ ∈ Set.uIcc ρ r := by
  obtain ⟨hforward, hshort⟩ := h.newtonStep_bounds hρ
  exact mem_uIcc_of_side h.sign (by linarith) (by linarith)

theorem onSide_step {ρ : ℝ} (hρ : OnSide σ r ρ) :
    OnSide σ r (ρ - d.newtonStep (d.radius r) ρ) := by
  refine ⟨?_, ?_⟩
  · exact (lt_min hρ.pos h.radius_pos).trans_le (h.step_mem_uIcc hρ).1
  · have hshort := (h.newtonStep_bounds hρ).2
    linarith

theorem abs_step_sub_lt {ρ : ℝ} (hρ : OnSide σ r ρ) (hne : ρ ≠ r) :
    |ρ - d.newtonStep (d.radius r) ρ - r| < |ρ - r| := by
  rw [(h.onSide_step hρ).abs_sub_eq h.sign, hρ.abs_sub_eq h.sign]
  have hforward := h.newtonStep_pos hρ hne
  linarith

/-- The distorted radius itself lies on that side. -/
theorem onSide_radius : OnSide σ r (d.radius r) := by
  have hzero : d.radius 0 = 0 := zero_mul _
  have hone : d.divisor 0 = 1 := by simp [divisor, scale]
  -- The tangent at the centre is the radius itself.
  have hcentre := h.tangent_le le_rfl h.radius_pos.le
  rw [hzero, hone] at hcentre
  refine ⟨?_, by linarith⟩
  obtain rfl | rfl := h.sign
  · have hr := h.radius_pos
    linarith
  · have hback := h.tangent_le h.radius_pos.le le_rfl
    rw [hzero] at hback
    have hproduct := mul_pos h.divisor_pos h.radius_pos
    linarith

theorem scale_pos : 0 < d.scale (r * r) := pos_of_mul_pos_right h.onSide_radius.pos h.radius_pos.le

end Bends

/-- The radii that Newton's method visits from the distorted radius `rd`, if nothing ends it. -/
noncomputable def newtonIterate (rd : ℝ) : ℕ → ℝ
  | 0 => rd
  | k + 1 => newtonIterate rd k - d.newtonStep rd (newtonIterate rd k)

noncomputable def stepCount (rd : ℝ) : ℕ → ℝ → ℕ
  | 0, _ => 0
  | limit + 1, ρ =>
    let step := d.newtonStep rd ρ
    if Scalar.abs step < 1e-15 then 1 else stepCount rd limit (ρ - step) + 1

theorem newton_newtonIterate (rd : ℝ) (limit k : ℕ) :
    d.newton rd limit (d.newtonIterate rd k) =
      d.newtonIterate rd (k + d.stepCount rd limit (d.newtonIterate rd k)) := by
  induction limit generalizing k with
  | zero => rfl
  | succ limit ih =>
    rw [newton, stepCount]
    split
    · rfl
    · exact (ih (k + 1)).trans (congrArg _ (Nat.succ_add_eq_add_succ _ _))

/-- The number of steps that undistortion makes. A point at the centre stays where it is seen. -/
noncomputable def stepsMade (rd : ℝ) : ℕ := if rd < 1e-15 then 0 else d.stepCount rd 20 rd

noncomputable def lastIterate (rd : ℝ) : ℝ := d.newtonIterate rd (d.stepsMade rd)

theorem undistort_eq {xd yd rd : ℝ} (hrd : Scalar.hypot xd yd = rd) (hne : rd ≠ 0) :
    d.undistort xd yd = (xd * (d.lastIterate rd / rd), yd * (d.lastIterate rd / rd)) := by
  rw [undistort, hrd, lastIterate, stepsMade]
  split
  · rw [newtonIterate, div_self hne, mul_one, mul_one]
  · have hlast := d.newton_newtonIterate rd 20 0
    rw [newtonIterate, Nat.zero_add] at hlast
    rw [hlast]

/-- How Newton's method goes from the distorted radius `rd` towards the radius `r`. -/
structure Approaches (rd r : ℝ) : Prop where
  start : d.newtonIterate rd 0 = rd
  step : ∀ k, d.newtonIterate rd (k + 1) = d.newtonIterate rd k -
    (d.radius (d.newtonIterate rd k) - rd) / d.divisor (d.newtonIterate rd k)
  divisor_eq : ∀ k, d.divisor (d.newtonIterate rd k) = deriv d.radius (d.newtonIterate rd k)
  divisor_pos : ∀ k, 0 < d.divisor (d.newtonIterate rd k)
  between : ∀ k, d.newtonIterate rd k ∈ Set.uIcc rd r
  toward : ∀ k, d.newtonIterate rd (k + 1) ∈ Set.uIcc (d.newtonIterate rd k) r
  /-- Each step that does not start at `r` ends nearer to it. -/
  nearer : ∀ k, d.newtonIterate rd k ≠ r →
    |d.newtonIterate rd (k + 1) - r| < |d.newtonIterate rd k - r|

namespace Bends

variable {d} {σ r : ℝ} (h : d.Bends σ r)
include h

theorem onSide_newtonIterate (k : ℕ) : OnSide σ r (d.newtonIterate (d.radius r) k) := by
  induction k with
  | zero => exact h.onSide_radius
  | succ k ih => exact h.onSide_step ih

/-- Induction over the steps: an iterate stays on its side of the root, and its step leads towards
the root without passing it. -/
theorem approaches : d.Approaches (d.radius r) r where
  start := rfl
  step _ := rfl
  divisor_eq _ := (d.hasDerivAt_radius _).deriv.symm
  divisor_pos k := h.divisor_pos_of_onSide (h.onSide_newtonIterate k)
  between k := by
    induction k with
    | zero => exact Set.left_mem_uIcc
    | succ k ih =>
      have hstep := h.step_mem_uIcc (h.onSide_newtonIterate k)
      exact Set.uIcc_subset_uIcc ih Set.right_mem_uIcc hstep
  toward k := h.step_mem_uIcc (h.onSide_newtonIterate k)
  nearer k := h.abs_step_sub_lt (h.onSide_newtonIterate k)

end Bends

/-- Coefficients of one sign, such that a point at radius `r` is not moved past those behind it. -/
def IsOneSided (r : ℝ) : Prop :=
  (0 ≤ d.k1 ∧ 0 ≤ d.k2 ∧ 0 ≤ d.k3) ∨ (d.k1 ≤ 0 ∧ d.k2 ≤ 0 ∧ d.k3 ≤ 0 ∧ 0 < deriv d.radius r)

theorem exists_bends {r : ℝ} (hr : 0 < r) (h : d.IsOneSided r) : ∃ σ, d.Bends σ r := by
  obtain ⟨h1, h2, h3⟩ | ⟨h1, h2, h3, hslope⟩ := h
  · refine ⟨1, .inl rfl, by rwa [one_mul], by rwa [one_mul], by rwa [one_mul], hr, ?_⟩
    simp only [divisor, scale, scaleSlope, Scalar.two_real, Scalar.three_real]
    positivity
  · rw [(d.hasDerivAt_radius r).deriv] at hslope
    exact ⟨-1, .inr rfl, by linarith, by linarith, by linarith, hr, hslope⟩

theorem hypot_mul (x y s : ℝ) :
    Scalar.hypot (x * s) (y * s) = Scalar.hypot x y * |s| := by
  show Real.sqrt ((x * s) ^ 2 + (y * s) ^ 2) = Real.sqrt (x ^ 2 + y ^ 2) * |s|
  have hfactor : (x * s) ^ 2 + (y * s) ^ 2 = (x ^ 2 + y ^ 2) * s ^ 2 := by ring
  rw [hfactor, Real.sqrt_mul (by positivity), Real.sqrt_sq_eq_abs]

theorem hypot_mul_sub (x y s : ℝ) :
    Scalar.hypot (x * s - x) (y * s - y) = Scalar.hypot x y * |1 - s| := by
  rw [abs_sub_comm, ← hypot_mul, mul_sub_one, mul_sub_one]

theorem hypot_mul_self (x y : ℝ) : Scalar.hypot x y * Scalar.hypot x y = x * x + y * y := by
  show Real.sqrt (x ^ 2 + y ^ 2) * Real.sqrt (x ^ 2 + y ^ 2) = _
  rw [Real.mul_self_sqrt (by positivity), sq, sq]

theorem mul_eq_self_iff {x y t : ℝ} (hne : Scalar.hypot x y ≠ 0) :
    (t * x, t * y) = (x, y) ↔ t = 1 := by
  constructor
  · intro hsame
    obtain ⟨hx, hy⟩ := Prod.mk.inj hsame
    -- The square of the length, which is not zero, is `t` times itself.
    have hlength : t * (Scalar.hypot x y * Scalar.hypot x y) =
        1 * (Scalar.hypot x y * Scalar.hypot x y) := by
      rw [hypot_mul_self]
      linear_combination x * hx + y * hy
    exact mul_right_cancel₀ (mul_ne_zero hne hne) hlength
  · intro hone
    rw [hone, one_mul, one_mul]

/-- A point that is distorted and undistorted again keeps its direction, and its radius ends between
the true one and the distorted one. -/
structure Recovers (x y xd yd t : ℝ) : Prop where
  undistort_eq : d.undistort xd yd = (t * x, t * y)
  pos : 0 < t
  between : t ∈ Set.uIcc (d.scale (x * x + y * y)) 1
  nearer : Scalar.hypot (t * x - x) (t * y - y) ≤ Scalar.hypot (xd - x) (yd - y)
  eq_iff : d.undistort xd yd = (x, y) ↔
    d.radius (d.lastIterate (Scalar.hypot xd yd)) = Scalar.hypot xd yd

variable {d}

theorem div_mem_uIcc {a b c : ℝ} (hc : 0 < c) (h : b ∈ Set.uIcc (c * a) c) :
    b / c ∈ Set.uIcc a 1 := by
  rw [Set.mem_uIcc] at h ⊢
  rw [le_div_iff₀ hc, div_le_iff₀ hc, le_div_iff₀ hc, div_le_iff₀ hc, one_mul, mul_comm a]
  exact h

section Point

variable {σ x y : ℝ} (h : d.Bends σ (Scalar.hypot x y))
include h

theorem Bends.hypot_distort :
    Scalar.hypot (d.distort x y).1 (d.distort x y).2 = d.radius (Scalar.hypot x y) := by
  have hscale := h.scale_pos
  rw [distort, radius]
  rw [hypot_mul_self] at hscale ⊢
  rw [hypot_mul, abs_of_pos hscale]

/-- What undistortion returns is the point with its radius replaced by the last one visited. -/
theorem Bends.undistort_distort :
    let t := d.lastIterate (d.radius (Scalar.hypot x y)) / Scalar.hypot x y
    d.undistort (d.distort x y).1 (d.distort x y).2 = (t * x, t * y) := by
  have hscale := h.scale_pos
  have hback (u last : ℝ) {r s : ℝ} (hs : s ≠ 0) : u * s * (last / (r * s)) = last / r * u := by
    field_simp
  rw [d.undistort_eq h.hypot_distort h.onSide_radius.pos.ne']
  rw [hypot_mul_self] at hscale
  simp only [distort, radius, hypot_mul_self, Prod.mk.injEq]
  exact ⟨hback x _ hscale.ne', hback y _ hscale.ne'⟩

/-- The recovered point is the point times the ratio of the last iterate to the root. -/
theorem Bends.recovers :
    d.Recovers x y (d.distort x y).1 (d.distort x y).2
      (d.lastIterate (d.radius (Scalar.hypot x y)) / Scalar.hypot x y) := by
  have hpos := h.radius_pos
  have hside : OnSide σ (Scalar.hypot x y) (d.lastIterate (d.radius (Scalar.hypot x y))) :=
    h.onSide_newtonIterate _
  have hmem : d.lastIterate (d.radius (Scalar.hypot x y)) / Scalar.hypot x y ∈
      Set.uIcc (d.scale (x * x + y * y)) 1 :=
    div_mem_uIcc hpos (hypot_mul_self x y ▸ h.approaches.between _)
  have hresult := h.undistort_distort
  have hlast : d.radius (d.lastIterate (d.radius (Scalar.hypot x y))) =
      d.radius (Scalar.hypot x y) ↔
        d.lastIterate (d.radius (Scalar.hypot x y)) / Scalar.hypot x y = 1 := by
    rw [div_eq_one_iff_eq hpos.ne']
    exact ⟨h.eq_of_radius_eq hside, congrArg d.radius⟩
  have ht := div_pos hside.pos hpos
  refine ⟨hresult, ht, hmem, ?_, ?_⟩
  · rw [mul_comm _ x, mul_comm _ y, distort, hypot_mul_sub, hypot_mul_sub]
    exact mul_le_mul_of_nonneg_left (Set.abs_sub_right_of_mem_uIcc hmem) hpos.le
  · rw [h.hypot_distort, hlast, hresult]
    exact mul_eq_self_iff hpos.ne'

end Point

variable (d)

/-- Newton's method goes from where a point is seen towards where it is, and what undistortion
returns is between the two. -/
theorem approaches_recovers {x y : ℝ} (hpos : 0 < Scalar.hypot x y)
    (hd : d.IsOneSided (Scalar.hypot x y)) :
    let seen := d.distort x y
    let rd := Scalar.hypot seen.1 seen.2
    d.Approaches rd (Scalar.hypot x y) ∧
      d.Recovers x y seen.1 seen.2 (d.lastIterate rd / Scalar.hypot x y) := by
  obtain ⟨σ, h⟩ := d.exists_bends hpos hd
  intro seen rd
  have hrd : rd = d.radius (Scalar.hypot x y) := h.hypot_distort
  rw [hrd]
  exact ⟨h.approaches, h.recovers⟩

theorem approaches_recovers_barrel :
    let d : RadialDistortion ℝ := ⟨-1 / 10, -1 / 100, 0, 3⟩
    let seen := d.distort (3 / 5) (4 / 5)
    let rd := Scalar.hypot seen.1 seen.2
    0 < Scalar.hypot (3 / 5 : ℝ) (4 / 5) ∧ d.IsOneSided (Scalar.hypot (3 / 5) (4 / 5)) ∧
      d.Approaches rd (Scalar.hypot (3 / 5) (4 / 5)) ∧
      d.Recovers (3 / 5) (4 / 5) seen.1 seen.2
        (d.lastIterate rd / Scalar.hypot (3 / 5) (4 / 5)) := by
  intro d seen rd
  have hone : Scalar.hypot (3 / 5 : ℝ) (4 / 5) = 1 := by
    show Real.sqrt _ = 1
    norm_num
  have hpos : 0 < Scalar.hypot (3 / 5 : ℝ) (4 / 5) := by
    rw [hone]
    exact one_pos
  have hd : d.IsOneSided (Scalar.hypot (3 / 5) (4 / 5)) := by
    rw [hone, IsOneSided, (d.hasDerivAt_radius 1).deriv]
    norm_num [d, divisor, scale, scaleSlope]
  exact ⟨hpos, hd, d.approaches_recovers hpos hd⟩

end SkyCamera.RadialDistortion
