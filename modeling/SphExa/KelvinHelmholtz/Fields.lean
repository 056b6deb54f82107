import Mathlib
import SphExa.Output.Fields

/-!
# The Kelvin-Helmholtz initial fields

`initKelvinHelmholtzFields` reads its constants from a map and gives every particle its
mass, smoothing length, temperature and velocity: a dense inner layer `0.25 < y < 0.75`
moving at `vxInt` inside an outer fluid moving at `vxExt`, joined by exponential profiles of
width `ls`. The functions of `<cmath>` are parameters, so that the model runs over any
ordered field; the theorems about the profile take `Real.exp`.
-/

namespace SphExa.KelvinHelmholtz

/-- The functions of `<cmath>` the initialisers call, and `M_PI`. -/
structure Cmath (T : Type) where
  /-- `std::exp`. -/
  exp : T → T
  /-- `std::sin`. -/
  sin : T → T
  /-- `std::cbrt`. -/
  cbrt : T → T
  /-- `std::rint`, to the nearest integer. -/
  rint : T → Int
  /-- `M_PI`. -/
  pi : T

/-- A point `cstone::Vec3<T>`: one particle's entries of `d.x`, `d.y` and `d.z`. -/
structure Vec3 (T : Type) where
  /-- `d.x[i]`. -/
  x : T
  /-- `d.y[i]`. -/
  y : T
  /-- `d.z[i]`. -/
  z : T
  deriving DecidableEq, Repr

/-- `std::map::at`: the value stored under `key`, or `std::out_of_range`. -/
def mapAt {T : Type} (constants : List (String × T)) (key : String) : Except Exception T :=
  match constants.lookup key with
  | some v => .ok v
  | none => .error .outOfRange

/-- The constants `initKelvinHelmholtzFields` reads from its map. -/
structure Constants (T : Type) where
  /-- `constants.at("rhoInt")`, the density of the inner layer. -/
  rhoInt : T
  /-- `constants.at("rhoExt")`, the density of the outer fluid. -/
  rhoExt : T
  /-- `constants.at("firstTimeStep")`. -/
  firstTimeStep : T
  /-- `constants.at("omega0")`, the amplitude of the `vy` perturbation. -/
  omega0 : T
  /-- `constants.at("gamma")`, the adiabatic index. -/
  gamma : T
  /-- `constants.at("p")`, the pressure of both layers. -/
  p : T
  /-- `constants.at("vxInt")`, the x-velocity of the inner layer. -/
  vxInt : T
  /-- `constants.at("vxExt")`, the x-velocity of the outer fluid. -/
  vxExt : T
  /-- `constants.at("Kcour")`, the Courant factor. -/
  Kcour : T
  deriving DecidableEq, Repr

/-- The fields `initKelvinHelmholtzFields` sets for one particle. -/
structure ParticleFields (T : Type) where
  /-- `d.m[i]`, filled with `massPart`. -/
  m : T
  /-- `d.du_m1[i]`, filled with `0`. -/
  du_m1 : T
  /-- `d.mue[i]`, filled with `2`. -/
  mue : T
  /-- `d.mui[i]`, filled with `10`. -/
  mui : T
  /-- `d.alpha[i]`, filled with `d.alphamax`. -/
  alpha : T
  /-- `d.vz[i]`, filled with `0`. -/
  vz : T
  /-- `d.vy[i] = omega0 * sin(4 pi x)`. -/
  vy : T
  /-- `d.h[i]`, `hInt` or `hExt` by layer. -/
  h : T
  /-- `d.temp[i]`, `uInt / cv` or `uExt / cv` by layer. -/
  temp : T
  /-- `d.vx[i]`, the shear profile. -/
  vx : T
  /-- `d.x_m1[i] = vx * firstTimeStep`. -/
  x_m1 : T
  /-- `d.y_m1[i] = vy * firstTimeStep`. -/
  y_m1 : T
  /-- `d.z_m1[i] = vz * firstTimeStep`. -/
  z_m1 : T
  deriving DecidableEq, Repr

/-- The scalars of the dataset `initKelvinHelmholtzFields` sets. -/
structure Scalars (T : Type) where
  /-- `d.gamma`. -/
  gamma : T
  /-- `d.Kcour`. -/
  Kcour : T
  /-- `d.minDt = firstTimeStep`. -/
  minDt : T
  /-- `d.minDt_m1 = firstTimeStep`. -/
  minDt_m1 : T
  deriving DecidableEq, Repr

variable {T : Type} [LinearOrderedField T]

/-- The reads `constants.at(..)` of `initKelvinHelmholtzFields`, in its order; `Kcour` is read
after the fills. -/
def readConstants (constants : List (String × T)) : Except Exception (Constants T) := do
  let rhoInt ← mapAt constants "rhoInt"
  let rhoExt ← mapAt constants "rhoExt"
  let firstTimeStep ← mapAt constants "firstTimeStep"
  let omega0 ← mapAt constants "omega0"
  let gamma ← mapAt constants "gamma"
  let p ← mapAt constants "p"
  let vxInt ← mapAt constants "vxInt"
  let vxExt ← mapAt constants "vxExt"
  let Kcour ← mapAt constants "Kcour"
  pure ⟨rhoInt, rhoExt, firstTimeStep, omega0, gamma, p, vxInt, vxExt, Kcour⟩

/-- `KelvinHelmholtzConstants()`. -/
def kelvinHelmholtzConstants : List (String × T) :=
  [("rhoInt", 2), ("rhoExt", 1), ("vxExt", 0.5), ("vxInt", -0.5), ("gamma", 5 / 3),
    ("firstTimeStep", 1e-7), ("p", 2.5), ("omega0", 0.01), ("Kcour", 0.4)]

/-- Every key the initialiser reads is in `KelvinHelmholtzConstants()`, so no read throws. -/
theorem readConstants_kelvinHelmholtzConstants :
    readConstants (kelvinHelmholtzConstants : List (String × T)) =
      .ok ⟨2, 1, 1e-7, 0.01, 5 / 3, 2.5, -0.5, 0.5, 0.4⟩ := rfl

/-- The x-velocity the loop body gives a particle at height `y`, with
`vDif = 0.5 * (vxExt - vxInt)` and `ls = 0.025`. -/
def vxAt (exp : T → T) (vxInt vxExt y : T) : T :=
  let vDif := 0.5 * (vxExt - vxInt)
  let ls : T := 0.025
  if y < 0.75 ∧ y > 0.25 then
    if y > 0.5 then vxInt + vDif * exp ((y - 0.75) / ls)
    else vxInt + vDif * exp ((0.25 - y) / ls)
  else if y < 0.25 then vxExt - vDif * exp ((y - 0.25) / ls)
  else vxExt - vDif * exp ((0.75 - y) / ls)

/-- The body of the particle loop of `initKelvinHelmholtzFields` for the particle at `P`, after
the fills of `m`, `du_m1`, `mue`, `mui`, `alpha` and `vz`. -/
def initParticle (cm : Cmath T) (cv alphamax massPart : T) (c : Constants T) (P : Vec3 T) :
    ParticleFields T :=
  let uInt := c.p / ((c.gamma - 1) * c.rhoInt)
  let uExt := c.p / ((c.gamma - 1) * c.rhoExt)
  let ng0 : T := 100
  let hInt := 0.5 * cm.cbrt (3 * ng0 * massPart / 4 / cm.pi / c.rhoInt)
  let hExt := 0.5 * cm.cbrt (3 * ng0 * massPart / 4 / cm.pi / c.rhoExt)
  let vz : T := 0
  let vy := c.omega0 * cm.sin (4 * cm.pi * P.x)
  let inner : Bool := decide (P.y < 0.75 ∧ P.y > 0.25)
  let vx := vxAt cm.exp c.vxInt c.vxExt P.y
  { m := massPart, du_m1 := 0, mue := 2, mui := 10, alpha := alphamax, vz, vy,
    h := if inner then hInt else hExt, temp := if inner then uInt / cv else uExt / cv, vx,
    x_m1 := vx * c.firstTimeStep, y_m1 := vy * c.firstTimeStep, z_m1 := vz * c.firstTimeStep }

/-- `initKelvinHelmholtzFields`: the dataset's scalars and the fields of the particles at `pos`;
`cv = idealGasCv(muiConst, gamma)`. -/
def initKelvinHelmholtzFields (cm : Cmath T) (idealGasCv : T → T → T) (muiConst alphamax : T)
    (constants : List (String × T)) (massPart : T) (pos : List (Vec3 T)) :
    Except Exception (Scalars T × List (ParticleFields T)) := do
  let c ← readConstants constants
  let cv := idealGasCv muiConst c.gamma
  pure (⟨c.gamma, c.Kcour, c.firstTimeStep, c.firstTimeStep⟩,
    pos.map (initParticle cm cv alphamax massPart c))

/-- The spec of `initKelvinHelmholtzFields` on a map it can read. -/
theorem initKelvinHelmholtzFields_eq {cm : Cmath T} {idealGasCv : T → T → T}
    {muiConst alphamax massPart : T} {constants : List (String × T)} {c : Constants T}
    (hc : readConstants constants = .ok c) (pos : List (Vec3 T)) :
    initKelvinHelmholtzFields cm idealGasCv muiConst alphamax constants massPart pos =
      .ok (⟨c.gamma, c.Kcour, c.firstTimeStep, c.firstTimeStep⟩,
        pos.map (initParticle cm (idealGasCv muiConst c.gamma) alphamax massPart c)) := by
  simp only [initKelvinHelmholtzFields, hc, bind, Except.bind, pure, Except.pure]

section Profile

/-- Both formulas of the profile stay between the two plateaus while the exponential is in
`(0, 1]`. -/
theorem profile_mem_Icc {vxInt vxExt e : ℝ} (hv : vxInt ≤ vxExt) (he0 : 0 < e) (he1 : e ≤ 1) :
    vxInt + 0.5 * (vxExt - vxInt) * e ∈ Set.Icc vxInt vxExt ∧
      vxExt - 0.5 * (vxExt - vxInt) * e ∈ Set.Icc vxInt vxExt := by
  have hd : 0 ≤ 0.5 * (vxExt - vxInt) := mul_nonneg (by norm_num) (sub_nonneg.2 hv)
  have hhalf : 0.5 * (vxExt - vxInt) ≤ vxExt - vxInt := by linarith only [hv]
  have h0 : 0 ≤ 0.5 * (vxExt - vxInt) * e := mul_nonneg hd he0.le
  have h1 := (mul_le_of_le_one_right hd he1).trans hhalf
  generalize 0.5 * (vxExt - vxInt) * e = d at h0 h1 ⊢
  exact ⟨⟨le_add_of_nonneg_right h0, by linarith only [h1]⟩,
    ⟨by linarith only [h1], sub_le_self _ h0⟩⟩

/-- Off the seam `y = 0.25` every exponent the profile takes is at most zero, so the x-velocity
lies between `vxInt` and `vxExt`. -/
theorem vxAt_mem_Icc {vxInt vxExt y : ℝ} (hv : vxInt ≤ vxExt) (hy : y ≠ 0.25) :
    vxAt Real.exp vxInt vxExt y ∈ Set.Icc vxInt vxExt := by
  have hexp (x : ℝ) (hx : x ≤ 0) :=
    profile_mem_Icc hv (Real.exp_pos x) (Real.exp_le_one_iff.2 hx)
  have hls : (0 : ℝ) ≤ 0.025 := by norm_num
  simp only [vxAt]
  split_ifs with hin hhi hlo
  · exact (hexp _ (div_nonpos_of_nonpos_of_nonneg (sub_nonpos.2 hin.1.le) hls)).1
  · exact (hexp _ (div_nonpos_of_nonpos_of_nonneg (sub_nonpos.2 hin.2.le) hls)).1
  · exact (hexp _ (div_nonpos_of_nonpos_of_nonneg (sub_nonpos.2 hlo.le) hls)).2
  · have hge : 0.75 ≤ y := by
      by_contra h
      exact hin ⟨lt_of_not_le h, lt_of_le_of_ne (not_lt.1 hlo) (Ne.symm hy)⟩
    exact (hexp _ (div_nonpos_of_nonpos_of_nonneg (sub_nonpos.2 hge) hls)).2

/-- At the seam `y = 0.25` neither layer test holds strictly, and the particle takes the formula
of the top of the outer layer, whose exponent is `+20`. -/
theorem vxAt_quarter (vxInt vxExt : ℝ) :
    vxAt Real.exp vxInt vxExt 0.25 = vxExt - 0.5 * (vxExt - vxInt) * Real.exp 20 := by
  have h20 : ((0.75 : ℝ) - 0.25) / 0.025 = 20 := by norm_num
  simp only [vxAt, h20]
  rw [if_neg (by norm_num), if_neg (lt_irrefl _)]

/-- So at the seam a sheared profile overshoots: the x-velocity is below `vxInt`. -/
theorem vxAt_quarter_lt {vxInt vxExt : ℝ} (hv : vxInt < vxExt) :
    vxAt Real.exp vxInt vxExt 0.25 < vxInt := by
  have h20 : 2 < Real.exp 20 := by linarith [Real.add_one_le_exp 20]
  rw [vxAt_quarter]
  linarith [mul_pos (sub_pos.2 hv) (sub_pos.2 h20)]

/-- With `KelvinHelmholtzConstants()`, a particle at `y = 0.25` gets
`vx = 0.5 - 0.5 exp 20`, below `vxInt = -0.5`. -/
theorem initKelvinHelmholtzFields_vx_at_quarter (sin cbrt : ℝ → ℝ) (rint : ℝ → Int)
    (pi : ℝ) (idealGasCv : ℝ → ℝ → ℝ) (muiConst alphamax massPart x z : ℝ) :
    ∃ r, initKelvinHelmholtzFields ⟨Real.exp, sin, cbrt, rint, pi⟩ idealGasCv muiConst alphamax
        kelvinHelmholtzConstants massPart [⟨x, 0.25, z⟩] = .ok r ∧
      ∀ F ∈ r.2, F.vx = 0.5 - 0.5 * Real.exp 20 ∧ F.vx < -0.5 := by
  refine ⟨_, initKelvinHelmholtzFields_eq readConstants_kelvinHelmholtzConstants _, ?_⟩
  simp only [List.map_cons, List.map_nil, List.mem_singleton, forall_eq]
  exact ⟨by rw [initParticle, vxAt_quarter]; norm_num, vxAt_quarter_lt (by norm_num)⟩

/-- On every map the initialiser can read with `vxInt ≤ vxExt`, every particle off the seam
`y = 0.25` gets an x-velocity between `vxInt` and `vxExt`. -/
theorem initKelvinHelmholtzFields_vx_mem_Icc (sin cbrt : ℝ → ℝ) (rint : ℝ → Int) (pi : ℝ)
    (idealGasCv : ℝ → ℝ → ℝ) (muiConst alphamax massPart : ℝ)
    (constants : List (String × ℝ)) (c : Constants ℝ) (hc : readConstants constants = .ok c)
    (hv : c.vxInt ≤ c.vxExt) (pos : List (Vec3 ℝ)) :
    ∃ r, initKelvinHelmholtzFields ⟨Real.exp, sin, cbrt, rint, pi⟩ idealGasCv muiConst alphamax
        constants massPart pos = .ok r ∧
      List.Forall₂ (fun P F => P.y ≠ 0.25 → F.vx ∈ Set.Icc c.vxInt c.vxExt) pos r.2 := by
  refine ⟨_, initKelvinHelmholtzFields_eq hc pos, ?_⟩
  rw [List.forall₂_map_right_iff, List.forall₂_same]
  exact fun P _ hy => vxAt_mem_Icc hv hy

/-- `KelvinHelmholtzConstants()` shear the layers, so their profile stays in `[-0.5, 0.5]`. -/
theorem kelvinHelmholtzConstants_vx_mem_Icc :
    ∃ r, initKelvinHelmholtzFields ⟨Real.exp, Real.sin, id, fun _ => 0, 3⟩ (fun _ _ => 1) 10 1
        kelvinHelmholtzConstants 1 [⟨0, 0.5, 0⟩] = .ok r ∧
      List.Forall₂ (fun (P : Vec3 ℝ) (F : ParticleFields ℝ) => P.y ≠ 0.25 → F.vx ∈ Set.Icc (-0.5) 0.5)
        [⟨0, 0.5, 0⟩] r.2 :=
  initKelvinHelmholtzFields_vx_mem_Icc _ _ _ _ _ _ _ _ _ _ readConstants_kelvinHelmholtzConstants
    (by norm_num) _

/-- The shear profile as a function of the distance `a = |y - 0.5|` from the mid-plane: the
outer formula from `a = 0.25` on, the inner one below. -/
def profileOfDistance (exp : T → T) (vxInt vxExt a : T) : T :=
  let vDif := 0.5 * (vxExt - vxInt)
  let ls : T := 0.025
  if 0.25 ≤ a then vxExt - vDif * exp ((0.25 - a) / ls) else vxInt + vDif * exp ((a - 0.25) / ls)

/-- Off the seam `y = 0.25` the four formulas of the loop body are the profile of the distance
from the mid-plane, whatever `exp` is. -/
theorem vxAt_eq_profileOfDistance {T : Type} [LinearOrderedField T] (exp : T → T)
    (vxInt vxExt : T) {y : T} (hy : y ≠ 0.25) :
    vxAt exp vxInt vxExt y = profileOfDistance exp vxInt vxExt |y - 0.5| := by
  simp only [vxAt, profileOfDistance]
  by_cases hin : y < 0.75 ∧ y > 0.25
  · have ha : ¬ 0.25 ≤ |y - 0.5| := not_le.2 (abs_sub_lt_iff.2
      ⟨sub_lt_iff_lt_add.2 (hin.1.trans_eq (by norm_num)),
        sub_lt_comm.1 ((show (0.5 : T) - 0.25 = 0.25 by norm_num).trans_lt hin.2)⟩)
    rw [if_pos hin, if_neg ha]
    by_cases hhi : y > 0.5
    · rw [if_pos hhi, abs_of_pos (sub_pos.2 hhi), show y - 0.5 - 0.25 = y - 0.75 by ring]
    · rw [if_neg hhi, abs_of_nonpos (sub_nonpos.2 (not_lt.1 hhi)),
        show -(y - 0.5) - 0.25 = 0.25 - y by ring]
  · rw [if_neg hin]
    by_cases hlo : y < 0.25
    · have habs : |y - 0.5| = 0.5 - y := by
        rw [abs_of_neg (sub_neg.2 (hlo.trans (by norm_num))), neg_sub]
      rw [if_pos hlo, habs, if_pos (le_sub_comm.1 (hlo.le.trans_eq (by norm_num))),
        show (0.25 : T) - (0.5 - y) = y - 0.25 by ring]
    · have hge : 0.75 ≤ y := by
        by_contra h
        exact hin ⟨lt_of_not_le h, lt_of_le_of_ne (not_lt.1 hlo) (Ne.symm hy)⟩
      have habs : |y - 0.5| = y - 0.5 :=
        abs_of_pos (sub_pos.2 ((by norm_num : (0.5 : T) < 0.75).trans_le hge))
      rw [if_neg hlo, habs,
        if_pos (le_sub_iff_add_le.2 ((show (0.25 : T) + 0.5 = 0.75 by norm_num).trans_le hge)),
        show (0.25 : T) - (y - 0.5) = 0.75 - y by ring]

/-- The two formulas meet at `a = 0.25`, so the profile of the distance is continuous. -/
theorem continuous_profileOfDistance (vxInt vxExt : ℝ) :
    Continuous fun y : ℝ => profileOfDistance Real.exp vxInt vxExt |y - 0.5| := by
  simp only [profileOfDistance]
  refine Continuous.if_le (by fun_prop) (by fun_prop) continuous_const (by fun_prop)
    fun y hy => ?_
  rw [← hy]
  norm_num
  ring

open Filter Topology in
/-- The x-velocity profile is continuous at every height but the seam `y = 0.25`; a sheared
profile jumps there, from `vxInt + vDif` on either side to `vxExt - vDif exp 20`. -/
theorem vxAt_continuousAt_iff {vxInt vxExt : ℝ} (hv : vxInt ≠ vxExt) (y : ℝ) :
    ContinuousAt (vxAt Real.exp vxInt vxExt) y ↔ y ≠ 0.25 := by
  have hcont := continuous_profileOfDistance vxInt vxExt
  constructor
  · rintro hc rfl
    have heq : (fun z => profileOfDistance Real.exp vxInt vxExt |z - 0.5|)
        =ᶠ[𝓝[≠] (0.25 : ℝ)] vxAt Real.exp vxInt vxExt :=
      eventually_nhdsWithin_of_forall fun z hz => (vxAt_eq_profileOfDistance _ _ _ hz).symm
    have hlim := tendsto_nhds_unique (hc.tendsto.mono_left nhdsWithin_le_nhds)
      ((hcont.continuousAt.tendsto.mono_left nhdsWithin_le_nhds).congr' heq)
    have ha : |(0.25 : ℝ) - 0.5| = 0.25 := by rw [abs_of_neg (by norm_num)]; norm_num
    have hmid : profileOfDistance Real.exp vxInt vxExt 0.25 = vxExt - 0.5 * (vxExt - vxInt) := by
      simp only [profileOfDistance, le_refl, if_true, sub_self, zero_div, Real.exp_zero, mul_one]
    rw [vxAt_quarter, ha, hmid, sub_right_inj, mul_right_eq_self₀, Real.exp_eq_one_iff] at hlim
    rcases hlim with h | h
    · norm_num at h
    · exact hv (sub_eq_zero.1 ((mul_eq_zero.1 h).resolve_left (by norm_num))).symm
  · intro hy
    refine hcont.continuousAt.congr ?_
    filter_upwards [compl_singleton_mem_nhds hy] with z hz
    exact (vxAt_eq_profileOfDistance _ _ _ hz).symm

/-- A profile between the layers' velocities `-0.5` and `0.5` jumps only at the seam. -/
theorem kelvinHelmholtzConstants_continuousAt_iff :
    (-0.5 : ℝ) ≠ 0.5 ∧ (ContinuousAt (vxAt Real.exp (-0.5) 0.5) 0.25 ↔ (0.25 : ℝ) ≠ 0.25) :=
  ⟨by norm_num, vxAt_continuousAt_iff (by norm_num) 0.25⟩

end Profile

end SphExa.KelvinHelmholtz
