import SphExa.KelvinHelmholtz.Fields

/-!
# The Kelvin-Helmholtz glass initialiser

`KelvinHelmholtzGlass::init` builds the three layers of the periodic box from a relaxed glass
block. Layer 1 is assembled at the outer resolution, stretched by `cbrt 2` to halve its
density and cropped back to the layer; each kept point is mirrored into layer 3. Layer 2 is
assembled at the inner resolution. The particle mass is fixed from the block size. The model
is over all ranks together: the ranks' SFC key ranges only split the same points among them.
-/

namespace SphExa.KelvinHelmholtz

/-- A box `cstone::Box<T>`; every box of the initialiser is periodic on every axis. -/
structure Box (T : Type) where
  /-- `xmin()`. -/
  xmin : T
  /-- `xmax()`. -/
  xmax : T
  /-- `ymin()`. -/
  ymin : T
  /-- `ymax()`. -/
  ymax : T
  /-- `zmin()`. -/
  zmin : T
  /-- `zmax()`. -/
  zmax : T
  deriving DecidableEq, Repr

/-- The result of `KelvinHelmholtzGlass::init`: the box it returns, the particles it places and
the fields `initKelvinHelmholtzFields` gives them. -/
structure GlassInit (T : Type) where
  /-- The box `init` returns. -/
  globalBox : Box T
  /-- The particles pushed onto `d.x`, `d.y`, `d.z`, in order. -/
  pos : List (Vec3 T)
  /-- The dataset's scalars set by `initKelvinHelmholtzFields`. -/
  scalars : Scalars T
  /-- Each particle's fields, in the order of `pos`. -/
  fields : List (ParticleFields T)

variable {T : Type} [LinearOrderedField T]

/-- The test of `inLayer1` for any box: `[xmin, xmax) × [ymin, ymax) × [zmin, zmax)`. -/
def Box.contains (b : Box T) (X : Vec3 T) : Bool :=
  decide (X.x ≥ b.xmin) && decide (X.x < b.xmax) && decide (X.y ≥ b.ymin) &&
    decide (X.y < b.ymax) && decide (X.z ≥ b.zmin) && decide (X.z < b.zmax)

@[simp] theorem Box.contains_iff {b : Box T} {X : Vec3 T} :
    b.contains X = true ↔ b.xmin ≤ X.x ∧ X.x < b.xmax ∧ b.ymin ≤ X.y ∧ X.y < b.ymax ∧
      b.zmin ≤ X.z ∧ X.z < b.zmax := by
  simp only [Box.contains, Bool.and_eq_true, decide_eq_true_eq, ge_iff_le, and_assoc]

/-- The volume of a box. -/
def Box.volume (b : Box T) : T := (b.xmax - b.xmin) * (b.ymax - b.ymin) * (b.zmax - b.zmin)

/-- Two points are one point of the periodic box `b`: they differ by whole periods. -/
def Box.periodicEq (b : Box T) (P Q : Vec3 T) : Prop :=
  ∃ i j k : Int, P.x = Q.x + i * (b.xmax - b.xmin) ∧ P.y = Q.y + j * (b.ymax - b.ymin) ∧
    P.z = Q.z + k * (b.zmax - b.zmin)

/-- `globalBox(0, 1, 0, 1, 0, 0.0625)`. -/
def globalBox : Box T := ⟨0, 1, 0, 1, 0, 0.0625⟩

/-- `layer1(0, 1, 0, 0.25, 0, 0.0625)`, the low-density bottom. -/
def layer1 : Box T := ⟨0, 1, 0, 0.25, 0, 0.0625⟩

/-- `layer2(0, 1, 0.25, 0.75, 0, 0.0625)`, the high-density middle. -/
def layer2 : Box T := ⟨0, 1, 0.25, 0.75, 0, 0.0625⟩

/-- `layer3(0, 1, 0.75, 1, 0, 0.0625)`, the low-density top. -/
def layer3 : Box T := ⟨0, 1, 0.75, 1, 0, 0.0625⟩

/-- `multi1D = rint(cbrtNumPart / cbrt(xBlock.size()))`. -/
def multi1D (cm : Cmath T) (cbrtNumPart blockSize : Nat) : Int :=
  cm.rint (cbrtNumPart / cm.cbrt blockSize)

/-- `innerMulti = {16 * multi1D, 8 * multi1D, multi1D}`. -/
def innerMulti (multi1D : Int) : Int × Int × Int := (16 * multi1D, 8 * multi1D, multi1D)

/-- `outerMulti = {16 * multi1D, 4 * multi1D, multi1D}`. -/
def outerMulti (multi1D : Int) : Int × Int × Int := (16 * multi1D, 4 * multi1D, multi1D)

/-- Modelled from the spec: `assembleCuboid` is not under src/. Over all ranks together it
places one copy of the template block per cell of the `multi` grid of the box `b`, each copy
scaled into its cell; each rank keeps the copies in its own SFC key range. -/
def assembleCuboid (b : Box T) (multi : Int × Int × Int) (block : List (Vec3 T)) :
    List (Vec3 T) :=
  (List.range multi.1.toNat).flatMap fun ix => (List.range multi.2.1.toNat).flatMap fun iy =>
    (List.range multi.2.2.toNat).flatMap fun iz => block.map fun P =>
      ⟨b.xmin + ((ix : T) + P.x) * (b.xmax - b.xmin) / (multi.1 : T),
        b.ymin + ((iy : T) + P.y) * (b.ymax - b.ymin) / (multi.2.1 : T),
        b.zmin + ((iz : T) + P.z) * (b.zmax - b.zmin) / (multi.2.2 : T)⟩

/-- `assembleCuboid` places one block per cell. -/
theorem length_assembleCuboid (b : Box T) (multi : Int × Int × Int) (block : List (Vec3 T)) :
    (assembleCuboid b multi block).length =
      multi.1.toNat * multi.2.1.toNat * multi.2.2.toNat * block.length := by
  simp only [assembleCuboid, List.length_flatMap, List.length_map, Function.comp_def,
    List.map_const', List.sum_replicate, List.length_range, smul_eq_mul, Nat.mul_assoc]

/-- `inLayer1`, the crop test of the layer-1 loop. -/
def inLayer1 (X : Vec3 T) : Bool := layer1.contains X

/-- The layer-3 image of a kept layer-1 point: `yLayer3 = -X[1] + topEdge`,
`topEdge = layer3.ymax()`. -/
def mirror (X : Vec3 T) : Vec3 T := ⟨X.x, -X.y + layer3.ymax, X.z⟩

/-- One iteration of the layer-1 loop: `X *= stretch`, and if `inLayer1` keeps `X`, push it and
its mirror. -/
def pushLayer1 (stretch : T) (P : Vec3 T) : List (Vec3 T) :=
  let X : Vec3 T := ⟨P.x * stretch, P.y * stretch, P.z * stretch⟩
  if inLayer1 X then [X, mirror X] else []

/-- The layer-1 loop: what it pushes onto `d.x`, `d.y`, `d.z` from the points assembled into
layer 1. -/
def stretchLayer1 (stretch : T) (pts : List (Vec3 T)) : List (Vec3 T) :=
  pts.flatMap (pushLayer1 stretch)

/-- `npartInner = 128 * xBlock.size()`. -/
def npartInner (blockSize : Nat) : Nat := 128 * blockSize

/-- `volumeHD = 0.5 * 0.0625`. -/
def volumeHD : T := 0.5 * 0.0625

/-- `particleMass = volumeHD * rhoInt / npartInner`. -/
def particleMass (rhoInt : T) (blockSize : Nat) : T := volumeHD * rhoInt / npartInner blockSize

/-- `KelvinHelmholtzGlass::init` over all ranks, from the template block. -/
def init (cm : Cmath T) (idealGasCv : T → T → T) (muiConst alphamax : T) (cbrtNumPart : Nat)
    (block : List (Vec3 T)) : Except Exception (GlassInit T) := do
  let m := multi1D cm cbrtNumPart block.length
  let x := assembleCuboid layer1 (outerMulti m) block
  let pos := stretchLayer1 (cm.cbrt 2) x ++ assembleCuboid layer2 (innerMulti m) block
  let rhoInt ← mapAt kelvinHelmholtzConstants "rhoInt"
  let (s, f) ← initKelvinHelmholtzFields cm idealGasCv muiConst alphamax
    kelvinHelmholtzConstants (particleMass rhoInt block.length) pos
  pure ⟨globalBox, pos, s, f⟩

/-- The spec of `init`: layer 1 and its mirror, then layer 2, every particle of mass
`particleMass 2 B`. -/
theorem init_eq (cm : Cmath T) (idealGasCv : T → T → T) (muiConst alphamax : T)
    (cbrtNumPart : Nat) (block : List (Vec3 T)) :
    init cm idealGasCv muiConst alphamax cbrtNumPart block =
      let m := multi1D cm cbrtNumPart block.length
      let pos := stretchLayer1 (cm.cbrt 2) (assembleCuboid layer1 (outerMulti m) block) ++
        assembleCuboid layer2 (innerMulti m) block
      .ok ⟨globalBox, pos, ⟨5 / 3, 0.4, 1e-7, 1e-7⟩,
        pos.map (initParticle cm (idealGasCv muiConst (5 / 3)) alphamax
          (particleMass 2 block.length) ⟨2, 1, 1e-7, 0.01, 5 / 3, 2.5, -0.5, 0.5, 0.4⟩)⟩ :=
  rfl

section Mass

/-- A one-point block at twice the resolution keeps the particle mass of one: layer 2 of the
constants' `rhoInt = 2` weighs `2 * 2 * 2` times `rhoInt` times its volume. -/
theorem particleMass_layer2_double_resolution :
    particleMass (2 : ℚ) 1 * (assembleCuboid layer2 (innerMulti 2) [(⟨0, 0, 0⟩ : Vec3 ℚ)]).length =
        8 * (2 * layer2.volume) ∧ 8 * (2 * layer2.volume) ≠ (2 * layer2.volume : ℚ) := by
  have hlen : (assembleCuboid layer2 (innerMulti 2) [(⟨0, 0, 0⟩ : Vec3 ℚ)]).length = 1024 := by
    rw [length_assembleCuboid]; rfl
  rw [hlen]
  norm_num [particleMass, npartInner, volumeHD, layer2, Box.volume]

end Mass

section Layers

/-- Every point the layer-1 loop pushes is a kept layer-1 point or its mirror. -/
theorem mem_stretchLayer1 {stretch : T} {pts : List (Vec3 T)} {Q : Vec3 T}
    (h : Q ∈ stretchLayer1 stretch pts) : ∃ X, layer1.contains X ∧ (Q = X ∨ Q = mirror X) := by
  obtain ⟨P, -, hQ⟩ := List.mem_flatMap.1 h
  simp only [pushLayer1, inLayer1] at hQ
  split_ifs at hQ with hX
  · exact ⟨_, hX, by simpa using hQ⟩
  · simp at hQ

/-- Mirroring twice is the identity: `topEdge - (topEdge - y) = y`. -/
@[simp] theorem mirror_mirror (X : Vec3 T) : mirror (mirror X) = X := by
  simp only [mirror, layer3, neg_add_rev, neg_neg]
  congr 1
  ring

/-- Mirroring a kept layer-1 point changes none of the fields the initialiser gives it: both
points are in the outer layer, at the same `x`, and at the same distance from the mid-plane. -/
theorem initParticle_mirror (cm : Cmath T) (cv alphamax massPart : T) (c : Constants T)
    {X : Vec3 T} (hX : layer1.contains X) :
    initParticle cm cv alphamax massPart c (mirror X) = initParticle cm cv alphamax massPart c X := by
  simp only [Box.contains_iff, layer1] at hX
  obtain ⟨-, -, -, hy1, -, -⟩ := hX
  have hmy : (mirror X).y = 1 - X.y := by simp only [mirror, layer3]; ring
  have hgt : 0.75 < (mirror X).y := hmy ▸ lt_sub_comm.1 (hy1.trans_eq (by norm_num))
  have hout : ¬ (X.y < 0.75 ∧ X.y > 0.25) := fun h => lt_asymm hy1 h.2
  have hout' : ¬ ((mirror X).y < 0.75 ∧ (mirror X).y > 0.25) := fun h => lt_asymm h.1 hgt
  have hvx : vxAt cm.exp c.vxInt c.vxExt (mirror X).y = vxAt cm.exp c.vxInt c.vxExt X.y := by
    rw [vxAt_eq_profileOfDistance _ _ _ ((show (0.25 : T) < 0.75 by norm_num).trans hgt).ne',
      vxAt_eq_profileOfDistance _ _ _ (ne_of_lt hy1), hmy, abs_sub_comm,
      show (0.5 : T) - (1 - X.y) = X.y - 0.5 by ring]
  simp only [initParticle, hvx, hout, hout', decide_False]
  rfl

/-- The layer-1 loop's particles are symmetric under the reflection `y ↦ 1 - y`: as a multiset
the pushed points are their own mirror images, and every pushed point and its mirror get the same
fields from the initialiser. -/
theorem stretchLayer1_reflection (cm : Cmath T) (cv alphamax massPart : T) (c : Constants T)
    (stretch : T) (pts : List (Vec3 T)) :
    ((stretchLayer1 stretch pts).map mirror).Perm (stretchLayer1 stretch pts) ∧
      ∀ X ∈ stretchLayer1 stretch pts,
        initParticle cm cv alphamax massPart c (mirror X) = initParticle cm cv alphamax massPart c X := by
  refine ⟨?_, fun X hX => ?_⟩
  · induction pts with
    | nil => rfl
    | cons P ps ih =>
      simp only [stretchLayer1, List.flatMap_cons, List.map_append] at ih ⊢
      refine List.Perm.append ?_ ih
      simp only [pushLayer1]
      split
      · simpa using List.Perm.swap _ _ []
      · rfl
  · obtain ⟨Y, hY, rfl | rfl⟩ := mem_stretchLayer1 hX
    · exact initParticle_mirror cm cv alphamax massPart c hY
    · rw [mirror_mirror]
      exact (initParticle_mirror cm cv alphamax massPart c hY).symm

/-- A glass point on the bottom face of layer 1 is pushed with its mirror `(0, 1, 0)`, which is
outside the half-open global box and is the periodic image of the point itself. -/
theorem stretchLayer1_mirror_on_seam (stretch : ℝ) :
    stretchLayer1 stretch [⟨0, 0, 0⟩] = [⟨0, 0, 0⟩, ⟨0, 1, 0⟩] ∧
      globalBox.contains (⟨0, 1, 0⟩ : Vec3 ℝ) = false ∧
      globalBox.periodicEq (⟨0, 1, 0⟩ : Vec3 ℝ) ⟨0, 0, 0⟩ := by
  refine ⟨?_, by simp [Box.contains, globalBox], 0, 1, 0, by norm_num [globalBox]⟩
  norm_num [stretchLayer1, pushLayer1, inLayer1, layer1, mirror, layer3]

end Layers

end SphExa.KelvinHelmholtz
