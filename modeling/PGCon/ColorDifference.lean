/-
# The colour differences

`ColorDifferenceUtil` has four formulas for the distance of two Lab colours, and the
colour filter compares one of them with its range. The two newer formulas divide and take
roots of what need not be positive at first sight: a difference of squares, a product
with the sign of a sine.

A `double` is a real number here, so that rounding is left out. What is kept is where a
`double` stops being a number: the root of a negative number and the quotient by zero are
`none`. For every two colours each formula has a value, not below zero, and zero from a
colour to itself only (`Separates`). The filter's range is an integer, so that of a
distance only the integer below it matters (`measured`), and the filter of
`PGCon/ColorPick.lean` with these distances covers exactly the pixels nearer than the
range.
-/
import Mathlib
import PGCon.ColorPick

namespace PGCon
namespace ColorDifferenceUtil

/-! ### Arithmetic -/

/-- `Math.sqrt`, which is not a number below zero. -/
noncomputable def sqrt (x : ℝ) : Option ℝ := if x < 0 then none else some (Real.sqrt x)

/-- A quotient, which is infinite or not a number at zero. -/
noncomputable def divide (x y : ℝ) : Option ℝ := if y = 0 then none else some (x / y)

/-- `Math.atan2`. -/
noncomputable def atan2 (y x : ℝ) : ℝ := Complex.arg ⟨x, y⟩

/-- `Math.toDegrees`. -/
noncomputable def toDegrees (x : ℝ) : ℝ := x * (180 / Real.pi)

/-- `Math.toRadians`. -/
noncomputable def toRadians (x : ℝ) : ℝ := x * (Real.pi / 180)

/-! ### The formulas -/

noncomputable def deltaECIE76 (l1 a1 b1 l2 a2 b2 : ℝ) : Option ℝ :=
  let p1 := l1 - l2
  let p2 := a1 - a2
  let p3 := b1 - b2
  sqrt (p1 * p1 + p2 * p2 + p3 * p3)

noncomputable def deltaECIE94With (l1 a1 b1 l2 a2 b2 KL KC KH K1 K2 : ℝ) : Option ℝ := do
  let deltaL := l1 - l2
  let deltaA := a1 - a2
  let deltaB := b1 - b2
  let C1 ← sqrt (a1 * a1 + b1 * b1)
  let C2 ← sqrt (a2 * a2 + b2 * b2)
  let deltaC := C1 - C2
  let deltaH := deltaA * deltaA + deltaB * deltaB - deltaC * deltaC
  let SL := 1
  let SC := 1 + K1 * C1
  let SH := 1 + K2 * C1
  let p1 ← divide deltaL (KL * SL)
  let p2 ← divide deltaC (KC * SC)
  let p3 ← divide 1 (KH * SH)
  sqrt (p1 * p1 + p2 * p2 + deltaH * p3 * p3)

noncomputable def deltaECIE94 (l1 a1 b1 l2 a2 b2 : ℝ) : Option ℝ :=
  deltaECIE94With l1 a1 b1 l2 a2 b2 1 1 1 0.045 0.015

/-- The root of `c⁷ / (c⁷ + 25⁷)`. -/
noncomputable def chromaShare (c : ℝ) : Option ℝ := do
  let p := c * c * c * c * c * c * c
  let q ← divide p (p + 6103515625)
  sqrt q

/-- An angle below zero, from the other side. -/
noncomputable def wholeTurn (h : ℝ) : ℝ := if h < 0 then h + 360 else h

/-- The angle of a colour, in degrees. -/
noncomputable def hue (b ap : ℝ) : ℝ := if ¬(b = 0 ∧ ap = 0) then wholeTurn (toDegrees (atan2 b ap)) else 0

/-- `deltahp`: from the first angle to the second, the shorter way round. -/
noncomputable def hueChange (C1p C2p h1p h2p : ℝ) : ℝ :=
  if C1p * C2p ≠ 0 then
    if |h2p - h1p| ≤ 180 then h2p - h1p
    else if h2p - h1p > 180 then h2p - h1p - 360
    else h2p - h1p + 360
  else 0

/-- `avghp`: the angle half way. -/
noncomputable def hueMean (C1p C2p h1p h2p : ℝ) : ℝ :=
  if C1p * C2p ≠ 0 then
    if |h1p - h2p| ≤ 180 then (h1p + h2p) / 2
    else if h1p + h2p < 360 then (h1p + h2p + 360) / 2
    else (h1p + h2p - 360) / 2
  else 0

/-- `T` of CIEDE2000. -/
noncomputable def hueScale (avghp : ℝ) : ℝ :=
  1 - 0.17 * Real.cos (toRadians (avghp - 30)) + 0.24 * Real.cos (toRadians (2 * avghp)) +
    0.32 * Real.cos (toRadians (3 * avghp + 6)) - 0.20 * Real.cos (toRadians (4 * avghp - 63))

/-- `SL` of CIEDE2000. -/
noncomputable def lightnessScale (avgLp : ℝ) : Option ℝ := do
  let p := avgLp - 50
  let root ← sqrt (20 + p * p)
  let q ← divide (0.015 * p * p) root
  some (1 + q)

noncomputable def deltaECIEDE2000 (l1 a1 b1 l2 a2 b2 : ℝ) : Option ℝ := do
  let C1 ← sqrt (a1 * a1 + b1 * b1)
  let C2 ← sqrt (a2 * a2 + b2 * b2)
  let avgC := (C1 + C2) / 2
  let share ← chromaShare avgC
  let G := 0.5 * (1 - share)
  let a1p := a1 * (1 + G)
  let a2p := a2 * (1 + G)
  let C1p ← sqrt (a1p * a1p + b1 * b1)
  let C2p ← sqrt (a2p * a2p + b2 * b2)
  let h1p := hue b1 a1p
  let h2p := hue b2 a2p
  let deltaLp := l2 - l1
  let deltaCp := C2p - C1p
  let deltahp := hueChange C1p C2p h1p h2p
  let Cp ← sqrt (C1p * C2p)
  let deltaHp := 2 * Cp * Real.sin (toRadians (deltahp / 2))
  let avgLp := (l1 + l2) / 2
  let avgCp := (C1p + C2p) / 2
  let avghp := hueMean C1p C2p h1p h2p
  let T := hueScale avghp
  let p := (avghp - 275) / 25
  let deltaTheta := 30 * Real.exp (-p * p)
  let share ← chromaShare avgCp
  let RC := 2 * share
  let SL ← lightnessScale avgLp
  let SC := 1 + 0.045 * avgCp
  let SH := 1 + 0.015 * avgCp * T
  let RT := -RC * Real.sin (toRadians (2 * deltaTheta))
  let KL := 1
  let KC := 1
  let KH := 1
  let p1 ← divide deltaLp (KL * SL)
  let p2 ← divide deltaCp (KC * SC)
  let p3 ← divide deltaHp (KH * SH)
  sqrt (p1 * p1 + p2 * p2 + p3 * p3 + RT * p2 * p3)

/-- `SL` of CMC. -/
noncomputable def lightnessWeight (l1 : ℝ) : Option ℝ :=
  if l1 ≥ 16 then divide (0.040975 * l1) (1 + 0.01765 * l1) else some 0.511

/-- `T` of CMC. -/
noncomputable def hueWeight (H1 : ℝ) : ℝ :=
  if H1 ≤ 345 ∧ H1 ≥ 164 then 0.56 + |0.2 * Real.cos (toRadians (H1 + 168))|
  else 0.36 + |0.4 * Real.cos (toRadians (H1 + 35))|

noncomputable def deltaECMCWith (l1 a1 b1 l2 a2 b2 lightness chroma : ℝ) : Option ℝ := do
  let C1 ← sqrt (a1 * a1 + b1 * b1)
  let C2 ← sqrt (a2 * a2 + b2 * b2)
  let deltaC := C1 - C2
  let deltaL := l1 - l2
  let deltaA := a1 - a2
  let deltaB := b1 - b2
  let deltaH := deltaA * deltaA + deltaB * deltaB - deltaC * deltaC
  let SL ← lightnessWeight l1
  let q ← divide (0.0638 * C1) (1 + 0.0131 * C1)
  let SC := q + 0.638
  let H := toDegrees (atan2 b1 a1)
  let H1 := wholeTurn H
  let p := C1 * C1 * C1 * C1
  let q ← divide p (p + 1900)
  let F ← sqrt q
  let T := hueWeight H1
  let SH := SC * (F * T + 1 - F)
  let p1 ← divide deltaL (lightness * SL)
  let p2 ← divide deltaC (chroma * SC)
  let p3 ← divide 1 SH
  sqrt (p1 * p1 + p2 * p2 + deltaH * p3 * p3)

noncomputable def deltaECMC (l1 a1 b1 l2 a2 b2 : ℝ) : Option ℝ :=
  deltaECMCWith l1 a1 b1 l2 a2 b2 1 1

/-! ### Roots and quotients -/

/-- A number, not below zero, and zero if and only if the two are the same. -/
def Separates (d : Option ℝ) (same : Prop) : Prop := ∃ x, d = some x ∧ 0 ≤ x ∧ (x = 0 ↔ same)

theorem Separates.congr {d : Option ℝ} {p q : Prop} (h : Separates d p) (hpq : p ↔ q) : Separates d q := by
  obtain ⟨x, hx, hpos, hzero⟩ := h
  exact ⟨x, hx, hpos, hzero.trans hpq⟩

theorem sqrt_of_nonneg {x : ℝ} (h : 0 ≤ x) : sqrt x = some (Real.sqrt x) := if_neg (not_lt.mpr h)

theorem divide_of_ne {x y : ℝ} (h : y ≠ 0) : divide x y = some (x / y) := if_neg h

/-- The root of a radicand that is not below zero. -/
theorem separates_sqrt {x : ℝ} {same : Prop} (h : 0 ≤ x) (hzero : x = 0 ↔ same) : Separates (sqrt x) same := by
  refine ⟨Real.sqrt x, sqrt_of_nonneg h, Real.sqrt_nonneg x, ?_⟩
  rw [Real.sqrt_eq_zero h, hzero]

theorem squares_nonneg (x y : ℝ) : 0 ≤ x * x + y * y := add_nonneg (mul_self_nonneg x) (mul_self_nonneg y)

theorem squares_eq_zero {x y : ℝ} : x * x + y * y = 0 ↔ x = 0 ∧ y = 0 := by
  rw [add_eq_zero_iff_of_nonneg (mul_self_nonneg x) (mul_self_nonneg y), mul_self_eq_zero, mul_self_eq_zero]

/-- The root of a sum of squares is the absolute value of a complex number. -/
theorem sqrt_chroma (a b : ℝ) : sqrt (a * a + b * b) = some ‖(⟨a, b⟩ : ℂ)‖ := by
  rw [sqrt_of_nonneg (squares_nonneg a b), Complex.norm_def, Complex.normSq_mk]

/-- `deltaH` of the older formulas: the chroma changes by no more than the colour does. -/
theorem chroma_sub_le (a1 b1 a2 b2 : ℝ) :
    (‖(⟨a1, b1⟩ : ℂ)‖ - ‖(⟨a2, b2⟩ : ℂ)‖) * (‖(⟨a1, b1⟩ : ℂ)‖ - ‖(⟨a2, b2⟩ : ℂ)‖) ≤
      (a1 - a2) * (a1 - a2) + (b1 - b2) * (b1 - b2) := by
  have habs := abs_norm_sub_norm_le (⟨a1, b1⟩ : ℂ) ⟨a2, b2⟩
  have hnorm : ‖(⟨a1, b1⟩ : ℂ) - ⟨a2, b2⟩‖ ^ 2 = (a1 - a2) * (a1 - a2) + (b1 - b2) * (b1 - b2) := by
    rw [Complex.sq_norm, Complex.normSq_apply]
    rfl
  calc _ = |‖(⟨a1, b1⟩ : ℂ)‖ - ‖(⟨a2, b2⟩ : ℂ)‖| ^ 2 := by rw [sq_abs, sq]
    _ ≤ ‖(⟨a1, b1⟩ : ℂ) - ⟨a2, b2⟩‖ ^ 2 := pow_le_pow_left₀ (abs_nonneg _) habs 2
    _ = _ := hnorm

/-- The root of a proper fraction is a proper fraction. -/
theorem share_spec {p q : ℝ} (hp : 0 ≤ p) (hq : 0 < q) :
    ∃ F, (divide p (p + q)).bind sqrt = some F ∧ 0 ≤ F ∧ F < 1 := by
  have hden : 0 < p + q := by positivity
  have hfrac : p / (p + q) < 1 := (div_lt_one hden).mpr (lt_add_of_pos_right p hq)
  refine ⟨Real.sqrt (p / (p + q)), ?_, Real.sqrt_nonneg _, ?_⟩
  · rw [divide_of_ne hden.ne', Option.bind_some, sqrt_of_nonneg (by positivity)]
  · rw [Real.sqrt_lt' one_pos, one_pow]
    exact hfrac

/-! ### The older formulas -/

theorem deltaECIE76_separates (l1 a1 b1 l2 a2 b2 : ℝ) :
    Separates (deltaECIE76 l1 a1 b1 l2 a2 b2) (l1 = l2 ∧ a1 = a2 ∧ b1 = b2) := by
  refine separates_sqrt (add_nonneg (squares_nonneg _ _) (mul_self_nonneg _)) ?_
  rw [add_eq_zero_iff_of_nonneg (squares_nonneg _ _) (mul_self_nonneg _), squares_eq_zero, mul_self_eq_zero, and_assoc]
  simp only [sub_eq_zero]

/-- The root that CIE94 and CMC end with: `deltaH` stands for a square, and has not been
divided yet. -/
theorem separates_weighted {l1 a1 b1 l2 a2 b2 deltaC SL SC SH : ℝ}
    (hdeltaC : deltaC = ‖(⟨a1, b1⟩ : ℂ)‖ - ‖(⟨a2, b2⟩ : ℂ)‖) (hSL : 0 < SL) (hSC : 0 < SC) (hSH : 0 < SH) :
    Separates
      (sqrt ((l1 - l2) / SL * ((l1 - l2) / SL) + deltaC / SC * (deltaC / SC) +
        ((a1 - a2) * (a1 - a2) + (b1 - b2) * (b1 - b2) - deltaC * deltaC) * (1 / SH) * (1 / SH)))
      (l1 = l2 ∧ a1 = a2 ∧ b1 = b2) := by
  have hle : deltaC * deltaC ≤ (a1 - a2) * (a1 - a2) + (b1 - b2) * (b1 - b2) := by
    rw [hdeltaC]
    exact chroma_sub_le a1 b1 a2 b2
  have hinv : 0 < 1 / SH := one_div_pos.mpr hSH
  have hthird : 0 ≤ ((a1 - a2) * (a1 - a2) + (b1 - b2) * (b1 - b2) - deltaC * deltaC) * (1 / SH) * (1 / SH) :=
    mul_nonneg (mul_nonneg (sub_nonneg.mpr hle) hinv.le) hinv.le
  refine separates_sqrt (add_nonneg (squares_nonneg _ _) hthird) ?_
  rw [add_eq_zero_iff_of_nonneg (squares_nonneg _ _) hthird, squares_eq_zero]
  simp only [mul_eq_zero, div_eq_zero_iff, hSL.ne', hSC.ne', hinv.ne', or_false, sub_eq_zero]
  constructor
  · rintro ⟨⟨hl, hC⟩, hsquares⟩
    -- without a change of chroma, `deltaH` is the whole change
    rw [hC, mul_zero] at hsquares
    have hboth := squares_eq_zero.mp hsquares
    exact ⟨hl, sub_eq_zero.mp hboth.1, sub_eq_zero.mp hboth.2⟩
  · rintro ⟨rfl, rfl, rfl⟩
    simp [hdeltaC]

theorem deltaECIE94_separates (l1 a1 b1 l2 a2 b2 : ℝ) :
    Separates (deltaECIE94 l1 a1 b1 l2 a2 b2) (l1 = l2 ∧ a1 = a2 ∧ b1 = b2) := by
  have hC := norm_nonneg (⟨a1, b1⟩ : ℂ)
  have hSL : (0 : ℝ) < 1 * 1 := by norm_num
  have hSC : 0 < 1 * (1 + 0.045 * ‖(⟨a1, b1⟩ : ℂ)‖) := by positivity
  have hSH : 0 < 1 * (1 + 0.015 * ‖(⟨a1, b1⟩ : ℂ)‖) := by positivity
  simp only [deltaECIE94, deltaECIE94With, sqrt_chroma, Option.bind_eq_bind, Option.bind_some, divide_of_ne hSL.ne',
    divide_of_ne hSC.ne', divide_of_ne hSH.ne']
  exact separates_weighted rfl hSL hSC hSH

theorem lightnessWeight_spec (l1 : ℝ) : ∃ SL, lightnessWeight l1 = some SL ∧ 0 < SL := by
  by_cases h : l1 ≥ 16
  · have hl : 0 < l1 := by linarith
    have hden : 0 < 1 + 0.01765 * l1 := by positivity
    exact ⟨_, by rw [lightnessWeight, if_pos h, divide_of_ne hden.ne'], by positivity⟩
  · exact ⟨_, if_neg h, by norm_num⟩

theorem hueWeight_pos (H1 : ℝ) : 0 < hueWeight H1 := by
  unfold hueWeight
  split <;> positivity

theorem deltaECMC_separates (l1 a1 b1 l2 a2 b2 : ℝ) :
    Separates (deltaECMC l1 a1 b1 l2 a2 b2) (l1 = l2 ∧ a1 = a2 ∧ b1 = b2) := by
  have hC := norm_nonneg (⟨a1, b1⟩ : ℂ)
  have hden : 1 + 0.0131 * ‖(⟨a1, b1⟩ : ℂ)‖ ≠ 0 := by positivity
  obtain ⟨SL, hSL, hSLpos⟩ := lightnessWeight_spec l1
  have hp : 0 ≤ ‖(⟨a1, b1⟩ : ℂ)‖ * ‖(⟨a1, b1⟩ : ℂ)‖ * ‖(⟨a1, b1⟩ : ℂ)‖ * ‖(⟨a1, b1⟩ : ℂ)‖ := by positivity
  obtain ⟨F, hF, hF0, hF1⟩ := share_spec hp (q := 1900) (by norm_num)
  obtain ⟨q, hq, hF⟩ := Option.bind_eq_some_iff.mp hF
  have hSC : 0 < 0.0638 * ‖(⟨a1, b1⟩ : ℂ)‖ / (1 + 0.0131 * ‖(⟨a1, b1⟩ : ℂ)‖) + 0.638 := by positivity
  have hT := hueWeight_pos (wholeTurn (toDegrees (atan2 b1 a1)))
  simp only [deltaECMC, deltaECMCWith, sqrt_chroma, Option.bind_eq_bind, Option.bind_some, hSL, divide_of_ne hden,
    hq, hF]
  generalize hueWeight (wholeTurn (toDegrees (atan2 b1 a1))) = T at hT ⊢
  generalize 0.0638 * ‖(⟨a1, b1⟩ : ℂ)‖ / (1 + 0.0131 * ‖(⟨a1, b1⟩ : ℂ)‖) + 0.638 = SC at hSC ⊢
  have hSH : 0 < SC * (F * T + 1 - F) := mul_pos hSC (by nlinarith)
  have hSL' : 0 < 1 * SL := by linarith
  have hSC' : 0 < 1 * SC := by linarith
  rw [divide_of_ne hSL'.ne', Option.bind_some, divide_of_ne hSC'.ne', Option.bind_some, divide_of_ne hSH.ne',
    Option.bind_some]
  exact separates_weighted rfl hSL' hSC' hSH

/-! ### CIEDE2000 -/

theorem toDegrees_arg (z : ℂ) : -180 < toDegrees z.arg ∧ toDegrees z.arg ≤ 180 := by
  have hpi := Real.pi_pos
  have hlow := Complex.neg_pi_lt_arg z
  have hhigh := Complex.arg_le_pi z
  have hscale : Real.pi * (180 / Real.pi) = 180 := mul_div_cancel₀ 180 hpi.ne'
  have hpos : 0 < 180 / Real.pi := by positivity
  unfold toDegrees
  constructor <;> nlinarith

/-- Where there is no angle, `atan2` is zero as well. -/
theorem hue_eq (b ap : ℝ) : hue b ap = wholeTurn (toDegrees (Complex.arg ⟨ap, b⟩)) := by
  unfold hue
  split
  · rfl
  · rename_i h
    obtain ⟨rfl, rfl⟩ := not_not.mp h
    have hzero : (⟨0, 0⟩ : ℂ) = 0 := rfl
    simp [hzero, wholeTurn, toDegrees]

theorem hue_range (b ap : ℝ) : 0 ≤ hue b ap ∧ hue b ap < 360 := by
  obtain ⟨hlow, hhigh⟩ := toDegrees_arg ⟨ap, b⟩
  rw [hue_eq, wholeTurn]
  split <;> constructor <;> linarith

theorem arg_eq_of_hue_eq {b1 a1 b2 a2 : ℝ} (h : hue b1 a1 = hue b2 a2) :
    Complex.arg ⟨a1, b1⟩ = Complex.arg ⟨a2, b2⟩ := by
  have hdegrees : toDegrees (Complex.arg ⟨a1, b1⟩) = toDegrees (Complex.arg ⟨a2, b2⟩) := by
    obtain ⟨hlow1, hhigh1⟩ := toDegrees_arg ⟨a1, b1⟩
    obtain ⟨hlow2, hhigh2⟩ := toDegrees_arg ⟨a2, b2⟩
    rw [hue_eq, hue_eq, wholeTurn, wholeTurn] at h
    split at h <;> split at h <;> linarith
  exact mul_right_cancel₀ (by positivity) hdegrees

theorem abs_hueChange_le {C1p C2p h1p h2p : ℝ} (h1 : 0 ≤ h1p ∧ h1p < 360) (h2 : 0 ≤ h2p ∧ h2p < 360) :
    |hueChange C1p C2p h1p h2p| ≤ 180 := by
  unfold hueChange
  split
  · split
    · assumption
    · rename_i hfar
      split
      · exact abs_le.mpr ⟨by linarith, by linarith⟩
      · have hneg : h2p - h1p < -180 := by
          by_contra hge
          exact hfar (abs_le.mpr ⟨by linarith, by linarith⟩)
        exact abs_le.mpr ⟨by linarith, by linarith⟩
  · norm_num

/-- The way round is none for equal angles only. -/
theorem hueChange_eq_zero {C1p C2p h1p h2p : ℝ} (hC : C1p * C2p ≠ 0) (h1 : 0 ≤ h1p ∧ h1p < 360)
    (h2 : 0 ≤ h2p ∧ h2p < 360) (h : hueChange C1p C2p h1p h2p = 0) : h1p = h2p := by
  rw [hueChange, if_pos hC] at h
  split at h
  · linarith
  · split at h <;> linarith

/-- Half a way of at most 180 degrees has a sine of zero only if it is none. -/
theorem sin_half_eq_zero {d : ℝ} (hd : |d| ≤ 180) (h : Real.sin (toRadians (d / 2)) = 0) : d = 0 := by
  have hpi := Real.pi_pos
  obtain ⟨hlow, hhigh⟩ := abs_le.mp hd
  have hzero : toRadians (d / 2) = 0 := by
    refine (Real.sin_eq_zero_iff_of_lt_of_lt ?_ ?_).mp h <;> unfold toRadians <;> nlinarith
  unfold toRadians at hzero
  have hscale : Real.pi / 180 ≠ 0 := by positivity
  linarith [(mul_eq_zero.mp hzero).resolve_right hscale]

/-- The changes of chroma and of hue tell colours apart. -/
theorem polar_eq_iff (a1 b1 a2 b2 : ℝ) :
    (‖(⟨a2, b2⟩ : ℂ)‖ - ‖(⟨a1, b1⟩ : ℂ)‖ = 0 ∧
      2 * Real.sqrt (‖(⟨a1, b1⟩ : ℂ)‖ * ‖(⟨a2, b2⟩ : ℂ)‖) *
        Real.sin (toRadians (hueChange ‖(⟨a1, b1⟩ : ℂ)‖ ‖(⟨a2, b2⟩ : ℂ)‖ (hue b1 a1) (hue b2 a2) / 2)) = 0) ↔
      a1 = a2 ∧ b1 = b2 := by
  constructor
  · rintro ⟨hnorm, hhue⟩
    rw [sub_eq_zero] at hnorm
    suffices h : (⟨a1, b1⟩ : ℂ) = ⟨a2, b2⟩ from Complex.mk.injEq .. ▸ h
    by_cases hC : ‖(⟨a1, b1⟩ : ℂ)‖ * ‖(⟨a2, b2⟩ : ℂ)‖ = 0
    · -- both are the origin
      rw [hnorm] at hC
      have h1 := mul_self_eq_zero.mp hC
      exact (norm_eq_zero.mp h1).trans (norm_eq_zero.mp (hnorm.trans h1)).symm
    · have hpos : 0 < ‖(⟨a1, b1⟩ : ℂ)‖ * ‖(⟨a2, b2⟩ : ℂ)‖ := lt_of_le_of_ne (by positivity) (Ne.symm hC)
      have hroot : 2 * Real.sqrt (‖(⟨a1, b1⟩ : ℂ)‖ * ‖(⟨a2, b2⟩ : ℂ)‖) ≠ 0 :=
        mul_ne_zero two_ne_zero (Real.sqrt_pos.mpr hpos).ne'
      have hsin := (mul_eq_zero.mp hhue).resolve_left hroot
      have hchange := sin_half_eq_zero (abs_hueChange_le (hue_range b1 a1) (hue_range b2 a2)) hsin
      have hangle := hueChange_eq_zero hC (hue_range b1 a1) (hue_range b2 a2) hchange
      exact Complex.ext_norm_arg hnorm.symm (arg_eq_of_hue_eq hangle)
  · rintro ⟨rfl, rfl⟩
    simp [hueChange, toRadians]

theorem chromaShare_spec {c : ℝ} (hc : 0 ≤ c) : ∃ r, chromaShare c = some r ∧ 0 ≤ r ∧ r < 1 := by
  have hp : 0 ≤ c * c * c * c * c * c * c := by positivity
  exact share_spec hp (by norm_num)

/-- The root that CIEDE2000 ends with: the mixed term is less than twice a product, so that
the squares outweigh it. -/
theorem separates_rotated {p1 p2 p3 RT : ℝ} (hRT : |RT| < 2) :
    Separates (sqrt (p1 * p1 + p2 * p2 + p3 * p3 + RT * p2 * p3)) (p1 = 0 ∧ p2 = 0 ∧ p3 = 0) := by
  obtain ⟨hlow, hhigh⟩ := abs_lt.mp hRT
  have hrest : 0 < 1 - RT / 2 * (RT / 2) := by nlinarith
  have hsquares : p1 * p1 + p2 * p2 + p3 * p3 + RT * p2 * p3 =
      p1 * p1 + (p2 + RT / 2 * p3) * (p2 + RT / 2 * p3) + (1 - RT / 2 * (RT / 2)) * (p3 * p3) := by ring
  have hlast : 0 ≤ (1 - RT / 2 * (RT / 2)) * (p3 * p3) := mul_nonneg hrest.le (mul_self_nonneg p3)
  rw [hsquares]
  refine separates_sqrt (add_nonneg (squares_nonneg _ _) hlast) ?_
  rw [add_eq_zero_iff_of_nonneg (squares_nonneg _ _) hlast, squares_eq_zero, mul_eq_zero, mul_self_eq_zero]
  constructor
  · rintro ⟨⟨h1, h2⟩, h3⟩
    have h3 := h3.resolve_left hrest.ne'
    rw [h3, mul_zero, add_zero] at h2
    exact ⟨h1, h2, h3⟩
  · rintro ⟨rfl, rfl, rfl⟩
    simp

/-- `T` is at least 0.07. -/
theorem hueScale_pos (avghp : ℝ) : 0 < hueScale avghp := by
  unfold hueScale
  linarith [Real.cos_le_one (toRadians (avghp - 30)), Real.neg_one_le_cos (toRadians (2 * avghp)),
    Real.neg_one_le_cos (toRadians (3 * avghp + 6)), Real.cos_le_one (toRadians (4 * avghp - 63))]

theorem lightnessScale_spec (avgLp : ℝ) : ∃ SL, lightnessScale avgLp = some SL ∧ 0 < SL := by
  have hsquare := mul_self_nonneg (avgLp - 50)
  have hsum : 0 < 20 + (avgLp - 50) * (avgLp - 50) := by linarith
  have hroot := Real.sqrt_pos.mpr hsum
  have hfrac : 0 ≤ 0.015 * (avgLp - 50) * (avgLp - 50) / Real.sqrt (20 + (avgLp - 50) * (avgLp - 50)) :=
    div_nonneg (by nlinarith) hroot.le
  simp only [lightnessScale, sqrt_of_nonneg hsum.le, divide_of_ne hroot.ne', Option.bind_eq_bind, Option.bind_some]
  exact ⟨_, rfl, by linarith⟩

/-- `RT` is less than 2: `RC` is, and the sine at most 1. -/
theorem abs_rotation_lt {share : ℝ} (h0 : 0 ≤ share) (h1 : share < 1) (x : ℝ) : |-(2 * share) * Real.sin x| < 2 := by
  calc |-(2 * share) * Real.sin x| = 2 * share * |Real.sin x| := by
        rw [abs_mul, abs_neg, abs_of_nonneg (by positivity)]
    _ ≤ 2 * share * 1 := mul_le_mul_of_nonneg_left (Real.abs_sin_le_one x) (by positivity)
    _ < 2 := by linarith

theorem deltaECIEDE2000_separates (l1 a1 b1 l2 a2 b2 : ℝ) :
    Separates (deltaECIEDE2000 l1 a1 b1 l2 a2 b2) (l1 = l2 ∧ a1 = a2 ∧ b1 = b2) := by
  obtain ⟨r, hr, hr0, hr1⟩ := chromaShare_spec (c := (‖(⟨a1, b1⟩ : ℂ)‖ + ‖(⟨a2, b2⟩ : ℂ)‖) / 2) (by positivity)
  obtain ⟨SL, hSL, hSLpos⟩ := lightnessScale_spec ((l1 + l2) / 2)
  simp only [deltaECIEDE2000, sqrt_chroma, Option.bind_eq_bind, Option.bind_some, hr, hSL]
  have hG : 1 + 0.5 * (1 - r) ≠ 0 := by linarith
  have hsame : a1 * (1 + 0.5 * (1 - r)) = a2 * (1 + 0.5 * (1 - r)) ↔ a1 = a2 := mul_left_inj' hG
  generalize a1 * (1 + 0.5 * (1 - r)) = a1p at hsame ⊢
  generalize a2 * (1 + 0.5 * (1 - r)) = a2p at hsame ⊢
  have hpolar := polar_eq_iff a1p b1 a2p b2
  have hC : 0 ≤ (‖(⟨a1p, b1⟩ : ℂ)‖ + ‖(⟨a2p, b2⟩ : ℂ)‖) / 2 := by positivity
  obtain ⟨share, hshare, hshare0, hshare1⟩ := chromaShare_spec hC
  have hT := hueScale_pos (hueMean ‖(⟨a1p, b1⟩ : ℂ)‖ ‖(⟨a2p, b2⟩ : ℂ)‖ (hue b1 a1p) (hue b2 a2p))
  have hSC : 0 < 1 * (1 + 0.045 * ((‖(⟨a1p, b1⟩ : ℂ)‖ + ‖(⟨a2p, b2⟩ : ℂ)‖) / 2)) := by positivity
  have hSH : 0 < 1 * (1 + 0.015 * ((‖(⟨a1p, b1⟩ : ℂ)‖ + ‖(⟨a2p, b2⟩ : ℂ)‖) / 2) *
      hueScale (hueMean ‖(⟨a1p, b1⟩ : ℂ)‖ ‖(⟨a2p, b2⟩ : ℂ)‖ (hue b1 a1p) (hue b2 a2p))) := by positivity
  have hSL' : 0 < 1 * SL := by linarith
  rw [sqrt_of_nonneg (by positivity), Option.bind_some, hshare, Option.bind_some, divide_of_ne hSL'.ne',
    Option.bind_some, divide_of_ne hSC.ne', Option.bind_some, divide_of_ne hSH.ne', Option.bind_some]
  refine (separates_rotated (abs_rotation_lt hshare0 hshare1 _)).congr ?_
  simp only [div_eq_zero_iff, hSL'.ne', hSC.ne', hSH.ne', or_false]
  rw [hpolar, hsame, sub_eq_zero, eq_comm (a := l2)]

end ColorDifferenceUtil

/-! ### The colour filter -/

namespace ColorPick

open Raster Pictures ColorPickFilterPreProcessor ColorDifferenceUtil

/-- `Byte.toUnsignedInt`. -/
def toUnsignedInt (b : BitVec 8) : ℝ := b.toNat

/-- `Byte.toUnsignedInt(lab[k])`; the array has three elements. -/
def unsignedAt (lab : Fin 3 → BitVec 8) (k : ℕ) : ℝ := if h : k < 3 then toUnsignedInt (lab ⟨k, h⟩) else 0

/-- The distance of a pixel from the target, with the target for the first colour. The
bytes are those of OpenCV's 8-bit Lab, not moved back to where a grey is at the origin. -/
noncomputable def labDifference (pickType : PickType) (matLab targetLab : Fin 3 → BitVec 8) : Option ℝ :=
  match pickType with
  | .CMC => deltaECMC (unsignedAt targetLab 0) (unsignedAt targetLab 1) (unsignedAt targetLab 2)
      (unsignedAt matLab 0) (unsignedAt matLab 1) (unsignedAt matLab 2)
  | .CIE94 => deltaECIE94 (unsignedAt targetLab 0) (unsignedAt targetLab 1) (unsignedAt targetLab 2)
      (unsignedAt matLab 0) (unsignedAt matLab 1) (unsignedAt matLab 2)
  | .CIEDE2000 => deltaECIEDE2000 (unsignedAt targetLab 0) (unsignedAt targetLab 1) (unsignedAt targetLab 2)
      (unsignedAt matLab 0) (unsignedAt matLab 1) (unsignedAt matLab 2)
  | .CIE76 => deltaECIE76 (unsignedAt targetLab 0) (unsignedAt targetLab 1) (unsignedAt targetLab 2)
      (unsignedAt matLab 0) (unsignedAt matLab 1) (unsignedAt matLab 2)

theorem toUnsignedInt_inj {b c : BitVec 8} : toUnsignedInt b = toUnsignedInt c ↔ b = c := by
  rw [toUnsignedInt, toUnsignedInt, Nat.cast_inj, BitVec.toNat_inj]

theorem lab_eq_iff (x y : Fin 3 → BitVec 8) :
    (unsignedAt y 0 = unsignedAt x 0 ∧ unsignedAt y 1 = unsignedAt x 1 ∧ unsignedAt y 2 = unsignedAt x 2) ↔
      x = y := by
  constructor
  · rintro ⟨h0, h1, h2⟩
    funext k
    fin_cases k
    · exact (toUnsignedInt_inj.mp h0).symm
    · exact (toUnsignedInt_inj.mp h1).symm
    · exact (toUnsignedInt_inj.mp h2).symm
  · rintro rfl
    exact ⟨rfl, rfl, rfl⟩

theorem labDifference_separates (pickType : PickType) (matLab targetLab : Fin 3 → BitVec 8) :
    Separates (labDifference pickType matLab targetLab) (matLab = targetLab) := by
  refine Separates.congr ?_ (lab_eq_iff matLab targetLab)
  cases pickType with
  | CMC => exact deltaECMC_separates _ _ _ _ _ _
  | CIE94 => exact deltaECIE94_separates _ _ _ _ _ _
  | CIEDE2000 => exact deltaECIEDE2000_separates _ _ _ _ _ _
  | CIE76 => exact deltaECIE76_separates _ _ _ _ _ _

/-- The pixel functions with the distances of `ColorDifferenceUtil`. They are compared with
integers only, and stand here as the integers below them. -/
noncomputable def measured (f : PixelFunctions) : PixelFunctions :=
  { f with
    distance := fun pickType targetLab matLab => ⌊(labDifference pickType matLab targetLab).getD 0⌋
    distance_nonneg := fun pickType targetLab matLab => by
      obtain ⟨d, hd, hpos, -⟩ := labDifference_separates pickType matLab targetLab
      rw [hd]
      exact_mod_cast Int.floor_nonneg.mpr hpos }

theorem measured_distance {pickType : PickType} {matLab targetLab : Fin 3 → BitVec 8} {d : ℝ} (f : PixelFunctions)
    (h : labDifference pickType matLab targetLab = some d) : (measured f).distance pickType targetLab matLab = ⌊d⌋ := by
  change ((⌊(labDifference pickType matLab targetLab).getD 0⌋ : ℤ) : ℚ) = ⌊d⌋
  rw [h, Option.getD_some]

/-- Nothing is lost below an integer range. -/
theorem measured_lt_iff {pickType : PickType} {matLab targetLab : Fin 3 → BitVec 8} {d : ℝ} (f : PixelFunctions)
    (h : labDifference pickType matLab targetLab = some d) (range : ℤ) :
    (measured f).distance pickType targetLab matLab < range ↔ d < range := by
  rw [measured_distance f h, Int.cast_lt, Int.floor_lt]

theorem labConversion_measured {f : PixelFunctions} {Lab : RGB → Fin 3 → BitVec 8} (h : LabConversion f Lab) :
    LabConversion (measured f) Lab where
  rgb := h.rgb
  bgr := h.bgr
  gray := h.gray
  colour := h.colour
  distance_self pickType x := by
    obtain ⟨d, hd, -, hzero⟩ := labDifference_separates pickType x x
    rw [measured_distance f hd, hzero.mpr rfl, Int.floor_zero, Int.cast_zero]

/-- A pixel at this distance from the target is to be covered. -/
def ToCover (config : ColorPickFilterPreProcessorConfig) (d : ℝ) : Prop :=
  d < getRange config ↔ config.inverse = false

theorem isPicked_measured {pickType : PickType} {Lab : RGB → Fin 3 → BitVec 8} {t : RGB} {p : Fin 3 → BitVec 8} {d : ℝ}
    (f : PixelFunctions) (config : ColorPickFilterPreProcessorConfig)
    (h : labDifference pickType (Lab (.ofPixel p)) (Lab t) = some d) :
    isPicked (measured f) Lab config pickType t p = true ↔ ToCover config d := by
  have hlt := measured_lt_iff f h (getRange config)
  unfold isPicked ToCover
  cases config.inverse <;> simp [hlt]

/-- For any enabled configuration and on every Mat of three channels, each pixel's
difference from the target is a number, and the filter covers the pixels whose number is
below the range (the others, if inverse) and leaves the rest. -/
theorem near_covered {f : PixelFunctions} {Lab : RGB → Fin 3 → BitVec 8} (hlab : LabConversion f Lab)
    (config : ColorPickFilterPreProcessorConfig) (color : Color) (pickType : PickType) (henable : config.enable = true)
    (htarget : config.targetColor = some color) (hpick : config.pickType = some pickType)
    (data top left rows cols : ℕ) (m : Memory) :
    ∃ cover m', getCover f config (m.read ⟨data, top, left, rows, cols, 3⟩) = .ok cover ∧
      preProcess (measured f) config ⟨data, top, left, rows, cols, 3⟩ m = .ok ⟨data, top, left, rows, cols, 3⟩ m' ∧
        ∀ i j, ∃ d,
          labDifference pickType (Lab (.ofPixel (m.read ⟨data, top, left, rows, cols, 3⟩ i j)))
            (Lab (scaled 100 color)) = some d ∧ 0 ≤ d ∧
          (d = 0 ↔ Lab (.ofPixel (m.read ⟨data, top, left, rows, cols, 3⟩ i j)) = Lab (scaled 100 color)) ∧
          (ToCover config d → m'.read ⟨data, top, left, rows, cols, 3⟩ i j = cover i j) ∧
          (¬ ToCover config d → m'.read ⟨data, top, left, rows, cols, 3⟩ i j =
            m.read ⟨data, top, left, rows, cols, 3⟩ i j) := by
  have hlab' := labConversion_measured hlab
  obtain ⟨cover, hcover⟩ : ∃ cover, getCover f config (m.read ⟨data, top, left, rows, cols, 3⟩) = .ok cover :=
    exists_cover hlab _
  have hrun := preProcess_eq hlab' henable htarget hpick data top left rows cols m hcover
  refine ⟨cover, _, hcover, hrun, fun i j => ?_⟩
  obtain ⟨d, hd, hpos, hzero⟩ := labDifference_separates pickType
    (Lab (.ofPixel (m.read ⟨data, top, left, rows, cols, 3⟩ i j))) (Lab (scaled 100 color))
  have hpicked := isPicked_measured f config hd
  refine ⟨d, hd, hpos, hzero, fun h => ?_, fun h => ?_⟩
  · rw [Store.read_write]
    exact if_pos (hpicked.mpr h)
  · rw [Store.read_write]
    exact if_neg fun hp => h (hpicked.mp hp)

/-- A blue pixel in the corner of a black Mat. -/
def blueCorner : Memory := ⟨1, fun _ i j k => if i = 0 ∧ j = 0 ∧ k = 0 then 255 else 0⟩

theorem near_covered_blue :
    ∃ cover m', getCover discrete (blackMask ⟨0, 0, 1⟩) (blueCorner.read ⟨0, 0, 0, 2, 2, 3⟩) = .ok cover ∧
      preProcess (measured discrete) (blackMask ⟨0, 0, 1⟩) ⟨0, 0, 0, 2, 2, 3⟩ blueCorner =
        .ok ⟨0, 0, 0, 2, 2, 3⟩ m' ∧
        ∀ i j, ∃ d,
          labDifference .CIE76 (asLab (.ofPixel (blueCorner.read ⟨0, 0, 0, 2, 2, 3⟩ i j)))
            (asLab (scaled 100 ⟨0, 0, 1⟩)) = some d ∧ 0 ≤ d ∧
          (d = 0 ↔ asLab (.ofPixel (blueCorner.read ⟨0, 0, 0, 2, 2, 3⟩ i j)) = asLab (scaled 100 ⟨0, 0, 1⟩)) ∧
          (ToCover (blackMask ⟨0, 0, 1⟩) d → m'.read ⟨0, 0, 0, 2, 2, 3⟩ i j = cover i j) ∧
          (¬ ToCover (blackMask ⟨0, 0, 1⟩) d →
            m'.read ⟨0, 0, 0, 2, 2, 3⟩ i j = blueCorner.read ⟨0, 0, 0, 2, 2, 3⟩ i j) :=
  near_covered labConversion_discrete (blackMask ⟨0, 0, 1⟩) ⟨0, 0, 1⟩ .CIE76 rfl rfl rfl 0 0 0 2 2 blueCorner

end ColorPick
end PGCon
