/-
# The colour filter

`ColorPickFilterPreProcessor` covers the pixels near a target colour: it converts the
target and the picture to Lab and compares distances. The target is put together from
the components of a JavaFX colour, red times 100 and green and blue times 255.

OpenCV's conversion is one function `Lab` of a colour here, whichever order the channels
come in, and a distance is anything that is zero from a colour to itself. What the filter
covers is then known pixel by pixel (`preProcess_eq`). It is what it should be if and
only if the two targets, red times 100 and red times 255, tell no pixels apart that the
cover does not hide (`masks_iff`).
-/
import PGCon.Pictures

namespace PGCon
namespace ColorPick

open Raster Pictures ColorPickFilterPreProcessor

/-- A colour of three bytes. -/
structure RGB where
  r : BitVec 8
  g : BitVec 8
  b : BitVec 8
  deriving DecidableEq, Repr

/-- A pixel of a Mat: blue, green and red. -/
def RGB.ofPixel (p : Fin 3 → BitVec 8) : RGB := ⟨p 2, p 1, p 0⟩

/-- The bytes of a colour, with red times `red`. -/
def scaled (red : ℚ) (color : Color) : RGB :=
  ⟨saturate (color.red * red), saturate (color.green * 255), saturate (color.blue * 255)⟩

/-- The target colour in 8-bit RGB. -/
def target (color : Color) : RGB := scaled 255 color

/-- The components are between 0 and 1. -/
def InRange (color : Color) : Prop :=
  (0 ≤ color.red ∧ color.red ≤ 1) ∧ (0 ≤ color.green ∧ color.green ≤ 1) ∧ 0 ≤ color.blue ∧ color.blue ≤ 1

/-- What is taken of the pixel functions. -/
structure LabConversion (f : PixelFunctions) (Lab : RGB → Fin 3 → BitVec 8) : Prop where
  rgb : ∀ (rows cols : ℕ) (s : Bytes rows cols 3),
    f.cvtColor .RGB2Lab rows cols 3 s = .ok fun i j => Lab ⟨s i j 0, s i j 1, s i j 2⟩
  bgr : ∀ (rows cols : ℕ) (s : Bytes rows cols 3),
    f.cvtColor .BGR2Lab rows cols 3 s = .ok fun i j => Lab (.ofPixel (s i j))
  gray : ∀ (rows cols : ℕ) (s : Bytes rows cols 3), ∃ gray, f.cvtColor .BGR2GRAY rows cols 3 s = .ok gray
  colour : ∀ (rows cols : ℕ) (s : Bytes rows cols 1), ∃ colour, f.cvtColor .GRAY2BGR rows cols 1 s = .ok colour
  distance_self : ∀ type x, f.distance type x x = 0

section

variable (f : PixelFunctions) (Lab : RGB → Fin 3 → BitVec 8) (config : ColorPickFilterPreProcessorConfig)
  (pickType : PickType)

/-- Whether the pixel is within the range differs from the inverse flag. -/
def isPicked (t : RGB) (p : Fin 3 → BitVec 8) : Bool :=
  decide (f.distance pickType (Lab t) (Lab (.ofPixel p)) < getRange config) != config.inverse

/-- The picture with the picked pixels covered. -/
def covered {rows cols : ℕ} (t : RGB) (samples cover : Bytes rows cols 3) : Bytes rows cols 3 := fun i j =>
  if isPicked f Lab config pickType t (samples i j) then cover i j else samples i j

/-- On every Mat of three channels the filter covers the pixels picked for this target, and
leaves the others. -/
def Masks (t : RGB) : Prop :=
  ∀ (data top left rows cols : ℕ) (m : Memory), ∃ cover,
    getCover f config (m.read ⟨data, top, left, rows, cols, 3⟩) = .ok cover ∧
      preProcess f config ⟨data, top, left, rows, cols, 3⟩ m = .ok ⟨data, top, left, rows, cols, 3⟩
        (m.write ⟨data, top, left, rows, cols, 3⟩
          (covered f Lab config pickType t (m.read ⟨data, top, left, rows, cols, 3⟩) cover))

/-- Without the inverse flag, and with a range that is not empty, a pixel of the target
colour is covered. -/
def CoversTarget (t : RGB) : Prop :=
  config.inverse = false → 1 ≤ getRange config →
    ∀ (data top left rows cols : ℕ) (m : Memory), ∃ cover m',
      getCover f config (m.read ⟨data, top, left, rows, cols, 3⟩) = .ok cover ∧
      preProcess f config ⟨data, top, left, rows, cols, 3⟩ m = .ok ⟨data, top, left, rows, cols, 3⟩ m' ∧
        ∀ i j, RGB.ofPixel (m.read ⟨data, top, left, rows, cols, 3⟩ i j) = t →
          m'.read ⟨data, top, left, rows, cols, 3⟩ i j = cover i j

end

/-! ### What the filter does -/

section

variable {f : PixelFunctions} {Lab : RGB → Fin 3 → BitVec 8} {config : ColorPickFilterPreProcessorConfig}
  {pickType : PickType} {color : Color} (hlab : LabConversion f Lab)
include hlab

theorem getLabTarget_eq : getLabTarget f (some color) = .ok (Lab (scaled 100 color)) := by
  rw [getLabTarget, hlab.rgb]
  rfl

/-- There is always a cover. -/
theorem exists_cover {rows cols : ℕ} (samples : Bytes rows cols 3) : ∃ cover, getCover f config samples = .ok cover := by
  unfold getCover
  split
  · obtain ⟨gray, hgray⟩ := hlab.gray rows cols samples
    obtain ⟨colour, hcolour⟩ := hlab.colour rows cols gray
    rw [hgray]
    change ∃ cover, (f.cvtColor .GRAY2BGR rows cols 1 gray >>= _) = .ok cover
    rw [hcolour]
    exact ⟨_, rfl⟩
  · exact ⟨_, rfl⟩
  · exact ⟨_, rfl⟩
  · exact ⟨_, rfl⟩

/-- The filter on the samples: the target is the one with red times 100. -/
theorem pick_eq (htarget : config.targetColor = some color) (hpick : config.pickType = some pickType) {rows cols : ℕ}
    {samples cover : Bytes rows cols 3} (hcover : getCover f config samples = .ok cover) :
    pick f config rows cols 3 samples = .ok (covered f Lab config pickType (scaled 100 color) samples cover) := by
  have hmask := getMask_eq hpick (f := f) (fun i j => Lab (.ofPixel (samples i j))) (Lab (scaled 100 color))
  have htarget' : getLabTarget f config.targetColor = .ok (Lab (scaled 100 color)) := by
    rw [htarget, getLabTarget_eq hlab]
  rw [pick_of_ok htarget' hcover (hlab.bgr rows cols samples) hmask]
  congr 1
  funext i j k
  -- the mask is 0 or 255, and its complement the other one
  by_cases hnear : f.distance pickType (Lab (scaled 100 color)) (Lab (.ofPixel (samples i j))) < getRange config <;>
    cases hinv : config.inverse <;> simp [covered, isPicked, hnear, hinv]

/-- The filter on a Mat. -/
theorem preProcess_eq (henable : config.enable = true) (htarget : config.targetColor = some color)
    (hpick : config.pickType = some pickType) (data top left rows cols : ℕ) (m : Memory) {cover : Bytes rows cols 3}
    (hcover : getCover f config (m.read ⟨data, top, left, rows, cols, 3⟩) = .ok cover) :
    preProcess f config ⟨data, top, left, rows, cols, 3⟩ m = .ok ⟨data, top, left, rows, cols, 3⟩
      (m.write ⟨data, top, left, rows, cols, 3⟩
        (covered f Lab config pickType (scaled 100 color) (m.read ⟨data, top, left, rows, cols, 3⟩) cover)) := by
  have hcond : config.enable = true ∧ (3 : ℕ) = 3 := ⟨henable, rfl⟩
  rw [preProcess, if_pos hcond]
  exact (inPlace_of_ok (pick_eq hlab htarget hpick hcover)).1

omit hlab in
/-- Two targets cover alike if they pick alike, but for pixels that look like their cover. -/
theorem covered_eq_iff {rows cols : ℕ} {t t' : RGB} {samples cover : Bytes rows cols 3} :
    covered f Lab config pickType t' samples cover = covered f Lab config pickType t samples cover ↔
      ∀ i j, isPicked f Lab config pickType t' (samples i j) = isPicked f Lab config pickType t (samples i j) ∨
        cover i j = samples i j := by
  have hpixel : ∀ i j, covered f Lab config pickType t' samples cover i j =
        covered f Lab config pickType t samples cover i j ↔
      isPicked f Lab config pickType t' (samples i j) = isPicked f Lab config pickType t (samples i j) ∨
        cover i j = samples i j := by
    intro i j
    unfold covered
    cases isPicked f Lab config pickType t' (samples i j) <;> cases isPicked f Lab config pickType t (samples i j) <;>
      simp [eq_comm]
  constructor
  · intro h i j
    exact (hpixel i j).mp (congrFun (congrFun h i) j)
  · intro h
    funext i j
    exact (hpixel i j).mpr (h i j)

/-- The targets with red times 100 and with red times 255 pick the same pixels of every
picture, but for those that look like their cover. -/
def Alike (f : PixelFunctions) (Lab : RGB → Fin 3 → BitVec 8) (config : ColorPickFilterPreProcessorConfig)
    (pickType : PickType) (color : Color) : Prop :=
  ∀ (rows cols : ℕ) (samples cover : Bytes rows cols 3), getCover f config samples = .ok cover → ∀ i j,
    isPicked f Lab config pickType (scaled 100 color) (samples i j) =
        isPicked f Lab config pickType (target color) (samples i j) ∨ cover i j = samples i j

variable (henable : config.enable = true) (htarget : config.targetColor = some color)
  (hpick : config.pickType = some pickType)
include henable htarget hpick

theorem masks_iff : Masks f Lab config pickType (target color) ↔ Alike f Lab config pickType color := by
  constructor
  · intro h rows cols samples cover hcover
    -- a buffer with these samples in it
    obtain ⟨m, hm⟩ : ∃ m : Memory, m.read ⟨0, 0, 0, rows, cols, 3⟩ = samples :=
      ⟨(Store.mk 1 fun _ _ _ _ => 0).write ⟨0, 0, 0, rows, cols, 3⟩ samples,
        Store.read_write (v := ⟨0, 0, 0, rows, cols, 3⟩) samples⟩
    obtain ⟨cover', hcover', hrun⟩ := h 0 0 0 rows cols m
    rw [hm] at hcover' hrun
    obtain rfl := Except.ok.inj (hcover.symm.trans hcover')
    have hrun' := preProcess_eq hlab henable htarget hpick 0 0 0 rows cols m (hm ▸ hcover)
    rw [hm] at hrun'
    have hwrite := congrArg (·.read ⟨0, 0, 0, rows, cols, 3⟩) (EStateM.Result.ok.inj (hrun'.symm.trans hrun)).2
    rw [Store.read_write, Store.read_write] at hwrite
    exact covered_eq_iff.mp hwrite
  · intro h data top left rows cols m
    obtain ⟨cover, hcover⟩ : ∃ cover, getCover f config (m.read ⟨data, top, left, rows, cols, 3⟩) = .ok cover :=
      exists_cover hlab _
    refine ⟨cover, hcover, ?_⟩
    rw [preProcess_eq hlab henable htarget hpick data top left rows cols m hcover,
      covered_eq_iff.mpr (h rows cols _ cover hcover)]

omit henable htarget hpick in
/-- A filter that masks for the target covers its pixels: they are at no distance from it. -/
theorem coversTarget_of_masks {t : RGB} (h : Masks f Lab config pickType t) : CoversTarget f config t := by
  intro hinverse hrange data top left rows cols m
  obtain ⟨cover, hcover, hrun⟩ := h data top left rows cols m
  refine ⟨cover, _, hcover, hrun, fun i j hpixel => ?_⟩
  have hzero : (0 : ℚ) < getRange config := by exact_mod_cast hrange
  have hpicked : isPicked f Lab config pickType t (m.read ⟨data, top, left, rows, cols, 3⟩ i j) = true := by
    rw [isPicked, hpixel, hlab.distance_self, hinverse, decide_eq_true hzero]
    rfl
  rw [Store.read_write, covered]
  exact if_pos hpicked

/-- It does so if red times 100 and red times 255 come to the same byte, as for a colour
without red. -/
theorem masks_of_red (hred : saturate (color.red * 100) = saturate (color.red * 255)) :
    Masks f Lab config pickType (target color) := by
  have hsame : scaled 100 color = target color := by rw [scaled, target, scaled, hred]
  refine (masks_iff hlab henable htarget hpick).mpr fun rows cols samples cover _ i j => ?_
  rw [hsame]
  exact Or.inl rfl

end

/-- For any enabled configuration, the filter masks the pixels near its target colour and
covers those equal to it, on every Mat, if and only if the target it takes picks alike. -/
theorem filter_masks_iff (f : PixelFunctions) (Lab : RGB → Fin 3 → BitVec 8) (hlab : LabConversion f Lab)
    (config : ColorPickFilterPreProcessorConfig) (color : Color) (pickType : PickType) (henable : config.enable = true)
    (htarget : config.targetColor = some color) (hpick : config.pickType = some pickType) :
    (Masks f Lab config pickType (target color) ∧ CoversTarget f config (target color)) ↔
      Alike f Lab config pickType color := by
  refine Iff.trans ?_ (masks_iff hlab henable htarget hpick)
  exact ⟨fun h => h.1, fun h => ⟨h, coversTarget_of_masks hlab h⟩⟩

/-! ### A red that is not found -/

/-- A sample, or nothing. -/
def sampleAt {rows cols channels : ℕ} (s : Bytes rows cols channels) (i : Fin rows) (j : Fin cols) (k : ℕ) : BitVec 8 :=
  if h : k < channels then s i j ⟨k, h⟩ else 0

/-- The bytes of Lab for the colours looked at below, black, blue, red and a dark red; any other
colour has its own. -/
def labBytes (c : RGB) : List (BitVec 8) :=
  if c = ⟨0, 0, 0⟩ then [0, 128, 128]
  else if c = ⟨0, 0, 255⟩ then [82, 207, 20]
  else if c = ⟨255, 0, 0⟩ then [136, 208, 195]
  else if c = ⟨100, 0, 0⟩ then [48, 168, 157]
  else [c.r, c.g, c.b]

/-- Any two colours are far from each other. Only the conversions and the distance are called below. -/
def discrete : PixelFunctions where
  cvtColor code _ _ _ s := .ok fun i j k =>
    match code with
    | .RGB2Lab => (labBytes ⟨sampleAt s i j 0, sampleAt s i j 1, sampleAt s i j 2⟩).getD k 0
    | .BGR2Lab => (labBytes ⟨sampleAt s i j 2, sampleAt s i j 1, sampleAt s i j 0⟩).getD k 0
    | _ => sampleAt s i j 0
  transform _ _ _ := fun _ _ _ _ => .error .cvException
  threshold _ _ := fun _ _ _ _ => .error .cvException
  adaptiveThreshold _ _ _ := fun _ _ _ _ => .error .cvException
  normalize := fun _ _ _ _ => .error .cvException
  blur _ := fun _ _ _ _ => .error .cvException
  medianBlur _ := fun _ _ _ _ => .error .cvException
  bilateralFilter _ _ _ := fun _ _ _ _ => .error .cvException
  gaussianBlur _ _ := fun _ _ _ _ => .error .cvException
  resize _ _ _ := .error .cvException
  distance _ x y := if x = y then 0 else 100
  distance_nonneg _ x y := by
    split <;> norm_num

def asLab (c : RGB) : Fin 3 → BitVec 8 := fun k => (labBytes c).getD k 0

theorem labConversion_discrete : LabConversion discrete asLab where
  rgb _ _ _ := rfl
  bgr _ _ _ := rfl
  gray _ _ _ := ⟨_, rfl⟩
  colour _ _ _ := ⟨_, rfl⟩
  distance_self _ _ := if_pos rfl

/-- A black mask over this colour, within a range of 10. -/
def blackMask (color : Color) : ColorPickFilterPreProcessorConfig :=
  ⟨true, some color, false, 1 / 10, some .CIE76, some .BLACK⟩

/-- Red is looked for as a dark red. -/
theorem not_alike_red : ¬ Alike discrete asLab (blackMask ⟨1, 0, 0⟩) .CIE76 ⟨1, 0, 0⟩ := by
  intro h
  have hpixel := h 1 1 (fun _ _ => ![0, 0, 255]) (fun _ _ _ => 0) rfl 0 0
  exact absurd hpixel (by decide +kernel)

theorem filter_masks_iff_blue_red :
    (Masks discrete asLab (blackMask ⟨0, 0, 1⟩) .CIE76 (target ⟨0, 0, 1⟩) ∧
      CoversTarget discrete (blackMask ⟨0, 0, 1⟩) (target ⟨0, 0, 1⟩)) ∧
    ¬ (Masks discrete asLab (blackMask ⟨1, 0, 0⟩) .CIE76 (target ⟨1, 0, 0⟩) ∧
      CoversTarget discrete (blackMask ⟨1, 0, 0⟩) (target ⟨1, 0, 0⟩)) := by
  constructor
  · have hmasks := masks_of_red labConversion_discrete (show (blackMask ⟨0, 0, 1⟩).enable = true from rfl) rfl rfl
      (show saturate (0 * 100) = saturate (0 * 255) by decide +kernel)
    exact (filter_masks_iff discrete asLab labConversion_discrete _ ⟨0, 0, 1⟩ .CIE76 rfl rfl rfl).mpr
      ((masks_iff labConversion_discrete rfl rfl rfl).mp hmasks)
  · intro h
    exact not_alike_red ((filter_masks_iff discrete asLab labConversion_discrete _ ⟨1, 0, 0⟩ .CIE76 rfl rfl rfl).mp h)

/-- A red pixel is left as it is. -/
theorem red_not_covered : ¬ ∀ (f : PixelFunctions) (Lab : RGB → Fin 3 → BitVec 8), LabConversion f Lab →
    ∀ (config : ColorPickFilterPreProcessorConfig) (color : Color) (pickType : PickType), config.enable = true →
      config.targetColor = some color → InRange color → config.pickType = some pickType →
        Masks f Lab config pickType (target color) ∧ CoversTarget f config (target color) := by
  intro h
  have hmasks := (h discrete asLab labConversion_discrete (blackMask ⟨1, 0, 0⟩) ⟨1, 0, 0⟩ .CIE76 rfl rfl
    (by norm_num [InRange]) rfl).1
  exact not_alike_red ((masks_iff labConversion_discrete rfl rfl rfl).mp hmasks)

end ColorPick
end PGCon
