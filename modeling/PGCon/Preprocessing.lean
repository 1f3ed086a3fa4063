/-
# Preprocessors

A `Mat` is a view of a buffer of bytes. `Mat.submat` and `new Mat(mat, rect)` make
views that share the samples, and so do `MatUtil.deepSplit` and
`MatUtil.deepCopy`, whatever their names say. An OpenCV call whose destination is
its source writes through the view.

What the pixel functions compute does not matter here: OpenCV's, the resampling
and the colour distances are the fields of `PixelFunctions`. Only a preprocessor's
own matrices, which nobody else ever sees, are values. A `double` is a rational
number; a reference that can be `null` is an `Option`.
-/
import PGCon.Raster
import PGCon.Protocol

namespace PGCon

open Effect Raster

/-- 8-bit samples. -/
abbrev Bytes (rows cols channels : ℕ) := Samples (BitVec 8) rows cols channels

/-- A picture's samples, replaced. -/
abbrev Filter := ∀ rows cols channels : ℕ, Bytes rows cols channels →
  Except JavaException (Bytes rows cols channels)

/-- The buffers of all Mats. -/
abbrev Memory := Store (BitVec 8)

/-- A Mat's header. -/
abbrev Mat := View

/-! ### Configurations -/

inductive ThreshType
  | BINARY
  | TOZERO
  | TRUNC
  | OTSU
  | ADAPTIVE_THRESH_MEAN_C
  | ADAPTIVE_THRESH_GAUSSIAN_C
  deriving DecidableEq, Repr

def ThreshType.cvVal : ThreshType → ℤ
  | .BINARY => 0
  | .TOZERO => 3
  | .TRUNC => 2
  | .OTSU => 8
  | .ADAPTIVE_THRESH_MEAN_C => 0
  | .ADAPTIVE_THRESH_GAUSSIAN_C => 1

def ThreshType.isAdaptive : ThreshType → Bool
  | .ADAPTIVE_THRESH_MEAN_C | .ADAPTIVE_THRESH_GAUSSIAN_C => true
  | _ => false

inductive PickType
  | CIE76
  | CIE94
  | CIEDE2000
  | CMC
  deriving DecidableEq, Repr

inductive MaskType
  | BLACK
  | WHITE
  | GARY
  deriving DecidableEq, Repr

inductive SmoothingType
  | AVERAGING
  | GAUSSIAN
  | MEDIAN
  | BILATERAL
  deriving DecidableEq, Repr

/-- A JavaFX colour, its components between 0 and 1. -/
structure Color where
  red : ℚ
  green : ℚ
  blue : ℚ
  deriving DecidableEq, Repr

structure ThreshPreProcessorConfig where
  enable : Bool
  binaryThreshold : ℚ
  inverse : Bool
  threshType : Option ThreshType
  adaptiveThreshC : ℤ
  adaptiveBlockSize : ℤ
  deriving DecidableEq, Repr

structure ChannelsFilterPreProcessorConfig where
  enable : Bool
  redWeight : ℚ
  greenWeight : ℚ
  blueWeight : ℚ
  deriving DecidableEq, Repr

structure NormalizePreProcessorConfig where
  enable : Bool
  deriving DecidableEq, Repr

structure ColorPickFilterPreProcessorConfig where
  enable : Bool
  targetColor : Option Color
  inverse : Bool
  range : ℚ
  pickType : Option PickType
  maskType : Option MaskType
  deriving DecidableEq, Repr

structure ResizePreProcessorConfig where
  enable : Bool
  scale : ℚ
  deriving DecidableEq, Repr

structure SmoothingPreProcessorConfig where
  enable : Bool
  size : ℤ
  sigmaColor : ℚ
  sigmaSpace : ℚ
  type : Option SmoothingType
  deriving DecidableEq, Repr

/-- `PreProcessorConfig` and its subclasses; `other` is one the factory does not
know. -/
inductive PreProcessorConfig
  | thresh (config : ThreshPreProcessorConfig)
  | channelsFilter (config : ChannelsFilterPreProcessorConfig)
  | normalize (config : NormalizePreProcessorConfig)
  | colorPickFilter (config : ColorPickFilterPreProcessorConfig)
  | resize (config : ResizePreProcessorConfig)
  | smoothing (config : SmoothingPreProcessorConfig)
  | other (enable : Bool)
  deriving DecidableEq, Repr

/-! ### Pixel functions -/

/-- The codes `Imgproc.cvtColor` is called with. -/
inductive ColorConversion
  | BGR2GRAY
  | BGRA2GRAY
  | GRAY2BGR
  | BGR2Lab
  | RGB2Lab
  deriving DecidableEq, Repr

/-- The channels of the result. -/
def ColorConversion.channels : ColorConversion → ℕ
  | .BGR2GRAY | .BGRA2GRAY => 1
  | .GRAY2BGR | .BGR2Lab | .RGB2Lab => 3

/-- What is computed from pixels; any call can throw. -/
structure PixelFunctions where
  cvtColor (code : ColorConversion) (rows cols channels : ℕ) :
    Bytes rows cols channels → Except JavaException (Bytes rows cols code.channels)
  /-- `Core.transform` with the diagonal matrix of the weights -/
  transform (blue green red : ℚ) : Filter
  /-- `Imgproc.threshold` with 255 for the maximum -/
  threshold (thresh type : ℤ) : Filter
  /-- `Imgproc.adaptiveThreshold` with 255 for the maximum and `THRESH_BINARY` -/
  adaptiveThreshold (method blockSize c : ℤ) : Filter
  /-- `Core.normalize` to 0..255 with `NORM_MINMAX` -/
  normalize : Filter
  blur (size : ℤ) : Filter
  medianBlur (size : ℤ) : Filter
  bilateralFilter (size : ℤ) (sigmaColor sigmaSpace : ℚ) : Filter
  gaussianBlur (width height : ℚ) : Filter
  /-- `ImageResizeUtil.resize` to a width and a height -/
  resize (newWidth newHeight : ℤ) : Picture (BitVec 8) → Except JavaException (Picture (BitVec 8))
  /-- the methods of `ColorDifferenceUtil`, of the target colour and a pixel -/
  distance : PickType → (Fin 3 → BitVec 8) → (Fin 3 → BitVec 8) → ℚ
  distance_nonneg : ∀ type target pixel, 0 ≤ distance type target pixel

/-- `Core.bitwise_not`. -/
def bitwiseNot : Filter := fun _ _ _ s => .ok fun i j k => ~~~ s i j k

/-- The conversion of a `double` to a byte: to the nearest integer, ties to even,
cut off at 0 and 255. -/
def saturate (x : ℚ) : BitVec 8 :=
  let below := ⌊x⌋
  let nearest := if x - below < 1 / 2 ∨ x - below = 1 / 2 ∧ below % 2 = 0 then below else below + 1
  BitVec.ofInt 8 (max 0 (min 255 nearest))

/-- `Math.round`. -/
def mathRound (x : ℚ) : ℤ := ⌊x + 1 / 2⌋

/-! ### Mats -/

/-- The samples of a Mat. -/
def getSamples (mat : Mat) : Java Memory (Bytes mat.rows mat.cols mat.channels) := fun m => .ok (m.read mat) m

/-- A Mat of its own buffer. -/
def newMat (p : Picture (BitVec 8)) : Java Memory Mat := fun m =>
  .ok (m.fresh p.rows p.cols p.channels) (m.alloc p)

/-- A call with `mat` for its source and its destination. -/
def inPlace (call : Filter) (mat : Mat) : Java Memory Mat := do
  let samples ← getSamples mat
  let result ← MonadExcept.ofExcept (call _ _ _ samples)
  modify fun m => m.write mat result
  return mat

/-- A call with `mat` for its source and a new Mat for its destination. -/
def intoNew (call : Picture (BitVec 8) → Except JavaException (Picture (BitVec 8))) (mat : Mat) :
    Java Memory Mat := do
  let samples ← getSamples mat
  let result ← MonadExcept.ofExcept (call ⟨_, _, _, samples⟩)
  newMat result

/-- `ImageUtil.checkChannel`. -/
def ImageUtil.checkChannel (channels : ℕ) : Except JavaException Unit :=
  if channels ≠ 1 ∧ channels ≠ 3 ∧ channels ≠ 4 then .error .illegalArgument else .ok ()

/-- `Imgproc.cvtColor` into a new Mat. -/
def cvtColor (f : PixelFunctions) (code : ColorConversion) (p : Picture (BitVec 8)) :
    Except JavaException (Picture (BitVec 8)) := do
  let samples ← f.cvtColor code _ _ _ p.samples
  return ⟨p.rows, p.cols, code.channels, samples⟩

/-- `MatUtil.toGray`: a gray Mat is returned as it is. -/
def MatUtil.toGray (f : PixelFunctions) (mat : Mat) : Java Memory Mat := do
  MonadExcept.ofExcept (ImageUtil.checkChannel mat.channels)
  if mat.channels = 1 then
    return mat
  else
    intoNew (cvtColor f (if mat.channels = 3 then .BGR2GRAY else .BGRA2GRAY)) mat

/-! ### The preprocessors -/

/-- The threshold call of `ThreshPreProcessor`. -/
def ThreshPreProcessor.call (f : PixelFunctions) (config : ThreshPreProcessorConfig) (threshType : ThreshType) :
    Filter :=
  if threshType.isAdaptive then
    f.adaptiveThreshold threshType.cvVal config.adaptiveBlockSize config.adaptiveThreshC
  else f.threshold (mathRound (config.binaryThreshold * 255)) threshType.cvVal

/-- `ThreshPreProcessor.preProcess`. -/
def ThreshPreProcessor.preProcess (f : PixelFunctions) (config : ThreshPreProcessorConfig) (mat : Mat) :
    Java Memory Mat := do
  if config.enable then
    let mat ← MatUtil.toGray f mat
    match config.threshType with
    | none => throw .nullPointer
    | some threshType =>
      let mat ← inPlace (call f config threshType) mat
      if config.inverse then inPlace bitwiseNot mat else return mat
  else return mat

/-- `ChannelsFilterPreProcessor.preProcess`. -/
def ChannelsFilterPreProcessor.preProcess (f : PixelFunctions)
    (config : ChannelsFilterPreProcessorConfig) (mat : Mat) : Java Memory Mat := do
  if config.enable ∧ mat.channels = 3 then
    inPlace (f.transform config.blueWeight config.greenWeight config.redWeight) mat
  else return mat

/-- `NormalizePreProcessor.preProcess`. -/
def NormalizePreProcessor.preProcess (f : PixelFunctions) (config : NormalizePreProcessorConfig)
    (mat : Mat) : Java Memory Mat := do
  if config.enable then
    let mat ← MatUtil.toGray f mat
    inPlace f.normalize mat
  else return mat

/-- `(int)` of a `double`: towards zero, cut off at the ends of the type. -/
def toInt (x : ℚ) : ℤ := max (-2 ^ 31) (min (2 ^ 31 - 1) (if 0 ≤ x then ⌊x⌋ else ⌈x⌉))

/-- `ResizePreProcessor.preProcess`. -/
def ResizePreProcessor.preProcess (f : PixelFunctions) (config : ResizePreProcessorConfig) (mat : Mat) :
    Java Memory Mat := do
  if config.enable then
    intoNew (f.resize (toInt (mat.cols * config.scale)) (toInt (mat.rows * config.scale))) mat
  else return mat

/-- A filter with a new Mat for its result. -/
def filtered (call : Filter) (p : Picture (BitVec 8)) : Except JavaException (Picture (BitVec 8)) := do
  let samples ← call _ _ _ p.samples
  return ⟨p.rows, p.cols, p.channels, samples⟩

/-- The filter `SmoothingPreProcessor` calls. -/
def SmoothingPreProcessor.filter (f : PixelFunctions) (config : SmoothingPreProcessorConfig) :
    SmoothingType → Filter
  | .AVERAGING => f.blur config.size
  | .MEDIAN => f.medianBlur config.size
  | .BILATERAL => f.bilateralFilter config.size config.sigmaColor config.sigmaSpace
  | .GAUSSIAN => f.gaussianBlur config.size config.sigmaColor

/-- `SmoothingPreProcessor.preProcess`. -/
def SmoothingPreProcessor.preProcess (f : PixelFunctions) (config : SmoothingPreProcessorConfig)
    (mat : Mat) : Java Memory Mat := do
  if config.enable then
    match config.type with
    | none => throw .nullPointer
    | some type => intoNew (filtered (filter f config type)) mat
  else return mat

namespace ColorPickFilterPreProcessor

variable (f : PixelFunctions) (config : ColorPickFilterPreProcessorConfig)

/-- `getLabTarget`, of a red component that is scaled to 100. -/
def getLabTarget : Option Color → Except JavaException (Fin 3 → BitVec 8)
  | none => .error .nullPointer
  | some color => do
    let target : Bytes 1 1 3 := fun _ _ =>
      ![saturate (color.red * 100), saturate (color.green * 255), saturate (color.blue * 255)]
    let lab ← f.cvtColor .RGB2Lab _ _ _ target
    return lab 0 0

/-- `getCover`, for a picture of three channels. -/
def getCover {rows cols channels : ℕ} (samples : Bytes rows cols channels) :
    Except JavaException (Bytes rows cols channels) :=
  match config.maskType with
  | some .GARY => do
    let gray ← f.cvtColor .BGR2GRAY _ _ _ samples
    let cover ← f.cvtColor .GRAY2BGR _ _ _ gray
    return fun i j k => if h : (k : ℕ) < 3 then cover i j ⟨k, h⟩ else 0
  | some .BLACK => .ok fun _ _ _ => 0
  | some .WHITE | none => .ok fun _ _ _ => 255

/-- `getRange`. -/
def getRange : ℤ := mathRound (config.range * 100)

/-- `calcDistance`. -/
def calcDistance (matLab targetLab : Fin 3 → BitVec 8) : Except JavaException ℚ :=
  match config.pickType with
  | none => .error .nullPointer
  | some pickType => .ok (f.distance pickType targetLab matLab)

/-- The loop over the pixels, with the mask they leave. -/
def getMask {rows cols : ℕ} (lab : Bytes rows cols 3) (targetLab : Fin 3 → BitVec 8) :
    Except JavaException (Fin rows → Fin cols → BitVec 8) :=
  (List.finRange rows).foldlM (fun mask row =>
    (List.finRange cols).foldlM (fun mask col => do
      let distance ← calcDistance f config (lab row col) targetLab
      return if distance < getRange config then
        Function.update mask row (Function.update (mask row) col 255) else mask) mask) fun _ _ => 0

/-- What `preProcess` makes of the samples. -/
def pick : Filter := fun rows cols channels samples => do
  let targetLab ← getLabTarget f config.targetColor
  let cover ← getCover f config samples
  let lab ← f.cvtColor .BGR2Lab rows cols channels samples
  let mask ← getMask f config lab targetLab
  let mask := if config.inverse then fun i j => ~~~ mask i j else mask
  return fun i j k => if mask i j ≠ 0 then cover i j k else samples i j k

/-- `ColorPickFilterPreProcessor.preProcess`. -/
def preProcess (mat : Mat) : Java Memory Mat := do
  if config.enable ∧ mat.channels = 3 then
    inPlace (pick f config) mat
  else return mat

end ColorPickFilterPreProcessor

/-! ### The factory -/

/-- `PreprocessorFactory.load`. -/
def PreprocessorFactory.load (f : PixelFunctions) : PreProcessorConfig → Except JavaException (Mat → Java Memory Mat)
  | .thresh config => .ok (ThreshPreProcessor.preProcess f config)
  | .channelsFilter config => .ok (ChannelsFilterPreProcessor.preProcess f config)
  | .normalize config => .ok (NormalizePreProcessor.preProcess f config)
  | .colorPickFilter config => .ok (ColorPickFilterPreProcessor.preProcess f config)
  | .resize config => .ok (ResizePreProcessor.preProcess f config)
  | .smoothing config => .ok (SmoothingPreProcessor.preProcess f config)
  | .other _ => .error .interruptScript

/-- `ImageDetector.tryPreProcess`. -/
def ImageDetector.tryPreProcess (f : PixelFunctions) (mat : Mat) (configs : List PreProcessorConfig) : Java Memory Mat := do
  if configs ≠ [] then
    let preProcessors ← MonadExcept.ofExcept (configs.mapM (PreprocessorFactory.load f))
    preProcessors.foldlM (fun mat preProcess => preProcess mat) mat
  else return mat

end PGCon
