/-
# The code the debug panel makes

In the debug panel a user tries out preprocessors and a detector on the live picture. Each turn of
the panel detects with its settings (`processDebug`), for a comparison with the selected picture as
the preprocessors make it. The panel then writes a Java constant with the settings, to be pasted into
a script. It is not the parameter the panel itself detects with: preprocessors that are off are left
out, and so is a setting where it should make no difference. What the builders leave unset is zero,
false or null, whatever the configuration classes initialize it to.

This module has the builder calls of the code (`builderCode`) and the constant they make
(`Code.evaluate`), which detects on every frame what the panel detects (`evaluate_same`), provided
Otsu's method does not look at the threshold it is called with. The text of the code is in
`PGCon/GeneratedText.lean`.
-/
import PGCon.Detection
import PGCon.OcrEngines

namespace PGCon
namespace CodeGeneration

open Effect OcrEngines Pictures Raster

/-! ### The panel -/

inductive DetectType
  | IMAGE_COMPARE
  | OCR
  deriving DecidableEq, Repr

structure DebugFilterConfig where
  enableRGBFilter : Bool
  redWeight : ℚ
  greenWeight : ℚ
  blueWeight : ℚ

structure DebugResizeConfig where
  enableResize : Bool
  scale : ℚ

structure DebugBlurConfig where
  enableSmoothing : Bool
  size : ℤ
  sigmaColor : ℚ
  sigmaSpace : ℚ
  smoothingType : Option SmoothingType

structure DebugColorPickConfig where
  enableColorPickFilter : Bool
  targetColor : Option Color
  range : ℚ
  inverse : Bool
  pickType : Option PickType
  maskType : Option MaskType

structure DebugNormalizeConfig where
  enableNormalizeFilter : Bool

structure DebugThreshConfig where
  enableThresh : Bool
  binaryThreshold : ℚ
  inverse : Bool
  threshType : Option ThreshType
  adaptiveThreshC : ℤ
  adaptiveBlockSize : ℤ

structure DebugOcrConfig where
  ocrType : Option Method
  whiteList : Option String
  blackList : Option String
  pageSegMode : ℤ
  engineMode : ℤ

/-- The settings of the panel, the area and the picture selected, and the template made last, which
is `null` before. -/
structure DebugPanel where
  debugFilterConfig : DebugFilterConfig
  debugResizeConfig : DebugResizeConfig
  debugBlurConfig : DebugBlurConfig
  debugColorPickConfig : DebugColorPickConfig
  debugNormalizeConfig : DebugNormalizeConfig
  debugThreshConfig : DebugThreshConfig
  detectType : DetectType
  imageCompareType : Option CompareMethod
  debugOcrConfig : DebugOcrConfig
  selectedArea : Area
  selectedImage : Image
  template : Option String

/-- A dereference. -/
def deref {α : Type} : Option α → Except JavaException α
  | none => .error .nullPointer
  | some a => .ok a

def DebugFilterConfig.convertToPreProcessorConfig (c : DebugFilterConfig) : PreProcessorConfig :=
  .channelsFilter ⟨c.enableRGBFilter, c.redWeight, c.greenWeight, c.blueWeight⟩

def DebugResizeConfig.convertToResizePreProcessorConfig (c : DebugResizeConfig) : PreProcessorConfig :=
  .resize ⟨c.enableResize, min c.scale 10⟩

def DebugBlurConfig.convertToSmoothingPreProcessorConfig (c : DebugBlurConfig) : PreProcessorConfig :=
  .smoothing ⟨c.enableSmoothing, c.size, c.sigmaColor, c.sigmaSpace, c.smoothingType⟩

/-- The colour is taken apart, also where the filter is off. -/
def DebugColorPickConfig.convertToColorPickerFilterPreProcessorConfig (c : DebugColorPickConfig) :
    Except JavaException PreProcessorConfig := do
  let color ← deref c.targetColor
  return .colorPickFilter ⟨c.enableColorPickFilter, some color, c.inverse, c.range, c.pickType, c.maskType⟩

def DebugNormalizeConfig.convertToNormalizeConfig (c : DebugNormalizeConfig) : PreProcessorConfig :=
  .normalize ⟨c.enableNormalizeFilter⟩

def DebugThreshConfig.convertToThreshPreProcessorConfig (c : DebugThreshConfig) : PreProcessorConfig :=
  .thresh ⟨c.enableThresh, c.binaryThreshold, c.inverse, c.threshType, c.adaptiveThreshC, c.adaptiveBlockSize⟩

/-- `ImageCompare.Param` and `OCR.Param`. -/
inductive Param
  | imageCompare (area : Area) (template : String) (preProcessors : List PreProcessorConfig) (method : CompareMethod)
  | ocr (area : Area) (preProcessors : List PreProcessorConfig) (apiConfig : ApiConfig)
  deriving DecidableEq, Repr

namespace DebugPanel

variable (p : DebugPanel)

/-- The preprocessors of `processDebug`, in order. -/
def preProcessorConfigs : Except JavaException (List PreProcessorConfig) := do
  let colorPick ← p.debugColorPickConfig.convertToColorPickerFilterPreProcessorConfig
  return [p.debugFilterConfig.convertToPreProcessorConfig, p.debugResizeConfig.convertToResizePreProcessorConfig,
    p.debugBlurConfig.convertToSmoothingPreProcessorConfig, colorPick,
    p.debugNormalizeConfig.convertToNormalizeConfig, p.debugThreshConfig.convertToThreshPreProcessorConfig]

end DebugPanel

/-- What a turn uses of `ImageUtil`: the pictures are converted to be shown, and one to be a template. -/
structure ImageFunctions where
  matToBufferedImage : Image → Except JavaException Unit
  matToJson : Image → Except JavaException String

/-- A preprocessor, on the live picture and then on the selected one. -/
def preProcessBoth (f : PixelFunctions) (pictures : Image × Image) (config : PreProcessorConfig) :
    Except JavaException (Image × Image) := do
  let live ← apply f config pictures.1
  let converted ← apply f config pictures.2
  return (live, converted)

/-- `processDebug` of a panel that is open, up to the call of `detect`, with the parameter of that.
`live` is the part of the current frame, if there is one; the methods are `@NonNull`. -/
def processDebug (f : PixelFunctions) (images : ImageFunctions) (live : Except JavaException Image) :
    Java DebugPanel Param := do
  let p ← get
  let liveMat ← MonadExcept.ofExcept live
  let preProcessorConfigs ← MonadExcept.ofExcept p.preProcessorConfigs
  let (liveMat, convertedMat) ← MonadExcept.ofExcept
    (preProcessorConfigs.foldlM (preProcessBoth f) (liveMat, p.selectedImage))
  MonadExcept.ofExcept (images.matToBufferedImage liveMat)
  MonadExcept.ofExcept (images.matToBufferedImage convertedMat)
  match p.detectType with
  | .IMAGE_COMPARE =>
    let template ← MonadExcept.ofExcept (images.matToJson convertedMat)
    modify fun p => { p with template := some template }
    let method ← MonadExcept.ofExcept (deref p.imageCompareType)
    return .imageCompare p.selectedArea template preProcessorConfigs method
  | .OCR =>
    let method ← MonadExcept.ofExcept (deref p.debugOcrConfig.ocrType)
    return .ocr p.selectedArea preProcessorConfigs
      ⟨method, p.debugOcrConfig.whiteList, p.debugOcrConfig.blackList, some p.debugOcrConfig.pageSegMode,
        some p.debugOcrConfig.engineMode⟩

/-! ### The code -/

/-- A class whose builder is called. -/
inductive Builder
  | ChannelsFilterPreProcessorConfig
  | ResizePreProcessorConfig
  | SmoothingPreProcessorConfig
  | ColorPickFilterPreProcessorConfig
  | NormalizePreProcessorConfig
  | ThreshPreProcessorConfig
  deriving DecidableEq, Repr

/-- A call of a builder. -/
inductive Setter
  | enable (value : Bool)
  | redWeight (value : ℚ)
  | greenWeight (value : ℚ)
  | blueWeight (value : ℚ)
  | scale (value : ℚ)
  | type (value : SmoothingType)
  | size (value : ℤ)
  | sigmaColor (value : ℚ)
  | sigmaSpace (value : ℚ)
  | targetColor (value : Color)
  | range (value : ℚ)
  | pickType (value : PickType)
  | maskType (value : MaskType)
  | inverse (value : Bool)
  | binaryThreshold (value : ℚ)
  | threshType (value : ThreshType)
  | adaptiveThreshC (value : ℤ)
  | adaptiveBlockSize (value : ℤ)
  deriving DecidableEq, Repr

/-- A call of `ApiConfig.builder()`. -/
inductive ApiSetter
  | method (value : Method)
  | whitelist (value : String)
  | blacklist (value : String)
  | ocrEngineMode (value : ℤ)
  | pageSegMode (value : ℤ)
  deriving DecidableEq, Repr

/-- `.preProcessor(….builder()….build())`. -/
structure PreProcessorCode where
  builder : Builder
  setters : List Setter
  deriving DecidableEq, Repr

inductive Code
  | imageCompare (area : Area) (method : CompareMethod) (preProcessors : List PreProcessorCode) (template : String)
  | ocr (area : Area) (preProcessors : List PreProcessorCode) (apiConfig : List ApiSetter)
  deriving DecidableEq, Repr

namespace DebugPanel

variable (p : DebugPanel)

def filterCode : List PreProcessorCode :=
  let c := p.debugFilterConfig
  if c.enableRGBFilter then
    [⟨.ChannelsFilterPreProcessorConfig,
      [.enable true, .redWeight c.redWeight, .greenWeight c.greenWeight, .blueWeight c.blueWeight]⟩]
  else []

def resizeCode : List PreProcessorCode :=
  let c := p.debugResizeConfig
  if c.enableResize then [⟨.ResizePreProcessorConfig, [.enable true, .scale (min c.scale 10)]⟩] else []

def smoothingCode : Except JavaException (List PreProcessorCode) :=
  let c := p.debugBlurConfig
  if c.enableSmoothing then do
    let type ← deref c.smoothingType
    return [⟨.SmoothingPreProcessorConfig,
      [.enable true, .type type, .size c.size, .sigmaColor c.sigmaColor, .sigmaSpace c.sigmaSpace]⟩]
  else return []

def colorPickCode : Except JavaException (List PreProcessorCode) :=
  let c := p.debugColorPickConfig
  if c.enableColorPickFilter then do
    let color ← deref c.targetColor
    let pickType ← deref c.pickType
    let maskType ← deref c.maskType
    return [⟨.ColorPickFilterPreProcessorConfig,
      [.enable true, .targetColor color, .range c.range, .pickType pickType, .maskType maskType, .inverse c.inverse]⟩]
  else return []

def normalizeCode : List PreProcessorCode :=
  if p.debugNormalizeConfig.enableNormalizeFilter then [⟨.NormalizePreProcessorConfig, [.enable true]⟩] else []

def threshCode : Except JavaException (List PreProcessorCode) :=
  let c := p.debugThreshConfig
  if c.enableThresh then do
    -- `null` is not `OTSU`, but has no name
    let threshType ← deref c.threshType
    return [⟨.ThreshPreProcessorConfig, List.flatten
      [[.enable true],
        if threshType ≠ .OTSU then [.binaryThreshold c.binaryThreshold] else [],
        [.inverse c.inverse, .threshType threshType],
        if threshType.isAdaptive then [.adaptiveThreshC c.adaptiveThreshC, .adaptiveBlockSize c.adaptiveBlockSize]
        else []]⟩]
  else return []

def generatePreProcessorCode : Except JavaException (List PreProcessorCode) := do
  let smoothing ← p.smoothingCode
  let colorPick ← p.colorPickCode
  let thresh ← p.threshCode
  return p.filterCode ++ p.resizeCode ++ smoothing ++ colorPick ++ p.normalizeCode ++ thresh

/-- The calls of `ApiConfig.builder()`: lists that are empty and modes that are the
default are left out. -/
def apiCode (method : Method) : List ApiSetter :=
  let c := p.debugOcrConfig
  List.flatten
    [[.method method],
      if isNullOrEmpty c.whiteList then [] else [.whitelist (c.whiteList.getD "")],
      if isNullOrEmpty c.blackList then [] else [.blacklist (c.blackList.getD "")],
      if c.engineMode ≠ DEFAULT_OCR_ENGINE_MODE then [.ocrEngineMode c.engineMode] else [],
      if c.pageSegMode ≠ DEFAULT_PAGE_SEG_MODE then [.pageSegMode c.pageSegMode] else []]

/-- The builder calls of `generateCode`. A `null` is appended as its name. -/
def builderCode : Except JavaException Code :=
  match p.detectType with
  | .IMAGE_COMPARE => do
    let method ← deref p.imageCompareType
    let preProcessors ← p.generatePreProcessorCode
    return .imageCompare p.selectedArea method preProcessors (p.template.getD "null")
  | .OCR => do
    let preProcessors ← p.generatePreProcessorCode
    let method ← deref p.debugOcrConfig.ocrType
    return .ocr p.selectedArea preProcessors (p.apiCode method)

end DebugPanel

/-! ### What the code means -/

namespace Setter

/-- The calls, on the fields of each class; a call of another class does not compile. -/
def onChannelsFilter (c : ChannelsFilterPreProcessorConfig) : Setter → ChannelsFilterPreProcessorConfig
  | .enable value => { c with enable := value }
  | .redWeight value => { c with redWeight := value }
  | .greenWeight value => { c with greenWeight := value }
  | .blueWeight value => { c with blueWeight := value }
  | _ => c

def onResize (c : ResizePreProcessorConfig) : Setter → ResizePreProcessorConfig
  | .enable value => { c with enable := value }
  | .scale value => { c with scale := value }
  | _ => c

def onSmoothing (c : SmoothingPreProcessorConfig) : Setter → SmoothingPreProcessorConfig
  | .enable value => { c with enable := value }
  | .type value => { c with type := some value }
  | .size value => { c with size := value }
  | .sigmaColor value => { c with sigmaColor := value }
  | .sigmaSpace value => { c with sigmaSpace := value }
  | _ => c

def onColorPick (c : ColorPickFilterPreProcessorConfig) : Setter → ColorPickFilterPreProcessorConfig
  | .enable value => { c with enable := value }
  | .targetColor value => { c with targetColor := some value }
  | .range value => { c with range := value }
  | .pickType value => { c with pickType := some value }
  | .maskType value => { c with maskType := some value }
  | .inverse value => { c with inverse := value }
  | _ => c

def onNormalize (c : NormalizePreProcessorConfig) : Setter → NormalizePreProcessorConfig
  | .enable value => { c with enable := value }
  | _ => c

def onThresh (c : ThreshPreProcessorConfig) : Setter → ThreshPreProcessorConfig
  | .enable value => { c with enable := value }
  | .binaryThreshold value => { c with binaryThreshold := value }
  | .inverse value => { c with inverse := value }
  | .threshType value => { c with threshType := some value }
  | .adaptiveThreshC value => { c with adaptiveThreshC := value }
  | .adaptiveBlockSize value => { c with adaptiveBlockSize := value }
  | _ => c

end Setter

/-- `build()`: what was not set is zero, false or null. -/
def PreProcessorCode.build (c : PreProcessorCode) : PreProcessorConfig :=
  match c.builder with
  | .ChannelsFilterPreProcessorConfig => .channelsFilter (c.setters.foldl Setter.onChannelsFilter ⟨false, 0, 0, 0⟩)
  | .ResizePreProcessorConfig => .resize (c.setters.foldl Setter.onResize ⟨false, 0⟩)
  | .SmoothingPreProcessorConfig => .smoothing (c.setters.foldl Setter.onSmoothing ⟨false, 0, 0, 0, none⟩)
  | .ColorPickFilterPreProcessorConfig =>
    .colorPickFilter (c.setters.foldl Setter.onColorPick ⟨false, none, false, 0, none, none⟩)
  | .NormalizePreProcessorConfig => .normalize (c.setters.foldl Setter.onNormalize ⟨false⟩)
  | .ThreshPreProcessorConfig => .thresh (c.setters.foldl Setter.onThresh ⟨false, 0, false, none, 0, 0⟩)

/-- `ApiConfig.builder()`, whose `method` may still be `null`. -/
structure ApiBuilder where
  method : Option Method
  whitelist : Option String
  blacklist : Option String
  pageSegMode : Option ℤ
  ocrEngineMode : Option ℤ

def ApiSetter.on (b : ApiBuilder) : ApiSetter → ApiBuilder
  | .method value => { b with method := some value }
  | .whitelist value => { b with whitelist := some value }
  | .blacklist value => { b with blacklist := some value }
  | .ocrEngineMode value => { b with ocrEngineMode := some value }
  | .pageSegMode value => { b with pageSegMode := some value }

def buildApiConfig (setters : List ApiSetter) : Except JavaException ApiConfig := do
  let b := setters.foldl ApiSetter.on ⟨none, none, none, none, none⟩
  let method ← deref b.method
  return ⟨method, b.whitelist, b.blacklist, b.pageSegMode, b.ocrEngineMode⟩

/-- The constant the code declares. -/
def Code.evaluate : Code → Except JavaException Param
  | .imageCompare area method preProcessors template =>
    .ok (.imageCompare area template (preProcessors.map PreProcessorCode.build) method)
  | .ocr area preProcessors apiConfig => do
    let apiConfig ← buildApiConfig apiConfig
    return .ocr area (preProcessors.map PreProcessorCode.build) apiConfig

/-- What a detection finds. -/
inductive Finding
  | similarity (value : ℚ)
  | text (value : String × ℤ)

/-- `detect` with a parameter, on the Mat of a frame: what the matcher makes of the template and the
pixels, or the engine that the configuration asks for. -/
def detectWith (f : PixelFunctions) (matcher : CompareMethod → String → Image → Except JavaException ℚ)
    (tesseract : Tesseract Image) (frame : Mat) (m : Memory) : Param → Except JavaException Finding
  | .imageCompare area template preProcessors method => do
    let p ← Detection.fed f frame ⟨false, .ok (), some area, preProcessors⟩ m
    let similarity ← matcher method template p
    return .similarity similarity
  | .ocr area preProcessors apiConfig => do
    let p ← Detection.fed f frame ⟨true, .ok (), some area, preProcessors⟩ m
    return .text (tesseract (settings apiConfig) (some p))

/-! ### The code detects what the panel shows -/

/-- Preprocessors, one after the other. -/
def applyAll (f : PixelFunctions) (configs : List PreProcessorConfig) (p : Image) : Except JavaException Image :=
  configs.foldlM (fun p config => apply f config p) p

variable {f : PixelFunctions} {panel : DebugPanel}

theorem applyAll_append (f : PixelFunctions) (a b : List PreProcessorConfig) (p : Image) :
    applyAll f (a ++ b) p = applyAll f a p >>= applyAll f b := by
  rw [applyAll, List.foldlM_append]
  rfl

theorem applyAll_singleton (f : PixelFunctions) (config : PreProcessorConfig) (p : Image) :
    applyAll f [config] p = apply f config p := by
  rw [applyAll, List.foldlM_cons]
  exact bind_pure _

/-- A preprocessor that is on. -/
def enabled : PreProcessorConfig → Bool
  | .thresh config => config.enable
  | .channelsFilter config => config.enable
  | .normalize config => config.enable
  | .colorPickFilter config => config.enable
  | .resize config => config.enable
  | .smoothing config => config.enable
  | .other _ => true

theorem apply_of_off {config : PreProcessorConfig} (h : enabled config = false) (p : Image) :
    apply f config p = .ok p := by
  cases config with
  | other => cases h
  | channelsFilter config => exact if_neg fun hon => by simp [enabled, hon.1] at h
  | colorPickFilter config => exact if_neg fun hon => by simp [enabled, hon.1] at h
  | _ config => exact if_neg fun hon => by simp [enabled, hon] at h

/-- A section of the code does what the panel's configuration does. -/
def Same (f : PixelFunctions) (codes : List PreProcessorCode) (config : PreProcessorConfig) : Prop :=
  ∀ p, applyAll f (codes.map PreProcessorCode.build) p = apply f config p

theorem same_of_off {config : PreProcessorConfig} (h : enabled config = false) : Same f [] config :=
  fun p => (apply_of_off h p).symm

theorem same_of_on {code : PreProcessorCode} {config : PreProcessorConfig}
    (h : ∀ p, apply f code.build p = apply f config p) : Same f [code] config :=
  fun p => (applyAll_singleton f _ p).trans (h p)

theorem same_filter (f : PixelFunctions) (panel : DebugPanel) :
    Same f panel.filterCode panel.debugFilterConfig.convertToPreProcessorConfig := by
  unfold DebugPanel.filterCode
  by_cases h : panel.debugFilterConfig.enableRGBFilter = true
  · rw [if_pos h]
    refine same_of_on fun p => ?_
    rw [DebugFilterConfig.convertToPreProcessorConfig, h]
    rfl
  · rw [if_neg h]
    exact same_of_off (Bool.eq_false_of_not_eq_true h)

theorem same_resize (f : PixelFunctions) (panel : DebugPanel) :
    Same f panel.resizeCode panel.debugResizeConfig.convertToResizePreProcessorConfig := by
  unfold DebugPanel.resizeCode
  by_cases h : panel.debugResizeConfig.enableResize = true
  · rw [if_pos h]
    refine same_of_on fun p => ?_
    rw [DebugResizeConfig.convertToResizePreProcessorConfig, h]
    rfl
  · rw [if_neg h]
    exact same_of_off (Bool.eq_false_of_not_eq_true h)

theorem same_normalize (f : PixelFunctions) (panel : DebugPanel) :
    Same f panel.normalizeCode panel.debugNormalizeConfig.convertToNormalizeConfig := by
  unfold DebugPanel.normalizeCode
  by_cases h : panel.debugNormalizeConfig.enableNormalizeFilter = true
  · rw [if_pos h]
    refine same_of_on fun p => ?_
    rw [DebugNormalizeConfig.convertToNormalizeConfig, h]
    rfl
  · rw [if_neg h]
    exact same_of_off (Bool.eq_false_of_not_eq_true h)

theorem deref_eq_ok {α : Type} {a : Option α} {x : α} : deref a = .ok x ↔ a = some x := by
  cases a <;> simp [deref]

theorem same_smoothing {codes : List PreProcessorCode} (hcodes : panel.smoothingCode = .ok codes) :
    Same f codes panel.debugBlurConfig.convertToSmoothingPreProcessorConfig := by
  unfold DebugPanel.smoothingCode at hcodes
  by_cases h : panel.debugBlurConfig.enableSmoothing = true
  · rw [if_pos h] at hcodes
    obtain ⟨type, htype, hcode⟩ := bind_eq_ok.mp hcodes
    obtain rfl := Except.ok.inj hcode
    refine same_of_on fun p => ?_
    rw [DebugBlurConfig.convertToSmoothingPreProcessorConfig, h, deref_eq_ok.mp htype]
    rfl
  · rw [if_neg h] at hcodes
    obtain rfl := Except.ok.inj hcodes
    exact same_of_off (Bool.eq_false_of_not_eq_true h)

theorem same_colorPick {codes : List PreProcessorCode} {config : PreProcessorConfig}
    (hconfig : panel.debugColorPickConfig.convertToColorPickerFilterPreProcessorConfig = .ok config)
    (hcodes : panel.colorPickCode = .ok codes) : Same f codes config := by
  obtain ⟨color, hcolor, hconfig⟩ := bind_eq_ok.mp hconfig
  obtain rfl := Except.ok.inj hconfig
  unfold DebugPanel.colorPickCode at hcodes
  by_cases h : panel.debugColorPickConfig.enableColorPickFilter = true
  · rw [if_pos h] at hcodes
    obtain ⟨color', hcolor', hcodes⟩ := bind_eq_ok.mp hcodes
    obtain ⟨pickType, hpick, hcodes⟩ := bind_eq_ok.mp hcodes
    obtain ⟨maskType, hmask, hcodes⟩ := bind_eq_ok.mp hcodes
    obtain rfl := Except.ok.inj hcodes
    obtain rfl := Except.ok.inj (hcolor.symm.trans hcolor')
    refine same_of_on fun p => ?_
    rw [h, deref_eq_ok.mp hpick, deref_eq_ok.mp hmask]
    rfl
  · rw [if_neg h] at hcodes
    obtain rfl := Except.ok.inj hcodes
    exact same_of_off (Bool.eq_false_of_not_eq_true h)

/-- Otsu's method finds its threshold itself. -/
def IgnoresThresh (f : PixelFunctions) : Prop :=
  ∀ thresh thresh' : ℤ, f.threshold thresh ThreshType.OTSU.cvVal = f.threshold thresh' ThreshType.OTSU.cvVal

/-- What the code leaves out, no call looks at. -/
theorem same_thresh (hotsu : IgnoresThresh f) {codes : List PreProcessorCode} (hcodes : panel.threshCode = .ok codes) :
    Same f codes panel.debugThreshConfig.convertToThreshPreProcessorConfig := by
  unfold DebugPanel.threshCode at hcodes
  by_cases h : panel.debugThreshConfig.enableThresh = true
  · rw [if_pos h] at hcodes
    obtain ⟨threshType, htype, hcode⟩ := bind_eq_ok.mp hcodes
    obtain rfl := Except.ok.inj hcode
    refine same_of_on fun p => ?_
    rw [DebugThreshConfig.convertToThreshPreProcessorConfig, h, deref_eq_ok.mp htype]
    have hcall : ∀ config config', ThreshPreProcessor.call f config .OTSU = ThreshPreProcessor.call f config' .OTSU :=
      fun _ _ => hotsu _ _
    cases threshType with
    | OTSU =>
      unfold apply
      dsimp only
      rw [hcall _ (List.foldl Setter.onThresh ⟨false, 0, false, none, 0, 0⟩ _)]
      rfl
    | _ => rfl
  · rw [if_neg h] at hcodes
    obtain rfl := Except.ok.inj hcodes
    exact same_of_off (Bool.eq_false_of_not_eq_true h)

/-- Sections, one after the other. -/
theorem applyAll_sections {sections : List (List PreProcessorCode)} {configs : List PreProcessorConfig}
    (h : List.Forall₂ (Same f) sections configs) :
    ∀ p, applyAll f (sections.flatten.map PreProcessorCode.build) p = applyAll f configs p := by
  induction h with
  | nil => exact fun p => rfl
  | @cons codes config sections configs hsame _ ih =>
    intro p
    rw [List.flatten_cons, List.map_append, applyAll_append, hsame p, funext ih]
    rfl

theorem unknown_build (code : PreProcessorCode) : unknown code.build = false := by
  obtain ⟨builder, setters⟩ := code
  cases builder <;> rfl

theorem process_eq_applyAll {configs : List PreProcessorConfig} (h : ∀ config ∈ configs, unknown config = false)
    (p : Image) : process f configs p = applyAll f configs p :=
  if_neg (by simpa using h)

theorem known_preProcessorConfigs {configs : List PreProcessorConfig} (h : panel.preProcessorConfigs = .ok configs) :
    ∀ config ∈ configs, unknown config = false := by
  obtain ⟨pick, hpick, hconfigs⟩ := bind_eq_ok.mp h
  obtain rfl := Except.ok.inj hconfigs
  obtain ⟨color, -, hpick⟩ := bind_eq_ok.mp hpick
  obtain rfl := Except.ok.inj hpick
  simp [unknown, DebugFilterConfig.convertToPreProcessorConfig, DebugResizeConfig.convertToResizePreProcessorConfig,
    DebugBlurConfig.convertToSmoothingPreProcessorConfig, DebugNormalizeConfig.convertToNormalizeConfig,
    DebugThreshConfig.convertToThreshPreProcessorConfig]

/-- The preprocessors of the code do what those of the panel do. -/
theorem process_generated (hotsu : IgnoresThresh f) {configs : List PreProcessorConfig} {codes : List PreProcessorCode}
    (hconfigs : panel.preProcessorConfigs = .ok configs) (hcodes : panel.generatePreProcessorCode = .ok codes)
    (p : Image) : process f (codes.map PreProcessorCode.build) p = process f configs p := by
  have hknown := known_preProcessorConfigs hconfigs
  obtain ⟨pick, hpick, hconfigs⟩ := bind_eq_ok.mp hconfigs
  obtain rfl := Except.ok.inj hconfigs
  obtain ⟨smoothing, hsmoothing, hcodes⟩ := bind_eq_ok.mp hcodes
  obtain ⟨colorPick, hcolorPick, hcodes⟩ := bind_eq_ok.mp hcodes
  obtain ⟨thresh, hthresh, hcodes⟩ := bind_eq_ok.mp hcodes
  obtain rfl := Except.ok.inj hcodes
  have hsections := applyAll_sections (.cons (same_filter f panel) (.cons (same_resize f panel)
    (.cons (same_smoothing hsmoothing) (.cons (same_colorPick hpick hcolorPick)
      (.cons (same_normalize f panel) (.cons (same_thresh hotsu hthresh) .nil)))))) p
  rw [process_eq_applyAll (List.forall_mem_map.mpr fun code _ => unknown_build code), process_eq_applyAll hknown]
  simpa using hsections

/-- The engine the code asks for is set up as the panel's is. -/
theorem settings_generated (panel : DebugPanel) (method : Method) :
    ∃ api, buildApiConfig (panel.apiCode method) = .ok api ∧
      settings api = settings ⟨method, panel.debugOcrConfig.whiteList, panel.debugOcrConfig.blackList,
        some panel.debugOcrConfig.pageSegMode, some panel.debugOcrConfig.engineMode⟩ := by
  unfold DebugPanel.apiCode
  dsimp only
  split_ifs <;> refine ⟨_, rfl, ?_⟩ <;> simp_all [settings, setList, ApiSetter.on, isNullOrEmpty]

/-- The matcher is fed the same pixels. -/
theorem fed_generated (hotsu : IgnoresThresh f) {configs : List PreProcessorConfig} {codes : List PreProcessorCode}
    (hconfigs : panel.preProcessorConfigs = .ok configs) (hcodes : panel.generatePreProcessorCode = .ok codes)
    {frame : Mat} {m : Memory} (hm : frame.data < m.next) (ocr : Bool) (area : Area) :
    Detection.fed f frame ⟨ocr, .ok (), some area, codes.map PreProcessorCode.build⟩ m =
      Detection.fed f frame ⟨ocr, .ok (), some area, configs⟩ m := by
  rw [(Detection.detect_spec f hm _).1, (Detection.detect_spec f hm _).1]
  unfold Detection.feed
  dsimp only
  rw [funext (process_generated hotsu hconfigs hcodes)]
  rfl

theorem applyAll_of_both {configs : List PreProcessorConfig} : ∀ {live converted live' converted' : Image},
    configs.foldlM (preProcessBoth f) (live, converted) = .ok (live', converted') →
      applyAll f configs converted = .ok converted' := by
  induction configs with
  | nil =>
    rintro live converted live' converted' ⟨⟩
    rfl
  | cons config configs ih =>
    intro live converted live' converted' h
    obtain ⟨pictures, hboth, hrest⟩ := bind_eq_ok.mp ((List.foldlM_cons ..).symm.trans h)
    obtain ⟨live₁, -, hboth⟩ := bind_eq_ok.mp hboth
    obtain ⟨converted₁, hconverted, hboth⟩ := bind_eq_ok.mp hboth
    obtain rfl := Except.ok.inj hboth
    rw [applyAll, List.foldlM_cons]
    exact bind_eq_ok.mpr ⟨converted₁, hconverted, ih hrest⟩

/-- What a turn that comes to detecting has done: it changes at most the template, which is then that
of the selected picture, and detects with the settings there are. -/
theorem processDebug_ok {images : ImageFunctions} {live : Except JavaException Image} {param : Param}
    {panel' : DebugPanel} (h : processDebug f images live panel = .ok param panel') :
    ∃ configs, panel'.preProcessorConfigs = .ok configs ∧
      ((∃ method template converted, panel'.detectType = .IMAGE_COMPARE ∧ panel'.imageCompareType = some method ∧
          panel' = { panel with template := some template } ∧ applyAll f configs panel.selectedImage = .ok converted ∧
          images.matToJson converted = .ok template ∧
          param = .imageCompare panel'.selectedArea template configs method) ∨
        ∃ method, panel'.detectType = .OCR ∧ panel'.debugOcrConfig.ocrType = some method ∧ panel' = panel ∧
          param = .ocr panel'.selectedArea configs ⟨method, panel'.debugOcrConfig.whiteList,
            panel'.debugOcrConfig.blackList, some panel'.debugOcrConfig.pageSegMode,
            some panel'.debugOcrConfig.engineMode⟩) := by
  rw [processDebug, get_bind_run] at h
  obtain ⟨liveMat, -, h⟩ := ofExcept_bind_eq_ok.mp h
  obtain ⟨configs, hconfigs, h⟩ := ofExcept_bind_eq_ok.mp h
  obtain ⟨⟨liveMat', converted⟩, hboth, h⟩ := ofExcept_bind_eq_ok.mp h
  obtain ⟨-, -, h⟩ := ofExcept_bind_eq_ok.mp h
  obtain ⟨-, -, h⟩ := ofExcept_bind_eq_ok.mp h
  cases htype : panel.detectType with
  | IMAGE_COMPARE =>
    rw [htype] at h
    obtain ⟨template, hjson, h⟩ := ofExcept_bind_eq_ok.mp h
    rw [modify_bind_run] at h
    obtain ⟨method, hmethod, h⟩ := ofExcept_bind_eq_ok.mp h
    cases h
    exact ⟨configs, hconfigs, .inl ⟨method, template, converted, htype, deref_eq_ok.mp hmethod, by rw [htype],
      applyAll_of_both hboth, hjson, rfl⟩⟩
  | OCR =>
    rw [htype] at h
    obtain ⟨method, hmethod, h⟩ := ofExcept_bind_eq_ok.mp h
    cases h
    exact ⟨configs, hconfigs, .inr ⟨method, htype, deref_eq_ok.mp hmethod, rfl, rfl⟩⟩

/-- The constant that the builder calls make detects what the panel has detected in its last turn, on
every frame; and the template is that of the selected picture, as the constant's preprocessors make
it. -/
theorem evaluate_same (hotsu : IgnoresThresh f) {images : ImageFunctions} {live : Except JavaException Image}
    {param : Param} {panel' : DebugPanel} (hturn : processDebug f images live panel = .ok param panel') {code : Code}
    (hcode : panel'.builderCode = .ok code) (matcher : CompareMethod → String → Image → Except JavaException ℚ)
    (tesseract : Tesseract Image) {frame : Mat} {m : Memory} (hm : frame.data < m.next) :
    ∃ constant, code.evaluate = .ok constant ∧
      detectWith f matcher tesseract frame m constant = detectWith f matcher tesseract frame m param ∧
      ∀ area template preProcessors method, constant = .imageCompare area template preProcessors method →
        ∃ converted, process f preProcessors panel.selectedImage = .ok converted ∧
          images.matToJson converted = .ok template := by
  obtain ⟨configs, hconfigs, ⟨method, template, converted, htype, hmethod, hpanel, happly, hjson, rfl⟩ |
    ⟨method, htype, hmethod, hpanel, rfl⟩⟩ := processDebug_ok hturn
  · rw [DebugPanel.builderCode, htype] at hcode
    obtain ⟨method', hmethod', hcode⟩ := bind_eq_ok.mp hcode
    obtain ⟨codes, hcodes, hcode⟩ := bind_eq_ok.mp hcode
    obtain rfl := Except.ok.inj hcode
    obtain rfl := Option.some.inj (hmethod.symm.trans (deref_eq_ok.mp hmethod'))
    have htemplate : panel'.template.getD "null" = template := by rw [hpanel]; rfl
    rw [htemplate]
    refine ⟨_, rfl, ?_, ?_⟩
    · unfold detectWith
      dsimp only
      rw [fed_generated hotsu hconfigs hcodes hm]
    · rintro _ _ _ _ ⟨⟩
      refine ⟨converted, ?_, hjson⟩
      rw [process_generated hotsu hconfigs hcodes, process_eq_applyAll (known_preProcessorConfigs hconfigs), happly]
  · rw [DebugPanel.builderCode, htype] at hcode
    obtain ⟨codes, hcodes, hcode⟩ := bind_eq_ok.mp hcode
    obtain ⟨method', hmethod', hcode⟩ := bind_eq_ok.mp hcode
    obtain rfl := Except.ok.inj hcode
    obtain rfl := Option.some.inj (hmethod.symm.trans (deref_eq_ok.mp hmethod'))
    obtain ⟨api, hapi, hsettings⟩ := settings_generated panel' method
    refine ⟨.ocr panel'.selectedArea (codes.map PreProcessorCode.build) api, ?_, ?_, nofun⟩
    · exact bind_eq_ok.mpr ⟨api, hapi, rfl⟩
    · unfold detectWith
      dsimp only
      rw [fed_generated hotsu hconfigs hcodes hm, hsettings]

end CodeGeneration
end PGCon
