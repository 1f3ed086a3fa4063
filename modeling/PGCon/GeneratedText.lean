/-
# The text of the code

What `generateCode` copies to the clipboard: the builder calls of `PGCon/CodeGeneration.lean`, each in
a line of its own, with the literals in them as Java prints and escapes them.

The text is read back in the same way (`readCode`): the head of the declaration says what is built,
and every line is a call, of the builder that is open then. How a compiler reads a `double` and a
string is a parameter (`Literals`). It gets back what was printed if a number is a finite `double` and
a string is short enough for a class file (`Literals.Reads`, `Code.Readable`).

`generated_same`: the text that is copied after a turn of the panel is the text of a constant that
detects what the panel has detected.
-/
import PGCon.CallLines
import PGCon.CodeGeneration

namespace PGCon
namespace CodeGeneration

open CallLines OcrEngines Pictures Raster

/-! ### Literals -/

/-- How a `double` is printed and a string escaped, and how both are read. -/
structure Literals where
  showDouble : ℚ → String
  escapeJava : String → String
  readDouble : List Char → Option ℚ
  readString : List Char → Option String
  /-- it is the value of a finite `double` -/
  IsDouble : ℚ → Prop
  /-- it is not too long for a class file -/
  IsShort : String → Prop

structure Literals.Reads (lits : Literals) : Prop where
  double : ∀ v, lits.IsDouble v → lits.readDouble (lits.showDouble v).toList = some v
  double_plain : ∀ v, lits.IsDouble v → ∀ c ∈ (lits.showDouble v).toList, IsPlain c
  string : ∀ t, lits.IsShort t → lits.readString (lits.escapeJava t).toList = some t
  string_line : ∀ t, '\n' ∉ (lits.escapeJava t).toList

/-! ### The text -/

/-- The package of the configurations. -/
def CONFIGS : String := "com.duanxr.pgcon.core.preprocessing.config."

def Builder.text : Builder → String
  | .ChannelsFilterPreProcessorConfig => "ChannelsFilterPreProcessorConfig"
  | .ResizePreProcessorConfig => "ResizePreProcessorConfig"
  | .SmoothingPreProcessorConfig => "SmoothingPreProcessorConfig"
  | .ColorPickFilterPreProcessorConfig => "ColorPickFilterPreProcessorConfig"
  | .NormalizePreProcessorConfig => "NormalizePreProcessorConfig"
  | .ThreshPreProcessorConfig => "ThreshPreProcessorConfig"

def smoothingName : SmoothingType → String
  | .AVERAGING => "AVERAGING"
  | .GAUSSIAN => "GAUSSIAN"
  | .MEDIAN => "MEDIAN"
  | .BILATERAL => "BILATERAL"

def pickName : PickType → String
  | .CIE76 => "CIE76"
  | .CIE94 => "CIE94"
  | .CIEDE2000 => "CIEDE2000"
  | .CMC => "CMC"

def maskName : MaskType → String
  | .BLACK => "BLACK"
  | .WHITE => "WHITE"
  | .GARY => "GARY"

def threshName : ThreshType → String
  | .BINARY => "BINARY"
  | .TOZERO => "TOZERO"
  | .TRUNC => "TRUNC"
  | .OTSU => "OTSU"
  | .ADAPTIVE_THRESH_MEAN_C => "ADAPTIVE_THRESH_MEAN_C"
  | .ADAPTIVE_THRESH_GAUSSIAN_C => "ADAPTIVE_THRESH_GAUSSIAN_C"

def methodName : Method → String
  | .NMU => "NMU"
  | .ENG => "ENG"
  | .CHS => "CHS"

def compareName : CompareMethod → String
  | .ORB => "ORB"
  | .TM_SQDIFF => "TM_SQDIFF"
  | .TM_CCORR => "TM_CCORR"
  | .TM_CCOEFF => "TM_CCOEFF"

def Builder.opening (builder : Builder) : String := CONFIGS ++ (builder.text ++ ".builder(")

/-- The constants as they are written. -/
def smoothingText (value : SmoothingType) : String :=
  CONFIGS ++ "SmoothingPreProcessorConfig.SmoothingType." ++ smoothingName value

def pickText (value : PickType) : String := CONFIGS ++ "ColorPickFilterPreProcessorConfig.PickType." ++ pickName value

def maskText (value : MaskType) : String := CONFIGS ++ "ColorPickFilterPreProcessorConfig.MaskType." ++ maskName value

def threshText (value : ThreshType) : String := CONFIGS ++ "ThreshPreProcessorConfig.ThreshType." ++ threshName value

def methodText (value : Method) : String := "OCR.Method." ++ methodName value

def compareText (value : CompareMethod) : String := "ImageCompare.Method." ++ compareName value

/-- The name of a setter. -/
def Setter.name : Setter → String
  | .enable _ => "enable"
  | .redWeight _ => "redWeight"
  | .greenWeight _ => "greenWeight"
  | .blueWeight _ => "blueWeight"
  | .scale _ => "scale"
  | .type _ => "type"
  | .size _ => "size"
  | .sigmaColor _ => "sigmaColor"
  | .sigmaSpace _ => "sigmaSpace"
  | .targetColor _ => "targetColor"
  | .range _ => "range"
  | .pickType _ => "pickType"
  | .maskType _ => "maskType"
  | .inverse _ => "inverse"
  | .binaryThreshold _ => "binaryThreshold"
  | .threshType _ => "threshType"
  | .adaptiveThreshC _ => "adaptiveThreshC"
  | .adaptiveBlockSize _ => "adaptiveBlockSize"

def ApiSetter.name : ApiSetter → String
  | .method _ => "method"
  | .whitelist _ => "whitelist"
  | .blacklist _ => "blacklist"
  | .ocrEngineMode _ => "ocrEngineMode"
  | .pageSegMode _ => "pageSegMode"

/-- A call on a line of its own. -/
def call (name argument : String) : String := "." ++ name ++ "(" ++ argument ++ ")\n"

/-- The heads of the declarations. -/
def compareHead : String := "private static final ImageCompare.Param IMAGE_COMPARE = ImageCompare.Param.builder()"

def ocrHead : String := "private static final OCR.Param param = OCR.Param.builder()"

def finish : String := ".build();"

def areaArgument (area : Area) : String :=
  applied "Area.ofRect" ([area.x, area.y, area.width, area.height].map toString)

section

variable (lits : Literals)

def colorArgument (color : Color) : String :=
  applied "javafx.scene.paint.Color.color" ([color.red, color.green, color.blue].map lits.showDouble)

def quoted (value : String) : String := "\"" ++ lits.escapeJava value ++ "\""

def Setter.argument : Setter → String
  | .enable value | .inverse value => toString value
  | .redWeight value | .greenWeight value | .blueWeight value | .scale value | .sigmaColor value | .sigmaSpace value
  | .range value | .binaryThreshold value => lits.showDouble value
  | .size value | .adaptiveThreshC value | .adaptiveBlockSize value => toString value
  | .type value => smoothingText value
  | .targetColor value => colorArgument lits value
  | .pickType value => pickText value
  | .maskType value => maskText value
  | .threshType value => threshText value

def ApiSetter.argument : ApiSetter → String
  | .method value => methodText value
  | .whitelist value | .blacklist value => quoted lits value
  | .ocrEngineMode value | .pageSegMode value => toString value

def Setter.text (s : Setter) : String := call s.name (s.argument lits)

def ApiSetter.text (s : ApiSetter) : String := call s.name (s.argument lits)

/-- The first line ends with `builder()` and the last one with two brackets: the argument is what is
between the first bracket of the line and the last. -/
def PreProcessorCode.text (c : PreProcessorCode) : String :=
  call "preProcessor" c.builder.opening ++ String.join (c.setters.map (Setter.text lits)) ++ call "build" ")"

def Code.text : Code → String
  | .imageCompare area method preProcessors template =>
    compareHead ++ "\n" ++ call "area" (areaArgument area) ++ call "method" (compareText method) ++
      String.join (preProcessors.map (PreProcessorCode.text lits)) ++ call "template" (quoted lits template) ++ finish
  | .ocr area preProcessors apiConfig =>
    ocrHead ++ "\n" ++ call "area" (areaArgument area) ++
      String.join (preProcessors.map (PreProcessorCode.text lits)) ++ call "apiConfig" "ApiConfig.builder(" ++
      String.join (apiConfig.map (ApiSetter.text lits)) ++ call "build" ")" ++ finish

/-- What is copied to the clipboard. -/
def DebugPanel.generateCode (p : DebugPanel) : Except JavaException String := p.builderCode.map (Code.text lits)

end

/-! ### Words -/

theorem not_mem_configs : '\n' ∉ CONFIGS.toList := by simp [CONFIGS]

def booleans : Words Bool where
  text := toString
  values := [true, false]
  complete value := by cases value <;> simp
  nodup := by decide
  not_mem value := by cases value <;> decide

def smoothingTypes : Words SmoothingType where
  text := smoothingText
  values := [.AVERAGING, .GAUSSIAN, .MEDIAN, .BILATERAL]
  complete value := by cases value <;> simp
  nodup := nodup_append (by decide +kernel) _
  not_mem value := not_mem_append (not_mem_append not_mem_configs (by simp)) (by cases value <;> simp [smoothingName])

def pickTypes : Words PickType where
  text := pickText
  values := [.CIE76, .CIE94, .CIEDE2000, .CMC]
  complete value := by cases value <;> simp
  nodup := nodup_append (by decide +kernel) _
  not_mem value := not_mem_append (not_mem_append not_mem_configs (by simp)) (by cases value <;> simp [pickName])

def maskTypes : Words MaskType where
  text := maskText
  values := [.BLACK, .WHITE, .GARY]
  complete value := by cases value <;> simp
  nodup := nodup_append (by decide +kernel) _
  not_mem value := not_mem_append (not_mem_append not_mem_configs (by simp)) (by cases value <;> simp [maskName])

def threshTypes : Words ThreshType where
  text := threshText
  values := [.BINARY, .TOZERO, .TRUNC, .OTSU, .ADAPTIVE_THRESH_MEAN_C, .ADAPTIVE_THRESH_GAUSSIAN_C]
  complete value := by cases value <;> simp
  nodup := nodup_append (by decide +kernel) _
  not_mem value := not_mem_append (not_mem_append not_mem_configs (by simp)) (by cases value <;> simp [threshName])

def methods : Words Method where
  text := methodText
  values := [.NMU, .ENG, .CHS]
  complete value := by cases value <;> simp
  nodup := nodup_append (by decide +kernel) _
  not_mem value := not_mem_append (by simp) (by cases value <;> simp [methodName])

def compareMethods : Words CompareMethod where
  text := compareText
  values := [.ORB, .TM_SQDIFF, .TM_CCORR, .TM_CCOEFF]
  complete value := by cases value <;> simp
  nodup := nodup_append (by decide +kernel) _
  not_mem value := not_mem_append (by simp) (by cases value <;> simp [compareName])

/-- The classes whose builders are called. -/
def builders : Words Builder where
  text := Builder.opening
  values := [.ChannelsFilterPreProcessorConfig, .ResizePreProcessorConfig, .SmoothingPreProcessorConfig,
    .ColorPickFilterPreProcessorConfig, .NormalizePreProcessorConfig, .ThreshPreProcessorConfig]
  complete builder := by cases builder <;> simp
  nodup := nodup_append (by decide +kernel) _
  not_mem builder :=
    not_mem_append not_mem_configs (not_mem_append (by cases builder <;> simp [Builder.text]) (by simp))

/-! ### Reading -/

section

variable (lits : Literals)

def readColor (t : List Char) : Option Color :=
  match readApplied lits.readDouble "javafx.scene.paint.Color.color" t with
  | some [red, green, blue] => some ⟨red, green, blue⟩
  | _ => none

def readArea (t : List Char) : Option Area :=
  match readApplied readInt "Area.ofRect" t with
  | some [x, y, width, height] => some ⟨x, y, width, height⟩
  | _ => none

def readQuoted : List Char → Option String
  | '"' :: rest => if rest.getLast? = some '"' then lits.readString rest.dropLast else none
  | _ => none

/-- The setters of the builders, with the arguments they take. -/
def setters : List (String × (List Char → Option Setter)) :=
  [("enable", fun t => (booleans.read t).map .enable),
    ("redWeight", fun t => (lits.readDouble t).map .redWeight),
    ("greenWeight", fun t => (lits.readDouble t).map .greenWeight),
    ("blueWeight", fun t => (lits.readDouble t).map .blueWeight),
    ("scale", fun t => (lits.readDouble t).map .scale),
    ("type", fun t => (smoothingTypes.read t).map .type),
    ("size", fun t => (readInt t).map .size),
    ("sigmaColor", fun t => (lits.readDouble t).map .sigmaColor),
    ("sigmaSpace", fun t => (lits.readDouble t).map .sigmaSpace),
    ("targetColor", fun t => (readColor lits t).map .targetColor),
    ("range", fun t => (lits.readDouble t).map .range),
    ("pickType", fun t => (pickTypes.read t).map .pickType),
    ("maskType", fun t => (maskTypes.read t).map .maskType),
    ("inverse", fun t => (booleans.read t).map .inverse),
    ("binaryThreshold", fun t => (lits.readDouble t).map .binaryThreshold),
    ("threshType", fun t => (threshTypes.read t).map .threshType),
    ("adaptiveThreshC", fun t => (readInt t).map .adaptiveThreshC),
    ("adaptiveBlockSize", fun t => (readInt t).map .adaptiveBlockSize)]

def apiSetters : List (String × (List Char → Option ApiSetter)) :=
  [("method", fun t => (methods.read t).map .method),
    ("whitelist", fun t => (readQuoted lits t).map .whitelist),
    ("blacklist", fun t => (readQuoted lits t).map .blacklist),
    ("ocrEngineMode", fun t => (readInt t).map .ocrEngineMode),
    ("pageSegMode", fun t => (readInt t).map .pageSegMode)]

/-- The builder whose calls are read. -/
inductive Open
  | param
  | preProcessor (builder : Builder) (done : List Setter)
  | apiConfig (done : List ApiSetter)

/-- What has been read of a declaration. -/
structure Reading where
  area : Option Area
  method : Option CompareMethod
  preProcessors : List PreProcessorCode
  apiConfig : Option (List ApiSetter)
  template : Option String
  inside : Open

def Reading.start : Reading := ⟨none, none, [], none, none, .param⟩

/-- The calls of the outer builder. -/
def paramCalls (r : Reading) : List (String × (List Char → Option Reading)) :=
  [("area", fun t => (readArea t).map fun area => { r with area := some area }),
    ("method", fun t => (compareMethods.read t).map fun method => { r with method := some method }),
    ("preProcessor", fun t => (builders.read t).map fun builder => { r with inside := .preProcessor builder [] }),
    ("apiConfig", fun t =>
      (lookup [("ApiConfig.builder(", Open.apiConfig [])] t).map fun inside => { r with inside := inside }),
    ("template", fun t => (readQuoted lits t).map fun template => { r with template := some template })]

/-- `.build())`. -/
def close : CallLines.Call := ("build".toList, ")".toList)

def readCall (r : Reading) (c : CallLines.Call) : Option Reading :=
  match r.inside with
  | .param => readWith (paramCalls lits r) c
  | .preProcessor builder done =>
    if c = close then some { r with preProcessors := r.preProcessors ++ [⟨builder, done⟩], inside := .param }
    else (readWith (setters lits) c).map fun setter => { r with inside := .preProcessor builder (done ++ [setter]) }
  | .apiConfig done =>
    if c = close then some { r with apiConfig := some done, inside := .param }
    else (readWith (apiSetters lits) c).map fun setter => { r with inside := .apiConfig (done ++ [setter]) }

/-- What is declared, from the head and all that has been read. -/
def Reading.code (head : List Char) (r : Reading) : Option Code :=
  match r.inside with
  | .param =>
    if head = compareHead.toList then return .imageCompare (← r.area) (← r.method) r.preProcessors (← r.template)
    else if head = ocrHead.toList then return .ocr (← r.area) r.preProcessors (← r.apiConfig)
    else none
  | _ => none

/-- The builder calls that a text says. -/
def readCode (text : String) : Option Code :=
  match text.toList.splitOn '\n' with
  | [] => none
  | head :: lines =>
    if lines.getLast? = some finish.toList then do
      let calls ← lines.dropLast.mapM readLine
      let r ← calls.foldlM (readCall lits) .start
      r.code head
    else none

end

/-! ### Lines -/

section

variable (lits : Literals)

def Setter.call (s : Setter) : CallLines.Call := (s.name.toList, (s.argument lits).toList)

def ApiSetter.call (s : ApiSetter) : CallLines.Call := (s.name.toList, (s.argument lits).toList)

def PreProcessorCode.calls (c : PreProcessorCode) : List CallLines.Call :=
  ("preProcessor".toList, c.builder.opening.toList) :: (c.setters.map (Setter.call lits) ++ [close])

def areaCall (area : Area) : CallLines.Call := ("area".toList, (areaArgument area).toList)

def apiCall : CallLines.Call := ("apiConfig".toList, "ApiConfig.builder(".toList)

def Code.head : Code → String
  | .imageCompare .. => compareHead
  | .ocr .. => ocrHead

/-- The calls of the text, one a line. -/
def Code.calls : Code → List CallLines.Call
  | .imageCompare area method preProcessors template =>
    areaCall area :: ("method".toList, (compareText method).toList) ::
      (preProcessors.flatMap (PreProcessorCode.calls lits) ++ [("template".toList, (quoted lits template).toList)])
  | .ocr area preProcessors apiConfig =>
    areaCall area :: (preProcessors.flatMap (PreProcessorCode.calls lits) ++
      (apiCall :: (apiConfig.map (ApiSetter.call lits) ++ [close])))

end

variable {lits : Literals}

theorem toList_call (name argument : String) :
    (call name argument).toList = lines [(name.toList, argument.toList)] := by
  simp [call, lines, line]

theorem toList_setters (setters : List Setter) :
    (String.join (setters.map (Setter.text lits))).toList = lines (setters.map (Setter.call lits)) := by
  rw [List.map_eq_flatMap (f := Setter.call lits)]
  exact toList_join_map _ _ (fun s => toList_call _ _) setters

theorem toList_apiSetters (setters : List ApiSetter) :
    (String.join (setters.map (ApiSetter.text lits))).toList = lines (setters.map (ApiSetter.call lits)) := by
  rw [List.map_eq_flatMap (f := ApiSetter.call lits)]
  exact toList_join_map _ _ (fun s => toList_call _ _) setters

theorem toList_preProcessor (c : PreProcessorCode) : (c.text lits).toList = lines (c.calls lits) := by
  simp only [PreProcessorCode.text, PreProcessorCode.calls, close, String.toList_append, toList_call, toList_setters,
    lines_cons, lines_append, List.append_assoc, List.cons_append]
  rfl

theorem toList_preProcessors (codes : List PreProcessorCode) :
    (String.join (codes.map (PreProcessorCode.text lits))).toList =
      lines (codes.flatMap (PreProcessorCode.calls lits)) :=
  toList_join_map _ _ toList_preProcessor codes

/-- The text has the head, the calls and the end, each on a line. -/
theorem toList_text (code : Code) :
    (code.text lits).toList = code.head.toList ++ '\n' :: (lines (code.calls lits) ++ finish.toList) := by
  have hbreak : "\n".toList = ['\n'] := rfl
  have hnil : lines [] = [] := rfl
  -- the calls under their names, so that no literal is taken apart
  have harea (area : Area) : (call "area" (areaArgument area)).toList = lines [areaCall area] := toList_call _ _
  have hapi : (call "apiConfig" "ApiConfig.builder(").toList = lines [apiCall] := toList_call _ _
  have hclose : (call "build" ")").toList = lines [close] := toList_call _ _
  cases code with
  | imageCompare area method preProcessors template =>
    simp only [Code.text, Code.head, Code.calls, String.toList_append, hbreak, harea, toList_call, toList_preProcessors,
      lines_cons, lines_append, hnil, List.append_assoc, List.cons_append, List.nil_append]
  | ocr area preProcessors apiConfig =>
    simp only [Code.text, Code.head, Code.calls, String.toList_append, hbreak, harea, hapi, hclose,
      toList_preProcessors, toList_apiSetters, lines_cons, lines_append, hnil, List.append_assoc, List.cons_append,
      List.nil_append]

/-! ### What is read -/

def Setter.doubles : Setter → List ℚ
  | .redWeight value | .greenWeight value | .blueWeight value | .scale value | .sigmaColor value | .sigmaSpace value
  | .range value | .binaryThreshold value => [value]
  | .targetColor value => [value.red, value.green, value.blue]
  | _ => []

def ApiSetter.strings : ApiSetter → List String
  | .whitelist value | .blacklist value => [value]
  | _ => []

theorem readQuoted_quoted (hlits : lits.Reads) {value : String} (h : lits.IsShort value) :
    readQuoted lits (quoted lits value).toList = some value := by
  have hquoted : (quoted lits value).toList = '"' :: ((lits.escapeJava value).toList ++ ['"']) := by
    simp [quoted]
  rw [hquoted, readQuoted, if_pos List.getLast?_concat, List.dropLast_concat, hlits.string value h]

theorem readColor_argument (hlits : lits.Reads) {color : Color}
    (h : ∀ v ∈ [color.red, color.green, color.blue], lits.IsDouble v) :
    readColor lits (colorArgument lits color).toList = some color := by
  rw [readColor, colorArgument, readApplied_applied (fun v hv => hlits.double v (h v hv))
    (fun v hv hc => (hlits.double_plain v (h v hv) _ hc).2 rfl) (List.cons_ne_nil _ _)]

theorem readArea_argument (area : Area) : readArea (areaArgument area).toList = some area := by
  rw [readArea, areaArgument, readApplied_applied (fun z _ => readInt_toString z)
    (fun z _ hc => (isPlain_toString z _ hc).2 rfl) (List.cons_ne_nil _ _)]

theorem nodup_setters (lits : Literals) : ((setters lits).map Prod.fst).Nodup := by
  simp [setters]

theorem nodup_apiSetters (lits : Literals) : ((apiSetters lits).map Prod.fst).Nodup := by
  simp [apiSetters]

theorem nodup_paramCalls (lits : Literals) (r : Reading) : ((paramCalls lits r).map Prod.fst).Nodup := by
  simp [paramCalls]

theorem readWith_setter (hlits : lits.Reads) {s : Setter} (h : ∀ v ∈ s.doubles, lits.IsDouble v) :
    readWith (setters lits) (s.call lits) = some s := by
  have hdouble {v : ℚ} (hv : v ∈ s.doubles) : lits.readDouble (lits.showDouble v).toList = some v :=
    hlits.double v (h v hv)
  have hnodup := nodup_setters lits
  cases s with
  | enable value => exact readWith_entry hnodup (i := 0) rfl (booleans.read_text value)
  | redWeight value => exact readWith_entry hnodup (i := 1) rfl (hdouble (.head _))
  | greenWeight value => exact readWith_entry hnodup (i := 2) rfl (hdouble (.head _))
  | blueWeight value => exact readWith_entry hnodup (i := 3) rfl (hdouble (.head _))
  | scale value => exact readWith_entry hnodup (i := 4) rfl (hdouble (.head _))
  | type value => exact readWith_entry hnodup (i := 5) rfl (smoothingTypes.read_text value)
  | size value => exact readWith_entry hnodup (i := 6) rfl (readInt_toString value)
  | sigmaColor value => exact readWith_entry hnodup (i := 7) rfl (hdouble (.head _))
  | sigmaSpace value => exact readWith_entry hnodup (i := 8) rfl (hdouble (.head _))
  | targetColor value => exact readWith_entry hnodup (i := 9) rfl (readColor_argument hlits h)
  | range value => exact readWith_entry hnodup (i := 10) rfl (hdouble (.head _))
  | pickType value => exact readWith_entry hnodup (i := 11) rfl (pickTypes.read_text value)
  | maskType value => exact readWith_entry hnodup (i := 12) rfl (maskTypes.read_text value)
  | inverse value => exact readWith_entry hnodup (i := 13) rfl (booleans.read_text value)
  | binaryThreshold value => exact readWith_entry hnodup (i := 14) rfl (hdouble (.head _))
  | threshType value => exact readWith_entry hnodup (i := 15) rfl (threshTypes.read_text value)
  | adaptiveThreshC value => exact readWith_entry hnodup (i := 16) rfl (readInt_toString value)
  | adaptiveBlockSize value => exact readWith_entry hnodup (i := 17) rfl (readInt_toString value)

theorem readWith_apiSetter (hlits : lits.Reads) {s : ApiSetter} (h : ∀ t ∈ s.strings, lits.IsShort t) :
    readWith (apiSetters lits) (s.call lits) = some s := by
  have hnodup := nodup_apiSetters lits
  cases s with
  | method value => exact readWith_entry hnodup (i := 0) rfl (methods.read_text value)
  | whitelist value => exact readWith_entry hnodup (i := 1) rfl (readQuoted_quoted hlits (h value (.head _)))
  | blacklist value => exact readWith_entry hnodup (i := 2) rfl (readQuoted_quoted hlits (h value (.head _)))
  | ocrEngineMode value => exact readWith_entry hnodup (i := 3) rfl (readInt_toString value)
  | pageSegMode value => exact readWith_entry hnodup (i := 4) rfl (readInt_toString value)

/-! ### Reading calls one after the other -/

theorem Setter.call_ne_close (s : Setter) : s.call lits ≠ close := by
  intro h
  have hname : s.name = "build" := String.toList_inj.mp (congrArg Prod.fst h)
  cases s <;> simp [Setter.name] at hname

theorem ApiSetter.call_ne_close (s : ApiSetter) : s.call lits ≠ close := by
  intro h
  have hname : s.name = "build" := String.toList_inj.mp (congrArg Prod.fst h)
  cases s <;> simp [ApiSetter.name] at hname

theorem foldlM_setters (hlits : lits.Reads) (r : Reading) (builder : Builder) {ss : List Setter}
    (h : ∀ s ∈ ss, ∀ v ∈ s.doubles, lits.IsDouble v) :
    (ss.map (Setter.call lits)).foldlM (readCall lits) { r with inside := .preProcessor builder [] } =
      some { r with inside := .preProcessor builder ss } := by
  rw [List.map_eq_flatMap]
  refine foldlM_items (fun done => { r with inside := .preProcessor builder done }) (fun s hs done => ?_) []
  refine foldlM_step ?_ rfl
  rw [readCall]
  dsimp only
  rw [if_neg s.call_ne_close, readWith_setter hlits (h s hs), Option.map_some]

theorem foldlM_apiSetters (hlits : lits.Reads) (r : Reading) {ss : List ApiSetter}
    (h : ∀ s ∈ ss, ∀ t ∈ s.strings, lits.IsShort t) :
    (ss.map (ApiSetter.call lits)).foldlM (readCall lits) { r with inside := .apiConfig [] } =
      some { r with inside := .apiConfig ss } := by
  rw [List.map_eq_flatMap]
  refine foldlM_items (fun done => { r with inside := .apiConfig done }) (fun s hs done => ?_) []
  refine foldlM_step ?_ rfl
  rw [readCall]
  dsimp only
  rw [if_neg s.call_ne_close, readWith_apiSetter hlits (h s hs), Option.map_some]

theorem foldlM_preProcessors (hlits : lits.Reads) (area : Area) (method : Option CompareMethod)
    {codes : List PreProcessorCode} (h : ∀ c ∈ codes, ∀ s ∈ c.setters, ∀ v ∈ s.doubles, lits.IsDouble v) :
    (codes.flatMap (PreProcessorCode.calls lits)).foldlM (readCall lits) ⟨some area, method, [], none, none, .param⟩ =
      some ⟨some area, method, codes, none, none, .param⟩ := by
  let state (done : List PreProcessorCode) : Reading := ⟨some area, method, done, none, none, .param⟩
  refine foldlM_items state (fun c hc done => ?_) []
  have hopen : readCall lits (state done) ("preProcessor".toList, c.builder.opening.toList) =
      some { state done with inside := .preProcessor c.builder [] } :=
    readWith_entry (nodup_paramCalls lits _) (i := 2) rfl (builders.read_text c.builder)
  have hclose : readCall lits { state done with inside := .preProcessor c.builder c.setters } close =
      some (state (done ++ [c])) := by
    rw [readCall]
    exact if_pos rfl
  exact foldlM_step hopen (foldlM_trans (foldlM_setters hlits (state done) c.builder (h c hc)) (foldlM_step hclose rfl))

/-! ### The text is read as it was written -/

def Code.preProcessors : Code → List PreProcessorCode
  | .imageCompare _ _ preProcessors _ => preProcessors
  | .ocr _ preProcessors _ => preProcessors

/-- The numbers and the strings of the text. -/
def Code.doubles (code : Code) : List ℚ := code.preProcessors.flatMap fun c => c.setters.flatMap Setter.doubles

def Code.strings : Code → List String
  | .imageCompare _ _ _ template => [template]
  | .ocr _ _ apiConfig => apiConfig.flatMap ApiSetter.strings

structure Code.Readable (lits : Literals) (code : Code) : Prop where
  double : ∀ v ∈ code.doubles, lits.IsDouble v
  string : ∀ t ∈ code.strings, lits.IsShort t

theorem Code.Readable.setters {code : Code} (h : code.Readable lits) :
    ∀ c ∈ code.preProcessors, ∀ s ∈ c.setters, ∀ v ∈ s.doubles, lits.IsDouble v :=
  fun c hc s hs v hv => h.double v (List.mem_flatMap.mpr ⟨c, hc, List.mem_flatMap.mpr ⟨s, hs, hv⟩⟩)

theorem Code.Readable.apiSetters {area : Area} {codes : List PreProcessorCode} {ss : List ApiSetter}
    (h : (Code.ocr area codes ss).Readable lits) : ∀ s ∈ ss, ∀ t ∈ s.strings, lits.IsShort t :=
  fun s hs t ht => h.string t (List.mem_flatMap.mpr ⟨s, hs, ht⟩)

theorem code_compareHead (area : Area) (method : CompareMethod) (codes : List PreProcessorCode) (template : String) :
    Reading.code compareHead.toList ⟨some area, some method, codes, none, some template, .param⟩ =
      some (.imageCompare area method codes template) := by
  rw [Reading.code]
  dsimp only
  rw [if_pos rfl]
  rfl

theorem code_ocrHead (area : Area) (codes : List PreProcessorCode) (ss : List ApiSetter) :
    Reading.code ocrHead.toList ⟨some area, none, codes, some ss, none, .param⟩ = some (.ocr area codes ss) := by
  have hne : ocrHead.toList ≠ compareHead.toList := by decide +kernel
  rw [Reading.code]
  dsimp only
  rw [if_neg hne, if_pos rfl]
  rfl

/-! Every call fits in a line. -/

theorem not_mem_int (z : ℤ) : '\n' ∉ (toString z).toList := fun hc => (isPlain_toString z _ hc).1 rfl

theorem not_mem_quoted (hlits : lits.Reads) (value : String) : '\n' ∉ (quoted lits value).toList :=
  not_mem_append (not_mem_append (by simp) (hlits.string_line value)) (by simp)

theorem Setter.name_fits (s : Setter) : '(' ∉ s.name.toList ∧ '\n' ∉ s.name.toList := by
  cases s <;> simp [Setter.name]

theorem ApiSetter.name_fits (s : ApiSetter) : '(' ∉ s.name.toList ∧ '\n' ∉ s.name.toList := by
  cases s <;> simp [ApiSetter.name]

theorem Setter.not_mem_argument (hlits : lits.Reads) {s : Setter} (h : ∀ v ∈ s.doubles, lits.IsDouble v) :
    '\n' ∉ (s.argument lits).toList := by
  have hdouble (v : ℚ) (hv : v ∈ s.doubles) : '\n' ∉ (lits.showDouble v).toList :=
    fun hc => (hlits.double_plain v (h v hv) _ hc).1 rfl
  cases s with
  | enable value => exact booleans.not_mem value
  | inverse value => exact booleans.not_mem value
  | type value => exact smoothingTypes.not_mem value
  | pickType value => exact pickTypes.not_mem value
  | maskType value => exact maskTypes.not_mem value
  | threshType value => exact threshTypes.not_mem value
  | size value => exact not_mem_int value
  | adaptiveThreshC value => exact not_mem_int value
  | adaptiveBlockSize value => exact not_mem_int value
  | targetColor value => exact not_mem_applied (by simp) (List.forall_mem_map.mpr hdouble)
  | _ value => exact hdouble value (.head _)

theorem ApiSetter.not_mem_argument (hlits : lits.Reads) (s : ApiSetter) : '\n' ∉ (s.argument lits).toList := by
  cases s with
  | method value => exact methods.not_mem value
  | whitelist value => exact not_mem_quoted hlits value
  | blacklist value => exact not_mem_quoted hlits value
  | ocrEngineMode value => exact not_mem_int value
  | pageSegMode value => exact not_mem_int value

theorem fits_literals {name argument : String} (hbracket : '(' ∉ name.toList) (hname : '\n' ∉ name.toList)
    (hargument : '\n' ∉ argument.toList) : Fits (name.toList, argument.toList) :=
  ⟨hbracket, hname, hargument⟩

theorem fits_preProcessors (hlits : lits.Reads) {codes : List PreProcessorCode}
    (h : ∀ c ∈ codes, ∀ s ∈ c.setters, ∀ v ∈ s.doubles, lits.IsDouble v) :
    ∀ c ∈ codes.flatMap (PreProcessorCode.calls lits), Fits c := by
  intro call hcall
  obtain ⟨c, hc, hcall⟩ := List.mem_flatMap.mp hcall
  rcases List.mem_cons.mp hcall with rfl | hcall
  · exact fits_literals (by simp) (by simp) (builders.not_mem c.builder)
  rcases List.mem_append.mp hcall with hcall | hcall
  · obtain ⟨s, hs, rfl⟩ := List.mem_map.mp hcall
    exact ⟨s.name_fits.1, s.name_fits.2, s.not_mem_argument hlits (h c hc s hs)⟩
  · obtain rfl := List.mem_singleton.mp hcall
    exact fits_literals (by simp) (by simp) (by simp)

theorem fits_calls (hlits : lits.Reads) {code : Code} (h : code.Readable lits) : ∀ c ∈ code.calls lits, Fits c := by
  have harea (area : Area) : Fits (areaCall area) := fits_literals (by simp) (by simp)
    (not_mem_applied (by simp) (List.forall_mem_map.mpr fun z _ => not_mem_int z))
  intro call hcall
  cases code with
  | imageCompare area method codes template =>
    rcases List.mem_cons.mp hcall with rfl | hcall
    · exact harea area
    rcases List.mem_cons.mp hcall with rfl | hcall
    · exact fits_literals (by simp) (by simp) (compareMethods.not_mem method)
    rcases List.mem_append.mp hcall with hcall | hcall
    · exact fits_preProcessors hlits h.setters call hcall
    · obtain rfl := List.mem_singleton.mp hcall
      exact fits_literals (by simp) (by simp) (not_mem_quoted hlits template)
  | ocr area codes ss =>
    rcases List.mem_cons.mp hcall with rfl | hcall
    · exact harea area
    rcases List.mem_append.mp hcall with hcall | hcall
    · exact fits_preProcessors hlits h.setters call hcall
    rcases List.mem_cons.mp hcall with rfl | hcall
    · exact fits_literals (by simp) (by simp) (by simp)
    rcases List.mem_append.mp hcall with hcall | hcall
    · obtain ⟨s, -, rfl⟩ := List.mem_map.mp hcall
      exact ⟨s.name_fits.1, s.name_fits.2, s.not_mem_argument hlits⟩
    · obtain rfl := List.mem_singleton.mp hcall
      exact fits_literals (by simp) (by simp) (by simp)

theorem read_calls (hlits : lits.Reads) {code : Code} (h : code.Readable lits) :
    ∃ r, (code.calls lits).foldlM (readCall lits) .start = some r ∧ r.code code.head.toList = some code := by
  have harea (area : Area) :
      readCall lits .start (areaCall area) = some ⟨some area, none, [], none, none, .param⟩ :=
    readWith_entry (nodup_paramCalls lits _) (i := 0) rfl (readArea_argument area)
  cases code with
  | imageCompare area method codes template =>
    have hmethod : readCall lits ⟨some area, none, [], none, none, .param⟩
        ("method".toList, (compareText method).toList) = some ⟨some area, some method, [], none, none, .param⟩ :=
      readWith_entry (nodup_paramCalls lits _) (i := 1) rfl (compareMethods.read_text method)
    have htemplate : readCall lits ⟨some area, some method, codes, none, none, .param⟩
        ("template".toList, (quoted lits template).toList) =
          some ⟨some area, some method, codes, none, some template, .param⟩ :=
      readWith_entry (nodup_paramCalls lits _) (i := 4) rfl (readQuoted_quoted hlits (h.string template (.head _)))
    exact ⟨_, foldlM_step (harea area) (foldlM_step hmethod
      (foldlM_trans (foldlM_preProcessors hlits area _ h.setters) (foldlM_step htemplate rfl))),
      code_compareHead area method codes template⟩
  | ocr area codes ss =>
    have hbuilder : lookup [("ApiConfig.builder(", Open.apiConfig [])] "ApiConfig.builder(".toList =
        some (.apiConfig []) :=
      lookup_of_mem (by simp) (.head _)
    let r : Reading := ⟨some area, none, codes, none, none, .param⟩
    have hopen : readCall lits r apiCall = some { r with inside := .apiConfig [] } :=
      readWith_entry (nodup_paramCalls lits _) (i := 3) rfl hbuilder
    have hclose : readCall lits { r with inside := .apiConfig ss } close = some { r with apiConfig := some ss } := by
      rw [readCall]
      exact if_pos rfl
    exact ⟨_, foldlM_step (harea area) (foldlM_trans (foldlM_preProcessors hlits area _ h.setters)
      (foldlM_step hopen (foldlM_trans (foldlM_apiSetters hlits r h.apiSetters) (foldlM_step hclose rfl)))),
      code_ocrHead area codes ss⟩

/-- A text says the calls that it was made of. -/
theorem readCode_text (hlits : lits.Reads) {code : Code} (h : code.Readable lits) :
    readCode lits (code.text lits) = some code := by
  have hhead : '\n' ∉ code.head.toList := by cases code <;> simp [Code.head, compareHead, ocrHead]
  have hfinish : '\n' ∉ finish.toList := by simp [finish]
  have hfits := fits_calls hlits h
  have hlines : ∀ l ∈ code.head.toList :: (code.calls lits).map line, '\n' ∉ l :=
    List.forall_mem_cons.mpr ⟨hhead, List.forall_mem_map.mpr fun c hc => (hfits c hc).not_mem_line⟩
  have hsplit : (code.text lits).toList.splitOn '\n' =
      code.head.toList :: ((code.calls lits).map line ++ [finish.toList]) := by
    rw [← List.cons_append, ← splitOn_lines hlines hfinish, toList_text, List.flatMap_cons]
    simp [lines]
  obtain ⟨r, hr, hcode⟩ := read_calls hlits h
  rw [readCode, hsplit]
  dsimp only
  rw [if_pos List.getLast?_concat, List.dropLast_concat, mapM_readLine hfits, Option.bind_eq_bind, Option.bind_some, hr]
  exact hcode

/-- The text copied after a turn of the panel is that of builder calls whose constant detects on every
frame what the panel has detected in that turn, if its numbers and strings are such as a compiler
reads; and the template in it is that of the selected picture, as the constant's own preprocessors
make it. -/
theorem generated_same {f : PixelFunctions} (hotsu : IgnoresThresh f) (hlits : lits.Reads) {images : ImageFunctions}
    {live : Except JavaException Image} {panel panel' : DebugPanel} {param : Param}
    (hturn : processDebug f images live panel = .ok param panel') {text : String}
    (htext : panel'.generateCode lits = .ok text)
    (hreadable : ∀ code, panel'.builderCode = .ok code → code.Readable lits)
    (matcher : CompareMethod → String → Image → Except JavaException ℚ) (tesseract : Tesseract Image) {frame : Mat}
    {m : Memory} (hm : frame.data < m.next) :
    ∃ code constant, readCode lits text = some code ∧ code.evaluate = .ok constant ∧
      detectWith f matcher tesseract frame m constant = detectWith f matcher tesseract frame m param ∧
      ∀ area template preProcessors method, constant = .imageCompare area template preProcessors method →
        ∃ converted, process f preProcessors panel.selectedImage = .ok converted ∧
          images.matToJson converted = .ok template := by
  cases hcode : panel'.builderCode with
  | error e =>
    rw [DebugPanel.generateCode, hcode] at htext
    cases htext
  | ok code =>
    rw [DebugPanel.generateCode, hcode] at htext
    obtain rfl := Except.ok.inj htext
    obtain ⟨constant, hconstant, hsame⟩ := evaluate_same hotsu hturn hcode matcher tesseract hm
    exact ⟨code, constant, readCode_text hlits (hreadable code hcode), hconstant, hsame⟩

/-! A panel of each kind, with literals of two numbers and of strings that need escapes. -/

def escapeChar (c : Char) : List Char :=
  if c = '"' then ['\\', '"'] else if c = '\\' then ['\\', '\\'] else if c = '\n' then ['\\', 'n'] else [c]

def unescape : List Char → Option (List Char)
  | [] => some []
  | ['\\'] => none
  | '\\' :: c :: rest => (unescape rest).map fun t => (if c = 'n' then '\n' else c) :: t
  | c :: rest => (unescape rest).map fun t => c :: t

theorem unescape_escape : ∀ t : List Char, unescape (t.flatMap escapeChar) = some t
  | [] => rfl
  | c :: t => by
    rw [List.flatMap_cons]
    have ih := unescape_escape t
    by_cases hquote : c = '"'
    · subst hquote
      simp [escapeChar, unescape, ih]
    by_cases hbackslash : c = '\\'
    · subst hbackslash
      simp [escapeChar, unescape, ih]
    by_cases hbreak : c = '\n'
    · subst hbreak
      simp [escapeChar, unescape, ih]
    simp [escapeChar, hquote, hbackslash, hbreak, unescape, ih]

/-- A half and one. -/
def halves : Literals where
  showDouble v := if v = 1 / 2 then "0.5" else "1.0"
  escapeJava t := String.ofList (t.toList.flatMap escapeChar)
  readDouble := lookup [("0.5", 1 / 2), ("1.0", 1)]
  readString t := (unescape t).map String.ofList
  IsDouble v := v = 1 / 2 ∨ v = 1
  IsShort t := t.utf8ByteSize ≤ 65535

theorem halves_reads : halves.Reads where
  double v hv := by
    rcases hv with rfl | rfl <;> decide +kernel
  double_plain v hv := by
    rcases hv with rfl | rfl <;> simp [halves, IsPlain]
  string t _ := by
    simp [halves, unescape_escape]
  string_line t := by
    simp only [halves, String.toList_ofList, List.mem_flatMap, not_exists, not_and]
    intro c _
    unfold escapeChar
    split_ifs with hquote hbackslash hbreak <;> simp
    exact fun h => hbreak h.symm

/-- Pictures stay as they are, but for a threshold; Otsu's finds every sample above its own. -/
def levels : PixelFunctions where
  cvtColor _ _ _ _ _ := .ok fun _ _ _ => 0
  transform _ _ _ := fun _ _ _ s => .ok s
  threshold thresh type := fun _ _ _ s => .ok fun i j k =>
    if type = ThreshType.OTSU.cvVal ∨ thresh < (s i j k).toNat then 255 else 0
  adaptiveThreshold _ _ _ := fun _ _ _ s => .ok s
  normalize := fun _ _ _ s => .ok s
  blur _ := fun _ _ _ s => .ok s
  medianBlur _ := fun _ _ _ s => .ok s
  bilateralFilter _ _ _ := fun _ _ _ s => .ok s
  gaussianBlur _ _ := fun _ _ _ s => .ok s
  resize _ _ p := .ok p
  distance _ _ _ := 1
  distance_nonneg _ _ _ := zero_le_one

theorem levels_ignoresThresh : IgnoresThresh levels := fun thresh thresh' => by simp [levels]

/-- A template says whether all is white. -/
def whiteness : ImageFunctions where
  matToBufferedImage _ := .ok ()
  matToJson p := .ok (if ∀ i j k, p.samples i j k = 255 then "\x7b\"white\":1\x7d" else "\x7b\"white\":0\x7d")

/-- Two gray pixels, scaled and then made black or white by Otsu's method. -/
def grayPanel (detectType : DetectType) : DebugPanel where
  debugFilterConfig := ⟨false, 1, 1, 1⟩
  debugResizeConfig := ⟨true, 1 / 2⟩
  debugBlurConfig := ⟨false, 3, 0, 0, none⟩
  debugColorPickConfig := ⟨false, some ⟨1, 1, 1⟩, 1 / 2, false, none, none⟩
  debugNormalizeConfig := ⟨false⟩
  debugThreshConfig := ⟨true, 1 / 2, false, some .OTSU, 2, 11⟩
  detectType := detectType
  imageCompareType := some .TM_CCOEFF
  debugOcrConfig := ⟨some .NMU, some "\"\\\n", some "", 7, 3⟩
  selectedArea := ⟨0, 0, 2, 1⟩
  selectedImage := ⟨1, 2, 1, fun _ _ _ => 9⟩
  template := none

/-- What a turn detects with, and the constants that are copied then. -/
def shownConfigs : List PreProcessorConfig :=
  [.channelsFilter ⟨false, 1, 1, 1⟩, .resize ⟨true, min (1 / 2) 10⟩, .smoothing ⟨false, 3, 0, 0, none⟩,
    .colorPickFilter ⟨false, some ⟨1, 1, 1⟩, false, 1 / 2, none, none⟩, .normalize ⟨false⟩,
    .thresh ⟨true, 1 / 2, false, some .OTSU, 2, 11⟩]

def shownCompare : Param := .imageCompare ⟨0, 0, 2, 1⟩ "\x7b\"white\":1\x7d" shownConfigs .TM_CCOEFF

def shownOcr : Param := .ocr ⟨0, 0, 2, 1⟩ shownConfigs ⟨.NMU, some "\"\\\n", some "", some 7, some 3⟩

def copiedCodes : List PreProcessorCode :=
  [⟨.ResizePreProcessorConfig, [.enable true, .scale (1 / 2)]⟩,
    ⟨.ThreshPreProcessorConfig, [.enable true, .inverse false, .threshType .OTSU]⟩]

def copiedConfigs : List PreProcessorConfig :=
  [.resize ⟨true, 1 / 2⟩, .thresh ⟨true, 0, false, some .OTSU, 0, 0⟩]

def copiedCompare : Param := .imageCompare ⟨0, 0, 2, 1⟩ "\x7b\"white\":1\x7d" copiedConfigs .TM_CCOEFF

def copiedOcr : Param := .ocr ⟨0, 0, 2, 1⟩ copiedConfigs ⟨.NMU, some "\"\\\n", none, some 7, none⟩

theorem doubles_copied : ∀ v ∈ copiedCodes.flatMap fun c => c.setters.flatMap Setter.doubles, halves.IsDouble v := by
  simp [copiedCodes, Setter.doubles, halves]

/-- Of six preprocessors and four settings, the code keeps two and two. There are quotes, a backslash
and a line break in the strings. -/
theorem generated_same_panels :
    (∃ panel' text code, processDebug levels whiteness (.ok ⟨1, 2, 1, fun _ _ _ => 0⟩) (grayPanel .IMAGE_COMPARE) =
        .ok shownCompare panel' ∧
      panel'.generateCode halves = .ok text ∧ readCode halves text = some code ∧ code.evaluate = .ok copiedCompare ∧
      detectWith levels (fun _ _ _ => .ok 1) (fun _ _ => ("", 0)) ⟨0, 0, 0, 1, 2, 1⟩ ⟨1, fun _ _ _ _ => 9⟩
          copiedCompare =
        detectWith levels (fun _ _ _ => .ok 1) (fun _ _ => ("", 0)) ⟨0, 0, 0, 1, 2, 1⟩ ⟨1, fun _ _ _ _ => 9⟩
          shownCompare) ∧
    ∃ panel' text code, processDebug levels whiteness (.ok ⟨1, 2, 1, fun _ _ _ => 0⟩) (grayPanel .OCR) =
        .ok shownOcr panel' ∧
      panel'.generateCode halves = .ok text ∧ readCode halves text = some code ∧ code.evaluate = .ok copiedOcr ∧
      detectWith levels (fun _ _ _ => .ok 1) (fun settings _ => ("", settings.length)) ⟨0, 0, 0, 1, 2, 1⟩
          ⟨1, fun _ _ _ _ => 9⟩ copiedOcr =
        detectWith levels (fun _ _ _ => .ok 1) (fun settings _ => ("", settings.length)) ⟨0, 0, 0, 1, 2, 1⟩
          ⟨1, fun _ _ _ _ => 9⟩ shownOcr := by
  have hm : (⟨0, 0, 0, 1, 2, 1⟩ : Mat).data < (⟨1, fun _ _ _ _ => 9⟩ : Memory).next := by decide
  constructor
  · let panel' : DebugPanel := { grayPanel .IMAGE_COMPARE with template := some "\x7b\"white\":1\x7d" }
    let code : Code := .imageCompare ⟨0, 0, 2, 1⟩ .TM_CCOEFF copiedCodes "\x7b\"white\":1\x7d"
    have hturn : processDebug levels whiteness (.ok ⟨1, 2, 1, fun _ _ _ => 0⟩) (grayPanel .IMAGE_COMPARE) =
        .ok shownCompare panel' := rfl
    have hcode : panel'.builderCode = .ok code := by decide +kernel
    have hevaluate : code.evaluate = .ok copiedCompare := by decide +kernel
    have hreadable : code.Readable halves := ⟨doubles_copied, by simp only [code, Code.strings, halves]; decide +kernel⟩
    have htext : panel'.generateCode halves = .ok (code.text halves) := by
      rw [DebugPanel.generateCode, hcode]
      rfl
    obtain ⟨code', constant, hread, hconstant, hsame, -⟩ := generated_same levels_ignoresThresh halves_reads hturn htext
      (fun code' hcode' => Except.ok.inj (hcode.symm.trans hcode') ▸ hreadable) (fun _ _ _ => .ok 1)
      (fun _ _ => ("", 0)) hm
    obtain rfl := Option.some.inj ((readCode_text halves_reads hreadable).symm.trans hread)
    obtain rfl := Except.ok.inj (hevaluate.symm.trans hconstant)
    exact ⟨panel', _, code, hturn, htext, hread, hevaluate, hsame⟩
  · let code : Code := .ocr ⟨0, 0, 2, 1⟩ copiedCodes [.method .NMU, .whitelist "\"\\\n", .pageSegMode 7]
    have hturn : processDebug levels whiteness (.ok ⟨1, 2, 1, fun _ _ _ => 0⟩) (grayPanel .OCR) =
        .ok shownOcr (grayPanel .OCR) := rfl
    have hcode : (grayPanel .OCR).builderCode = .ok code := by decide +kernel
    have hevaluate : code.evaluate = .ok copiedOcr := by decide +kernel
    have hreadable : code.Readable halves := ⟨doubles_copied, by simp only [code, Code.strings, halves]; decide +kernel⟩
    have htext : (grayPanel .OCR).generateCode halves = .ok (code.text halves) := by
      rw [DebugPanel.generateCode, hcode]
      rfl
    obtain ⟨code', constant, hread, hconstant, hsame, -⟩ := generated_same levels_ignoresThresh halves_reads hturn htext
      (fun code' hcode' => Except.ok.inj (hcode.symm.trans hcode') ▸ hreadable) (fun _ _ _ => .ok 1)
      (fun settings _ => ("", settings.length)) hm
    obtain rfl := Option.some.inj ((readCode_text halves_reads hreadable).symm.trans hread)
    obtain rfl := Except.ok.inj (hevaluate.symm.trans hconstant)
    exact ⟨grayPanel .OCR, _, code, hturn, htext, hread, hevaluate, hsame⟩

end CodeGeneration
end PGCon
