/-
# Selecting a part of the screen

The screen shows the frame resized to the window (`DisplayService.renderScreen`). In debug mode a
rectangle dragged with the mouse is scaled up to the frame (`screenToInput`), cut out of it and
handed to the debug panel; the areas detected are scaled down and drawn (`inputToScreen`).

Sizes are scaled by `double`s. The scale is exact where the size of the window divides that of the
input, as the application's 960 by 540 and 1920 by 1080 do, and products and quotients are
rational numbers here. Coordinates are far from the bounds of an `int`.

A gesture is a press, drags and a release. Unless the mode changes during a gesture or a release
throws, the panel is given exactly the gestures' rectangles that are not empty and lie on the screen
(`Inv`), and each as the pixels the screen shows there (`captureOf_spec`), for frames that have their
bands in the default order.
-/
import PGCon.Machine
import PGCon.Detection
import PGCon.Subimages
import PGCon.ImageResize

namespace PGCon
namespace Selection

open Machine Images ImageResize Resampling

/-! ### Coordinates -/

/-- `(int) x`: towards zero. -/
def toInt (x : ℚ) : ℤ := if 0 ≤ x then ⌊x⌋ else ⌈x⌉

structure Point where
  x : ℤ
  y : ℤ
  deriving DecidableEq, Repr

/-- The sizes of a configuration. -/
structure Size where
  width : ℕ
  height : ℕ
  deriving DecidableEq, Repr

/-- `Area.ofRect(double, double, double, double)`. -/
def ofRect (x y weight high : ℚ) : Area := ⟨toInt x, toInt y, toInt weight, toInt high⟩

/-- `Area.ofPoints(int, int, int, int)`. -/
def ofPoints (p q : Point) : Area :=
  let x := min p.x q.x
  let y := min p.y q.y
  ⟨x, y, max p.x q.x - x, max p.y q.y - y⟩

section

-- `InputConfig` and `GuiConfig`
variable (input gui : Size)

def xScale : ℚ := input.width / gui.width
def yScale : ℚ := input.height / gui.height

def screenToInput (screen : Area) : Area :=
  ofRect (screen.x * xScale input gui) (screen.y * yScale input gui) (screen.width * xScale input gui)
    (screen.height * yScale input gui)

def inputToScreen (area : Area) : Area :=
  ofRect (area.x / xScale input gui) (area.y / yScale input gui) (area.width / xScale input gui)
    (area.height / yScale input gui)

/-! ### The mouse -/

/-- `getSubimage`, with `none` for a `RasterFormatException`. -/
def subimage (image : BufferedImage) (area : Area) : Option BufferedImage :=
  if 0 ≤ area.x ∧ 0 ≤ area.y ∧ 0 ≤ area.width ∧ 0 ≤ area.height then
    (getSubimage image area.x.toNat area.y.toNat area.width.toNat area.height.toNat).toOption
  else none

/-- What `debugPanel.openPanel` is called with. -/
structure Capture where
  area : Area
  image : BufferedImage

/-- A press, the points dragged to since, and the frame there was at the release, if any. -/
structure Gesture where
  start : Point
  drags : List Point
  frame : Option BufferedImage

/-- The panel with the mouse. `gesture` is the press and the drags of a gesture that is not over;
`gestures` are those released in debug mode. -/
structure State where
  enableDebug : Bool
  pointStart : Option Point
  pointEnd : Option Point
  /-- `frameCacheService.getFrame().getImage()` -/
  frame : Option BufferedImage
  captures : List Capture
  gesture : Option (Point × List Point)
  gestures : List Gesture

/-- `captureCanvasSelection`, with `saved` for whether the picture can be saved to a file; `none`
is an exception other than the one that is caught. -/
def captureCanvasSelection (start stop : Point) (saved : Bool) (s : State) : Option State :=
  let area := screenToInput input gui (ofPoints start stop)
  match s.frame with
  | none => none
  | some frame => match subimage frame area with
    | none => some s
    | some selectedImage =>
      if saved then some { s with captures := s.captures ++ [⟨area, selectedImage⟩] } else none

def onCanvasMousePressed (p : Point) (s : State) : State :=
  if s.enableDebug then { s with pointStart := some p } else s

def onCanvasMouseDragged (p : Point) (s : State) : State :=
  if s.enableDebug then { s with pointEnd := some p } else s

/-- `onCanvasMouseReleased`; what it throws is caught by `callbackWithExceptionCatch`, and leaves
the points as they are. -/
def onCanvasMouseReleased (saved : Bool) (s : State) : State :=
  if s.enableDebug then
    match s.pointStart, s.pointEnd with
    | some start, some stop => match captureCanvasSelection input gui start stop saved s with
      | some s => { s with pointStart := none, pointEnd := none }
      | none => s
    | _, _ => { s with pointStart := none, pointEnd := none }
  else s

/-! ### Runs -/

/-- What happens: the mouse at a position, the debug button, and a new frame. -/
inductive Action
  | press (x y : ℚ)
  | drag (x y : ℚ)
  | release (saved : Bool)
  | setDebug (enable : Bool)
  | setFrame (frame : BufferedImage)

def step (s : State) : Action → Option State
  | .press x y => match s.gesture with
    | some _ => none
    | none =>
      let p : Point := ⟨toInt x, toInt y⟩
      some { onCanvasMousePressed p s with gesture := some (p, []) }
  | .drag x y => s.gesture.map fun g =>
      let p : Point := ⟨toInt x, toInt y⟩
      { onCanvasMouseDragged p s with gesture := some (g.1, g.2 ++ [p]) }
  | .release saved => s.gesture.map fun g =>
      { onCanvasMouseReleased input gui saved s with
        gesture := none
        gestures := s.gestures ++ if s.enableDebug then [⟨g.1, g.2, s.frame⟩] else [] }
  | .setDebug enable => some { s with enableDebug := enable }
  | .setFrame frame => some { s with frame := some frame }

/-- The mode does not change during a gesture, and a release that comes to capturing does not throw. -/
def calm (s : State) : Action → Prop
  | .setDebug _ => s.gesture = none
  | .release saved => s.enableDebug = true → ∀ start stop, s.pointStart = some start → s.pointEnd = some stop →
      (captureCanvasSelection input gui start stop saved s).isSome = true
  | _ => True

def init : State := ⟨false, none, none, none, [], none, []⟩

/-- What a gesture gives the panel. -/
def captureOf (g : Gesture) : Option Capture :=
  g.drags.getLast?.bind fun stop =>
    let area := screenToInput input gui (ofPoints g.start stop)
    (g.frame.bind fun frame => subimage frame area).map (⟨area, ·⟩)

end

/-! ### Which captures there are -/

/-- The points are those of the gesture, and there are none outside of one. -/
structure Inv (input gui : Size) (s : State) : Prop where
  outside : s.gesture = none → s.pointStart = none ∧ s.pointEnd = none
  during : ∀ g, s.gesture = some g → s.pointStart = (if s.enableDebug then some g.1 else none) ∧
    s.pointEnd = if s.enableDebug then g.2.getLast? else none
  captured : s.captures = s.gestures.filterMap (captureOf input gui)

theorem inv_init (input gui : Size) : Inv input gui init := ⟨fun _ => ⟨rfl, rfl⟩, nofun, rfl⟩

section

variable {input gui : Size} {s : State}

theorem Inv.press (h : Inv input gui s) (hg : s.gesture = none) (p : Point) :
    Inv input gui { onCanvasMousePressed p s with gesture := some (p, []) } := by
  obtain ⟨hstart, hend⟩ := h.outside hg
  unfold onCanvasMousePressed
  split
  · rename_i hdebug
    refine ⟨nofun, fun g heq => ?_, h.captured⟩
    obtain rfl := Option.some.inj heq
    simp [hdebug, hend]
  · rename_i hdebug
    refine ⟨nofun, fun g heq => ?_, h.captured⟩
    obtain rfl := Option.some.inj heq
    simp [hdebug, hstart, hend]

theorem Inv.drag (h : Inv input gui s) {g : Point × List Point} (hg : s.gesture = some g) (p : Point) :
    Inv input gui { onCanvasMouseDragged p s with gesture := some (g.1, g.2 ++ [p]) } := by
  obtain ⟨hstart, hend⟩ := h.during g hg
  unfold onCanvasMouseDragged
  split
  · rename_i hdebug
    refine ⟨nofun, fun g' heq => ?_, h.captured⟩
    obtain rfl := Option.some.inj heq
    simp [hdebug, hstart]
  · rename_i hdebug
    refine ⟨nofun, fun g' heq => ?_, h.captured⟩
    obtain rfl := Option.some.inj heq
    simp [hdebug, hstart, hend]

/-- A capture that does not throw hands over what the gesture gives. -/
theorem captureCanvasSelection_eq {g : Point × List Point} {stop : Point} (hlast : g.2.getLast? = some stop)
    {saved : Bool}
    (hcalm : (captureCanvasSelection input gui g.1 stop saved s).isSome = true) :
    captureCanvasSelection input gui g.1 stop saved s =
      some { s with captures := s.captures ++ (captureOf input gui ⟨g.1, g.2, s.frame⟩).toList } := by
  unfold captureCanvasSelection at hcalm ⊢
  unfold captureOf
  cases hframe : s.frame with
  | none => simp [hframe] at hcalm
  | some frame =>
    simp only [hframe, hlast, Option.bind_some] at hcalm ⊢
    cases hsub : subimage frame (screenToInput input gui (ofPoints g.1 stop)) with
    | none => simp [← hframe]
    | some image =>
      simp only [hsub] at hcalm ⊢
      cases saved with
      | true => rfl
      | false => simp at hcalm

/-- A release in debug mode forgets the points, and hands over what the gesture gives. -/
theorem onCanvasMouseReleased_eq (h : Inv input gui s) {g : Point × List Point} (hg : s.gesture = some g)
    {saved : Bool} (hcalm : calm input gui s (.release saved)) (hdebug : s.enableDebug = true) :
    onCanvasMouseReleased input gui saved s = { s with
      pointStart := none
      pointEnd := none
      captures := s.captures ++ (captureOf input gui ⟨g.1, g.2, s.frame⟩).toList } := by
  obtain ⟨hstart, hend⟩ := h.during g hg
  rw [if_pos hdebug] at hstart hend
  unfold onCanvasMouseReleased
  rw [if_pos hdebug, hstart, hend]
  cases hlast : g.2.getLast? with
  | none => simp [captureOf, hlast]
  | some stop =>
    dsimp only
    rw [captureCanvasSelection_eq hlast (hcalm hdebug g.1 stop hstart (hend.trans hlast))]

theorem Inv.release (h : Inv input gui s) {g : Point × List Point} (hg : s.gesture = some g) {saved : Bool}
    (hcalm : calm input gui s (.release saved)) :
    Inv input gui { onCanvasMouseReleased input gui saved s with
      gesture := none
      gestures := s.gestures ++ if s.enableDebug then [⟨g.1, g.2, s.frame⟩] else [] } := by
  by_cases hdebug : s.enableDebug = true
  · rw [onCanvasMouseReleased_eq h hg hcalm hdebug, if_pos hdebug]
    refine ⟨fun _ => ⟨rfl, rfl⟩, nofun, ?_⟩
    dsimp only
    rw [h.captured, List.filterMap_append, List.filterMap_cons, List.filterMap_nil]
    cases captureOf input gui ⟨g.1, g.2, s.frame⟩ <;> rfl
  · obtain ⟨hstart, hend⟩ := h.during g hg
    rw [if_neg hdebug] at hstart hend
    unfold onCanvasMouseReleased
    rw [if_neg hdebug, if_neg hdebug]
    exact ⟨fun _ => ⟨hstart, hend⟩, nofun, by rw [List.append_nil]; exact h.captured⟩

theorem inv_step {s' : State} {a : Action} (h : Inv input gui s) (hcalm : calm input gui s a)
    (hs : step input gui s a = some s') : Inv input gui s' := by
  cases a with
  | press x y =>
    cases hg : s.gesture with
    | some g => simp [step, hg] at hs
    | none =>
      simp only [step, hg, Option.some.injEq] at hs
      exact hs ▸ h.press hg _
  | drag x y =>
    obtain ⟨g, hg, rfl⟩ := Option.map_eq_some_iff.mp hs
    exact h.drag hg _
  | release saved =>
    obtain ⟨g, hg, rfl⟩ := Option.map_eq_some_iff.mp hs
    exact h.release hg hcalm
  | setDebug enable =>
    obtain rfl := Option.some.inj hs
    refine ⟨h.outside, fun g hg => ?_, h.captured⟩
    exact absurd (hcalm.symm.trans hg) nofun
  | setFrame frame =>
    obtain rfl := Option.some.inj hs
    exact ⟨h.outside, h.during, h.captured⟩

end

/-! ### What a capture shows -/

theorem toInt_intCast (z : ℤ) : toInt z = z := by
  unfold toInt
  split
  · exact Int.floor_intCast z
  · exact Int.ceil_intCast z

/-- The window divides the input, `kx` times in width and `ky` times in height. -/
structure Scales (input gui : Size) (kx ky : ℕ) : Prop where
  width_pos : 0 < gui.width
  height_pos : 0 < gui.height
  width : input.width = kx * gui.width
  height : input.height = ky * gui.height
  kx_pos : 0 < kx
  ky_pos : 0 < ky

/-- The rectangle is not empty and lies on the screen. -/
def OnScreen (gui : Size) (r : Area) : Prop :=
  0 ≤ r.x ∧ 0 ≤ r.y ∧ 0 < r.width ∧ 0 < r.height ∧ r.x + r.width ≤ gui.width ∧ r.y + r.height ≤ gui.height

/-- The capture is the part of the frame under this rectangle of the screen: as many times as large,
the frame's pixels at its area, and seen from the screen its pixels are those of the capture, at
the corners of their blocks. Its area is drawn where the rectangle was. -/
structure Exact (input gui : Size) (kx ky bands : ℕ) (frame : BufferedImage) (r : Area) (c : Capture) : Prop where
  area : c.area = ⟨kx * r.x, ky * r.y, kx * r.width, ky * r.height⟩
  back : inputToScreen input gui c.area = r
  width : (c.image.width : ℤ) = kx * r.width
  height : (c.image.height : ℤ) = ky * r.height
  cut : ∀ i j, ∀ k < bands, c.image.sample i j k = frame.sample (c.area.y.toNat + i) (c.area.x.toNat + j) k
  shown : ∃ screen, resize frame gui.width gui.height = .ok screen ∧
    ∀ i < r.height.toNat, ∀ j < r.width.toNat, ∀ k < bands,
      screen.sample (r.y.toNat + i) (r.x.toNat + j) k = c.image.sample (ky * i) (kx * j) k

section

variable {input gui : Size} {kx ky : ℕ} (hscale : Scales input gui kx ky)
include hscale

theorem xScale_eq : xScale input gui = kx := by
  have hpos : (gui.width : ℚ) ≠ 0 := by exact_mod_cast hscale.width_pos.ne'
  rw [xScale, hscale.width, Nat.cast_mul, mul_div_cancel_right₀ _ hpos]

theorem yScale_eq : yScale input gui = ky := by
  have hpos : (gui.height : ℚ) ≠ 0 := by exact_mod_cast hscale.height_pos.ne'
  rw [yScale, hscale.height, Nat.cast_mul, mul_div_cancel_right₀ _ hpos]

theorem screenToInput_eq (r : Area) :
    screenToInput input gui r = ⟨kx * r.x, ky * r.y, kx * r.width, ky * r.height⟩ := by
  have hmul : ∀ (z : ℤ) (n : ℕ), toInt ((z : ℚ) * n) = n * z := by
    intro z n
    rw [mul_comm (n : ℤ) z, ← toInt_intCast (z * n)]
    push_cast
    rfl
  simp only [screenToInput, ofRect, xScale_eq hscale, yScale_eq hscale, hmul]

theorem inputToScreen_screenToInput (r : Area) : inputToScreen input gui (screenToInput input gui r) = r := by
  have hdiv : ∀ (z : ℤ) {n : ℕ}, 0 < n → toInt (((n * z : ℤ) : ℚ) / n) = z := by
    intro z n hn
    have hne : (n : ℚ) ≠ 0 := by exact_mod_cast hn.ne'
    rw [Int.cast_mul, Int.cast_natCast, mul_div_cancel_left₀ _ hne, toInt_intCast]
  rw [screenToInput_eq hscale]
  simp only [inputToScreen, ofRect, xScale_eq hscale, yScale_eq hscale, hdiv _ hscale.kx_pos, hdiv _ hscale.ky_pos]

section

variable {bands : ℕ} {data : List (BitVec 8)} (hfull : IsFull input.width input.height bands data)
include hfull

/-- The screen shows the corner of each block of the frame. -/
theorem resize_frame : ∃ screen,
    resize (newImage input.width input.height bands data) gui.width gui.height = .ok screen ∧
      ∀ y < gui.height, ∀ x < gui.width, ∀ k < bands,
        screen.sample y x k = (newImage input.width input.height bands data).sample (ky * y) (kx * x) k := by
  have hroot : window (newImage input.width input.height bands data) 0 0 input.width input.height =
      newImage input.width input.height bands data := by
    simp [window, newImage]
  have hbands : (newImage input.width input.height bands data).bands = bands :=
    (typeOffsets_facts hfull.bands_mem).1
  have hvalid := valid_window hfull hfull.width_pos hfull.height_pos (Nat.zero_add _).le (Nat.zero_add _).le
  have hsmaller : gui.width * gui.height * bands ≤ input.width * input.height * bands := by
    rw [hscale.width, hscale.height]
    refine Nat.mul_le_mul_right _ (Nat.mul_le_mul ?_ ?_)
    · exact Nat.le_mul_of_pos_left _ hscale.kx_pos
    · exact Nat.le_mul_of_pos_left _ hscale.ky_pos
  have hr : Resizable (newImage input.width input.height bands data) gui.width gui.height := by
    refine ⟨hroot ▸ accepted_window hfull 0 0 input.width input.height, hroot ▸ hvalid, ?_, ?_, ?_⟩
    · rw [hbands]
      exact hfull.data_length
    · rw [hbands]
      exact (typeOffsets_facts hfull.bands_mem).2.1
    · rw [hbands]
      exact ⟨hfull.width_pos, hfull.height_pos, hscale.width_pos, hscale.height_pos, hfull.size_lt,
        hsmaller.trans_lt hfull.size_lt⟩
  -- without a remainder there are no error terms
  have hfits : ∀ n k : ℕ, Fits (k * n) n := fun n k x _ => by simp [← Nat.mul_assoc]
  obtain ⟨screen, hok, -, -, -, hsamples⟩ := (packed_iff hr ⟨hbands.symm, by rw [hbands]; rfl, rfl, rfl⟩).mpr
    ⟨by
      change Fits input.width gui.width
      rw [hscale.width]
      exact hfits _ _,
    by
      change Fits input.height gui.height
      rw [hscale.height]
      exact hfits _ _⟩ data rfl
  refine ⟨screen, hok, fun y hy x hx k hk => ?_⟩
  have hwidth : x * input.width / gui.width = kx * x := by
    rw [hscale.width, ← Nat.mul_assoc, Nat.mul_div_cancel _ hscale.width_pos, Nat.mul_comm]
  have hheight : y * input.height / gui.height = ky * y := by
    rw [hscale.height, ← Nat.mul_assoc, Nat.mul_div_cancel _ hscale.height_pos, Nat.mul_comm]
  have hsample := hsamples y hy x hx k (hbands.symm ▸ hk)
  rw [hsample]
  change (newImage input.width input.height bands data).sample (y * input.height / gui.height)
    (x * input.width / gui.width) k = _
  rw [hwidth, hheight]

omit hfull in
/-- The scaled rectangle can be cut out of the frame if and only if it lies on the screen. -/
theorem subimage_scaled (bands : ℕ) (data : List (BitVec 8)) (r : Area) :
    subimage (newImage input.width input.height bands data) (screenToInput input gui r) = none ∧ ¬ OnScreen gui r ∨
    ∃ x y w h : ℕ, r = ⟨x, y, w, h⟩ ∧ OnScreen gui r ∧
      subimage (newImage input.width input.height bands data) (screenToInput input gui r) =
        some (window (newImage input.width input.height bands data) (kx * x) (ky * y) (kx * w) (ky * h)) := by
  have hkx : (0 : ℤ) < kx := by exact_mod_cast hscale.kx_pos
  have hky : (0 : ℤ) < ky := by exact_mod_cast hscale.ky_pos
  obtain ⟨rx, ry, rw', rh⟩ := r
  rw [screenToInput_eq hscale, subimage]
  by_cases hpos : 0 ≤ rx ∧ 0 ≤ ry ∧ 0 ≤ rw' ∧ 0 ≤ rh
  · obtain ⟨⟨x, rfl⟩, ⟨y, rfl⟩, ⟨w, rfl⟩, h, rfl⟩ :=
      And.imp Int.eq_ofNat_of_zero_le (And.imp Int.eq_ofNat_of_zero_le
        (And.imp Int.eq_ofNat_of_zero_le Int.eq_ofNat_of_zero_le)) hpos
    have hnonneg : (0 : ℤ) ≤ kx * x ∧ (0 : ℤ) ≤ ky * y ∧ (0 : ℤ) ≤ kx * w ∧ (0 : ℤ) ≤ ky * h :=
      ⟨by positivity, by positivity, by positivity, by positivity⟩
    have hinside : (0 < kx * w ∧ 0 < ky * h ∧
        kx * x + kx * w ≤ (newImage input.width input.height bands data).width ∧
        ky * y + ky * h ≤ (newImage input.width input.height bands data).height) ↔ OnScreen gui ⟨x, y, w, h⟩ := by
      change (_ ∧ _ ∧ _ ≤ input.width ∧ _ ≤ input.height) ↔ _
      rw [hscale.width, hscale.height, ← Nat.mul_add, ← Nat.mul_add, Nat.mul_le_mul_left_iff hscale.kx_pos,
        Nat.mul_le_mul_left_iff hscale.ky_pos, Nat.mul_pos_iff_of_pos_left hscale.kx_pos,
        Nat.mul_pos_iff_of_pos_left hscale.ky_pos]
      unfold OnScreen
      dsimp only
      omega
    rw [if_pos hnonneg]
    simp only [← Nat.cast_mul, Int.toNat_natCast]
    unfold getSubimage
    by_cases hin : OnScreen gui ⟨x, y, w, h⟩
    · refine .inr ⟨x, y, w, h, rfl, hin, ?_⟩
      rw [if_pos (hinside.mpr hin)]
      rfl
    · refine .inl ⟨?_, hin⟩
      rw [if_neg fun h => hin (hinside.mp h)]
      rfl
  · refine .inl ⟨if_neg fun h => hpos ?_, fun h => hpos ⟨h.1, h.2.1, h.2.2.1.le, h.2.2.2.1.le⟩⟩
    exact ⟨(mul_nonneg_iff_of_pos_left hkx).mp h.1, (mul_nonneg_iff_of_pos_left hky).mp h.2.1,
      (mul_nonneg_iff_of_pos_left hkx).mp h.2.2.1, (mul_nonneg_iff_of_pos_left hky).mp h.2.2.2⟩

/-- A gesture whose rectangle lies on the screen gives the panel what the screen shows there, and
any other gives nothing. -/
theorem captureOf_spec {start stop : Point} {drags : List Point} (hlast : drags.getLast? = some stop) :
    ((captureOf input gui ⟨start, drags, some (newImage input.width input.height bands data)⟩).isSome = true ↔
      OnScreen gui (ofPoints start stop)) ∧
    ∀ c, captureOf input gui ⟨start, drags, some (newImage input.width input.height bands data)⟩ = some c →
      Exact input gui kx ky bands (newImage input.width input.height bands data) (ofPoints start stop) c := by
  unfold captureOf
  dsimp only
  rw [hlast, Option.bind_some, Option.bind_some]
  have hsubimage := subimage_scaled hscale bands data (ofPoints start stop)
  rcases hsubimage with ⟨hnone, hout⟩ | ⟨x, y, w, h, hr, hin, hsome⟩
  · simp [hnone, hout]
  · rw [hsome]
    refine ⟨by simp [hin], fun c hc => ?_⟩
    obtain rfl := Option.some.inj hc
    have harea : screenToInput input gui (ofPoints start stop) =
        ⟨(kx * x : ℕ), (ky * y : ℕ), (kx * w : ℕ), (ky * h : ℕ)⟩ := by
      rw [screenToInput_eq hscale, hr]
      push_cast
      rfl
    obtain ⟨screen, hok, hscreen⟩ := resize_frame hscale hfull
    refine ⟨screenToInput_eq hscale _, inputToScreen_screenToInput hscale _, ?_, ?_, fun i j k _ => ?_,
      screen, hok, fun i hi j hj k hk => ?_⟩
    · rw [hr]
      exact Nat.cast_mul kx w
    · rw [hr]
      exact Nat.cast_mul ky h
    · dsimp only
      rw [harea, sample_window]
      rfl
    · rw [hr] at hin hi hj ⊢
      obtain ⟨-, -, -, -, hwidth, hheight⟩ := hin
      simp only [Int.toNat_natCast] at hi hj hwidth hheight ⊢
      rw [hscreen (y + i) (by omega) (x + j) (by omega) k hk, sample_window, Nat.mul_add, Nat.mul_add]

end

end

end Selection
end PGCon
