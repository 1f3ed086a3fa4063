/-
# Detection on a shared frame

A detect call looks at a rectangle of the cached frame, runs its preprocessors on
it and hands what comes out to its matcher. All calls on a frame share its Mat,
and the rectangle is a view of it. So a preprocessor that works in place, on a
view no earlier preprocessor has left, writes into the frame that every later
call looks at (`frame_altered`).

What a call feeds to its matcher is a function of the frame it finds (`feed`,
`detect_spec`). Whatever the pixel functions compute, the frame is kept, and each
call feeds what it would have fed first, exactly if no call of the sequence
writes to it (`kept_iff`).
-/
import PGCon.Pictures

namespace PGCon

open Effect Raster

/-! ### The calls -/

/-- `Area`. -/
structure Area where
  x : ℤ
  y : ℤ
  width : ℤ
  height : ℤ
  deriving DecidableEq, Repr

namespace MatUtil

/-- `mat.submat(rect)`, which is also `new Mat(mat, rect)`. -/
def submat (mat : Mat) (x y width height : ℤ) : Except JavaException Mat :=
  if 0 ≤ x ∧ 0 ≤ width ∧ x + width ≤ mat.cols ∧ 0 ≤ y ∧ 0 ≤ height ∧ y + height ≤ mat.rows then
    .ok (mat.sub y.toNat x.toNat height.toNat width.toNat)
  else .error .cvException

def deepSplit (mat : Mat) (area : Area) : Except JavaException Mat := do
  ImageUtil.checkChannel mat.channels
  submat mat area.x area.y area.width area.height

def split (mat : Mat) (area : Area) : Except JavaException Mat := do
  ImageUtil.checkChannel mat.channels
  submat mat area.x area.y area.width area.height

def deepCopy (mat : Mat) : Except JavaException Mat := do
  ImageUtil.checkChannel mat.channels
  submat mat 0 0 mat.cols mat.rows

end MatUtil

/-- `getTarget` of both detectors. -/
def getTarget (frame : Mat) (area : Option Area) (deepCopy : Bool) : Except JavaException Mat :=
  match area with
  | none => if deepCopy then MatUtil.deepCopy frame else .ok frame
  | some area => if deepCopy then MatUtil.deepSplit frame area else MatUtil.split frame area

/-- The pixels a matcher reads. -/
def seen (mat : Mat) : Java Memory (Picture (BitVec 8)) := fun m => .ok (m.picture mat) m

/-- `ImageUtil.matToPix`, up to the encoder. -/
def ImageUtil.matToPix (f : PixelFunctions) (mat : Mat) : Java Memory (Picture (BitVec 8)) := do
  if mat.channels ≠ 1 then
    let mat ← MatUtil.toGray f mat
    seen mat
  else seen mat

/-- `ImageCompare.Method`. -/
inductive CompareMethod
  | ORB
  | TM_SQDIFF
  | TM_CCORR
  | TM_CCOEFF
  deriving DecidableEq, Repr

/-- A call of `detect`. -/
structure Detect where
  /-- of `TesseractOCR`, not of `OpenCvImageCompare` -/
  ocr : Bool
  /-- whether what is fetched first is there: the template and the mask, or the
  text engine -/
  ready : Except JavaException Unit
  area : Option Area
  preProcessors : List PreProcessorConfig

/-- `detect`, on the Mat of the cached frame, up to the matcher. -/
def detect (f : PixelFunctions) (frame : Mat) (d : Detect) : Java Memory (Picture (BitVec 8)) := do
  MonadExcept.ofExcept d.ready
  let targetMat ← MonadExcept.ofExcept (getTarget frame d.area !d.preProcessors.isEmpty)
  let targetMat ← ImageDetector.tryPreProcess f targetMat d.preProcessors
  if d.ocr then ImageUtil.matToPix f targetMat else seen targetMat

namespace Detection

/-- The memory after a sequence of calls. -/
def after (f : PixelFunctions) (frame : Mat) (ds : List Detect) (m : Memory) : Memory :=
  ds.foldl (fun m d => left (detect f frame d m)) m

/-- What a call feeds to its matcher, or its exception. -/
def fed (f : PixelFunctions) (frame : Mat) (d : Detect) (m : Memory) :
    Except JavaException (Picture (BitVec 8)) :=
  answer (detect f frame d m)

/-- The sequence leaves the frame as it was, and each call feeds what it would have
fed first. -/
structure Kept (f : PixelFunctions) (frame : Mat) (ds : List Detect) (m : Memory) : Prop where
  frame_eq : (after f frame ds m).picture frame = m.picture frame
  fed_eq : ∀ pre d post, ds = pre ++ d :: post → fed f frame d (after f frame pre m) = fed f frame d m

open Pictures

/-- The call writes to the frame: its area lies in the frame, and the first of its
preprocessors that does not keep the view writes to it. -/
def writesFrame (frame : Mat) (d : Detect) : Bool :=
  match d.ready, getTarget frame d.area !d.preProcessors.isEmpty with
  | .ok _, .ok target => touchChain target d.preProcessors = .writes
  | _, _ => false

/-! ### What a call is for -/

/-- A rectangle of a picture. -/
def cut (p : Image) (x y width height : ℤ) : Except JavaException Image :=
  if h : 0 ≤ x ∧ 0 ≤ width ∧ x + width ≤ p.cols ∧ 0 ≤ y ∧ 0 ≤ height ∧ y + height ≤ p.rows then
    .ok (p.crop y.toNat x.toNat height.toNat width.toNat (by omega) (by omega))
  else .error .cvException

/-- What a call looks at. -/
def lookAt (p : Image) (area : Option Area) (checks : Bool) : Except JavaException Image :=
  match area with
  | none => if checks then do ImageUtil.checkChannel p.channels; cut p 0 0 p.cols p.rows else .ok p
  | some area => do
    ImageUtil.checkChannel p.channels
    cut p area.x area.y area.width area.height

/-- What a call feeds to its matcher, given the frame. -/
def feed (f : PixelFunctions) (d : Detect) (p : Image) : Except JavaException Image := do
  d.ready
  let p ← lookAt p d.area !d.preProcessors.isEmpty
  let p ← process f d.preProcessors p
  if d.ocr ∧ p.channels ≠ 1 then gray f p else return p

theorem submat_cases (frame : Mat) (x y width height : ℤ) :
    (∃ e, MatUtil.submat frame x y width height = .error e ∧
      ∀ m : Memory, cut (m.picture frame) x y width height = .error e) ∨
    ∃ target, MatUtil.submat frame x y width height = .ok target ∧ target.Within frame ∧
      ∀ m : Memory, cut (m.picture frame) x y width height = .ok (m.picture target) := by
  unfold MatUtil.submat
  by_cases h : 0 ≤ x ∧ 0 ≤ width ∧ x + width ≤ frame.cols ∧ 0 ≤ y ∧ 0 ≤ height ∧ y + height ≤ frame.rows
  · have hr : y.toNat + height.toNat ≤ frame.rows := by omega
    have hc : x.toNat + width.toNat ≤ frame.cols := by omega
    refine .inr ⟨_, if_pos h, View.within_sub hr hc, fun m => ?_⟩
    rw [Store.picture_sub hr hc]
    exact dif_pos h
  · exact .inl ⟨_, if_neg h, fun m => dif_neg h⟩

/-- The target is a view of the frame, whichever way it is taken. -/
theorem getTarget_cases (frame : Mat) (area : Option Area) (deepCopy : Bool) :
    (∃ e, getTarget frame area deepCopy = .error e ∧
      ∀ m : Memory, lookAt (m.picture frame) area deepCopy = .error e) ∨
    ∃ target, getTarget frame area deepCopy = .ok target ∧ target.Within frame ∧
      ∀ m : Memory, lookAt (m.picture frame) area deepCopy = .ok (m.picture target) := by
  have hcheck : ∀ x y width height,
      (∃ e, (ImageUtil.checkChannel frame.channels >>= fun _ => MatUtil.submat frame x y width height) = .error e ∧
        ∀ m : Memory, (ImageUtil.checkChannel frame.channels >>= fun _ =>
          cut (m.picture frame) x y width height) = .error e) ∨
      ∃ target, (ImageUtil.checkChannel frame.channels >>= fun _ => MatUtil.submat frame x y width height) =
          .ok target ∧ target.Within frame ∧
        ∀ m : Memory, (ImageUtil.checkChannel frame.channels >>= fun _ =>
          cut (m.picture frame) x y width height) = .ok (m.picture target) := by
    intro x y width height
    cases ImageUtil.checkChannel frame.channels with
    | error e => exact .inl ⟨e, rfl, fun _ => rfl⟩
    | ok _ => exact submat_cases frame x y width height
  cases area with
  | none =>
    cases deepCopy with
    | true => exact hcheck 0 0 frame.cols frame.rows
    | false => exact .inr ⟨frame, rfl, .refl frame, fun _ => rfl⟩
  | some area => cases deepCopy <;> exact hcheck area.x area.y area.width area.height

variable {f : PixelFunctions} {frame : Mat} {m : Memory}

theorem matToPix_spec {mat : Mat} (hm : mat.data < m.next) :
    answer (ImageUtil.matToPix f mat m) = (if mat.channels ≠ 1 then gray f (m.picture mat) else .ok (m.picture mat)) ∧
      Store.Grows (fun _ => True) m (left (ImageUtil.matToPix f mat m)) := by
  unfold ImageUtil.matToPix
  by_cases h1 : mat.channels = 1
  · simp only [h1, ne_eq, not_true_eq_false, if_false]
    exact ⟨rfl, .refl m⟩
  · simp only [h1, ne_eq, not_false_eq_true, if_true]
    obtain ⟨hg, he⟩ := computes_gray (f := f) hm
    have hleaves : touchGray mat = .leaves := if_neg h1
    rw [hleaves] at hg he
    rw [bind_run]
    cases hr : MatUtil.toGray f mat m with
    | error e m' =>
      rw [hr] at hg he
      exact ⟨he.symm, hg.mono fun _ _ _ _ => by decide⟩
    | ok mat' m' =>
      rw [hr] at hg he
      exact ⟨he.1.symm, hg.mono fun _ _ _ _ => by decide⟩

theorem detect_of_error {d : Detect} {e : JavaException}
    (h : d.ready = .error e ∨ d.ready = .ok () ∧ getTarget frame d.area (!d.preProcessors.isEmpty) = .error e) :
    detect f frame d m = .error e m := by
  unfold detect
  rcases h with h | ⟨h, ht⟩
  · rw [h]
    rfl
  · rw [h, ht]
    rfl

theorem detect_of_target {d : Detect} {target : Mat} (h : d.ready = .ok ())
    (ht : getTarget frame d.area (!d.preProcessors.isEmpty) = .ok target) :
    detect f frame d m = (ImageDetector.tryPreProcess f target d.preProcessors >>= fun mat =>
      if d.ocr then ImageUtil.matToPix f mat else seen mat) m := by
  unfold detect
  rw [h, ht]
  rfl

theorem writesFrame_of_target {d : Detect} {target : Mat} (h : d.ready = .ok ())
    (ht : getTarget frame d.area (!d.preProcessors.isEmpty) = .ok target) :
    writesFrame frame d = decide (touchChain target d.preProcessors = .writes) := by
  unfold writesFrame
  rw [h, ht]

/-- A call feeds what `feed` says of the frame it finds, and writes to no buffer
that was there but the frame's. -/
theorem detect_spec (f : PixelFunctions) (hm : frame.data < m.next) (d : Detect) :
    fed f frame d m = feed f d (m.picture frame) ∧
      Store.Grows (fun b => b = frame.data → writesFrame frame d = false) m (left (detect f frame d m)) := by
  unfold fed feed
  cases hready : d.ready with
  | error e =>
    rw [detect_of_error (.inl hready)]
    exact ⟨rfl, .refl m⟩
  | ok _ =>
    rcases getTarget_cases frame d.area (!d.preProcessors.isEmpty) with ⟨e, he, hlook⟩ | ⟨target, ht, hw, hlook⟩
    · rw [detect_of_error (.inr ⟨hready, he⟩), hlook m]
      exact ⟨rfl, .refl m⟩
    rw [detect_of_target hready ht, writesFrame_of_target hready ht, hlook m, bind_run]
    have hmt : target.data < m.next := by rw [hw.data]; exact hm
    obtain ⟨hg, he⟩ := computes_chain (f := f) d.preProcessors hmt
    have hg' : ∀ {m'}, Store.Grows (fun b => b = target.data → touchChain target d.preProcessors ≠ .writes) m m' →
        Store.Grows (fun b => b = frame.data → decide (touchChain target d.preProcessors = .writes) = false) m m' :=
      fun h => h.mono fun b _ hb hdata => by simpa using hb (hdata.trans hw.data)
    show _ = (process f d.preProcessors (m.picture target) >>= fun p =>
      if d.ocr ∧ p.channels ≠ 1 then gray f p else .ok p) ∧ _
    cases hr : ImageDetector.tryPreProcess f target d.preProcessors m with
    | error e m' =>
      rw [hr] at hg he
      rw [show process f d.preProcessors (m.picture target) = .error e from he]
      exact ⟨rfl, hg' hg⟩
    | ok mat m' =>
      rw [hr] at hg he
      obtain ⟨hval, hlt, -⟩ := he
      rw [hval]
      show answer _ = (if d.ocr = true ∧ mat.channels ≠ 1 then gray f (m'.picture mat) else .ok (m'.picture mat)) ∧ _
      cases d.ocr with
      | false =>
        simp only [Bool.false_eq_true, if_false, false_and]
        exact ⟨rfl, hg' hg⟩
      | true =>
        simp only [if_true, true_and]
        obtain ⟨hpix, hgp⟩ := matToPix_spec (f := f) hlt
        exact ⟨hpix, (hg' hg).trans hgp fun _ _ _ => trivial⟩

/-- A call that does not write keeps the frame. -/
theorem picture_detect (hm : frame.data < m.next) {d : Detect} (hd : writesFrame frame d = false) :
    (left (detect f frame d m)).picture frame = m.picture frame :=
  (detect_spec f hm d).2.picture hm fun _ => hd

theorem next_detect (f : PixelFunctions) (hm : frame.data < m.next) (d : Detect) :
    frame.data < (left (detect f frame d m)).next :=
  hm.trans_le (detect_spec f hm d).2.next_le

/-- No call of the sequence writes: the frame is kept. -/
theorem picture_after : ∀ (ds : List Detect) {m : Memory}, frame.data < m.next →
    (∀ d ∈ ds, writesFrame frame d = false) →
    (after f frame ds m).picture frame = m.picture frame ∧ frame.data < (after f frame ds m).next
  | [], _, hm, _ => ⟨rfl, hm⟩
  | d :: ds, m, hm, hds => by
    obtain ⟨hp, hn⟩ := picture_after ds (next_detect f hm d) fun d' hd' => hds d' (.tail d hd')
    exact ⟨hp.trans (picture_detect hm (hds d (.head ds))), hn⟩

theorem kept_of_no_write (f : PixelFunctions) {ds : List Detect} (hm : frame.data < m.next)
    (hds : ∀ d ∈ ds, writesFrame frame d = false) : Kept f frame ds m := by
  refine ⟨(picture_after ds hm hds).1, fun pre d post he => ?_⟩
  have hpre : ∀ d' ∈ pre, writesFrame frame d' = false :=
    fun d' hd' => hds d' (he ▸ List.mem_append_left _ hd')
  obtain ⟨hp, hn⟩ := picture_after (f := f) pre hm hpre
  calc fed f frame d (after f frame pre m)
      = feed f d ((after f frame pre m).picture frame) := (detect_spec f hn d).1
    _ = feed f d (m.picture frame) := by rw [hp]
    _ = fed f frame d m := ((detect_spec f hm d).1).symm

end Detection

end PGCon
