/-
# When the frame is kept

That a call writes to the frame means: some pixel functions make the difference
seen. `paint` are such functions, they turn everything they are given white; the
distances are all the same, and can be chosen so that a colour filter picks every
pixel. A sample that is black or white stays so whatever runs (`preserves_detect`),
and a call that writes makes one sample of the frame black or white
(`stark_detect`). On a gray frame that is a difference no later call undoes.
-/
import PGCon.Detection

namespace PGCon
namespace Detection

open Effect Raster Pictures

/-! ### Pixel functions that show every write -/

/-- Black or white. -/
def Stark (b : BitVec 8) : Prop := b = 0 ∨ b = 255

def white : Filter := fun _ _ _ _ => .ok fun _ _ _ => 255

/-- Everything white, every distance `d`. -/
def paint (d : ℚ) (hd : 0 ≤ d) : PixelFunctions where
  cvtColor _ _ _ _ _ := .ok fun _ _ _ => 255
  transform _ _ _ := white
  threshold _ _ := white
  adaptiveThreshold _ _ _ := white
  normalize := white
  blur _ := white
  medianBlur _ := white
  bilateralFilter _ _ _ := white
  gaussianBlur _ _ := white
  resize _ _ p := .ok p
  distance _ _ _ := d
  distance_nonneg _ _ _ := hd

/-- The sample is there, and is black or white. -/
def StarkAt (b i j k : ℕ) (m : Memory) : Prop := b < m.next ∧ Stark (m.cell b i j k)

/-- The filter leaves what is black or white so. -/
def Draws (call : Filter) : Prop := ∀ rows cols channels s s', call rows cols channels s = .ok s' →
  ∀ i j k, Stark (s i j k) → Stark (s' i j k)

section Paint

variable {d : ℚ} {hd : 0 ≤ d}

theorem draws_white : Draws white := by
  intro rows cols channels s s' h i j k _
  obtain rfl := Except.ok.inj h
  exact .inr rfl

theorem draws_bitwiseNot : Draws bitwiseNot := by
  intro rows cols channels s s' h i j k hs
  obtain rfl := Except.ok.inj h
  rcases hs with hs | hs
  · exact .inr (by simp [hs])
  · exact .inl (by simp [hs])

theorem call_paint (config : ThreshPreProcessorConfig) (threshType : ThreshType) :
    ThreshPreProcessor.call (paint d hd) config threshType = white := by
  unfold ThreshPreProcessor.call
  split <;> rfl

/-- The cover is black or white, or white turned gray. -/
theorem getCover_paint (d : ℚ) (hd : 0 ≤ d) (config : ColorPickFilterPreProcessorConfig)
    {rows cols channels : ℕ} (samples : Bytes rows cols channels) :
    ∃ cover, ColorPickFilterPreProcessor.getCover (paint d hd) config samples = .ok cover ∧
      ∀ i j k, Stark (cover i j k) := by
  unfold ColorPickFilterPreProcessor.getCover
  split
  · refine ⟨_, rfl, fun i j k => ?_⟩
    split
    · exact .inr rfl
    · exact .inl rfl
  · exact ⟨_, rfl, fun _ _ _ => .inl rfl⟩
  · exact ⟨_, rfl, fun _ _ _ => .inr rfl⟩
  · exact ⟨_, rfl, fun _ _ _ => .inr rfl⟩

theorem draws_pick (config : ColorPickFilterPreProcessorConfig) :
    Draws (ColorPickFilterPreProcessor.pick (paint d hd) config) := by
  intro rows cols channels s s' h i j k hs
  rcases pick_cases (paint d hd) config s with ⟨e, he⟩ | ⟨_, _, mask, cover, -, hcover, hpick⟩
  · rw [he] at h
    cases h
  · rw [hpick] at h
    obtain rfl := Except.ok.inj h
    obtain ⟨cover', hcover', hstark⟩ := getCover_paint d hd config s
    obtain rfl : cover = cover' := Except.ok.inj (hcover.symm.trans hcover')
    by_cases hc : (if config.inverse then ~~~ mask i j else mask i j) ≠ 0
    · simpa only [if_pos hc] using hstark i j k
    · simpa only [if_neg hc] using hs

/-- With a target and a type the filter returns; it picks all pixels or none. -/
theorem pick_paint (d : ℚ) (hd : 0 ≤ d) {config : ColorPickFilterPreProcessorConfig}
    (ht : config.targetColor ≠ none) {pickType : PickType} (hp : config.pickType = some pickType) {rows cols channels : ℕ}
    (samples : Bytes rows cols channels) :
    ∃ s, ColorPickFilterPreProcessor.pick (paint d hd) config rows cols channels samples = .ok s ∧
      ((config.inverse = true ↔ ¬ d < ColorPickFilterPreProcessor.getRange config) → ∀ i j k, Stark (s i j k)) := by
  obtain ⟨color, hcolor⟩ := Option.ne_none_iff_exists'.mp ht
  obtain ⟨cover, hcover, hstark⟩ := getCover_paint d hd config samples
  have htarget : ColorPickFilterPreProcessor.getLabTarget (paint d hd) config.targetColor =
      .ok fun _ => 255 := by rw [hcolor]; rfl
  refine ⟨_, pick_of_ok htarget hcover rfl (getMask_eq hp _ _), fun hall i j k => ?_⟩
  rw [if_pos]
  · exact hstark i j k
  · show (if config.inverse = true then ~~~ (if d < ColorPickFilterPreProcessor.getRange config then 255 else 0)
      else if d < ColorPickFilterPreProcessor.getRange config then 255 else 0 : BitVec 8) ≠ 0
    by_cases hr : d < ColorPickFilterPreProcessor.getRange config
    · have hi : ¬ config.inverse = true := fun h => hall.mp h hr
      rw [if_neg hi, if_pos hr]
      decide
    · rw [if_pos (hall.mpr hr), if_neg hr]
      decide

end Paint

/-! ### What is black or white stays so -/

section Preserved

variable {d : ℚ} {hd : 0 ≤ d} {b i j k : ℕ} {m : Memory}

theorem preserves_ofExcept {I : Memory → Prop} {β : Type} (x : Except JavaException β) :
    Preserves I (MonadExcept.ofExcept x : Java Memory β) := by
  cases x with
  | error e => exact Preserves.throw e
  | ok a => exact Preserves.pure a

theorem preserves_inPlace {call : Filter} (hc : Draws call) (mat : Mat) :
    Preserves (StarkAt b i j k) (inPlace call mat) := by
  intro m ⟨hb, hs⟩
  cases hr : call _ _ _ (m.read mat) with
  | error e =>
    rw [(inPlace_of_error hr).1]
    exact ⟨hb, hs⟩
  | ok s =>
    rw [(inPlace_of_ok hr).1]
    refine ⟨hb, ?_⟩
    by_cases hcov : mat.Covers b i j k
    · obtain ⟨rfl, ⟨hi, hi'⟩, ⟨hj, hj'⟩, hk⟩ := hcov
      obtain ⟨i', rfl⟩ := Nat.exists_eq_add_of_le hi
      obtain ⟨j', rfl⟩ := Nat.exists_eq_add_of_le hj
      have hcell := Store.write_cell_of_covers (m := m) (v := mat) (s := s) ⟨i', by omega⟩ ⟨j', by omega⟩ ⟨k, hk⟩
      rw [show (left (.ok mat (m.write mat s) : EStateM.Result JavaException Memory Mat)).cell mat.data
        (mat.top + i') (mat.left + j') k = _ from hcell]
      exact hc _ _ _ _ _ hr _ _ _ hs
    · rw [show (left (.ok mat (m.write mat s) : EStateM.Result JavaException Memory Mat)).cell b i j k = _ from
        Store.write_cell_of_not_covers hcov]
      exact hs

theorem preserves_intoNew (call : Image → Except JavaException Image) (mat : Mat) :
    Preserves (StarkAt b i j k) (intoNew call mat) := by
  intro m ⟨hb, hs⟩
  have hg := (computes_intoNew call mat m).grows
  refine ⟨hb.trans_le hg.next_le, ?_⟩
  rw [hg.cell_eq b hb fun _ => by decide]
  exact hs

theorem preserves_toGray (f : PixelFunctions) (mat : Mat) :
    Preserves (StarkAt b i j k) (MatUtil.toGray f mat) := by
  unfold MatUtil.toGray
  exact Preserves.bind (preserves_ofExcept _) fun _ =>
    Preserves.ite (Preserves.pure _) (preserves_intoNew _ mat)

theorem preserves_stage (config : PreProcessorConfig) (mat : Mat) :
    Preserves (StarkAt b i j k) (stage (paint d hd) config mat) := by
  cases config with
  | thresh config =>
    refine Preserves.ite (Preserves.bind (preserves_toGray _ mat) fun mat' => ?_) (Preserves.pure _)
    cases config.threshType with
    | none => exact Preserves.throw _
    | some threshType =>
      refine Preserves.bind (preserves_inPlace ?_ mat') fun mat'' => ?_
      · rw [call_paint]
        exact draws_white
      · exact Preserves.ite (preserves_inPlace draws_bitwiseNot mat'') (Preserves.pure _)
  | channelsFilter config => exact Preserves.ite (preserves_inPlace draws_white mat) (Preserves.pure _)
  | normalize config =>
    refine Preserves.ite (Preserves.bind (preserves_toGray _ mat) fun mat' => ?_) (Preserves.pure _)
    exact preserves_inPlace draws_white mat'
  | colorPickFilter config => exact Preserves.ite (preserves_inPlace (draws_pick config) mat) (Preserves.pure _)
  | resize config => exact Preserves.ite (preserves_intoNew _ mat) (Preserves.pure _)
  | smoothing config =>
    refine Preserves.ite ?_ (Preserves.pure _)
    cases config.type with
    | none => exact Preserves.throw _
    | some type => exact preserves_intoNew _ mat
  | other enable => exact Preserves.throw _

theorem preserves_matToPix (f : PixelFunctions) (mat : Mat) :
    Preserves (StarkAt b i j k) (ImageUtil.matToPix f mat) := by
  unfold ImageUtil.matToPix
  exact Preserves.ite (Preserves.bind (preserves_toGray f mat) fun _ _ h => h) fun _ h => h

theorem preserves_detect (frame : Mat) (c : Detect) :
    Preserves (StarkAt b i j k) (detect (paint d hd) frame c) := by
  unfold detect
  refine Preserves.bind (preserves_ofExcept _) fun _ => Preserves.bind (preserves_ofExcept _) fun target => ?_
  refine Preserves.bind ?_ fun mat => Preserves.ite (preserves_matToPix _ mat) fun _ h => h
  rw [tryPreProcess_eq]
  exact Preserves.ite (Preserves.throw _) (Preserves.foldlM (fun mat config => preserves_stage config mat) _ _)

end Preserved

/-! ### A call that writes makes a sample black or white -/

section Written

variable {mat : Mat}

/-- The first sample of the view. -/
abbrev StarkFirst (mat : Mat) (m : Memory) : Prop := StarkAt mat.data mat.top mat.left 0 m

theorem stark_inPlace {call : Filter} {m : Memory} (hm : mat.data < m.next) (hne : isEmpty mat = false)
    (hch : 0 < mat.channels) {s : Bytes mat.rows mat.cols mat.channels} (h : call _ _ _ (m.read mat) = .ok s)
    (hs : ∀ i j k, Stark (s i j k)) : StarkFirst mat (left (inPlace call mat m)) := by
  rw [(inPlace_of_ok h).1]
  simp only [isEmpty, decide_eq_false_iff_not, not_or] at hne
  refine ⟨hm, ?_⟩
  have hcell := Store.write_cell_of_covers (m := m) (v := mat) (s := s) ⟨0, by omega⟩ ⟨0, by omega⟩ ⟨0, hch⟩
  simp only [Nat.add_zero] at hcell
  show Stark ((m.write mat s).cell mat.data mat.top mat.left 0)
  rw [hcell]
  exact hs _ _ _

theorem toGray_of_gray (f : PixelFunctions) (h : mat.channels = 1) (m : Memory) :
    MatUtil.toGray f mat m = .ok mat m := by
  unfold MatUtil.toGray
  simp only [h]
  rfl

theorem touchInPlace_eq_writes : touchInPlace mat = .writes ↔ isEmpty mat = false := by
  unfold touchInPlace
  cases isEmpty mat <;> simp

theorem of_ite_eq_writes {c : Prop} [Decidable c] {t u : Touch} (hu : u ≠ .writes)
    (h : (if c then t else u) = .writes) : c ∧ t = .writes := by
  split at h
  · exact ⟨‹_›, h⟩
  · exact absurd h hu

theorem gray_andThen_eq_writes {t : Touch} (h : (touchGray mat).andThen t = .writes) :
    mat.channels = 1 ∧ t = .writes := by
  unfold touchGray at h
  split at h
  · exact ⟨‹_›, h⟩
  · cases h

theorem stark_thresh {config : ThreshPreProcessorConfig} (ht : touch mat (.thresh config) = .writes)
    {d : ℚ} {hd : 0 ≤ d} {m : Memory} (hm : mat.data < m.next) :
    StarkFirst mat (left (ThreshPreProcessor.preProcess (paint d hd) config mat m)) := by
  obtain ⟨he, hw⟩ := of_ite_eq_writes (by decide) ht
  obtain ⟨h1, hw⟩ := gray_andThen_eq_writes hw
  cases htype : config.threshType with
  | none =>
    rw [touchThresh, if_pos htype] at hw
    cases hw
  | some threshType =>
    rw [touchThresh, if_neg (by simp [htype])] at hw
    unfold ThreshPreProcessor.preProcess
    simp only [he, if_true, htype, call_paint]
    rw [bind_of_ok (toGray_of_gray _ h1 m)]
    refine Preserves.left_bind (fun mat' => ?_) ?_
    · exact Preserves.ite (preserves_inPlace draws_bitwiseNot mat') (Preserves.pure _)
    · exact stark_inPlace hm (touchInPlace_eq_writes.mp hw) (by omega) rfl fun _ _ _ => .inr rfl

theorem stark_normalize {config : NormalizePreProcessorConfig} (ht : touch mat (.normalize config) = .writes)
    {d : ℚ} {hd : 0 ≤ d} {m : Memory} (hm : mat.data < m.next) :
    StarkFirst mat (left (NormalizePreProcessor.preProcess (paint d hd) config mat m)) := by
  obtain ⟨he, hw⟩ := of_ite_eq_writes (by decide) ht
  obtain ⟨h1, hw⟩ := gray_andThen_eq_writes hw
  unfold NormalizePreProcessor.preProcess
  simp only [he, if_true]
  rw [bind_of_ok (toGray_of_gray _ h1 m)]
  exact stark_inPlace hm (touchInPlace_eq_writes.mp hw) (by omega) rfl fun _ _ _ => .inr rfl

theorem stark_channelsFilter {config : ChannelsFilterPreProcessorConfig}
    (ht : touch mat (.channelsFilter config) = .writes) {d : ℚ} {hd : 0 ≤ d} {m : Memory}
    (hm : mat.data < m.next) :
    StarkFirst mat (left (ChannelsFilterPreProcessor.preProcess (paint d hd) config mat m)) := by
  obtain ⟨he, hw⟩ := of_ite_eq_writes (by decide) ht
  unfold ChannelsFilterPreProcessor.preProcess
  rw [if_pos he]
  exact stark_inPlace hm (touchInPlace_eq_writes.mp hw) (by omega) rfl fun _ _ _ => .inr rfl

/-- The distance at which a colour filter picks every pixel: none, or one out of
range if it is inverted. -/
def pickingDistance (config : ColorPickFilterPreProcessorConfig) : ℚ :=
  if config.inverse then max 0 (ColorPickFilterPreProcessor.getRange config) else 0

theorem pickingDistance_nonneg (config : ColorPickFilterPreProcessorConfig) : 0 ≤ pickingDistance config := by
  unfold pickingDistance
  split
  · exact le_max_left _ _
  · exact le_refl 0

theorem touchPick_eq_writes {config : ColorPickFilterPreProcessorConfig} (h : touchPick config mat = .writes) :
    config.targetColor ≠ none ∧ isEmpty mat = false ∧ config.pickType ≠ none ∧
      (config.inverse = true ∨ 0 < ColorPickFilterPreProcessor.getRange config) := by
  simp only [touchPick] at h
  split at h
  · cases h
  split at h
  · cases h
  rename_i hempty
  split at h
  · cases h
  exact ⟨‹_›, by simpa using hempty, ‹_›, (of_ite_eq_writes (by decide) h).1⟩

theorem stark_pick {config : ColorPickFilterPreProcessorConfig}
    (ht : touch mat (.colorPickFilter config) = .writes) {m : Memory} (hm : mat.data < m.next) :
    StarkFirst mat (left (ColorPickFilterPreProcessor.preProcess
      (paint (pickingDistance config) (pickingDistance_nonneg config)) config mat m)) := by
  obtain ⟨he, hw⟩ := of_ite_eq_writes (by decide) ht
  obtain ⟨htarget, hne, htype, hpicks⟩ := touchPick_eq_writes hw
  obtain ⟨pickType, hp⟩ := Option.ne_none_iff_exists'.mp htype
  obtain ⟨s, hs, hstark⟩ :=
    pick_paint (pickingDistance config) (pickingDistance_nonneg config) htarget hp (m.read mat)
  unfold ColorPickFilterPreProcessor.preProcess
  rw [if_pos he]
  refine stark_inPlace hm hne (by omega) hs (hstark ?_)
  unfold pickingDistance
  cases hi : config.inverse with
  | true => simp
  | false =>
    have hr : 0 < ColorPickFilterPreProcessor.getRange config := by simpa [hi] using hpicks
    simpa using hr

/-- A preprocessor that writes makes the first sample black or white, if the
distances are right. -/
theorem stark_stage {config : PreProcessorConfig} (ht : touch mat config = .writes) :
    ∃ d, ∃ hd : 0 ≤ d, ∀ m : Memory, mat.data < m.next →
      StarkFirst mat (left (stage (paint d hd) config mat m)) := by
  cases config with
  | thresh config => exact ⟨0, le_refl 0, fun m hm => stark_thresh ht hm⟩
  | channelsFilter config => exact ⟨0, le_refl 0, fun m hm => stark_channelsFilter ht hm⟩
  | normalize config => exact ⟨0, le_refl 0, fun m hm => stark_normalize ht hm⟩
  | colorPickFilter config => exact ⟨_, pickingDistance_nonneg config, fun m hm => stark_pick ht hm⟩
  | resize config => cases (of_ite_eq_writes (by decide) ht).2
  | smoothing config => cases (of_ite_eq_writes (by decide) ht).2
  | other enable => cases ht

/-- What writes finds samples to write. -/
theorem samples_of_writes {config : PreProcessorConfig} (h : touch mat config = .writes) :
    isEmpty mat = false ∧ 0 < mat.channels := by
  cases config with
  | thresh config =>
    obtain ⟨h1, h⟩ := gray_andThen_eq_writes (of_ite_eq_writes (by decide) h).2
    unfold touchThresh at h
    split at h
    · cases h
    · exact ⟨touchInPlace_eq_writes.mp h, by omega⟩
  | channelsFilter config =>
    obtain ⟨h3, h⟩ := of_ite_eq_writes (by decide) h
    exact ⟨touchInPlace_eq_writes.mp h, by omega⟩
  | normalize config =>
    obtain ⟨h1, h⟩ := gray_andThen_eq_writes (of_ite_eq_writes (by decide) h).2
    exact ⟨touchInPlace_eq_writes.mp h, by omega⟩
  | colorPickFilter config =>
    obtain ⟨h3, h⟩ := of_ite_eq_writes (by decide) h
    exact ⟨(touchPick_eq_writes h).2.1, by omega⟩
  | resize config => cases (of_ite_eq_writes (by decide) h).2
  | smoothing config => cases (of_ite_eq_writes (by decide) h).2
  | other enable => cases h

theorem samples_of_touchAll : ∀ {configs : List PreProcessorConfig}, touchAll mat configs = .writes →
    isEmpty mat = false ∧ 0 < mat.channels
  | [], h => by cases h
  | config :: configs, h => by
    cases ht : touch mat config with
    | keeps =>
      simp only [touchAll, ht] at h
      exact samples_of_touchAll h
    | writes => exact samples_of_writes ht
    | leaves =>
      simp only [touchAll, ht] at h
      cases h

/-- On a view with pixels in it a call in place does not keep the buffer. -/
theorem gray_andThen_ne_keeps {t : Touch} (ht : t ≠ .keeps) : (touchGray mat).andThen t ≠ .keeps := by
  unfold touchGray
  split
  · exact ht
  · exact fun h => nomatch h

/-- What keeps a view with pixels in it does not throw. -/
theorem apply_of_keeps {config : PreProcessorConfig} (ht : touch mat config = .keeps)
    (hne : isEmpty mat = false) (d : ℚ) (hd : 0 ≤ d) (m : Memory) :
    ∃ p, apply (paint d hd) config (m.picture mat) = .ok p := by
  have hplace : touchInPlace mat ≠ .keeps := by simp [touchInPlace, hne]
  cases config with
  | thresh config =>
    by_cases he : config.enable = true
    · rw [touch, if_pos he] at ht
      refine absurd ht (gray_andThen_ne_keeps ?_)
      unfold touchThresh
      split
      · decide
      · exact hplace
    · exact ⟨_, if_neg he⟩
  | channelsFilter config =>
    by_cases he : config.enable = true ∧ mat.channels = 3
    · rw [touch, if_pos he] at ht
      exact absurd ht hplace
    · exact ⟨_, if_neg he⟩
  | normalize config =>
    by_cases he : config.enable = true
    · rw [touch, if_pos he] at ht
      exact absurd ht (gray_andThen_ne_keeps hplace)
    · exact ⟨_, if_neg he⟩
  | colorPickFilter config =>
    by_cases he : config.enable = true ∧ mat.channels = 3
    · rw [touch, if_pos he] at ht
      simp only [touchPick, hne, Bool.false_eq_true, if_false] at ht
      split at ht
      · cases ht
      rename_i htarget
      split at ht
      · cases ht
      rename_i htype
      obtain ⟨pickType, hp⟩ := Option.ne_none_iff_exists'.mp htype
      obtain ⟨s, hs, -⟩ := pick_paint d hd htarget hp (m.read mat)
      exact ⟨_, (if_pos he).trans (inPlace_of_ok hs).2⟩
    · exact ⟨_, if_neg he⟩
  | resize config =>
    by_cases he : config.enable = true
    · rw [touch, if_pos he] at ht
      cases ht
    · exact ⟨_, if_neg he⟩
  | smoothing config =>
    by_cases he : config.enable = true
    · rw [touch, if_pos he] at ht
      cases ht
    · exact ⟨_, if_neg he⟩
  | other enable => cases ht

/-- A preprocessor that keeps a view with pixels in it returns it. -/
theorem stage_of_keeps {config : PreProcessorConfig} (ht : touch mat config = .keeps)
    (hne : isEmpty mat = false) (d : ℚ) (hd : 0 ≤ d) {m : Memory} (hm : mat.data < m.next) :
    ∃ m', stage (paint d hd) config mat m = .ok mat m' ∧ mat.data < m'.next := by
  obtain ⟨-, he⟩ := computes_stage (f := paint d hd) config hm
  obtain ⟨p, hp⟩ := apply_of_keeps ht hne d hd m
  rw [hp, ht] at he
  cases hr : stage (paint d hd) config mat m with
  | error e m' =>
    rw [hr] at he
    cases he
  | ok mat' m' =>
    rw [hr] at he
    obtain ⟨-, hlt, rfl⟩ := he
    exact ⟨m', rfl, hlt⟩

theorem stark_stages : ∀ configs : List PreProcessorConfig, isEmpty mat = false →
    touchAll mat configs = .writes → ∃ d, ∃ hd : 0 ≤ d, ∀ m : Memory, mat.data < m.next →
      StarkFirst mat (left (configs.foldlM (fun mat config => stage (paint d hd) config mat) mat m))
  | [], _, hw => by cases hw
  | config :: configs, hne, hw => by
    simp only [List.foldlM_cons]
    cases ht : touch mat config with
    | keeps =>
      simp only [touchAll, ht] at hw
      obtain ⟨d, hd, hrest⟩ := stark_stages configs hne hw
      refine ⟨d, hd, fun m hm => ?_⟩
      obtain ⟨m', hstage, hm'⟩ := stage_of_keeps ht hne d hd hm
      rw [bind_of_ok hstage]
      exact hrest m' hm'
    | writes =>
      obtain ⟨d, hd, hfirst⟩ := stark_stage ht
      refine ⟨d, hd, fun m hm => Preserves.left_bind (fun mat' => ?_) (hfirst m hm)⟩
      exact Preserves.foldlM (fun mat config => preserves_stage config mat) configs mat'
    | leaves =>
      simp only [touchAll, ht] at hw
      cases hw

theorem stark_detect {frame : Mat} {c : Detect} (hw : writesFrame frame c = true) :
    ∃ target : Mat, target.Within frame ∧ (isEmpty target = false ∧ 0 < target.channels) ∧
      ∃ d, ∃ hd : 0 ≤ d, ∀ m : Memory, frame.data < m.next → StarkFirst target (left (detect (paint d hd) frame c m)) := by
  cases hready : c.ready with
  | error e => simp [writesFrame, hready] at hw
  | ok _ =>
    rcases getTarget_cases frame c.area (!c.preProcessors.isEmpty) with ⟨e, he, -⟩ | ⟨target, ht, hin, -⟩
    · simp [writesFrame, hready, he] at hw
    rw [writesFrame_of_target hready ht, decide_eq_true_eq] at hw
    unfold touchChain at hw
    split at hw
    · cases hw
    rename_i hknown
    have hne := samples_of_touchAll hw
    obtain ⟨d, hd, hstages⟩ := stark_stages c.preProcessors hne.1 hw
    refine ⟨target, hin, hne, d, hd, fun m hm => ?_⟩
    rw [detect_of_target hready ht, tryPreProcess_eq, if_neg hknown]
    refine Preserves.left_bind (fun mat => ?_) (hstages m (by rw [hin.data]; exact hm))
    exact Preserves.ite (preserves_matToPix _ mat) fun _ h => h

end Written

/-! ### The frame is kept exactly if no call writes to it -/

variable {frame : Mat}

theorem preserves_after {b i j k : ℕ} {d : ℚ} {hd : 0 ≤ d} : ∀ (ds : List Detect) {m : Memory},
    StarkAt b i j k m → StarkAt b i j k (after (paint d hd) frame ds m)
  | [], _, h => h
  | c :: ds, m, h => preserves_after ds (preserves_detect frame c m h)

/-- Every memory in which the frame lies is one in which it lies after any calls. -/
theorem next_after (f : PixelFunctions) : ∀ (ds : List Detect) {m : Memory}, frame.data < m.next →
    frame.data < (after f frame ds m).next
  | [], _, hm => hm
  | d :: ds, _, hm => next_after f ds (next_detect f hm d)

/-- A sequence with a call that writes alters some frame, for some pixel
functions. -/
theorem altered_of_write {ds : List Detect} {c : Detect} (hc : c ∈ ds) (hw : writesFrame frame c = true) :
    ∃ (f : PixelFunctions) (m : Memory), frame.data < m.next ∧
      (after f frame ds m).picture frame ≠ m.picture frame := by
  obtain ⟨target, hin, ⟨hne, hch⟩, d, hd, hstark⟩ := stark_detect hw
  obtain ⟨pre, post, rfl⟩ := List.append_of_mem hc
  obtain ⟨m, hm⟩ : ∃ m : Memory, m = ⟨frame.data + 1, fun _ _ _ _ => 128⟩ := ⟨_, rfl⟩
  have hnext : frame.data < m.next := by rw [hm]; exact Nat.lt_succ_self _
  refine ⟨paint d hd, m, hnext, fun heq => ?_⟩
  have hafter : after (paint d hd) frame (pre ++ c :: post) m = after (paint d hd) frame post
      (left (detect (paint d hd) frame c (after (paint d hd) frame pre m))) := by
    simp [after, List.foldl_append]
  have hend : StarkFirst target (after (paint d hd) frame (pre ++ c :: post) m) := by
    rw [hafter]
    exact preserves_after post (hstark _ (next_after _ pre hnext))
  -- the sample as the frame's Mat sees it
  simp only [isEmpty, decide_eq_false_iff_not, not_or] at hne
  obtain ⟨htop, hleft⟩ := And.intro hin.top hin.left
  obtain ⟨hbottom, hright⟩ := And.intro hin.bottom hin.right
  have hsame := congrFun (congrFun (congrFun (Store.read_of_picture heq) ⟨target.top - frame.top, by omega⟩)
    ⟨target.left - frame.left, by omega⟩) ⟨0, by rw [← hin.channels]; exact hch⟩
  simp only [Store.read, Nat.add_sub_cancel' htop, Nat.add_sub_cancel' hleft, ← hin.data] at hsame
  have hgray : Stark 128 := by
    have hcell : m.cell target.data target.top target.left 0 = 128 := by rw [hm]
    rw [← hcell, ← hsame]
    exact hend.2
  rcases hgray with h | h <;> exact absurd h (by decide)

/-- Whatever the pixel functions compute and whatever is on the frame, a sequence of
calls leaves the frame as it was, and every call feeds its matcher what it would
have fed it first, exactly if no call of the sequence writes to the frame. -/
theorem kept_iff (frame : Mat) (ds : List Detect) :
    (∀ (f : PixelFunctions) (m : Memory), frame.data < m.next → Kept f frame ds m) ↔
      ∀ d ∈ ds, writesFrame frame d = false := by
  refine ⟨fun h d hd => ?_, fun h f m hm => kept_of_no_write f hm h⟩
  by_contra hw
  obtain ⟨f, m, hm, hne⟩ := altered_of_write hd (by simpa using hw)
  exact hne (h f m hm).frame_eq

/-! ### A frame that loses its colours -/

/-- `Core.transform` as OpenCV has it, for the blue, green and red channel; nothing
else is called below. -/
def scaling : PixelFunctions where
  cvtColor _ _ _ _ _ := .error .cvException
  transform blue green red := fun _ _ _ s => .ok fun i j k =>
    saturate ([blue, green, red].getD k 0 * (s i j k).toNat)
  threshold _ _ := fun _ _ _ _ => .error .cvException
  adaptiveThreshold _ _ _ := fun _ _ _ _ => .error .cvException
  normalize := fun _ _ _ _ => .error .cvException
  blur _ := fun _ _ _ _ => .error .cvException
  medianBlur _ := fun _ _ _ _ => .error .cvException
  bilateralFilter _ _ _ := fun _ _ _ _ => .error .cvException
  gaussianBlur _ _ := fun _ _ _ _ => .error .cvException
  resize _ _ _ := .error .cvException
  distance _ _ _ := 0
  distance_nonneg _ _ _ := le_refl 0

/-- A comparison that looks at the red channel of the whole frame. -/
def redOnly : Detect := ⟨false, .ok (), none, [.channelsFilter ⟨true, 1, 0, 0⟩]⟩

/-- A comparison that looks at the whole frame as it is. -/
def plain : Detect := ⟨false, .ok (), none, []⟩

/-- On a frame of one orange pixel, a comparison of the red channel leaves a red
pixel, and the next comparison is made with that. -/
theorem frame_altered : ∃ (frame : Mat) (m : Memory), frame.data < m.next ∧
    (after scaling frame [redOnly] m).picture frame ≠ m.picture frame ∧
    fed scaling frame plain (after scaling frame [redOnly] m) ≠ fed scaling frame plain m := by
  obtain ⟨frame, hframe⟩ : ∃ frame : Mat, frame = ⟨0, 0, 0, 1, 1, 3⟩ := ⟨_, rfl⟩
  obtain ⟨m, hm⟩ : ∃ m : Memory, m = ⟨1, fun _ _ _ k => [0, 128, 255].getD k 0⟩ := ⟨_, rfl⟩
  have hgreen : m.cell 0 0 0 1 = 128 := by rw [hm]; rfl
  have hafter : (after scaling frame [redOnly] m).cell 0 0 0 1 = 0 := by
    rw [hframe, hm]
    decide +kernel
  have hne : (after scaling frame [redOnly] m).picture frame ≠ m.picture frame := by
    intro heq
    subst hframe
    have hsame : (after scaling _ [redOnly] m).cell 0 0 0 1 = m.cell 0 0 0 1 :=
      congrFun (congrFun (congrFun (Store.read_of_picture heq) 0) 0) 1
    rw [hafter, hgreen] at hsame
    exact absurd hsame (by decide)
  refine ⟨frame, m, by rw [hframe, hm]; decide, hne, fun hfed => hne ?_⟩
  exact Except.ok.inj hfed

end Detection
end PGCon
