/-
# What preprocessors compute, and what they touch

A chain of preprocessors is for computing one picture from another: `process`,
which knows no memory. The code runs on views, and what it leaves of the buffer it
was given is one of three things (`Touch`): it keeps it and goes on with it, it
writes to it, or it leaves it for a buffer of its own.

`Computes` says both of a run: the picture seen through the Mat it returns is the
one computed, and the buffers that were there are as `Touch` says. It holds of
every preprocessor (`computes_stage`) and so of every chain (`computes_chain`).
-/
import PGCon.Preprocessing

namespace PGCon
namespace Pictures

open Effect Raster

/-- A picture of bytes. -/
abbrev Image := Picture (BitVec 8)

/-! ### Pictures, without memory -/

/-- A gray picture of a picture. -/
def gray (f : PixelFunctions) (p : Image) : Except JavaException Image := do
  ImageUtil.checkChannel p.channels
  if p.channels = 1 then return p
  else cvtColor f (if p.channels = 3 then .BGR2GRAY else .BGRA2GRAY) p

/-- What one preprocessor makes of a picture. -/
def apply (f : PixelFunctions) : PreProcessorConfig → Image → Except JavaException Image
  | .thresh config, p =>
    if config.enable then do
      let p ← gray f p
      match config.threshType with
      | none => .error .nullPointer
      | some threshType => do
        let p ← filtered (ThreshPreProcessor.call f config threshType) p
        if config.inverse then filtered bitwiseNot p else return p
    else return p
  | .channelsFilter config, p =>
    if config.enable ∧ p.channels = 3 then
      filtered (f.transform config.blueWeight config.greenWeight config.redWeight) p
    else return p
  | .normalize config, p =>
    if config.enable then do
      let p ← gray f p
      filtered f.normalize p
    else return p
  | .colorPickFilter config, p =>
    if config.enable ∧ p.channels = 3 then filtered (ColorPickFilterPreProcessor.pick f config) p
    else return p
  | .resize config, p =>
    if config.enable then
      f.resize (toInt (p.cols * config.scale)) (toInt (p.rows * config.scale)) p
    else return p
  | .smoothing config, p =>
    if config.enable then
      match config.type with
      | none => .error .nullPointer
      | some type => filtered (SmoothingPreProcessor.filter f config type) p
    else return p
  | .other _, _ => .error .interruptScript

/-- The factory does not know the configuration. -/
def unknown : PreProcessorConfig → Bool
  | .other _ => true
  | _ => false

/-- What a chain makes of a picture. -/
def process (f : PixelFunctions) (configs : List PreProcessorConfig) (p : Image) : Except JavaException Image :=
  if configs.any unknown then .error .interruptScript
  else configs.foldlM (fun p config => apply f config p) p

/-! ### What is touched -/

/-- What a run leaves of the buffer it was given. -/
inductive Touch
  /-- the buffer is as it was, and the result is the Mat given -/
  | keeps
  | writes
  /-- the buffer is as it was, and the result has one of its own -/
  | leaves
  deriving DecidableEq, Repr

/-- One after the other. -/
def Touch.andThen : Touch → Touch → Touch
  | .keeps, t => t
  | .writes, _ => .writes
  | .leaves, _ => .leaves

/-- No pixel is in the view. -/
def isEmpty (mat : Mat) : Bool := mat.rows = 0 ∨ mat.cols = 0

/-- A call in place. -/
def touchInPlace (mat : Mat) : Touch := if isEmpty mat then .keeps else .writes

/-- `toGray`. -/
def touchGray (mat : Mat) : Touch := if mat.channels = 1 then .keeps else .leaves

/-- `ThreshPreProcessor` after `toGray`. -/
def touchThresh (config : ThreshPreProcessorConfig) (mat : Mat) : Touch :=
  if config.threshType = none then .leaves else touchInPlace mat

/-- The colour filter on three channels. Distances are not negative, so there are
ranges that pick no pixel. -/
def touchPick (config : ColorPickFilterPreProcessorConfig) (mat : Mat) : Touch :=
  if config.targetColor = none then .leaves
  else if isEmpty mat then .keeps
  else if config.pickType = none then .leaves
  else if config.inverse ∨ 0 < ColorPickFilterPreProcessor.getRange config then .writes
  else .keeps

/-- What a preprocessor touches. -/
def touch (mat : Mat) : PreProcessorConfig → Touch
  | .thresh config =>
    if config.enable then (touchGray mat).andThen (touchThresh config mat) else .keeps
  | .channelsFilter config => if config.enable ∧ mat.channels = 3 then touchInPlace mat else .keeps
  | .normalize config => if config.enable then (touchGray mat).andThen (touchInPlace mat) else .keeps
  | .colorPickFilter config => if config.enable ∧ mat.channels = 3 then touchPick config mat else .keeps
  | .resize config => if config.enable then .leaves else .keeps
  | .smoothing config => if config.enable then .leaves else .keeps
  | .other _ => .leaves

/-- What a chain touches, preprocessor by preprocessor. -/
def touchAll (mat : Mat) : List PreProcessorConfig → Touch
  | [] => .keeps
  | config :: configs => (touch mat config).andThen (touchAll mat configs)

/-- What `tryPreProcess` touches: the factory looks at all configurations first. -/
def touchChain (mat : Mat) (configs : List PreProcessorConfig) : Touch :=
  if configs.any unknown then .leaves else touchAll mat configs

/-- Where the result of a run lies. -/
def Touch.Places (t : Touch) (mat : Mat) (m : Memory) (mat' : Mat) : Prop :=
  match t with
  | .keeps => mat' = mat
  | .writes => mat' = mat ∨ m.next ≤ mat'.data
  | .leaves => m.next ≤ mat'.data

/-- How a run from `mat` in `m` ends: with the picture `v`, or its exception. -/
def Touch.Ends (t : Touch) (mat : Mat) (m : Memory) (v : Except JavaException Image) :
    EStateM.Result JavaException Memory Mat → Prop
  | .ok mat' m' => v = .ok (m'.picture mat') ∧ mat'.data < m'.next ∧ t.Places mat m mat'
  | .error e _ => v = .error e

/-- The run from `mat` in `m` computes `v`, and touches `mat` as `t` says and no
other buffer that was there. -/
structure Computes (mat : Mat) (m : Memory) (t : Touch) (v : Except JavaException Image)
    (r : EStateM.Result JavaException Memory Mat) : Prop where
  grows : Store.Grows (fun d => d = mat.data → t ≠ .writes) m (left r)
  ends : t.Ends mat m v r

variable {mat : Mat} {m : Memory} {t : Touch} {v : Except JavaException Image}

theorem computes_return (h : mat.data < m.next) :
    Computes mat m .keeps (.ok (m.picture mat)) (.ok mat m) :=
  ⟨.refl m, rfl, h, rfl⟩

theorem computes_throw (t : Touch) (e : JavaException) : Computes mat m t (.error e) (.error e m) :=
  ⟨.refl m, rfl⟩

theorem Computes.ite {c : Prop} [Decidable c] {u : Touch} {w : Except JavaException Image}
    {prog prog' : Java Memory Mat} (h : c → Computes mat m t v (prog m))
    (h' : ¬ c → Computes mat m u w (prog' m)) :
    Computes mat m (if c then t else u) (if c then v else w) ((if c then prog else prog') m) := by
  by_cases hc : c
  · simpa only [if_pos hc] using h hc
  · simpa only [if_neg hc] using h' hc

theorem Touch.Places.andThen {u : Mat → Touch} {m' : Memory} {mat' mat'' : Mat} (hle : m.next ≤ m'.next)
    (h : t.Places mat m mat') (h' : (u mat').Places mat' m' mat'') :
    (t.andThen (u mat)).Places mat m mat'' := by
  have hcases : mat'' = mat' ∨ m.next ≤ mat''.data := by
    generalize u mat' = w at h'
    cases w with
    | keeps => exact .inl h'
    | writes => exact h'.imp_right hle.trans
    | leaves => exact .inr (hle.trans h')
  cases t with
  | keeps =>
    obtain rfl : mat' = mat := h
    show (u mat').Places mat' m mat''
    generalize u mat' = w at h'
    cases w with
    | keeps => exact h'
    | writes => exact h'.imp_right hle.trans
    | leaves => exact hle.trans h'
  | writes =>
    rcases hcases with rfl | hnew
    · exact h
    · exact .inr hnew
  | leaves =>
    rcases hcases with rfl | hnew
    · exact h
    · exact hnew

theorem Computes.bind {prog : Java Memory Mat} {next : Mat → Java Memory Mat}
    {val : Image → Except JavaException Image} {u : Mat → Touch} (h : Computes mat m t v (prog m))
    (hnext : ∀ mat' m', mat'.data < m'.next →
      Computes mat' m' (u mat') (val (m'.picture mat')) (next mat' m')) :
    Computes mat m (t.andThen (u mat)) (v >>= val) ((prog >>= next) m) := by
  have hfirst : ∀ {m'}, Store.Grows (fun d => d = mat.data → t ≠ .writes) m m' →
      Store.Grows (fun d => d = mat.data → t.andThen (u mat) ≠ .writes) m m' :=
    fun hg => hg.mono fun d _ hd hm ht => hd hm (by rw [ht]; rfl)
  obtain ⟨hg, he⟩ := h
  rw [bind_run]
  cases hr : prog m with
  | error e m' =>
    rw [hr] at hg he
    obtain rfl : v = .error e := he
    exact ⟨hfirst hg, rfl⟩
  | ok mat' m' =>
    rw [hr] at hg he
    obtain ⟨rfl, hlt, hp⟩ := he
    obtain ⟨hg', he'⟩ := hnext mat' m' hlt
    have hle : m.next ≤ m'.next := hg.next_le
    -- a buffer that was there is written by the second part only if it is `mat`'s
    have hold : ∀ d < m.next, (d = mat.data → t.andThen (u mat) ≠ .writes) → d = mat'.data → u mat' ≠ .writes := by
      intro d hd hw hdata
      cases t with
      | keeps =>
        obtain rfl : mat' = mat := hp
        exact hw hdata
      | writes =>
        rcases hp with rfl | hnew
        · exact absurd rfl (hw hdata)
        · omega
      | leaves =>
        have hnew : m.next ≤ mat'.data := hp
        omega
    refine ⟨(hfirst hg).trans hg' hold, ?_⟩
    show (t.andThen (u mat)).Ends mat m (val (m'.picture mat')) (next mat' m')
    generalize next mat' m' = r at he'
    cases r with
    | error e m'' => exact he'
    | ok mat'' m'' => exact ⟨he'.1, he'.2.1, hp.andThen hle he'.2.2⟩

/-! ### Calls -/

variable {f : PixelFunctions} {call : Filter}

theorem inPlace_of_ok {s : Bytes mat.rows mat.cols mat.channels} (h : call _ _ _ (m.read mat) = .ok s) :
    inPlace call mat m = .ok mat (m.write mat s) ∧
      filtered call (m.picture mat) = .ok ((m.write mat s).picture mat) := by
  constructor
  · show (MonadExcept.ofExcept (call _ _ _ (m.read mat)) >>= fun result => _ : Java Memory Mat) m = _
    rw [h]
    rfl
  · show (call _ _ _ (m.read mat) >>= fun samples => _) = _
    rw [h, Store.picture_write]
    rfl

theorem inPlace_of_error {e : JavaException} (h : call _ _ _ (m.read mat) = .error e) :
    inPlace call mat m = .error e m ∧ filtered call (m.picture mat) = .error e := by
  constructor
  · show (MonadExcept.ofExcept (call _ _ _ (m.read mat)) >>= fun result => _ : Java Memory Mat) m = _
    rw [h]
    rfl
  · show (call _ _ _ (m.read mat) >>= fun samples => _) = _
    rw [h]
    rfl

/-- A call in place writes, or keeps the buffer if it changes no sample. -/
theorem computes_inPlace (hm : mat.data < m.next)
    (ht : t = .writes ∨ t = .keeps ∧ ∀ s, call _ _ _ (m.read mat) = .ok s → s = m.read mat) :
    Computes mat m t (filtered call (m.picture mat)) (inPlace call mat m) := by
  cases hc : call _ _ _ (m.read mat) with
  | error e =>
    obtain ⟨hrun, hval⟩ := inPlace_of_error hc
    rw [hrun, hval]
    exact computes_throw t e
  | ok s =>
    obtain ⟨hrun, hval⟩ := inPlace_of_ok hc
    rw [hrun, hval]
    rcases ht with rfl | ⟨rfl, hsame⟩
    · exact ⟨Store.grows_write m s (by simp), rfl, hm, .inl rfl⟩
    · rw [hsame s hc, Store.write_read]
      exact computes_return hm

theorem samples_eq_of_isEmpty (h : isEmpty mat = true) (s s' : Bytes mat.rows mat.cols mat.channels) :
    s = s' := by
  funext i j
  have hi := i.isLt
  have hj := j.isLt
  simp only [isEmpty, decide_eq_true_eq] at h
  omega

theorem computes_touchInPlace (hm : mat.data < m.next) :
    Computes mat m (touchInPlace mat) (filtered call (m.picture mat)) (inPlace call mat m) := by
  refine computes_inPlace hm ?_
  unfold touchInPlace
  split
  · rename_i he
    exact .inr ⟨rfl, fun s _ => samples_eq_of_isEmpty he s _⟩
  · exact .inl rfl

theorem computes_intoNew (call : Image → Except JavaException Image) (mat : Mat) (m : Memory) :
    Computes mat m .leaves (call (m.picture mat)) (intoNew call mat m) := by
  have hrun : intoNew call mat m =
      (MonadExcept.ofExcept (call (m.picture mat)) >>= newMat : Java Memory Mat) m := rfl
  rw [hrun]
  cases call (m.picture mat) with
  | error e => exact computes_throw _ e
  | ok p =>
    refine ⟨Store.grows_alloc m p, ?_⟩
    exact ⟨congrArg Except.ok (Store.picture_alloc m p).symm, Nat.lt_succ_self _, le_refl _⟩

theorem computes_gray (hm : mat.data < m.next) :
    Computes mat m (touchGray mat) (gray f (m.picture mat)) (MatUtil.toGray f mat m) := by
  have hrun : MatUtil.toGray f mat m =
      (MonadExcept.ofExcept (ImageUtil.checkChannel mat.channels) >>= fun _ =>
        if mat.channels = 1 then pure mat
        else intoNew (cvtColor f (if mat.channels = 3 then .BGR2GRAY else .BGRA2GRAY)) mat : Java Memory Mat) m :=
    rfl
  have hval : gray f (m.picture mat) = (ImageUtil.checkChannel mat.channels >>= fun _ =>
      if mat.channels = 1 then pure (m.picture mat)
      else cvtColor f (if mat.channels = 3 then .BGR2GRAY else .BGRA2GRAY) (m.picture mat)) := rfl
  rw [hrun, hval]
  unfold touchGray
  cases ImageUtil.checkChannel mat.channels with
  | error e => exact computes_throw _ e
  | ok _ =>
    by_cases h1 : mat.channels = 1
    · simp only [h1, if_true]
      exact computes_return hm
    · simp only [h1, if_false]
      exact computes_intoNew (cvtColor f (if mat.channels = 3 then .BGR2GRAY else .BGRA2GRAY)) mat m

/-! ### The mask of the colour filter -/

section Mask

open ColorPickFilterPreProcessor

variable {config : ColorPickFilterPreProcessorConfig} {rows cols : ℕ}

/-- The loop marks the pixels within the range. -/
theorem getMask_eq {pickType : PickType} (hp : config.pickType = some pickType) (lab : Bytes rows cols 3)
    (targetLab : Fin 3 → BitVec 8) : getMask f config lab targetLab = .ok fun i j =>
      if f.distance pickType targetLab (lab i j) < getRange config then 255 else 0 := by
  -- the step at a pixel changes that entry of its row
  have hstep : ∀ (row : Fin rows) (mask : Fin rows → Fin cols → BitVec 8) (col : Fin cols),
      (do let distance ← calcDistance f config (lab row col) targetLab
          return if distance < getRange config then
            Function.update mask row (Function.update (mask row) col 255) else mask) =
        (pure (Function.update mask row (Function.update (mask row) col
          (if f.distance pickType targetLab (lab row col) < getRange config then 255 else mask row col))) :
            Except JavaException _) := by
    intro row mask col
    simp only [calcDistance, hp]
    show Except.ok _ = Except.ok _
    split <;> simp
  have hrow : ∀ (mask : Fin rows → Fin cols → BitVec 8) (row : Fin rows),
      (List.finRange cols).foldlM (fun mask col => do
          let distance ← calcDistance f config (lab row col) targetLab
          return if distance < getRange config then
            Function.update mask row (Function.update (mask row) col 255) else mask) mask =
        (pure (Function.update mask row fun col =>
          if f.distance pickType targetLab (lab row col) < getRange config then 255 else mask row col) :
            Except JavaException _) := by
    intro mask row
    simp only [hstep, List.foldlM_pure]
    rw [foldl_update_at row fun col r => Function.update r col
      (if f.distance pickType targetLab (lab row col) < getRange config then 255 else r col)]
    rw [foldl_update fun col b => if f.distance pickType targetLab (lab row col) < getRange config then 255 else b]
    · simp
    · intro col b
      split <;> rfl
  have hrows := foldl_update (fun (row : Fin rows) (r : Fin cols → BitVec 8) col =>
    if f.distance pickType targetLab (lab row col) < getRange config then 255 else r col)
    (fun row r => by funext col; dsimp only; split <;> rfl) (List.finRange rows) fun _ _ => 0
  unfold getMask
  simp only [hrow, List.foldlM_pure, hrows, List.mem_finRange, if_true]
  rfl

/-- Without a pick type the first pixel throws. -/
theorem getMask_of_no_type (hp : config.pickType = none) (hr : rows ≠ 0) (hc : cols ≠ 0)
    (lab : Bytes rows cols 3) (targetLab : Fin 3 → BitVec 8) :
    getMask f config lab targetLab = .error .nullPointer := by
  obtain ⟨r, rfl⟩ := Nat.exists_eq_succ_of_ne_zero hr
  obtain ⟨c, rfl⟩ := Nat.exists_eq_succ_of_ne_zero hc
  unfold getMask
  simp only [List.finRange_succ, List.foldlM_cons, calcDistance, hp]
  rfl

variable {channels : ℕ} {samples : Bytes rows cols channels}

theorem pick_of_no_target (h : config.targetColor = none) :
    pick f config rows cols channels samples = .error .nullPointer := by
  unfold pick getLabTarget
  rw [h]
  rfl

/-- The mask chooses between the cover and the sample. -/
theorem pick_of_ok {targetLab : Fin 3 → BitVec 8} {cover : Bytes rows cols channels} {lab : Bytes rows cols 3}
    {mask : Fin rows → Fin cols → BitVec 8} (htarget : getLabTarget f config.targetColor = .ok targetLab)
    (hcover : getCover f config samples = .ok cover)
    (hlab : f.cvtColor .BGR2Lab rows cols channels samples = .ok lab)
    (hmask : getMask f config lab targetLab = .ok mask) :
    pick f config rows cols channels samples = .ok fun i j k =>
      if (if config.inverse then ~~~ mask i j else mask i j) ≠ 0 then cover i j k else samples i j k := by
  unfold pick
  rw [htarget, hcover, hlab]
  show (getMask f config lab targetLab >>= _) = _
  rw [hmask]
  show Except.ok _ = Except.ok _
  cases config.inverse <;> rfl

/-- The filter throws, or its mask chooses. -/
theorem pick_cases (f : PixelFunctions) (config : ColorPickFilterPreProcessorConfig)
    (samples : Bytes rows cols channels) : (∃ e, pick f config rows cols channels samples = .error e) ∨
      ∃ targetLab lab mask cover, getMask f config lab targetLab = .ok mask ∧
        getCover f config samples = .ok cover ∧ pick f config rows cols channels samples = .ok fun i j k =>
          if (if config.inverse then ~~~ mask i j else mask i j) ≠ 0 then cover i j k else samples i j k := by
  cases htarget : getLabTarget f config.targetColor with
  | error e => exact .inl ⟨e, by unfold pick; rw [htarget]; rfl⟩
  | ok targetLab =>
    cases hcover : getCover f config samples with
    | error e => exact .inl ⟨e, by unfold pick; rw [htarget, hcover]; rfl⟩
    | ok cover =>
      cases hlab : f.cvtColor .BGR2Lab rows cols channels samples with
      | error e => exact .inl ⟨e, by unfold pick; rw [htarget, hcover, hlab]; rfl⟩
      | ok lab =>
        cases hmask : getMask f config lab targetLab with
        | error e =>
          refine .inl ⟨e, ?_⟩
          unfold pick
          rw [htarget, hcover, hlab]
          show (getMask f config lab targetLab >>= _) = _
          rw [hmask]
          rfl
        | ok mask =>
          exact .inr ⟨targetLab, lab, mask, cover, hmask, rfl, pick_of_ok htarget hcover hlab hmask⟩

theorem pick_of_no_type (hp : config.pickType = none) (hr : rows ≠ 0) (hc : cols ≠ 0) :
    ∃ e, pick f config rows cols channels samples = .error e := by
  rcases pick_cases f config samples with h | ⟨targetLab, lab, mask, _, hmask, _⟩
  · exact h
  · rw [getMask_of_no_type hp hr hc] at hmask
    cases hmask

/-- A range that no distance lies in picks no pixel. -/
theorem pick_of_no_range {pickType : PickType} (hp : config.pickType = some pickType)
    (hi : config.inverse = false) (hr : getRange config ≤ 0) {s : Bytes rows cols channels}
    (h : pick f config rows cols channels samples = .ok s) : s = samples := by
  rcases pick_cases f config samples with ⟨e, he⟩ | ⟨targetLab, lab, mask, cover, hmask, -, hpick⟩
  · rw [he] at h
    cases h
  · have hzero : mask = fun _ _ => 0 := by
      rw [getMask_eq hp] at hmask
      obtain rfl := Except.ok.inj hmask
      funext i j
      have h0 := f.distance_nonneg pickType targetLab (lab i j)
      have hr' : (getRange config : ℚ) ≤ 0 := by exact_mod_cast hr
      exact if_neg (not_lt.mpr (hr'.trans h0))
    rw [hpick, hi, hzero] at h
    simpa using (Except.ok.inj h).symm

end Mask

theorem computes_pick (config : ColorPickFilterPreProcessorConfig) (hm : mat.data < m.next) :
    Computes mat m (touchPick config mat) (filtered (ColorPickFilterPreProcessor.pick f config) (m.picture mat))
      (inPlace (ColorPickFilterPreProcessor.pick f config) mat m) := by
  have hthrow : ∀ (t : Touch) {e : JavaException},
      ColorPickFilterPreProcessor.pick f config _ _ _ (m.read mat) = .error e →
        Computes mat m t (filtered (ColorPickFilterPreProcessor.pick f config) (m.picture mat))
          (inPlace (ColorPickFilterPreProcessor.pick f config) mat m) := by
    intro t e he
    obtain ⟨hrun, hval⟩ := inPlace_of_error he
    rw [hrun, hval]
    exact computes_throw t e
  unfold touchPick
  split
  · rename_i htarget
    exact hthrow _ (pick_of_no_target htarget)
  split
  · rename_i hempty
    exact computes_inPlace hm (.inr ⟨rfl, fun s _ => samples_eq_of_isEmpty hempty s _⟩)
  rename_i hempty
  have hne : mat.rows ≠ 0 ∧ mat.cols ≠ 0 := by simpa [isEmpty] using hempty
  split
  · rename_i hp
    have hthrows : ∃ e, ColorPickFilterPreProcessor.pick f config _ _ _ (m.read mat) = .error e :=
      pick_of_no_type hp hne.1 hne.2
    obtain ⟨e, he⟩ := hthrows
    exact hthrow _ he
  rename_i hp
  split
  · exact computes_inPlace hm (.inl rfl)
  · rename_i hno
    obtain ⟨pickType, hpick⟩ := Option.ne_none_iff_exists'.mp hp
    push Not at hno
    refine computes_inPlace hm (.inr ⟨rfl, fun s hs => ?_⟩)
    exact pick_of_no_range hpick (by simpa using hno.1) hno.2 hs

/-! ### Preprocessors and chains -/

theorem touchInPlace_andThen (mat : Mat) :
    (touchInPlace mat).andThen (touchInPlace mat) = touchInPlace mat := by
  unfold touchInPlace
  split <;> rfl

theorem touchInPlace_andThen_keeps (mat : Mat) : (touchInPlace mat).andThen .keeps = touchInPlace mat := by
  unfold touchInPlace
  split <;> rfl

theorem computes_thresh (config : ThreshPreProcessorConfig) (hm : mat.data < m.next) :
    Computes mat m (touch mat (.thresh config)) (apply f (.thresh config) (m.picture mat))
      (ThreshPreProcessor.preProcess f config mat m) := by
  refine Computes.ite (fun _ => ?_) fun _ => computes_return hm
  refine Computes.bind (u := touchThresh config) (computes_gray hm) fun mat' m' hm' => ?_
  unfold touchThresh
  cases config.threshType with
  | none => exact computes_throw _ _
  | some threshType =>
    simp only [reduceCtorEq, if_false]
    cases config.inverse with
    | true =>
      rw [← touchInPlace_andThen mat']
      exact Computes.bind (computes_touchInPlace hm') fun _ _ hm'' => computes_touchInPlace hm''
    | false =>
      rw [← touchInPlace_andThen_keeps mat']
      exact Computes.bind (u := fun _ => .keeps) (computes_touchInPlace hm') fun _ _ hm'' => computes_return hm''

/-- One preprocessor, as the factory makes it. -/
def stage (f : PixelFunctions) (config : PreProcessorConfig) (mat : Mat) : Java Memory Mat :=
  match PreprocessorFactory.load f config with
  | .ok preProcess => preProcess mat
  | .error e => throw e

theorem computes_stage (config : PreProcessorConfig) (hm : mat.data < m.next) :
    Computes mat m (touch mat config) (apply f config (m.picture mat)) (stage f config mat m) := by
  have hkeeps : ∀ {c : Prop}, ¬ c → Computes mat m .keeps (.ok (m.picture mat)) (.ok mat m) :=
    fun _ => computes_return hm
  cases config with
  | thresh config => exact computes_thresh config hm
  | channelsFilter config => exact Computes.ite (fun _ => computes_touchInPlace hm) hkeeps
  | normalize config =>
    refine Computes.ite (fun _ => ?_) hkeeps
    exact Computes.bind (computes_gray hm) fun _ _ hm' => computes_touchInPlace hm'
  | colorPickFilter config => exact Computes.ite (fun _ => computes_pick config hm) hkeeps
  | resize config => exact Computes.ite (fun _ => computes_intoNew _ mat m) hkeeps
  | smoothing config =>
    refine Computes.ite (fun _ => ?_) hkeeps
    cases config.type with
    | none => exact computes_throw _ _
    | some type => exact computes_intoNew (filtered (SmoothingPreProcessor.filter f config type)) mat m
  | other enable => exact computes_throw _ _

/-- The factory makes the whole chain, or throws. -/
theorem mapM_load (f : PixelFunctions) : ∀ configs : List PreProcessorConfig,
    configs.mapM (PreprocessorFactory.load f) =
      if configs.any unknown then .error .interruptScript else .ok (configs.map (stage f))
  | [] => rfl
  | config :: configs => by
    rw [List.mapM_cons, mapM_load f configs, List.any_cons]
    cases config with
    | other enable => rfl
    | _ =>
      simp only [unknown, Bool.false_or]
      split <;> rfl

theorem tryPreProcess_eq (f : PixelFunctions) (mat : Mat) (configs : List PreProcessorConfig) :
    ImageDetector.tryPreProcess f mat configs = if configs.any unknown then throw .interruptScript
      else configs.foldlM (fun mat config => stage f config mat) mat := by
  unfold ImageDetector.tryPreProcess
  rw [mapM_load]
  cases configs with
  | nil => rfl
  | cons config configs =>
    simp only [ne_eq, reduceCtorEq, not_false_eq_true, if_true]
    split
    · rfl
    · refine (pure_bind ((config :: configs).map (stage f)) _).trans ?_
      rw [List.foldlM_map]

theorem computes_stages : ∀ (configs : List PreProcessorConfig) {mat : Mat} {m : Memory}, mat.data < m.next →
    Computes mat m (touchAll mat configs) (configs.foldlM (fun p config => apply f config p) (m.picture mat))
      (configs.foldlM (fun mat config => stage f config mat) mat m)
  | [], _, _, hm => computes_return hm
  | config :: configs, mat, m, hm => by
    rw [List.foldlM_cons, List.foldlM_cons]
    exact Computes.bind (u := fun mat => touchAll mat configs) (computes_stage config hm)
      fun _ _ hm' => computes_stages configs hm'

/-- A chain computes what it is for, and touches what `touchChain` says. -/
theorem computes_chain (configs : List PreProcessorConfig) (hm : mat.data < m.next) :
    Computes mat m (touchChain mat configs) (process f configs (m.picture mat))
      (ImageDetector.tryPreProcess f mat configs m) := by
  rw [tryPreProcess_eq]
  exact Computes.ite (fun _ => computes_throw _ _) fun _ => computes_stages configs hm

end Pictures
end PGCon
