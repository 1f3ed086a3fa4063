/-
# Detections side by side

`PGConScriptEngineV2.detect` submits one task for each parameter and collects the
results in their order. Each task looks at the frame that is current when it runs, and at
its Mat in the cache of `FrameCacheService`, which all of them share and which forgets
entries when it likes. Frames come and other calls are made meanwhile; a task goes on one
preprocessor at a time, and ends with its matcher, which can throw like everything before it.

As long as no detection writes to the Mat of a frame (`calm`), every call returns what its
detections would have found alone, each in a frame that was current during the call
(`results_exact`). They need not be in the same frame. What a detection throws comes out of
the future as the cause of an `ExecutionException`.

A matcher is a function of what it is asked and of the picture it is fed. The executor takes
every task, and the thread that waits for a future is not interrupted.
-/
import PGCon.ColorPick
import PGCon.Detection
import PGCon.Machine

namespace PGCon
namespace DetectAll

open Effect Machine Pictures Raster Detection

/-! ### The machine -/

/-- A parameter: what is looked at, and what the matcher is asked. -/
structure Param (P : Type) extends Detect where
  asked : P

/-- What a detection returns. -/
structure Result (P R : Type) where
  similarity : R
  /-- how many frames had been set when it was current -/
  cachedFrame : ℕ
  param : Param P

/-- What `get` throws for a task that has thrown. -/
structure ExecutionException where
  cause : JavaException

/-- Where a task is. -/
inductive PC (P R : Type)
  | submitted
  /-- it has the frame that was current after `n` frames -/
  | looked (n : ℕ)
  | preprocessing (n : ℕ) (mat : Mat) (rest : List PreProcessorConfig)
  | done (n : ℕ) (result : Except JavaException (Result P R))

/-- A call: its parameters, and how many frames had been set before it. -/
structure Call (P : Type) where
  params : List (Param P)
  since : ℕ

/-- A task: the number of its call, and that of its parameter. -/
abbrev Task := ℕ × ℕ

structure State (P R : Type) where
  memory : Memory
  /-- the frames set so far, each an image of its own -/
  images : List Image
  /-- of `FrameCacheService`, by the number of the image -/
  matCache : ℕ → Option Mat
  calls : List (Call P)
  task : Task → PC P R
  /-- the results of the calls that have returned -/
  returned : List (ℕ × Except ExecutionException (List (Result P R)))

inductive Action (P : Type)
  | setFrame (image : Image)
  /-- the cache forgets a Mat -/
  | evict (i : ℕ)
  | call (params : List (Param P))
  /-- up to `getImage` -/
  | look (k : Task)
  | getTarget (k : Task)
  /-- the next preprocessor -/
  | preProcess (k : Task)
  | doDetect (k : Task)
  | ret (c : ℕ)

section Machine

variable {P R : Type}

def State.init : State P R := ⟨⟨0, fun _ _ _ _ => 0⟩, [], fun _ => none, [], fun _ => .submitted, []⟩

/-- The frame that is current after `n` frames. -/
def frameAt (images : List Image) (n : ℕ) : Option Image := (images.take n).getLast?

namespace State

variable (s : State P R)

def param (k : Task) : Option (Param P) := (s.calls[k.1]?).bind fun call => call.params[k.2]?

def goto (k : Task) (pc : PC P R) : State P R := { s with task := Function.update s.task k pc }

/-- `matCache.get(bufferedImage)`. -/
def getMat (i : ℕ) (image : Image) : Mat × State P R :=
  match s.matCache i with
  | some mat => (mat, s)
  | none =>
    let mat := s.memory.fresh image.rows image.cols image.channels
    (mat, { s with memory := s.memory.alloc image, matCache := Function.update s.matCache i (some mat) })

end State

/-- `get()`, one future after the other: waits for the first that is not done, and throws
for the first that failed. -/
def join : List (PC P R) → Option (Except ExecutionException (List (Result P R)))
  | [] => some (.ok [])
  | .done _ (.error e) :: _ => some (.error ⟨e⟩)
  | .done _ (.ok r) :: pcs => (join pcs).map fun results => results.map (r :: ·)
  | _ :: _ => none

variable (f : PixelFunctions) (matcher : P → Image → Except JavaException R)

/-- The matcher, on the picture it is fed, and the result. -/
def found (d : Param P) (n : ℕ) (p : Image) : Except JavaException (Result P R) := do
  let similarity ← matcher d.asked p
  return ⟨similarity, n, d⟩

/-- `getTarget`, given the Mat of the frame, and the making of the preprocessors. -/
def targetStep (frame : Mat) (s : State P R) (k : Task) (d : Param P) (n : ℕ) : State P R :=
  match getTarget frame d.area !d.preProcessors.isEmpty with
  | .error e => s.goto k (.done n (.error e))
  | .ok target =>
    if d.preProcessors.any unknown then s.goto k (.done n (.error .interruptScript))
    else s.goto k (.preprocessing n target d.preProcessors)

def step (s : State P R) : Action P → Option (State P R)
  | .setFrame image => some { s with images := s.images ++ [image] }
  | .evict i => some { s with matCache := Function.update s.matCache i none }
  | .call params => some { s with calls := s.calls ++ [⟨params, s.images.length⟩] }
  | .look k =>
    match s.param k, s.task k with
    | some d, .submitted =>
      match d.ready with
      | .error e => some (s.goto k (.done s.images.length (.error e)))
      | .ok _ => some (s.goto k (.looked s.images.length))
    | _, _ => none
  | .getTarget k =>
    match s.param k, s.task k with
    | some _, .looked 0 => some (s.goto k (.done 0 (.error .nullPointer)))
    | some d, .looked (n + 1) => (s.images[n]?).map fun image =>
        targetStep (s.getMat n image).1 (s.getMat n image).2 k d (n + 1)
    | _, _ => none
  | .preProcess k =>
    match s.task k with
    | .preprocessing n mat (config :: rest) =>
      match stage f config mat s.memory with
      | .ok mat m => some ({ s with memory := m }.goto k (.preprocessing n mat rest))
      | .error e m => some ({ s with memory := m }.goto k (.done n (.error e)))
    | _ => none
  | .doDetect k =>
    match s.param k, s.task k with
    | some d, .preprocessing n mat [] =>
      let r := (if d.ocr then ImageUtil.matToPix f mat else seen mat) s.memory
      some ({ s with memory := left r }.goto k (.done n (answer r >>= found matcher d n)))
    | _, _ => none
  | .ret c =>
    if s.returned.any fun r => r.1 = c then none
    else (s.calls[c]?).bind fun call =>
      (join ((List.range call.params.length).map fun j => s.task (c, j))).map fun result =>
        { s with returned := s.returned ++ [(c, result)] }

/-- No detection writes to the Mat of a frame. -/
def calm (s : State P R) : Action P → Prop
  | .getTarget k => ∀ d n image, s.param k = some d → s.task k = .looked (n + 1) → s.images[n]? = some image →
      writesFrame (s.getMat n image).1 d.toDetect = false
  | _ => True

/-! ### What a call is for -/

/-- What a detection feeds to its matcher, given the current frame. -/
def see (d : Detect) : Option Image → Except JavaException Image
  | none => do d.ready; .error .nullPointer
  | some image => Detection.feed f d image

/-- A detection alone, in the frame that is current after `n` frames. -/
def detectIn (images : List Image) (d : Param P) (n : ℕ) : Except JavaException (Result P R) :=
  see f d.toDetect (frameAt images n) >>= found matcher d n

/-- The detections one after the other, each in its frame. -/
def detectAll (images : List Image) (ds : List (Param P)) (ns : List ℕ) : Except JavaException (List (Result P R)) :=
  (ds.zip ns).mapM fun p => detectIn f matcher images p.1 p.2

/-! ### The invariant -/

variable {f} {matcher} {frames frames' : ℕ → Prop} {s s' : State P R} {k : Task} {n : ℕ} {d : Param P}

/-- The detection has taken the frame that was current after `n` frames, during its call. -/
def Takes (s : State P R) (k : Task) (d : Param P) (n : ℕ) : Prop :=
  ∃ call, s.calls[k.1]? = some call ∧ call.params[k.2]? = some d ∧ call.since ≤ n ∧ n ≤ s.images.length

/-- What is left of a detection, from the picture so far. -/
def remaining (f : PixelFunctions) (d : Detect) (rest : List PreProcessorConfig) (p : Image) :
    Except JavaException Image := do
  let p ← rest.foldlM (fun p config => apply f config p) p
  if d.ocr ∧ p.channels ≠ 1 then gray f p else return p

/-- What is left to do leads to what the detection is for. -/
def Right (f : PixelFunctions) (matcher : P → Image → Except JavaException R) (frames : ℕ → Prop) (s : State P R)
    (k : Task) : PC P R → Prop
  | .submitted => True
  | .looked n => ∃ d, Takes s k d n ∧ d.ready = .ok ()
  | .preprocessing n mat rest => ∃ d, Takes s k d n ∧ mat.data < s.memory.next ∧
      (frames mat.data → touchAll mat rest ≠ .writes) ∧
      remaining f d.toDetect rest (s.memory.picture mat) = see f d.toDetect (frameAt s.images n)
  | .done n result => ∃ d, Takes s k d n ∧ result = detectIn f matcher s.images d n

/-- The Mat a task works on. -/
def PC.mat : PC P R → Option Mat
  | .preprocessing _ mat _ => some mat
  | _ => none

/-- The result is that of the call's detections one after the other, each in a frame that
was current during the call. -/
def Exact (f : PixelFunctions) (matcher : P → Image → Except JavaException R) (s : State P R) (c : ℕ)
    (result : Except ExecutionException (List (Result P R))) : Prop :=
  ∃ call, s.calls[c]? = some call ∧ ∃ ns : List ℕ, ns.length = call.params.length ∧
    (∀ n ∈ ns, call.since ≤ n ∧ n ≤ s.images.length) ∧
    result = (detectAll f matcher s.images call.params ns).mapError ExecutionException.mk

/-- The Mats of frames show their frames, and a Mat that is not a frame's is one task's
own. -/
structure Inv (f : PixelFunctions) (matcher : P → Image → Except JavaException R) (frames : ℕ → Prop)
    (s : State P R) : Prop where
  since : ∀ call ∈ s.calls, call.since ≤ s.images.length
  old : ∀ b, frames b → b < s.memory.next
  cached : ∀ i mat, s.matCache i = some mat → frames mat.data ∧ s.images[i]? = some (s.memory.picture mat)
  right : ∀ k, Right f matcher frames s k (s.task k)
  own : ∀ k mat, (s.task k).mat = some mat → ¬ frames mat.data →
    ∀ k' mat', (s.task k').mat = some mat' → mat'.data = mat.data → k' = k
  exact : ∀ r ∈ s.returned, Exact f matcher s r.1 r.2

theorem Inv.takes (h : Inv f matcher frames s) (hparam : s.param k = some d) : Takes s k d s.images.length := by
  obtain ⟨call, hcall, hd⟩ := Option.bind_eq_some_iff.mp hparam
  exact ⟨call, hcall, hd, h.since call (List.mem_of_getElem? hcall), le_rfl⟩

/-- What has been taken stays so. -/
theorem Takes.mono (h : Takes s k d n) (himages : s.images <+: s'.images) (hcalls : s.calls <+: s'.calls) :
    Takes s' k d n := by
  obtain ⟨call, hcall, hd, hsince, hle⟩ := h
  obtain ⟨more, hmore⟩ := hcalls
  refine ⟨call, ?_, hd, hsince, hle.trans himages.length_le⟩
  rw [← hmore, List.getElem?_append_left (List.getElem?_eq_some_iff.mp hcall).1, hcall]

theorem frameAt_mono {images images' : List Image} (h : images <+: images') (hn : n ≤ images.length) :
    frameAt images' n = frameAt images n := by
  obtain ⟨more, rfl⟩ := h
  rw [frameAt, frameAt, List.take_append_of_le_length hn]

theorem detectIn_mono {images images' : List Image} (h : images <+: images') (hn : n ≤ images.length) :
    detectIn f matcher images' d n = detectIn f matcher images d n := by
  rw [detectIn, detectIn, frameAt_mono h hn]

theorem detectAll_cons (images : List Image) (d : Param P) (ds : List (Param P)) (n : ℕ) (ns : List ℕ) :
    detectAll f matcher images (d :: ds) (n :: ns) =
      (detectIn f matcher images d n >>= fun r => (detectAll f matcher images ds ns).map (r :: ·)) := by
  rw [detectAll, List.zip_cons_cons, List.mapM_cons]
  rfl

theorem detectAll_mono {images images' : List Image} (h : images <+: images') {ns : List ℕ}
    (hns : ∀ n ∈ ns, n ≤ images.length) (ds : List (Param P)) :
    detectAll f matcher images' ds ns = detectAll f matcher images ds ns := by
  induction ds generalizing ns with
  | nil => rfl
  | cons d ds ih =>
    cases ns with
    | nil => rfl
    | cons n ns =>
      obtain ⟨hn, hns⟩ := List.forall_mem_cons.mp hns
      rw [detectAll_cons, detectAll_cons, detectIn_mono h hn, ih hns]

/-- More frames and calls, and memory that keeps the task's Mat, do not matter. -/
theorem Right.mono {pc : PC P R} (h : Right f matcher frames s k pc) (himages : s.images <+: s'.images)
    (hcalls : s.calls <+: s'.calls) (hnext : s.memory.next ≤ s'.memory.next)
    (hframes : ∀ mat, pc.mat = some mat → mat.data < s.memory.next → frames' mat.data → frames mat.data)
    (hmemory : ∀ mat, pc.mat = some mat → mat.data < s.memory.next → s'.memory.picture mat = s.memory.picture mat) :
    Right f matcher frames' s' k pc := by
  cases pc with
  | submitted => trivial
  | looked n =>
    obtain ⟨d, htakes, hready⟩ := h
    exact ⟨d, htakes.mono himages hcalls, hready⟩
  | preprocessing n mat rest =>
    obtain ⟨d, htakes, hlt, hwrites, hright⟩ := h
    obtain ⟨-, -, -, -, hle⟩ := id htakes
    refine ⟨d, htakes.mono himages hcalls, hlt.trans_le hnext, fun hf => hwrites (hframes mat rfl hlt hf), ?_⟩
    rw [hmemory mat rfl hlt, hright, frameAt_mono himages hle]
  | done n result =>
    obtain ⟨d, htakes, hresult⟩ := h
    obtain ⟨-, -, -, -, hle⟩ := id htakes
    exact ⟨d, htakes.mono himages hcalls, by rw [hresult, detectIn_mono himages hle]⟩

theorem Right.lt {pc : PC P R} (h : Right f matcher frames s k pc) {mat : Mat} (hmat : pc.mat = some mat) :
    mat.data < s.memory.next := by
  cases pc with
  | preprocessing n mat' rest =>
    obtain rfl := Option.some.inj hmat
    obtain ⟨-, -, hlt, -⟩ := h
    exact hlt
  | _ => cases hmat

theorem getElem?_of_prefix {α : Type} {as bs : List α} (h : as <+: bs) {i : ℕ} {a : α} (ha : as[i]? = some a) :
    bs[i]? = some a := by
  obtain ⟨more, rfl⟩ := h
  rw [List.getElem?_append_left (List.getElem?_eq_some_iff.mp ha).1, ha]

theorem Exact.mono {c : ℕ} {result : Except ExecutionException (List (Result P R))} (h : Exact f matcher s c result)
    (himages : s.images <+: s'.images) (hcalls : s.calls <+: s'.calls) : Exact f matcher s' c result := by
  obtain ⟨call, hcall, ns, hlength, hns, hresult⟩ := h
  refine ⟨call, getElem?_of_prefix hcalls hcall, ns, hlength,
    fun n hn => ⟨(hns n hn).1, (hns n hn).2.trans himages.length_le⟩, ?_⟩
  rw [hresult, detectAll_mono himages fun n hn => (hns n hn).2]

theorem State.goto_self {pc : PC P R} : (s.goto k pc).task k = pc := Function.update_self _ _ _

theorem State.goto_of_ne {k' : Task} {pc : PC P R} (h : k' ≠ k) : (s.goto k pc).task k' = s.task k' :=
  Function.update_of_ne h _ _

/-- A task goes on, and the memory with it: the frames' Mats and those of the other tasks
are as they were. -/
theorem Inv.goto (h : Inv f matcher frames s) {m : Memory} {pc : PC P R}
    (hgrows : Store.Grows (fun b => frames b ∨ ∃ k' ≠ k, ∃ mat, (s.task k').mat = some mat ∧ mat.data = b) s.memory m)
    (hright : Right f matcher frames { s with memory := m } k pc)
    (hown : ∀ mat, pc.mat = some mat → frames mat.data ∨
      (∃ mat₀, (s.task k).mat = some mat₀ ∧ mat₀.data = mat.data) ∨ s.memory.next ≤ mat.data) :
    Inv f matcher frames ({ s with memory := m }.goto k pc) := by
  refine ⟨h.since, fun b hb => (h.old b hb).trans_le hgrows.next_le, fun i mat hi => ?_, fun k' => ?_,
    fun k₁ mat₁ h₁ hf k₂ mat₂ h₂ hdata => ?_, h.exact⟩
  · obtain ⟨hf, hpicture⟩ := h.cached i mat hi
    refine ⟨hf, ?_⟩
    show s.images[i]? = some (m.picture mat)
    rw [hgrows.picture (h.old _ hf) (.inl hf), hpicture]
  · rcases eq_or_ne k' k with rfl | hne
    · rw [State.goto_self]
      exact hright.mono (List.prefix_refl _) (List.prefix_refl _) le_rfl (fun _ _ _ hf => hf) fun _ _ _ => rfl
    · rw [State.goto_of_ne hne]
      refine (h.right k').mono (List.prefix_refl _) (List.prefix_refl _) hgrows.next_le (fun _ _ _ hf => hf) ?_
      exact fun mat hmat hlt => hgrows.picture hlt (.inr ⟨k', hne, mat, hmat, rfl⟩)
  · -- of two tasks on one buffer, at most one has moved
    rcases eq_or_ne k₁ k with rfl | hne₁ <;> rcases eq_or_ne k₂ k₁ with rfl | hne₂
    · rfl
    · rw [State.goto_self] at h₁
      rw [State.goto_of_ne hne₂] at h₂
      rcases hown mat₁ h₁ with hframe | ⟨mat₀, h₀, heq⟩ | hfresh
      · exact absurd hframe hf
      · exact h.own k₁ mat₀ h₀ (heq ▸ hf) k₂ mat₂ h₂ (hdata.trans heq.symm)
      · exact absurd ((h.right k₂).lt h₂) (by rw [hdata]; exact hfresh.not_gt)
    · rfl
    · rw [State.goto_of_ne hne₁] at h₁
      rcases eq_or_ne k₂ k with rfl | hne
      · rw [State.goto_self] at h₂
        rcases hown mat₂ h₂ with hframe | ⟨mat₀, h₀, heq⟩ | hfresh
        · exact absurd (hdata ▸ hframe) hf
        · exact h.own k₁ mat₁ h₁ hf k₂ mat₀ h₀ (heq.trans hdata)
        · exact absurd ((h.right k₁).lt h₁) (by rw [← hdata]; exact hfresh.not_gt)
      · rw [State.goto_of_ne hne] at h₂
        exact h.own k₁ mat₁ h₁ hf k₂ mat₂ h₂ hdata

/-- The cache finds or makes a Mat that shows the frame. -/
theorem Inv.getMat (h : Inv f matcher frames s) {i : ℕ} {image : Image} (hi : s.images[i]? = some image) :
    ∃ frames', Inv f matcher frames' (s.getMat i image).2 ∧ frames' (s.getMat i image).1.data ∧
      (s.getMat i image).2.memory.picture (s.getMat i image).1 = image := by
  unfold State.getMat
  split
  · rename_i mat hmat
    obtain ⟨hf, hpicture⟩ := h.cached i mat hmat
    exact ⟨frames, h, hf, Option.some.inj (hpicture.symm.trans hi)⟩
  · have hgrows : Store.Grows (fun _ => True) s.memory (s.memory.alloc image) := Store.grows_alloc _ _
    refine ⟨fun b => frames b ∨ b = s.memory.next, ⟨h.since, ?_, ?_, ?_, ?_, h.exact⟩, .inr rfl,
      Store.picture_alloc _ _⟩
    · rintro b (hb | rfl)
      · exact (h.old b hb).trans_le hgrows.next_le
      · exact Nat.lt_succ_self _
    · intro i' mat' hmat'
      dsimp only at hmat' ⊢
      rcases eq_or_ne i' i with rfl | hne
      · rw [Function.update_self] at hmat'
        obtain rfl := Option.some.inj hmat'
        exact ⟨.inr rfl, by rw [Store.picture_alloc, hi]⟩
      · rw [Function.update_of_ne hne] at hmat'
        obtain ⟨hf, hpicture⟩ := h.cached i' mat' hmat'
        exact ⟨.inl hf, by rw [hgrows.picture (h.old _ hf) trivial, hpicture]⟩
    · intro k
      refine (h.right k).mono (List.prefix_refl _) (List.prefix_refl _) hgrows.next_le ?_ ?_
      · rintro mat - hlt (hf | heq)
        · exact hf
        · exact absurd hlt (by rw [heq]; exact lt_irrefl _)
      · exact fun mat _ hlt => hgrows.picture hlt trivial
    · exact fun k mat hmat hf => h.own k mat hmat fun hf' => hf (.inl hf')

/-! ### The steps -/

theorem inv_init : Inv f matcher (fun _ => False) State.init :=
  ⟨by simp [State.init], fun _ hb => hb.elim, fun _ _ hi => (nomatch hi), fun _ => trivial,
    fun _ _ hmat => (nomatch hmat),
    by simp [State.init]⟩

theorem Inv.setFrame (h : Inv f matcher frames s) (image : Image) :
    Inv f matcher frames { s with images := s.images ++ [image] } := by
  have himages : s.images <+: s.images ++ [image] := List.prefix_append _ _
  refine ⟨fun call hcall => (h.since call hcall).trans himages.length_le, h.old, fun i mat hi => ?_, fun k => ?_, h.own,
    fun r hr => (h.exact r hr).mono himages (List.prefix_refl _)⟩
  · obtain ⟨hf, hpicture⟩ := h.cached i mat hi
    exact ⟨hf, getElem?_of_prefix himages hpicture⟩
  · exact (h.right k).mono himages (List.prefix_refl _) le_rfl (fun _ _ _ hf => hf) fun _ _ _ => rfl

theorem Inv.evict (h : Inv f matcher frames s) (i : ℕ) :
    Inv f matcher frames { s with matCache := Function.update s.matCache i none } := by
  refine ⟨h.since, h.old, fun i' mat hi => ?_, h.right, h.own, h.exact⟩
  dsimp only at hi
  rcases eq_or_ne i' i with rfl | hne
  · rw [Function.update_self] at hi
    cases hi
  · rw [Function.update_of_ne hne] at hi
    exact h.cached i' mat hi

theorem Inv.call (h : Inv f matcher frames s) (params : List (Param P)) :
    Inv f matcher frames { s with calls := s.calls ++ [⟨params, s.images.length⟩] } := by
  have hcalls : s.calls <+: s.calls ++ [⟨params, s.images.length⟩] := List.prefix_append _ _
  refine ⟨fun call hcall => ?_, h.old, h.cached, fun k => ?_, h.own,
    fun r hr => (h.exact r hr).mono (List.prefix_refl _) hcalls⟩
  · rcases List.mem_append.mp hcall with hcall | hcall
    · exact h.since call hcall
    · rw [List.mem_singleton.mp hcall]
  · exact (h.right k).mono (List.prefix_refl _) hcalls le_rfl (fun _ _ _ hf => hf) fun _ _ _ => rfl

/-- A task goes on without touching memory. -/
theorem Inv.goto_still (h : Inv f matcher frames s) {pc : PC P R} (hright : Right f matcher frames s k pc)
    (hown : ∀ mat, pc.mat = some mat → frames mat.data) : Inv f matcher frames (s.goto k pc) :=
  h.goto (.refl _) hright fun mat hmat => .inl (hown mat hmat)

/-- What is thrown on the way to the matcher is thrown. -/
theorem detectIn_of_error {images : List Image} {e : JavaException}
    (h : see f d.toDetect (frameAt images n) = .error e) : detectIn f matcher images d n = .error e := by
  rw [detectIn, h]
  rfl

theorem see_of_not_ready {e : JavaException} (h : d.ready = .error e) (frame : Option Image) :
    see f d.toDetect frame = .error e := by
  cases frame <;> simp only [see, Detection.feed, h] <;> rfl

theorem Takes.param (h : Takes s k d n) : s.param k = some d := by
  obtain ⟨call, hcall, hd, -⟩ := h
  rw [State.param, hcall]
  exact hd

theorem frameAt_succ {images : List Image} {image : Image} (h : images[n]? = some image) :
    frameAt images (n + 1) = some image := by
  rw [frameAt, List.take_add_one, h, List.getLast?_append]
  rfl

theorem see_of_target {frame target : Mat} {m : Memory} (hready : d.ready = .ok ())
    (hlook : lookAt (m.picture frame) d.area (!d.preProcessors.isEmpty) = .ok (m.picture target))
    (hknown : d.preProcessors.any unknown = false) :
    see f d.toDetect (some (m.picture frame)) = remaining f d.toDetect d.preProcessors (m.picture target) := by
  show Detection.feed f d.toDetect (m.picture frame) = _
  unfold Detection.feed
  rw [hready, hlook]
  show (process f d.preProcessors (m.picture target) >>= _) = _
  rw [process, if_neg (by simp [hknown])]
  rfl

theorem getMat_images (s : State P R) (i : ℕ) (image : Image) : (s.getMat i image).2.images = s.images := by
  unfold State.getMat
  split <;> rfl

theorem getMat_calls (s : State P R) (i : ℕ) (image : Image) : (s.getMat i image).2.calls = s.calls := by
  unfold State.getMat
  split <;> rfl

/-- The target is taken of the Mat of the frame. -/
theorem Inv.target (h : Inv f matcher frames s) {frame : Mat} (htakes : Takes s k d n) (hready : d.ready = .ok ())
    (hframe : frames frame.data) (hat : frameAt s.images n = some (s.memory.picture frame))
    (hcalm : writesFrame frame d.toDetect = false) : Inv f matcher frames (targetStep frame s k d n) := by
  unfold targetStep
  rcases getTarget_cases frame d.area (!d.preProcessors.isEmpty) with ⟨e, he, hlook⟩ | ⟨target, ht, hw, hlook⟩
  · rw [he]
    refine h.goto_still ⟨d, htakes, (detectIn_of_error ?_).symm⟩ nofun
    rw [hat, see, Detection.feed, hready, hlook]
    rfl
  · rw [ht]
    dsimp only
    split
    · rename_i hunknown
      refine h.goto_still ⟨d, htakes, (detectIn_of_error ?_).symm⟩ nofun
      rw [hat, see, Detection.feed, hready, hlook]
      show (process f d.preProcessors _ >>= _) = _
      rw [process, if_pos hunknown]
      rfl
    · rename_i hknown
      have hknown := Bool.eq_false_of_not_eq_true hknown
      have hdata : frames target.data := by
        rw [hw.data]
        exact hframe
      refine h.goto_still ⟨d, htakes, h.old _ hdata, fun _ htouch => ?_, ?_⟩ fun mat hmat => ?_
      · rw [writesFrame_of_target hready ht, touchChain, if_neg (by simp [hknown])] at hcalm
        exact of_decide_eq_false hcalm htouch
      · rw [hat, see_of_target hready (hlook _) hknown]
      · obtain rfl := Option.some.inj hmat
        exact hdata

/-- The result is the Mat given, or one of its own. -/
theorem same_or_fresh {t : Touch} {mat mat' : Mat} {m : Memory} (h : t.Places mat m mat') :
    (mat' = mat ∧ t ≠ .leaves) ∨ m.next ≤ mat'.data := by
  cases t with
  | keeps => exact .inl ⟨h, nofun⟩
  | writes => exact h.imp_left fun h => ⟨h, nofun⟩
  | leaves => exact .inr h

/-- The next preprocessor runs. -/
theorem Inv.preProcess (h : Inv f matcher frames s) {mat : Mat} {config : PreProcessorConfig}
    {rest : List PreProcessorConfig}
    (htask : s.task k = .preprocessing n mat (config :: rest)) :
    (∀ mat' m, stage f config mat s.memory = .ok mat' m →
      Inv f matcher frames ({ s with memory := m }.goto k (.preprocessing n mat' rest))) ∧
    ∀ e m, stage f config mat s.memory = .error e m →
      Inv f matcher frames ({ s with memory := m }.goto k (.done n (.error e))) := by
  have hright := h.right k
  rw [htask] at hright
  obtain ⟨d, htakes, hlt, hwrites, hright⟩ := hright
  obtain ⟨hgrows, hends⟩ := computes_stage (f := f) config hlt
  have hmat : (s.task k).mat = some mat := by rw [htask]; rfl
  -- only a Mat of its own is written
  have hkept : ∀ b, (frames b ∨ ∃ k' ≠ k, ∃ mat', (s.task k').mat = some mat' ∧ mat'.data = b) →
      b = mat.data → touch mat config ≠ .writes := by
    rintro b hb rfl htouch
    have hall : touchAll mat (config :: rest) = .writes := by rw [touchAll, htouch]; rfl
    have hown : ¬ frames mat.data := fun hf => hwrites hf hall
    rcases hb with hf | ⟨k', hne, mat', hmat', hdata⟩
    · exact hown hf
    · exact hne (h.own k mat hmat hown k' mat' hmat' hdata)
  have hgrows' := hgrows.mono fun b _ hb => hkept b hb
  constructor
  · intro mat' m hstage
    rw [hstage] at hends hgrows'
    obtain ⟨happly, hlt', hplaces⟩ := hends
    have hnew := same_or_fresh hplaces
    refine h.goto hgrows' ⟨d, htakes, hlt', fun hf htouch => ?_, ?_⟩ ?_
    · rcases hnew with ⟨rfl, hne⟩ | hfresh
      · refine hwrites hf ?_
        rw [touchAll, htouch]
        cases ht : touch mat' config with
        | leaves => exact absurd ht hne
        | _ => rfl
      · exact absurd (h.old _ hf) hfresh.not_gt
    · rw [← hright, remaining, remaining, List.foldlM_cons, happly]
      rfl
    · rintro _ ⟨⟩
      rcases hnew with ⟨rfl, -⟩ | hfresh
      · exact .inr (.inl ⟨mat', hmat, rfl⟩)
      · exact .inr (.inr hfresh)
  · intro e m hstage
    rw [hstage] at hends hgrows'
    refine h.goto hgrows' ⟨d, htakes, (detectIn_of_error ?_).symm⟩ nofun
    show see f d.toDetect (frameAt s.images n) = _
    rw [← hright, remaining, List.foldlM_cons, show apply f config _ = .error e from hends]
    rfl

/-- The picture goes to the matcher. -/
theorem Inv.doDetect (h : Inv f matcher frames s) (hparam : s.param k = some d) {mat : Mat}
    (htask : s.task k = .preprocessing n mat []) :
    Inv f matcher frames ({ s with memory := left ((if d.ocr then ImageUtil.matToPix f mat else seen mat) s.memory) }.goto k
      (.done n (answer ((if d.ocr then ImageUtil.matToPix f mat else seen mat) s.memory) >>= found matcher d n))) := by
  have hright := h.right k
  rw [htask] at hright
  obtain ⟨d', htakes, hlt, -, hright⟩ := hright
  obtain rfl := Option.some.inj (htakes.param.symm.trans hparam)
  have hfed : answer ((if d'.ocr then ImageUtil.matToPix f mat else seen mat) s.memory) =
        remaining f d'.toDetect [] (s.memory.picture mat) ∧
      Store.Grows (fun _ => True) s.memory
        (left ((if d'.ocr then ImageUtil.matToPix f mat else seen mat) s.memory)) := by
    cases hocr : d'.ocr with
    | true =>
      obtain ⟨hanswer, hgrows⟩ := matToPix_spec (f := f) hlt
      refine ⟨hanswer.trans ?_, hgrows⟩
      show _ = if d'.ocr = true ∧ mat.channels ≠ 1 then _ else _
      rw [hocr]
      simp only [true_and]
      rfl
    | false =>
      refine ⟨?_, .refl _⟩
      show _ = if d'.ocr = true ∧ mat.channels ≠ 1 then _ else _
      rw [hocr]
      simp only [Bool.false_eq_true, false_and, if_false]
      rfl
  refine h.goto (hfed.2.mono fun _ _ _ => trivial) ⟨d', htakes, ?_⟩ nofun
  rw [hfed.1, hright]
  rfl

/-- What is joined is what the tasks are for. -/
theorem join_exact {images : List Image} {since : ℕ} (hsince : since ≤ images.length) {ds : List (Param P)}
    {pcs : List (PC P R)} (h : List.Forall₂ (fun d pc => ∀ n r, pc = .done n r →
      since ≤ n ∧ n ≤ images.length ∧ r = detectIn f matcher images d n) ds pcs) :
    ∀ {result}, join pcs = some result → ∃ ns : List ℕ, ns.length = ds.length ∧
      (∀ n ∈ ns, since ≤ n ∧ n ≤ images.length) ∧
      result = (detectAll f matcher images ds ns).mapError ExecutionException.mk := by
  induction h with
  | nil =>
    rintro _ ⟨⟩
    exact ⟨[], rfl, by simp, rfl⟩
  | @cons d pc ds pcs hpc _ ih =>
    intro result hjoin
    cases pc with
    | done n r =>
      obtain ⟨hle, hlen, hr⟩ := hpc n r rfl
      cases r with
      | error e =>
        obtain rfl := Option.some.inj hjoin
        -- what the later tasks see does not matter
        refine ⟨n :: List.replicate ds.length since, by simp, ?_, ?_⟩
        · rintro n' hn'
          rcases List.mem_cons.mp hn' with rfl | hn'
          · exact ⟨hle, hlen⟩
          · rw [List.eq_of_mem_replicate hn']
            exact ⟨le_rfl, hsince⟩
        · rw [detectAll_cons, ← hr]
          rfl
      | ok p =>
        obtain ⟨result', hjoin', rfl⟩ := Option.map_eq_some_iff.mp hjoin
        obtain ⟨ns, hlength, hns, rfl⟩ := ih hjoin'
        refine ⟨n :: ns, by simp [hlength], ?_, ?_⟩
        · rintro n' hn'
          rcases List.mem_cons.mp hn' with rfl | hn'
          · exact ⟨hle, hlen⟩
          · exact hns n' hn'
        · rw [detectAll_cons, ← hr]
          show _ = ((detectAll f matcher images ds ns).map (p :: ·)).mapError _
          cases detectAll f matcher images ds ns <;> rfl
    | _ => cases hjoin

theorem Inv.ret (h : Inv f matcher frames s) {c : ℕ} {call : Call P} (hcall : s.calls[c]? = some call)
    {result : Except ExecutionException (List (Result P R))}
    (hjoin : join ((List.range call.params.length).map fun j => s.task (c, j)) = some result) :
    Inv f matcher frames { s with returned := s.returned ++ [(c, result)] } := by
  refine ⟨h.since, h.old, h.cached, fun k => ?_, h.own, fun r hr => ?_⟩
  · exact (h.right k).mono (List.prefix_refl _) (List.prefix_refl _) le_rfl (fun _ _ _ hf => hf) fun _ _ _ => rfl
  rcases List.mem_append.mp hr with hr | hr
  · exact (h.exact r hr).mono (List.prefix_refl _) (List.prefix_refl _)
  rw [List.mem_singleton.mp hr]
  have hall : List.Forall₂ (fun d pc => ∀ n r, pc = .done n r →
      call.since ≤ n ∧ n ≤ s.images.length ∧ r = detectIn f matcher s.images d n) call.params
      ((List.range call.params.length).map fun j => s.task (c, j)) := by
    refine List.forall₂_iff_get.mpr ⟨by simp, fun j hj _ n r hdone => ?_⟩
    have htask : s.task (c, j) = .done n r := by simpa using hdone
    have hright := h.right (c, j)
    rw [htask] at hright
    obtain ⟨d, ⟨call', hcall', hd, hle, hlen⟩, hr⟩ := hright
    obtain rfl := Option.some.inj (hcall.symm.trans hcall')
    have hget : call.params.get ⟨j, hj⟩ = d := (List.getElem?_eq_some_iff.mp hd).2
    exact ⟨hle, hlen, hget ▸ hr⟩
  obtain ⟨ns, hlength, hns, rfl⟩ := join_exact (h.since call (List.mem_of_getElem? hcall)) hall hjoin
  exact ⟨call, hcall, ns, hlength, hns, rfl⟩

theorem inv_step {a : Action P} (h : ∃ frames, Inv f matcher frames s) (ha : calm s a)
    (hs : step f matcher s a = some s') :
    ∃ frames, Inv f matcher frames s' := by
  obtain ⟨frames, h⟩ := h
  cases a with
  | setFrame image =>
    cases hs
    exact ⟨frames, h.setFrame image⟩
  | evict i =>
    cases hs
    exact ⟨frames, h.evict i⟩
  | call params =>
    cases hs
    exact ⟨frames, h.call params⟩
  | look k =>
    simp only [step] at hs
    split at hs
    · rename_i d hparam _
      split at hs
      · rename_i e hready
        cases hs
        exact ⟨frames, h.goto_still ⟨d, h.takes hparam, (detectIn_of_error (see_of_not_ready hready _)).symm⟩ nofun⟩
      · rename_i hready
        cases hs
        exact ⟨frames, h.goto_still ⟨d, h.takes hparam, hready⟩ nofun⟩
    · cases hs
  | getTarget k =>
    simp only [step] at hs
    split at hs
    · rename_i d hparam htask
      cases hs
      have hright := h.right k
      rw [htask] at hright
      obtain ⟨d', htakes, hready⟩ := hright
      refine ⟨frames, h.goto_still ⟨d', htakes, (detectIn_of_error ?_).symm⟩ nofun⟩
      show see f d'.toDetect none = _
      rw [see, hready]
      rfl
    · rename_i d n hparam htask
      obtain ⟨image, himage, rfl⟩ := Option.map_eq_some_iff.mp hs
      have hright := h.right k
      rw [htask] at hright
      obtain ⟨d', htakes, hready⟩ := hright
      obtain rfl := Option.some.inj (htakes.param.symm.trans hparam)
      obtain ⟨frames', h', hframe, hpicture⟩ := h.getMat himage
      refine ⟨frames', h'.target ?_ hready hframe ?_ (ha d' n image hparam htask himage)⟩
      · exact htakes.mono (by rw [getMat_images]) (by rw [getMat_calls])
      · rw [getMat_images, hpicture, frameAt_succ himage]
    · cases hs
  | preProcess k =>
    simp only [step] at hs
    split at hs
    · rename_i n mat config rest htask
      obtain ⟨hok, herror⟩ := h.preProcess htask
      split at hs
      · rename_i mat' m hstage
        cases hs
        exact ⟨frames, hok mat' m hstage⟩
      · rename_i e m hstage
        cases hs
        exact ⟨frames, herror e m hstage⟩
    · cases hs
  | doDetect k =>
    simp only [step] at hs
    split at hs
    · rename_i d n mat hparam htask
      cases hs
      exact ⟨frames, h.doDetect hparam htask⟩
    · cases hs
  | ret c =>
    simp only [step] at hs
    split at hs
    · cases hs
    · obtain ⟨call, hcall, hs⟩ := Option.bind_eq_some_iff.mp hs
      obtain ⟨result, hjoin, rfl⟩ := Option.map_eq_some_iff.mp hs
      exact ⟨frames, h.ret hcall hjoin⟩

theorem inv_of_reach (h : Reach (step f matcher) calm State.init s) : ∃ frames, Inv f matcher frames s :=
  h.invariant ⟨_, inv_init⟩ fun _ _ _ hi ha hs => inv_step hi ha hs

/-- Every call that has returned has returned what its detections find one after the other,
each in a frame that was current during the call, and the Mats in the cache show their
frames. -/
theorem results_exact (h : Reach (step f matcher) calm State.init s) :
    (∀ r ∈ s.returned, Exact f matcher s r.1 r.2) ∧
      ∀ i mat, s.matCache i = some mat → s.images[i]? = some (s.memory.picture mat) := by
  obtain ⟨frames, hinv⟩ := inv_of_reach h
  exact ⟨hinv.exact, fun i mat hi => (hinv.cached i mat hi).2⟩

end Machine

/-- `doDetect`, given what the methods compute. No method is registered for `null`. -/
def doDetect {R : Type} (methods : CompareMethod → Image → Image → Except JavaException R) :
    Image × Option CompareMethod → Image → Except JavaException R
  | (_, none), _ => .error .nullPointer
  | (temple, some method), target => methods method temple target

/-- A picture of one gray pixel. -/
def pixel (value : BitVec 8) : Image := ⟨1, 1, 1, fun _ _ _ => value⟩

/-- A comparison of the whole frame as it is. -/
def whole (temple : Image) : Param (Image × Option CompareMethod) :=
  ⟨⟨false, .ok (), none, []⟩, temple, some .TM_CCORR⟩

/-- 1 for a picture that is all black and as large as the template, and 0 for another of its size. -/
def black (_ : CompareMethod) (temple target : Image) : Except JavaException ℚ :=
  if temple.cols = target.cols ∧ temple.rows = target.rows then
    .ok (if ∀ i j k, target.samples i j k = 0 then 1 else 0)
  else .error .cvException

theorem calm_whole {R : Type} {s : State (Image × Option CompareMethod) R} {k : Task} {temple : Image}
    (h : s.param k = some (whole temple)) : calm s (.getTarget k) := by
  intro d n image hparam _ _
  obtain rfl := Option.some.inj (h.symm.trans hparam)
  rfl

/-- Two comparisons of one call; a frame comes between their looks, and they are answered
from different frames. The matcher throws for the one of the second call, whose template is
larger than the frame. -/
theorem results_exact_two_frames : ∃ s : State (Image × Option CompareMethod) ℚ,
    s.returned = [(0, .ok [⟨1, 1, whole (pixel 0)⟩, ⟨0, 2, whole (pixel 0)⟩]), (1, .error ⟨.cvException⟩)] ∧
      Exact ColorPick.discrete (doDetect black) s 0 (.ok [⟨1, 1, whole (pixel 0)⟩, ⟨0, 2, whole (pixel 0)⟩]) ∧
      Exact ColorPick.discrete (doDetect black) s 1 (.error ⟨.cvException⟩) := by
  obtain ⟨s, hreach, hreturned⟩ : ∃ s : State (Image × Option CompareMethod) ℚ,
      Reach (step ColorPick.discrete (doDetect black)) calm State.init s ∧
        s.returned = [(0, .ok [⟨1, 1, whole (pixel 0)⟩, ⟨0, 2, whole (pixel 0)⟩]), (1, .error ⟨.cvException⟩)] :=
    ⟨_, .step (.ret 1) (.step (.doDetect (1, 0)) (.step (.getTarget (1, 0)) (.step (.look (1, 0))
      (.step (.call [whole ⟨2, 1, 1, fun _ _ _ => 0⟩])
      (.step (.ret 0) (.step (.doDetect (0, 1)) (.step (.getTarget (0, 1)) (.step (.doDetect (0, 0))
      (.step (.getTarget (0, 0)) (.step (.look (0, 1)) (.step (.setFrame (pixel 255)) (.step (.look (0, 0))
      (.step (.call [whole (pixel 0), whole (pixel 0)]) (.step (.setFrame (pixel 0)) .start
      trivial rfl) trivial rfl) trivial rfl) trivial rfl) trivial rfl) (calm_whole rfl) rfl) trivial rfl)
      (calm_whole rfl) rfl) trivial rfl) trivial rfl) trivial rfl) trivial rfl) (calm_whole rfl) rfl) trivial rfl)
      trivial rfl, rfl⟩
  have hexact := (results_exact hreach).1
  rw [hreturned] at hexact
  exact ⟨s, hreturned, hexact _ List.mem_cons_self, hexact _ (List.mem_cons_of_mem _ List.mem_cons_self)⟩

end DetectAll
end PGCon
