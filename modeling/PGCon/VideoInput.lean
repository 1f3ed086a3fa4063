/-
# Switching the video input

The LOAD_FRAME daemon runs `DisplayService.readFrame` over and over. It tests
`imageInput` and reads it again; `CameraImageInput.read` tests `camera`, reads it
again for `isOpen()` and once more for `getImage()`, and then asks the image for
its width. Meanwhile the GUI thread closes the camera, and sets both fields to
`null`, without a lock. `DaemonTask.run` catches exceptions outside its loop, so
the first one ends frame loading for good.

`Intact` says what the daemon relies on where it stands: what it has tested and
not used yet. Its own steps keep that. So if every step of the GUI thread leaves it
intact the daemon never dies, and after a step that does not a few steps of the
daemon alone are its last (`alive_and_fatal`).
-/
import PGCon.Machine

namespace PGCon
namespace VideoInput

open Machine

/-- Where the daemon stands: the next thing it does. An input and a webcam are
references. -/
inductive Daemon
  /-- `while (!Thread.currentThread().isInterrupted())` -/
  | loop
  /-- `screen != null` -/
  | testScreen
  /-- `imageInput != null` -/
  | testInput
  /-- `imageInput.read()`, the field -/
  | readInput
  /-- `camera != null` -/
  | testCamera (i : ℕ)
  /-- `camera.isOpen()`, the field -/
  | readCamera (i : ℕ)
  /-- `camera.isOpen()`, the call -/
  | isOpen (i w : ℕ)
  /-- `camera.getImage()`, the field -/
  | rereadCamera (i : ℕ)
  /-- `camera.getImage()`, the call -/
  | getImage (w : ℕ)
  /-- `image.getWidth()`; the image is there or `null` -/
  | getWidth (image : Bool)
  /-- `frameCacheService.setFrame(read)` -/
  | setFrame
  /-- The loop left on an interrupt. -/
  | finished
  /-- The loop left by an exception. -/
  | dead
  deriving DecidableEq, Repr

/-- Where the GUI thread stands in `close()`, and what `setImageInput` assigns
afterwards (`none` if `close()` was called by itself). -/
inductive Gui
  | idle
  /-- `imageInput != null` -/
  | testInput (next : Option (Option ℕ))
  /-- `imageInput.close()`, the field -/
  | readInput (next : Option (Option ℕ))
  /-- `camera.close()` -/
  | closeCamera (i : ℕ) (next : Option (Option ℕ))
  /-- `camera = null` -/
  | nullCamera (i : ℕ) (next : Option (Option ℕ))
  /-- `imageInput = null` -/
  | nullInput (next : Option (Option ℕ))
  /-- `this.imageInput = imageInput` -/
  | assign (x : Option ℕ)
  deriving DecidableEq, Repr

/-- The shared fields and the two threads. -/
structure State where
  screen : Bool
  imageInput : Option ℕ
  /-- The field `camera` of every input. -/
  camera : ℕ → Option ℕ
  /-- The number of inputs made. -/
  inputs : ℕ
  /-- The webcams that are open. -/
  opened : ℕ → Bool
  interrupted : Bool
  gui : Gui
  daemon : Daemon

/-! ### The daemon -/

/-- The daemon's next step; `NullPointerException` is `dead`. An open camera gives
an image, a closed one `null`. -/
def readFrame (s : State) : Option Daemon :=
  match s.daemon with
  | .loop => some (if s.interrupted then .finished else .testScreen)
  | .testScreen => some (if s.screen then .testInput else .loop)
  | .testInput => some (if s.imageInput.isSome then .readInput else .loop)
  | .readInput => some (match s.imageInput with
    | some i => .testCamera i
    | none => .dead)
  | .testCamera i => some (if (s.camera i).isSome then .readCamera i else .loop)
  | .readCamera i => some (match s.camera i with
    | some w => .isOpen i w
    | none => .dead)
  | .isOpen i w => some (if s.opened w then .rereadCamera i else .loop)
  | .rereadCamera i => some (match s.camera i with
    | some w => .getImage w
    | none => .dead)
  | .getImage w => some (.getWidth (s.opened w))
  | .getWidth image => some (if image then .setFrame else .dead)
  | .setFrame => some .loop
  | .finished | .dead => none

/-! ### The GUI thread -/

/-- After `close()`. -/
def Gui.closed : Option (Option ℕ) → Gui
  | some x => .assign x
  | none => .idle

/-- The GUI thread's next step. An exception ends what it does. -/
def closeStep (s : State) : Option State :=
  match s.gui with
  | .idle => none
  | .testInput next => some { s with gui := if s.imageInput.isSome then .readInput next else .closed next }
  | .readInput next => some (match s.imageInput with
    | some i => { s with gui := .closeCamera i next }
    | none => { s with gui := .idle })
  | .closeCamera i next => some (match s.camera i with
    | some w => { s with opened := Function.update s.opened w false, gui := .nullCamera i next }
    | none => { s with gui := .idle })
  | .nullCamera i next => some { s with camera := Function.update s.camera i none, gui := .nullInput next }
  | .nullInput next => some { s with imageInput := none, gui := .closed next }
  | .assign x => some { s with imageInput := x, gui := .idle }

/-! ### Runs -/

inductive Action
  | registerScreen
  | interrupt
  /-- `new CameraImageInput(...)` on the webcam `w`, which it opens. -/
  | openInput (w : ℕ)
  | setImageInput (x : Option ℕ)
  | close
  /-- A step of the GUI thread. -/
  | gui
  /-- A step of the daemon. -/
  | daemon
  deriving DecidableEq, Repr

def step (s : State) : Action → Option State
  | .registerScreen => some { s with screen := true }
  | .interrupt => some { s with interrupted := true }
  | .openInput w =>
    if s.gui = .idle then
      some { s with
        camera := Function.update s.camera s.inputs (some w)
        inputs := s.inputs + 1
        opened := Function.update s.opened w true }
    else none
  | .setImageInput x => if s.gui = .idle then some { s with gui := .testInput (some x) } else none
  | .close => if s.gui = .idle then some { s with gui := .testInput none } else none
  | .gui => closeStep s
  | .daemon => (readFrame s).map fun d => { s with daemon := d }

/-- No screen, no input, no camera open. -/
def start : State := ⟨false, none, fun _ => none, 0, fun _ => false, false, .idle, .loop⟩

/-- What the daemon has tested and not used yet is still so. -/
def Intact (s : State) : Prop :=
  match s.daemon with
  | .readInput => s.imageInput ≠ none
  | .readCamera i => s.camera i ≠ none
  | .isOpen i w => s.opened w = true → ∃ w', s.camera i = some w' ∧ s.opened w' = true
  | .rereadCamera i => ∃ w, s.camera i = some w ∧ s.opened w = true
  | .getImage w => s.opened w = true
  | .getWidth image => image = true
  | .dead => False
  | _ => True

/-- The steps of the GUI thread that leave it so. -/
def Spares (s : State) (a : Action) : Prop := a ≠ .daemon → ∀ s', step s a = some s' → Intact s'

/-- The daemon's own steps leave intact what it relies on. -/
theorem intact_daemon {s : State} {d : Daemon} (h : Intact s) (hd : readFrame s = some d) :
    Intact { s with daemon := d } := by
  obtain ⟨screen, imageInput, camera, inputs, opened, interrupted, gui, daemon⟩ := s
  cases daemon with
  | loop =>
    obtain rfl := Option.some.inj hd
    dsimp only
    split <;> trivial
  | testScreen =>
    obtain rfl := Option.some.inj hd
    dsimp only
    split <;> trivial
  | testInput =>
    obtain rfl := Option.some.inj hd
    dsimp only
    split
    · exact Option.isSome_iff_ne_none.mp ‹_›
    · trivial
  | readInput =>
    obtain ⟨i, rfl⟩ := Option.ne_none_iff_exists'.mp h
    obtain rfl := Option.some.inj hd
    trivial
  | testCamera i =>
    obtain rfl := Option.some.inj hd
    dsimp only
    split
    · exact Option.isSome_iff_ne_none.mp ‹_›
    · trivial
  | readCamera i =>
    obtain ⟨w, hw⟩ := Option.ne_none_iff_exists'.mp h
    obtain rfl := Option.some.inj hd
    dsimp only at hw ⊢
    rw [hw]
    exact fun hopen => ⟨w, hw, hopen⟩
  | isOpen i w =>
    obtain rfl := Option.some.inj hd
    dsimp only
    split
    · rename_i hopen
      exact h hopen
    · trivial
  | rereadCamera i =>
    obtain ⟨w, hw, hopen⟩ := h
    obtain rfl := Option.some.inj hd
    dsimp only at hw ⊢
    rw [hw]
    exact hopen
  | getImage w =>
    obtain rfl := Option.some.inj hd
    exact h
  | getWidth image =>
    obtain rfl : image = true := h
    obtain rfl := Option.some.inj hd
    trivial
  | setFrame =>
    obtain rfl := Option.some.inj hd
    trivial
  | finished => cases hd
  | dead => cases hd

theorem intact_step (s : State) (a : Action) (s' : State) (h : Intact s) (ha : Spares s a)
    (hs : step s a = some s') : Intact s' := by
  by_cases hd : a = .daemon
  · subst hd
    obtain ⟨d, hd, rfl⟩ := Option.map_eq_some_iff.mp hs
    exact intact_daemon h hd
  · exact ha hd s' hs

/-! ### What is fatal -/

/-- Only the daemon moves. -/
def Alone (_ : State) (a : Action) : Prop := a = .daemon

theorem daemon_step {s : State} {d : Daemon} (h : readFrame s = some d) :
    step s .daemon = some { s with daemon := d } := by
  rw [step, h]
  rfl

/-- The next step of the daemon throws. -/
theorem dies_now {s t : State} (hr : Reach step Alone s t) (h : readFrame t = some .dead) :
    ∃ t, Reach step Alone s t ∧ t.daemon = .dead :=
  ⟨{ t with daemon := .dead }, .step .daemon hr rfl (daemon_step h), rfl⟩

/-- The image will be `null`. -/
theorem dies_after_getImage {s t : State} {w : ℕ} (hr : Reach step Alone s t) (hpc : t.daemon = .getImage w)
    (hw : t.opened w = false) : ∃ t, Reach step Alone s t ∧ t.daemon = .dead := by
  have hget : readFrame t = some (.getWidth false) := by simp only [readFrame, hpc, hw]
  exact dies_now (.step .daemon hr rfl (daemon_step hget)) rfl

theorem dies_after_isOpen {s t : State} {i : ℕ} (hr : Reach step Alone s t) (hpc : t.daemon = .rereadCamera i)
    (h : ¬ ∃ w, t.camera i = some w ∧ t.opened w = true) : ∃ t, Reach step Alone s t ∧ t.daemon = .dead := by
  cases hcam : t.camera i with
  | none => exact dies_now hr (by simp only [readFrame, hpc, hcam])
  | some w =>
    have hread : readFrame t = some (.getImage w) := by simp only [readFrame, hpc, hcam]
    have hw : t.opened w = false := by
      rw [← Bool.not_eq_true]
      exact fun hopen => h ⟨w, hcam, hopen⟩
    exact dies_after_getImage (.step .daemon hr rfl (daemon_step hread)) rfl hw

/-- Once something it relies on is gone, the daemon's own next steps are its last. -/
theorem dies_of_not_intact {s : State} (h : ¬ Intact s) : ∃ t, Reach step Alone s t ∧ t.daemon = .dead := by
  cases hpc : s.daemon <;> simp only [Intact, hpc, not_true_eq_false, not_false_eq_true, not_not] at h
  case readInput => exact dies_now .start (by simp only [readFrame, hpc, h])
  case readCamera i => exact dies_now .start (by simp only [readFrame, hpc, h])
  case isOpen i w =>
    obtain ⟨hopen, hcam⟩ := Classical.not_imp.mp h
    have hread : readFrame s = some (.rereadCamera i) := by simp only [readFrame, hpc, hopen, if_true]
    exact dies_after_isOpen (.step .daemon .start rfl (daemon_step hread)) rfl hcam
  case rereadCamera i => exact dies_after_isOpen .start hpc h
  case getImage w => exact dies_after_getImage .start hpc (Bool.not_eq_true _ ▸ h)
  case getWidth image => exact dies_now .start (by simp only [readFrame, hpc, if_neg h])
  case dead => exact ⟨s, .start, hpc⟩

/-- In every run in which the GUI thread's steps leave intact what the daemon
relies on, the daemon has not died; and after the first step that does not, the
daemon's own next steps are its last. -/
theorem alive_and_fatal {s : State} (h : Reach step Spares start s) : s.daemon ≠ .dead ∧
    ∀ a s', step s a = some s' → ¬ Spares s a → ∃ t, Reach step Alone s' t ∧ t.daemon = .dead := by
  have hintact : Intact s := h.invariant trivial intact_step
  constructor
  · intro hdead
    rw [Intact, hdead] at hintact
    exact hintact
  · intro a s' hs hnot
    apply dies_of_not_intact
    intro hi
    apply hnot
    intro _ t ht
    obtain rfl : s' = t := Option.some.inj (hs.symm.trans ht)
    exact hi

/-- The screen is there, the camera 0 is open, and the daemon has seen it. -/
def watching : State where
  screen := true
  imageInput := some 0
  camera := Function.update (fun _ => none) 0 (some 0)
  inputs := 1
  opened := Function.update (fun _ => false) 0 true
  interrupted := false
  gui := .idle
  daemon := .readInput

theorem daemon_of_closeStep {s s' : State} (h : closeStep s = some s') : s'.daemon = s.daemon := by
  unfold closeStep at h
  split at h <;> cases h <;> first | rfl | (split <;> rfl)

/-- The steps of the GUI thread do not move the daemon. -/
theorem daemon_of_step {s s' : State} {a : Action} (ha : a ≠ .daemon) (h : step s a = some s') :
    s'.daemon = s.daemon := by
  cases a with
  | registerScreen | interrupt =>
    cases h
    rfl
  | openInput | setImageInput | close =>
    obtain ⟨-, h⟩ := Option.ite_none_right_eq_some.mp h
    cases h
    rfl
  | gui => exact daemon_of_closeStep h
  | daemon => exact absurd rfl ha

theorem spares_loop {s : State} (a : Action) (h : s.daemon = .loop) : Spares s a := by
  intro ha s' hs
  rw [Intact, daemon_of_step ha hs, h]
  trivial

theorem reach_watching : Reach step Spares start watching := by
  have hready : Reach step Spares start { watching with daemon := .loop } :=
    .step .gui (.step .gui (.step (.setImageInput (some 0)) (.step (.openInput 0) (.step .registerScreen .start
      (spares_loop _ rfl) rfl) (spares_loop _ rfl) rfl) (spares_loop _ rfl) rfl) (spares_loop _ rfl) rfl)
      (spares_loop _ rfl) rfl
  exact .step .daemon (.step .daemon (.step .daemon hready (absurd rfl) rfl) (absurd rfl) rfl) (absurd rfl) rfl

theorem alive_and_fatal_watching : watching.daemon ≠ .dead ∧
    ∀ a s', step watching a = some s' → ¬ Spares watching a → ∃ t, Reach step Alone s' t ∧ t.daemon = .dead :=
  alive_and_fatal reach_watching

/-- The input is switched off between the daemon's two reads of `imageInput`. -/
theorem killed : ¬ ∀ s : State, Reach step anyStep start s → s.daemon ≠ .dead := by
  intro h
  exact h _ (reach_of_run [.registerScreen, .openInput 0, .setImageInput (some 0), .gui, .gui, .daemon, .daemon,
    .daemon, .close, .gui, .gui, .gui, .gui, .gui, .daemon] .start rfl) rfl

end VideoInput
end PGCon
