/-
# The daemon and timed holds

`autoRelease` runs in a thread of its own. For every control it tests the expiry
outside the monitor and, if the time has come, calls `release`, which enters the
monitor; a script's hold can come between the two. Here the script's calls are
atomic, and the daemon's test and its release are separate steps.

A release of a button by the daemon is early when some hold since the button was
last released asked for an expiry still to come. It happens (`early_release`),
and it happens exactly when such a hold came between the daemon's test and its
release (`onTime_iff`). Whether the protocol fails does not matter: the expiry
is assigned before the protocol is called.
-/
import PGCon.Machine
import PGCon.Bookkeeping

namespace PGCon
namespace AutoRelease

open Effect Machine ControllerService

/-! ### What the calls do to the expiries, whatever the protocol does -/

section Slots

variable {P O : Type}

theorem frame_setHatDirection (d : Option Button) :
    Frame (fun s : ControllerService P O => s.buttonExpired) (setHatDirection d) :=
  Frame.assign fun _ => rfl

variable [Protocol P O]

theorem buttonExpired_releaseButton (b : Button) (s : ControllerService P O) :
    (left (releaseButton b s)).buttonExpired = Function.update s.buttonExpired (getExpireTimeIndex b) 0 := by
  unfold releaseButton
  simp only [get_bind_run, ite_run]
  split
  · exact left_bind_of_frame _ (fun _ => Frame.bind (frame_withProtocol _ fun _ _ => rfl)
      fun _ => Frame.ite (frame_setHatDirection _) (Frame.pure _)) s
  · rename_i h
    push Not at h
    exact (Function.update_eq_self_iff.mpr h.symm).symm

theorem buttonExpired_release (s : ControllerService P O) (b : Button) {c : Button} (hc : NonHat c) :
    (left (releaseButton b s)).buttonExpired c = if c = b then 0 else s.buttonExpired c := by
  rw [buttonExpired_releaseButton]
  by_cases hb : NonHat b
  · rw [index_nonHat hb]
    by_cases hcb : c = b
    · rw [hcb, Function.update_self, if_pos rfl]
    · rw [Function.update_of_ne hcb, if_neg hcb]
  · have hcb : c ≠ b := fun h => hb (h ▸ hc)
    rw [index_hat (by simpa [NonHat] using hb), Function.update_of_ne (nonHat_ne_top hc), if_neg hcb]

/-- A hold of a button that is no hat direction. -/
theorem buttonExpired_checkAndHoldButton {b : Button} (hb : NonHat b) (e : ℤ) (s : ControllerService P O) :
    (left (checkAndHoldButton b e s)).buttonExpired = Function.update s.buttonExpired b
      (if s.buttonExpired b = 0 then e else merged (s.buttonExpired b) e) := by
  have hb' : ¬ b.isHat = true := by rw [hb]; decide
  unfold checkAndHoldButton
  simp only [get_bind_run, ite_run, index_nonHat hb, if_neg hb']
  split
  · exact left_bind_of_frame _ (fun _ => Frame.bind (frame_withProtocol _ fun _ _ => rfl)
      fun _ => Frame.pure _) s
  · unfold merged
    split
    · rfl
    · exact (Function.update_eq_self _ _).symm

/-- A hold of a hat direction changes the shared slot only. -/
theorem buttonExpired_checkAndHoldButton_hat {b c : Button} (hb : b.isHat = true) (hc : NonHat c) (e : ℤ) :
    Frame (fun s : ControllerService P O => s.buttonExpired c) (checkAndHoldButton b e) := by
  have hset : Frame (fun s : ControllerService P O => s.buttonExpired c) (setButtonExpired .D_TOP e) :=
    Frame.assign fun s => Function.update_of_ne (nonHat_ne_top hc) _ _
  have hhat : ∀ d, Frame (fun s : ControllerService P O => s.buttonExpired c) (setHatDirection d) :=
    fun _ => Frame.assign fun _ => rfl
  have hcalls : ∀ m : Java P Unit, Frame (fun s : ControllerService P O => s.buttonExpired c) (withProtocol m) :=
    fun m => frame_withProtocol m fun _ _ => rfl
  unfold checkAndHoldButton
  simp only [index_hat hb, hb, if_true]
  refine Frame.get_bind fun s => Frame.ite ?_ (Frame.ite ?_ ?_)
  · exact Frame.bind hset fun _ => Frame.bind (hcalls _) fun _ => hhat _
  · exact Frame.ite hset (Frame.pure _)
  · exact Frame.bind hset fun _ => Frame.bind (hcalls _) fun _ => hhat _

variable [Stick O]

theorem buttonExpired_releaseStick (a : StickObject O) :
    Frame (fun s : ControllerService P O => s.buttonExpired) (releaseStick a) := by
  refine Frame.get_bind fun s => Frame.ite ?_ (Frame.pure _)
  refine Frame.bind (Frame.assign fun _ => rfl) fun _ => ?_
  exact Frame.bind (frame_withProtocol _ fun _ _ => rfl) fun _ => Frame.assign fun _ => rfl

theorem buttonExpired_checkAndHoldStick [DecidableEq O] (a : StickObject O) (e : ℤ) :
    Frame (fun s : ControllerService P O => s.buttonExpired) (checkAndHoldStick a e) := by
  have hset : Frame (fun s : ControllerService P O => s.buttonExpired) (setStickExpired (getStick a) e) :=
    Frame.assign fun _ => rfl
  have hdir : Frame (fun s : ControllerService P O => s.buttonExpired) (setStickDirection (getStick a) a) :=
    Frame.assign fun _ => rfl
  have hnew := Frame.bind hset fun _ => Frame.bind
    (frame_withProtocol (O := O) (π := fun s => s.buttonExpired) (Protocol.set a) fun _ _ => rfl)
    fun _ => hdir
  refine Frame.get_bind fun s => Frame.ite hnew (Frame.ite (Frame.ite ?_ hdir) hnew)
  exact Frame.bind hset fun _ => hdir

end Slots

/-! ### The two threads -/

/-- What the loops of `autoRelease` go over. -/
inductive Control
  | stick (i : Sticks)
  | button (b : Button)
  deriving DecidableEq, Repr

/-- The controls in the order of the two loops. -/
def controls : List Control :=
  [.stick .LEFT, .stick .RIGHT] ++ NintendoSwitchStandardButton.values.map .button

/-- Where the daemon stands. -/
inductive Daemon
  /-- about to test the first of these, or to sleep when none is left -/
  | test (todo : List Control)
  /-- the test was positive: about to call `release` -/
  | release (c : Control) (todo : List Control)
  /-- an exception ended the thread -/
  | dead
  deriving DecidableEq, Repr

/-- The controller, the clock, the daemon, and for each button the expiries asked
for since it was last released: all of them, and those since the daemon last
found it expired. -/
structure State (P O : Type) where
  service : ControllerService P O
  now : ℕ
  daemon : Daemon
  requested : Button → List ℤ
  sinceTest : Button → List ℤ

/-- A step of the script's thread, of the daemon, or of the clock. -/
inductive Action (O : Type)
  | call (op : Op O)
  | daemon
  | tick (ms : ℕ)

section Machine

variable {P O : Type}

namespace State

/-- A hold of `b` asked for the expiry `e`. -/
def noteHold (b : Button) (e : ℤ) (s : State P O) : State P O :=
  { s with
    requested := Function.update s.requested b (s.requested b ++ [e])
    sinceTest := Function.update s.sinceTest b (s.sinceTest b ++ [e]) }

/-- `b` is released, if it was held. -/
def noteRelease (b : Button) (s : State P O) : State P O :=
  if s.service.buttonExpired b = 0 then s
  else
    { s with
      requested := Function.update s.requested b []
      sinceTest := Function.update s.sinceTest b [] }

/-- The daemon found `b` expired. -/
def noteTest (b : Button) (s : State P O) : State P O :=
  { s with sinceTest := Function.update s.sinceTest b [] }

/-- A control is released. -/
def noteControl (s : State P O) : Control → State P O
  | .stick _ => s
  | .button b => s.noteRelease b

/-- What a call of the script asks for. -/
def note (op : Op O) (s : State P O) : State P O :=
  match op with
  | .pressButton b now => s.noteHold b (addLong now s.service.pressTime)
  | .holdButtonFor b duration now => s.noteHold b (addLong now duration)
  | .holdButton b => s.noteHold b maxLong
  | .releaseButton b => s.noteRelease b
  | _ => s

/-- The time a control expires. -/
def expired (s : State P O) : Control → ℤ
  | .stick i => s.service.stickExpired i
  | .button b => s.service.buttonExpired b

end State

/-- A script's call can be made at the time `now`: the clock is read inside the
monitor for a button, before it for a stick. `autoRelease` is the daemon's. -/
def Callable (now : ℤ) : Op O → Bool
  | .pressButton _ t => t = now
  | .holdButtonFor _ _ t => t = now
  | .autoRelease _ _ => false
  | _ => true

/-! ### Early releases -/

/-- The release of a button that the daemon is about to make does not come before
any expiry asked for since the button was last released. -/
def OnTime (s : State P O) : Prop :=
  ∀ b todo, NonHat b → s.daemon = .release (.button b) todo → s.service.buttonExpired b ≠ 0 →
    ∀ e ∈ s.requested b, e ≤ s.now

/-- Nor any asked for since the daemon's test. -/
def WindowPassed (s : State P O) : Prop :=
  ∀ b todo, NonHat b → s.daemon = .release (.button b) todo → s.service.buttonExpired b ≠ 0 →
    ∀ e ∈ s.sinceTest b, e ≤ s.now

/-- What is asked for stays below the expiry on record, and what the daemon has
found expired stays expired. -/
structure Inv (s : State P O) : Prop where
  le_expired : ∀ b, NonHat b → ∀ e ∈ s.requested b, e ≤ max (s.service.buttonExpired b) 0
  sinceTest_sub : ∀ b, ∀ e ∈ s.sinceTest b, e ∈ s.requested b
  passed : ∀ b todo, NonHat b → s.daemon = .release (.button b) todo →
    ∀ e ∈ s.requested b, e ≤ s.now ∨ e ∈ s.sinceTest b

theorem Inv.same {s : State P O} (h : Inv s) {service : ControllerService P O}
    (hs : ∀ c, NonHat c → service.buttonExpired c = s.service.buttonExpired c) :
    Inv { s with service := service } :=
  ⟨fun c hc => (hs c hc).symm ▸ h.le_expired c hc, h.sinceTest_sub, h.passed⟩

theorem mem_update_append {r : Button → List ℤ} {b c : Button} {e e' : ℤ} :
    e' ∈ Function.update r b (r b ++ [e]) c ↔ e' ∈ r c ∨ c = b ∧ e' = e := by
  by_cases hcb : c = b
  · subst hcb; simp
  · simp [hcb]

theorem mem_update_nil {r : Button → List ℤ} {b c : Button} {e : ℤ} :
    e ∈ Function.update r b [] c ↔ c ≠ b ∧ e ∈ r c := by
  by_cases hcb : c = b
  · subst hcb; simp
  · simp [hcb]

theorem Inv.hold {s : State P O} (h : Inv s) (b : Button) (e : ℤ) {service : ControllerService P O}
    (hs : ∀ c, NonHat c → c ≠ b → service.buttonExpired c = s.service.buttonExpired c)
    (hb : NonHat b → service.buttonExpired b =
      if s.service.buttonExpired b = 0 then e else merged (s.service.buttonExpired b) e) :
    Inv { s.noteHold b e with service := service } := by
  refine ⟨fun c hc e' he => ?_, fun c e' he => ?_, fun c todo hc hd e' he => ?_⟩
  · show e' ≤ max (service.buttonExpired c) 0
    rcases mem_update_append.mp he with he | ⟨rfl, rfl⟩
    · have hold := h.le_expired c hc e' he
      by_cases hcb : c = b
      · subst hcb
        rw [hb hc]
        unfold merged
        split <;> [skip; split] <;> omega
      · rw [hs c hc hcb]
        exact hold
    · rw [hb hc]
      unfold merged
      split <;> [skip; split] <;> omega
  · exact mem_update_append.mpr ((mem_update_append.mp he).imp_left (h.sinceTest_sub c e'))
  · rcases mem_update_append.mp he with he | hnew
    · exact (h.passed c todo hc hd e' he).imp_right fun hin => mem_update_append.mpr (.inl hin)
    · exact .inr (mem_update_append.mpr (.inr hnew))

theorem Inv.released {s : State P O} (h : Inv s) (b : Button) {service : ControllerService P O}
    (hs : ∀ c, NonHat c → service.buttonExpired c = if c = b then 0 else s.service.buttonExpired c) :
    Inv { s.noteRelease b with service := service } := by
  unfold State.noteRelease
  split
  · rename_i h0
    refine h.same fun c hc => ?_
    rw [hs c hc]
    split
    · rename_i hcb
      rw [hcb, h0]
    · rfl
  · refine ⟨fun c hc e he => ?_, fun c e he => ?_, fun c todo hc hd e he => ?_⟩
    · obtain ⟨hcb, he⟩ := mem_update_nil.mp he
      rw [hs c hc, if_neg hcb]
      exact h.le_expired c hc e he
    · exact mem_update_nil.mpr ((mem_update_nil.mp he).imp_right (h.sinceTest_sub c e))
    · obtain ⟨hcb, he⟩ := mem_update_nil.mp he
      exact (h.passed c todo hc hd e he).imp_right fun hin => mem_update_nil.mpr ⟨hcb, hin⟩

/-- The daemon goes on to something that is no release of a button. -/
theorem Inv.proceed {s : State P O} (h : Inv s) {d : Daemon} (hd : ∀ b todo, d ≠ .release (.button b) todo) :
    Inv { s with daemon := d } :=
  ⟨h.le_expired, h.sinceTest_sub, fun b todo _ hr => absurd hr (hd b todo)⟩

/-- A positive test: everything asked for so far has passed. -/
theorem Inv.tested {s : State P O} (h : Inv s) (b : Button) (todo : List Control)
    (hn : (s.now : ℤ) ≥ s.service.buttonExpired b) :
    Inv (State.noteTest b { s with daemon := .release (.button b) todo }) := by
  refine ⟨h.le_expired, fun c e he => ?_, fun c todo' hc hd e he => Or.inl ?_⟩
  · exact h.sinceTest_sub c e (mem_update_nil.mp he).2
  · obtain ⟨rfl, -⟩ : b = c ∧ todo = todo' := by simpa [State.noteTest] using hd
    have := h.le_expired b hc e he
    show e ≤ (s.now : ℤ)
    omega

/-! ### The steps -/

variable [Stick O] [DecidableEq O] [Protocol P O]

/-- The daemon calls `release` on the control. -/
def release (s : State P O) : Control → EStateM.Result JavaException (ControllerService P O) Unit
  | .stick i => releaseStick (StickObject.center i) s.service
  | .button b => releaseButton b s.service

/-- The daemon's next step. -/
def daemonStep (s : State P O) : Option (State P O) :=
  match s.daemon with
  | .test [] => some { s with daemon := .test controls }
  | .test (c :: todo) =>
    if s.expired c ≠ 0 ∧ s.now ≥ s.expired c then
      let s := { s with daemon := .release c todo }
      match c with
      | .stick _ => some s
      | .button b => some (s.noteTest b)
    else some { s with daemon := .test todo }
  | .release c todo =>
    match release s c with
    | .ok _ service => some { s.noteControl c with service := service, daemon := .test todo }
    | .error _ service => some { s.noteControl c with service := service, daemon := .dead }
  | .dead => none

/-- One step. -/
def step (s : State P O) : Action O → Option (State P O)
  | .call op =>
    if Callable s.now op then some { s.note op with service := left (op.exec s.service) } else none
  | .daemon => daemonStep s
  | .tick ms => some { s with now := s.now + ms }

/-- The application has started. -/
def start (pressTime : ℤ) (p : Option P) (now : ℕ) : State P O where
  service := { (init pressTime : ControllerService P O) with protocol := p }
  now := now
  daemon := .test controls
  requested _ := []
  sinceTest _ := []

theorem inv_call {s : State P O} (h : Inv s) (op : Op O) (hop : Callable s.now op = true) :
    Inv { s.note op with service := left (op.exec s.service) } := by
  have hhold : ∀ b e, Inv { s.noteHold b e with service := left (checkAndHoldButton b e s.service) } := by
    intro b e
    by_cases hb : NonHat b
    · have hx := buttonExpired_checkAndHoldButton hb e s.service
      refine h.hold b e (fun c _ hcb => ?_) fun _ => ?_
      · rw [hx, Function.update_of_ne hcb]
      · rw [hx, Function.update_self]
    · have hh : b.isHat = true := by simpa [NonHat] using hb
      refine h.hold b e (fun c hc _ => ?_) fun hn => absurd hn hb
      exact buttonExpired_checkAndHoldButton_hat hh hc e s.service
  cases op with
  | pressButton b now => exact hhold b _
  | holdButtonFor b duration now => exact hhold b _
  | holdButton b => exact hhold b _
  | releaseButton b => exact h.released b fun c hc => buttonExpired_release s.service b hc
  | pressStick a now => exact h.same fun c _ => congrFun (buttonExpired_checkAndHoldStick a _ s.service) c
  | holdStickFor a duration now =>
    exact h.same fun c _ => congrFun (buttonExpired_checkAndHoldStick a _ s.service) c
  | holdStick a => exact h.same fun c _ => congrFun (buttonExpired_checkAndHoldStick a _ s.service) c
  | releaseStick a => exact h.same fun c _ => congrFun (buttonExpired_releaseStick a s.service) c
  | autoRelease stickNow buttonNow => cases hop

omit [DecidableEq O] in
theorem inv_daemon {s s' : State P O} (h : Inv s) (hs : daemonStep s = some s') : Inv s' := by
  unfold daemonStep at hs
  split at hs
  · obtain rfl := Option.some.inj hs
    exact h.proceed (by simp)
  · rename_i c todo _
    split at hs
    · rename_i htest
      cases c with
      | stick i =>
        obtain rfl := Option.some.inj hs
        exact h.proceed (by simp)
      | button b =>
        obtain rfl := Option.some.inj hs
        exact h.tested b todo htest.2
    · obtain rfl := Option.some.inj hs
      exact h.proceed (by simp)
  · rename_i c todo _
    -- the release leaves its expiries behind whether it returns or throws
    have hrel : Inv { s.noteControl c with service := left (release s c) } := by
      cases c with
      | stick i => exact h.same fun c _ => congrFun (buttonExpired_releaseStick _ s.service) c
      | button b => exact h.released b fun c hc => buttonExpired_release s.service b hc
    split at hs
    · rename_i hr
      obtain rfl := Option.some.inj hs
      rw [hr] at hrel
      exact hrel.proceed (by simp)
    · rename_i hr
      obtain rfl := Option.some.inj hs
      rw [hr] at hrel
      exact hrel.proceed (by simp)
  · cases hs

theorem inv_step (s : State P O) (a : Action O) (s' : State P O) (h : Inv s) (_ : anyStep s a)
    (hs : step s a = some s') : Inv s' := by
  cases a with
  | call op =>
    simp only [step] at hs
    split at hs
    · rename_i hop
      obtain rfl := Option.some.inj hs
      exact inv_call h op hop
    · cases hs
  | daemon => exact inv_daemon h hs
  | tick ms =>
    obtain rfl := Option.some.inj hs
    refine ⟨h.le_expired, h.sinceTest_sub, fun b todo hb hd e he => ?_⟩
    refine (h.passed b todo hb hd e he).imp_left fun hle => ?_
    push_cast
    omega

/-- In every state reached, the release the daemon is about to make is on time if
and only if the expiries asked for since its test have passed. -/
theorem onTime_iff {pressTime : ℤ} {p : Option P} {now : ℕ} {s : State P O}
    (h : Reach step anyStep (start pressTime p now) s) : OnTime s ↔ WindowPassed s := by
  have hinv : Inv s := h.invariant ⟨by simp [start], by simp [start], by simp [start]⟩ inv_step
  constructor
  · intro ht b todo hb hd h0 e he
    exact ht b todo hb hd h0 e (hinv.sinceTest_sub b e he)
  · intro hw b todo hb hd h0 e he
    rcases hinv.passed b todo hb hd e he with hle | hin
    · exact hle
    · exact hw b todo hb hd h0 e hin

end Machine

/-- A press of `A` that expires, found by the daemon, with nothing in between. -/
theorem onTime_iff_press : ∃ s : State (Pad Empty) Empty,
    Reach step anyStep (start 100 (some Pad.neutral) 0) s ∧ s.service.buttonExpired .A ≠ 0 ∧
      s.daemon = .release (.button .A) (controls.drop 3) ∧ (OnTime s ↔ WindowPassed s) := by
  have hr : Reach step anyStep (start 100 (some Pad.neutral) 0 : State (Pad Empty) Empty) _ :=
    reach_of_run [.call (.pressButton .A 0), .tick 100, .daemon, .daemon, .daemon] .start rfl
  exact ⟨_, hr, by decide, rfl, onTime_iff hr⟩

/-- `A` is held for 10 ms; the daemon finds it expired; the script holds it for
100 ms more; the daemon releases it at once. -/
theorem early_release : ¬ ∀ s : State (Pad Empty) Empty,
    Reach step anyStep (start 100 (some Pad.neutral) 0) s → OnTime s := by
  intro h
  have hr : Reach step anyStep (start 100 (some Pad.neutral) 0 : State (Pad Empty) Empty) _ :=
    reach_of_run [.call (.holdButtonFor .A 10 0), .tick 10, .daemon, .daemon, .daemon,
      .call (.holdButtonFor .A 100 10)] .start rfl
  have hle := h _ hr .A _ rfl rfl (by decide) 110 (by decide)
  exact absurd hle (by decide)

end AutoRelease
end PGCon
