/-
# The controller service

`ControllerService` keeps for every control the time its hold expires, which
hat direction and which stick objects are in force, and forwards what changes
to the protocol attached, if one is. Buttons merge: a hold that is already there
only moves the expiry. The four hat directions share one slot, and so do all the
directions of a stick; a new direction replaces the old one.

The methods are written in the order of the source's assignments and calls, so
that what an exception of the protocol leaves behind is what it leaves there.
Clock readings are arguments. `Op` are the calls a script or the daemon makes.
-/
import PGCon.Protocol

namespace PGCon

open Effect

/-- The sum of two Java `long`s. -/
def addLong (a b : ℤ) : ℤ := (a + b).bmod (2 ^ 64)

/-- `Long.MAX_VALUE`. -/
def maxLong : ℤ := 2 ^ 63 - 1

/-- `ControllerService`, with a protocol of class `P` and sticks of the classes
`O` besides the standard ones. The arrays are functions of what indexes them. -/
structure ControllerService (P O : Type) where
  /-- `outputConfig.getPressTime()` -/
  pressTime : ℤ
  buttonExpired : Button → ℤ
  hatDirections : Option Button
  stickDirections : Sticks → StickObject O
  stickExpired : Sticks → ℤ
  protocol : Option P

namespace ControllerService

variable {P O : Type}

/-- After the constructor. -/
def init (pressTime : ℤ) : ControllerService P O where
  pressTime := pressTime
  buttonExpired _ := 0
  hatDirections := none
  stickDirections := StickObject.center
  stickExpired _ := 0
  protocol := none

/-! ### Assignments and calls -/

def setButtonExpired (index : Button) (time : ℤ) : Java (ControllerService P O) Unit :=
  modify fun s => { s with buttonExpired := Function.update s.buttonExpired index time }

def setStickExpired (index : Sticks) (time : ℤ) : Java (ControllerService P O) Unit :=
  modify fun s => { s with stickExpired := Function.update s.stickExpired index time }

def setHatDirection (direction : Option Button) : Java (ControllerService P O) Unit :=
  modify fun s => { s with hatDirections := direction }

def setStickDirection (index : Sticks) (direction : StickObject O) : Java (ControllerService P O) Unit :=
  modify fun s => { s with stickDirections := Function.update s.stickDirections index direction }

/-- `if (protocol != null) { ... }` with calls on the protocol. -/
def withProtocol (calls : Java P Unit) : Java (ControllerService P O) Unit := fun s =>
  match s.protocol with
  | none => .ok () s
  | some p =>
    match calls p with
    | .ok _ p' => .ok () { s with protocol := some p' }
    | .error e p' => .error e { s with protocol := some p' }

/-- `getExpireTimeIndex(Button)`: the hat directions share the slot of `D_TOP`. -/
def getExpireTimeIndex (action : Button) : Button := if action.isHat then .D_TOP else action

variable [Stick O]

/-- `getReleaseAction(Stick)`. -/
def getReleaseAction (action : StickObject O) : StickObject O :=
  if getStick action = .LEFT then .standard .L_CENTER else .standard .R_CENTER

variable [DecidableEq O] [Protocol P O]

/-! ### The methods -/

/-- `release(Stick)`. -/
def releaseStick (action : StickObject O) : Java (ControllerService P O) Unit := do
  let index := getStick action
  let duration := (← get).stickExpired index
  if duration ≠ 0 then
    setStickExpired index 0
    withProtocol (Protocol.set (getReleaseAction action))
    setStickDirection index (getReleaseAction action)

/-- `release(Button)`. -/
def releaseButton (action : Button) : Java (ControllerService P O) Unit := do
  let index := getExpireTimeIndex action
  if (← get).buttonExpired index ≠ 0 then
    setButtonExpired index 0
    withProtocol (Protocol.release O (some action))
    if action.isHat then
      setHatDirection none

/-- `checkAndHold(Button, long)`. -/
def checkAndHoldButton (action : Button) (expiredTime : ℤ) : Java (ControllerService P O) Unit := do
  let index := getExpireTimeIndex action
  let s ← get
  if s.buttonExpired index = 0 then
    setButtonExpired index expiredTime
    withProtocol (Protocol.hold O action)
    if action.isHat then
      setHatDirection (some action)
  else if action.isHat then
    if s.hatDirections = some action then
      if s.buttonExpired index < expiredTime then
        setButtonExpired index expiredTime
    else
      setButtonExpired index expiredTime
      withProtocol do
        Protocol.release O s.hatDirections
        Protocol.hold O action
      setHatDirection (some action)
  else
    if s.buttonExpired index < expiredTime then
      setButtonExpired index expiredTime

/-- `checkAndHold(Stick, long)`. Sticks are compared as objects. -/
def checkAndHoldStick (action : StickObject O) (expiredTime : ℤ) : Java (ControllerService P O) Unit := do
  let index := getStick action
  let s ← get
  if s.stickExpired index = 0 then
    setStickExpired index expiredTime
    withProtocol (Protocol.set action)
  else if s.stickDirections index = action then
    if s.stickExpired index < expiredTime then
      setStickExpired index expiredTime
  else
    setStickExpired index expiredTime
    withProtocol (Protocol.set action)
  setStickDirection index action

/-- `hold(Button, int)` at the clock reading `now`. -/
def holdButtonFor (action : Button) (duration now : ℤ) : Java (ControllerService P O) Unit :=
  checkAndHoldButton action (addLong now duration)

/-- `press(Button)`. -/
def pressButton (action : Button) (now : ℤ) : Java (ControllerService P O) Unit := do
  let pressTime := (← get).pressTime
  holdButtonFor action pressTime now

/-- `hold(Button)`. -/
def holdButton (action : Button) : Java (ControllerService P O) Unit :=
  checkAndHoldButton action maxLong

/-- `hold(Stick, int)` at the clock reading `now`. -/
def holdStickFor (action : StickObject O) (duration now : ℤ) : Java (ControllerService P O) Unit :=
  checkAndHoldStick action (addLong now duration)

/-- `press(Stick)`. -/
def pressStick (action : StickObject O) (now : ℤ) : Java (ControllerService P O) Unit := do
  let pressTime := (← get).pressTime
  holdStickFor action pressTime now

/-- `hold(Stick)`. -/
def holdStick (action : StickObject O) : Java (ControllerService P O) Unit :=
  checkAndHoldStick action maxLong

/-- One turn of the first loop of `autoRelease`. -/
def autoReleaseStick (now : ℤ) (i : Sticks) : Java (ControllerService P O) Unit := do
  let expired := (← get).stickExpired i
  if expired ≠ 0 ∧ now ≥ expired then
    releaseStick (StickObject.center i)

/-- One turn of the second loop of `autoRelease`. -/
def autoReleaseButton (now : ℤ) (b : Button) : Java (ControllerService P O) Unit := do
  let expired := (← get).buttonExpired b
  if expired ≠ 0 ∧ now ≥ expired then
    releaseButton b

/-- `autoRelease`, with a clock reading for each of its tests. -/
def autoRelease (stickNow : Sticks → ℤ) (buttonNow : Button → ℤ) : Java (ControllerService P O) Unit := do
  forM [Sticks.LEFT, .RIGHT] fun i => autoReleaseStick (stickNow i) i
  forM NintendoSwitchStandardButton.values fun b => autoReleaseButton (buttonNow b) b

/-- `protocol.clear()`: the field is read again. -/
def protocolClear : Java (ControllerService P O) Unit := fun s =>
  match s.protocol with
  | none => .error .nullPointer s
  | some _ => withProtocol (Protocol.clear O) s

/-- `protocol = null`. -/
def dropProtocol : Java (ControllerService P O) Unit := modify fun s => { s with protocol := none }

/-- `Arrays.fill(stickExpired, 0)`. -/
def fillStickExpired : Java (ControllerService P O) Unit :=
  modify fun s => { s with stickExpired := fun _ => 0 }

/-- `Arrays.fill(buttonExpired, 0)`. -/
def fillButtonExpired : Java (ControllerService P O) Unit :=
  modify fun s => { s with buttonExpired := fun _ => 0 }

/-- `clear`. -/
def clear : Java (ControllerService P O) Unit := do
  if (← get).protocol.isSome then
    protocolClear
    dropProtocol
    fillStickExpired
    fillButtonExpired
    setHatDirection none
    setStickDirection .LEFT (.standard .L_CENTER)
    setStickDirection .RIGHT (.standard .R_CENTER)

/-- `setProtocol`. -/
def setProtocol (p : Option P) : Java (ControllerService P O) Unit :=
  modify fun s => { s with protocol := p }

end ControllerService

/-! ### The protocol's part, and `clear` -/

namespace ControllerService

variable {P O : Type}

/-- Calls on the protocol change no other field. -/
theorem frame_withProtocol {γ : Type} {π : ControllerService P O → γ} (m : Java P Unit)
    (h : ∀ s p, π { s with protocol := p } = π s) : Frame π (withProtocol m) := by
  intro s
  unfold withProtocol
  cases hs : s.protocol with
  | none => rfl
  | some p =>
    simp only
    cases m p <;> exact h s _

variable [Protocol P O]

theorem clear_detached {s : ControllerService P O} (h : s.protocol = none) : clear s = .ok () s := by
  unfold clear
  simp [h]

/-- The protocol cleared, the controller is as new. -/
theorem clear_attached {s : ControllerService P O} {p p' : P} (h : s.protocol = some p)
    (hp : (Protocol.clear O : Java P Unit) p = .ok () p') : clear s = .ok () (init s.pressTime) := by
  have hc : protocolClear s = .ok () { s with protocol := some p' } := by
    unfold protocolClear withProtocol
    simp [h, hp]
  have hd : Function.update (Function.update s.stickDirections .LEFT (.standard .L_CENTER)) .RIGHT
      (.standard .R_CENTER) = StickObject.center := by
    funext i
    cases i <;> rfl
  unfold clear
  simp only [get_bind_run, ite_run, h, Option.isSome_some, if_true]
  rw [bind_of_ok hc]
  simp [dropProtocol, fillStickExpired, fillButtonExpired, setHatDirection, setStickDirection, hd, init]

end ControllerService

/-! ### What scripts and the daemon call -/

/-- A call on the controller, with the clock readings it makes. -/
inductive Op (O : Type)
  | pressButton (b : Button) (now : ℤ)
  | holdButtonFor (b : Button) (duration now : ℤ)
  | holdButton (b : Button)
  | releaseButton (b : Button)
  | pressStick (s : StickObject O) (now : ℤ)
  | holdStickFor (s : StickObject O) (duration now : ℤ)
  | holdStick (s : StickObject O)
  | releaseStick (s : StickObject O)
  | autoRelease (stickNow : Sticks → ℤ) (buttonNow : Button → ℤ)

namespace Op

variable {P O : Type} [Stick O] [DecidableEq O] [Protocol P O]

/-- The method called. -/
def exec : Op O → Java (ControllerService P O) Unit
  | .pressButton b now => ControllerService.pressButton b now
  | .holdButtonFor b duration now => ControllerService.holdButtonFor b duration now
  | .holdButton b => ControllerService.holdButton b
  | .releaseButton b => ControllerService.releaseButton b
  | .pressStick s now => ControllerService.pressStick s now
  | .holdStickFor s duration now => ControllerService.holdStickFor s duration now
  | .holdStick s => ControllerService.holdStick s
  | .releaseStick s => ControllerService.releaseStick s
  | .autoRelease stickNow buttonNow => ControllerService.autoRelease stickNow buttonNow

/-- The expiry a call asks for, if it holds a control. -/
def expiry (pressTime : ℤ) : Op O → Option ℤ
  | .pressButton _ now => some (addLong now pressTime)
  | .holdButtonFor _ duration now => some (addLong now duration)
  | .holdButton _ => some maxLong
  | .pressStick _ now => some (addLong now pressTime)
  | .holdStickFor _ duration now => some (addLong now duration)
  | .holdStick _ => some maxLong
  | _ => none

end Op

/-! ### The controller does not care how its protocol works

Two protocols whose calls are related by `R` keep the controllers built on them
in the same state of bookkeeping. -/

section Related

variable {P Q O : Type} {R : P → Q → Prop}

/-- The same bookkeeping, with related protocols attached. -/
structure Related (R : P → Q → Prop) (s : ControllerService P O) (t : ControllerService Q O) : Prop where
  pressTime : s.pressTime = t.pressTime
  buttonExpired : s.buttonExpired = t.buttonExpired
  hatDirections : s.hatDirections = t.hatDirections
  stickDirections : s.stickDirections = t.stickDirections
  stickExpired : s.stickExpired = t.stickExpired
  protocol : Option.Rel R s.protocol t.protocol

namespace Related

open ControllerService

theorem setButtonExpired (b : Button) (e : ℤ) : Sim (Related (O := O) R)
    (ControllerService.setButtonExpired b e) (ControllerService.setButtonExpired b e) :=
  Sim.assign fun _ _ h => { h with buttonExpired := by simp only [h.buttonExpired] }

theorem setStickExpired (i : Sticks) (e : ℤ) : Sim (Related (O := O) R)
    (ControllerService.setStickExpired i e) (ControllerService.setStickExpired i e) :=
  Sim.assign fun _ _ h => { h with stickExpired := by simp only [h.stickExpired] }

theorem setHatDirection (d : Option Button) : Sim (Related (O := O) R)
    (ControllerService.setHatDirection d) (ControllerService.setHatDirection d) :=
  Sim.assign fun _ _ h => { h with hatDirections := rfl }

theorem setStickDirection (i : Sticks) (d : StickObject O) : Sim (Related R)
    (ControllerService.setStickDirection i d) (ControllerService.setStickDirection i d) :=
  Sim.assign fun _ _ h => { h with stickDirections := by simp only [h.stickDirections] }

theorem withProtocol {m : Java P Unit} {n : Java Q Unit} (hmn : Sim R m n) :
    Sim (Related (O := O) R) (ControllerService.withProtocol m) (ControllerService.withProtocol n) := by
  intro s t h
  have hp := h.protocol
  unfold ControllerService.withProtocol
  cases hs : s.protocol with
  | none =>
    rw [hs] at hp
    cases ht : t.protocol with
    | none => exact .ok () h
    | some q => rw [ht] at hp; cases hp
  | some p =>
    rw [hs] at hp
    cases ht : t.protocol with
    | none => rw [ht] at hp; cases hp
    | some q =>
      rw [ht] at hp
      cases hp with
      | some hpq =>
        have hm := hmn p q hpq
        simp only
        generalize m p = x at hm
        generalize n q = y at hm
        cases hm with
        | ok a h' => exact .ok () { h with protocol := .some h' }
        | error e h' => exact .error e { h with protocol := .some h' }

variable [Protocol P O] [Protocol Q O]

theorem releaseStick [Stick O] (hR : ∀ c : Call O, Sim R (c.invoke : Java P Unit) (c.invoke : Java Q Unit))
    (a : StickObject O) :
    Sim (Related R) (ControllerService.releaseStick a) (ControllerService.releaseStick a) := by
  refine Sim.get_bind fun s t h => ?_
  simp only [h.stickExpired]
  refine Sim.ite ?_ (Sim.pure _) s t h
  refine Sim.bind (setStickExpired _ _) fun _ => Sim.bind (withProtocol ?_) fun _ => ?_
  · exact hR (.set _)
  · exact setStickDirection _ _

theorem releaseButton (hR : ∀ c : Call O, Sim R (c.invoke : Java P Unit) (c.invoke : Java Q Unit))
    (b : Button) :
    Sim (Related (O := O) R) (ControllerService.releaseButton b) (ControllerService.releaseButton b) := by
  refine Sim.get_bind fun s t h => ?_
  simp only [h.buttonExpired]
  refine Sim.ite ?_ (Sim.pure _) s t h
  refine Sim.bind (setButtonExpired _ _) fun _ => Sim.bind (withProtocol ?_) fun _ => ?_
  · exact hR (.release (some b))
  · exact Sim.ite (setHatDirection _) (Sim.pure _)

theorem checkAndHoldButton
    (hR : ∀ c : Call O, Sim R (c.invoke : Java P Unit) (c.invoke : Java Q Unit)) (b : Button) (e : ℤ) :
    Sim (Related (O := O) R) (ControllerService.checkAndHoldButton b e)
      (ControllerService.checkAndHoldButton b e) := by
  refine Sim.get_bind fun s t h => ?_
  simp only [h.buttonExpired, h.hatDirections]
  have hset := setButtonExpired (O := O) (R := R) (getExpireTimeIndex b) e
  refine Sim.ite ?_ (Sim.ite (Sim.ite ?_ ?_) ?_) s t h
  · refine Sim.bind hset fun _ => Sim.bind (withProtocol (hR (.hold b))) fun _ => ?_
    exact Sim.ite (setHatDirection _) (Sim.pure _)
  · exact Sim.ite hset (Sim.pure _)
  · refine Sim.bind hset fun _ => Sim.bind (withProtocol ?_) fun _ => setHatDirection _
    exact Sim.bind (hR (.release _)) fun _ => hR (.hold b)
  · exact Sim.ite hset (Sim.pure _)

theorem checkAndHoldStick [Stick O] [DecidableEq O]
    (hR : ∀ c : Call O, Sim R (c.invoke : Java P Unit) (c.invoke : Java Q Unit)) (a : StickObject O)
    (e : ℤ) :
    Sim (Related R) (ControllerService.checkAndHoldStick a e) (ControllerService.checkAndHoldStick a e) := by
  refine Sim.get_bind fun s t h => ?_
  simp only [h.stickExpired, h.stickDirections]
  have hset := setStickExpired (O := O) (R := R) (getStick a) e
  refine Sim.ite ?_ (Sim.ite ?_ ?_) s t h
  · exact Sim.bind hset fun _ => Sim.bind (withProtocol (hR (.set a))) fun _ => setStickDirection _ _
  · exact Sim.ite (Sim.bind hset fun _ => setStickDirection _ _) (setStickDirection _ _)
  · exact Sim.bind hset fun _ => Sim.bind (withProtocol (hR (.set a))) fun _ => setStickDirection _ _

theorem exec [Stick O] [DecidableEq O]
    (hR : ∀ c : Call O, Sim R (c.invoke : Java P Unit) (c.invoke : Java Q Unit)) (op : Op O) :
    Sim (Related R) (op.exec : Java (ControllerService P O) Unit) op.exec := by
  cases op with
  | pressButton b now =>
    refine Sim.get_bind fun s t h => ?_
    rw [h.pressTime]
    exact checkAndHoldButton hR b _ s t h
  | holdButtonFor b duration now => exact checkAndHoldButton hR b _
  | holdButton b => exact checkAndHoldButton hR b _
  | releaseButton b => exact releaseButton hR b
  | pressStick a now =>
    refine Sim.get_bind fun s t h => ?_
    rw [h.pressTime]
    exact checkAndHoldStick hR a _ s t h
  | holdStickFor a duration now => exact checkAndHoldStick hR a _
  | holdStick a => exact checkAndHoldStick hR a _
  | releaseStick a => exact releaseStick hR a
  | autoRelease stickNow buttonNow =>
    refine Sim.bind (Sim.forM (fun i => ?_) _) fun _ => Sim.forM (fun b => ?_) _
    · refine Sim.get_bind fun s t h => ?_
      simp only [h.stickExpired]
      exact Sim.ite (releaseStick hR _) (Sim.pure _) s t h
    · refine Sim.get_bind fun s t h => ?_
      simp only [h.buttonExpired]
      exact Sim.ite (releaseButton hR b) (Sim.pure _) s t h

end Related

end Related

end PGCon
