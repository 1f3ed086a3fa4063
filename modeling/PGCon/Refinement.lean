/-
# The protocols, read as pads

`EasyConProtocolV147.Shows` reads a report as a pad: the sixteen bits of its
first two bytes are those of the buttons held, the third is the hat, the others
are the axes of the sticks. Every call keeps it (`easyCon_call`).

`PGConProtocol.Shows` reads the device at the other end of the line: the
firmware's controller after the bytes written so far. Buttons, hat and the two
horizontal axes are the pad's. The vertical axes are not: whatever stick is set,
its vertical command moves the left stick's, and the right one's never moves.
So the relation speaks of the stick set last (`pgCon_call`).
-/
import PGCon.Firmware
import PGCon.Protocol

namespace PGCon

open Word Effect

variable {O : Type} [Stick O]

/-- The hat's value in a report. -/
def hatByte : Option Button → BitVec 8
  | none => 8
  | some b => b.commandEasyCon.setWidth 8

/-- A button that is no hat direction. -/
def NonHat (b : Button) : Prop := b.isHat = false

instance : DecidablePred NonHat := fun b => inferInstanceAs (Decidable (b.isHat = false))

/-! ### EasyCon -/

namespace EasyConProtocolV147

/-- The first two bytes of a report. -/
def word (r : Report) : BitVec 16 := r[0] ++ r[1]

/-- The report shows the pad. -/
structure Shows (r : Report) (pad : Pad O) : Prop where
  buttons : Flags NintendoSwitchStandardButton.mask NonHat pad.held (word r)
  hat : r[2] = hatByte pad.hat
  lx : r[3] = getXCommandEasyCon (pad.sticks .LEFT)
  ly : r[4] = getYCommandEasyCon (pad.sticks .LEFT)
  rx : r[5] = getXCommandEasyCon (pad.sticks .RIGHT)
  ry : r[6] = getYCommandEasyCon (pad.sticks .RIGHT)

theorem shows_default : Shows getDefault (Pad.neutral : Pad O) :=
  ⟨flags_zero, rfl, rfl, rfl, rfl, rfl⟩

/-- A low mask stands in the second byte, a high one in the first. -/
theorem mask_halves : ∀ b : Button, NonHat b →
    if b.commandEasyCon.sle 0x80 then b.mask = 0#8 ++ b.commandEasyCon.setWidth 8
    else b.mask = (b.commandEasyCon.sshiftRight 8).setWidth 8 ++ 0#8 := by
  decide

/-- The bytes after `hold`. -/
def holdBytes (b : Button) (r : Report) : Report :=
  if b.isHat then r.set 2 (b.commandEasyCon.setWidth 8)
  else if b.commandEasyCon.sle 0x80 then r.set 1 (r[1] ||| b.commandEasyCon.setWidth 8)
  else r.set 0 (r[0] ||| (b.commandEasyCon.sshiftRight 8).setWidth 8)

/-- The bytes after `release`. -/
def releaseBytes (b : Button) (r : Report) : Report :=
  if b.isHat then r.set 2 8
  else if b.commandEasyCon.sle 0x80 then r.set 1 (r[1] &&& ~~~(b.commandEasyCon.setWidth 8))
  else r.set 0 (r[0] &&& ~~~((b.commandEasyCon.sshiftRight 8).setWidth 8))

/-- The bytes after `set`. -/
def setBytes (s : StickObject O) (r : Report) : Report :=
  if getStick s = .LEFT then (r.set 3 (getXCommandEasyCon s)).set 4 (getYCommandEasyCon s)
  else (r.set 5 (getXCommandEasyCon s)).set 6 (getYCommandEasyCon s)

/-- On a line that takes everything a call leaves the new bytes and sends them. -/
def sends (p : EasyConProtocolV147 (Line Report)) (r : Report) :
    EStateM.Result JavaException (EasyConProtocolV147 (Line Report)) Unit :=
  .ok () ⟨⟨p.serialPort.sent ++ [r]⟩, r⟩

theorem hold_run (b : Button) (p : EasyConProtocolV147 (Line Report)) :
    hold b p = sends p (holdBytes b p.currentBytes) := by
  unfold hold holdBytes
  by_cases hh : b.isHat
  · simp only [hh, if_true]; rfl
  · by_cases hc : b.commandEasyCon.sle 0x80
    · simp only [hh, hc, if_true, if_false, Bool.false_eq_true]
      rw [← orAssign_eq (w := 32) (by decide)]; rfl
    · simp only [hh, hc, if_false, Bool.false_eq_true]
      rw [← orAssign_eq (w := 32) (by decide)]; rfl

theorem release_run (b : Button) (p : EasyConProtocolV147 (Line Report)) :
    release (some b) p = sends p (releaseBytes b p.currentBytes) := by
  unfold release releaseBytes
  by_cases hh : b.isHat
  · simp only [hh, if_true]; rfl
  · by_cases hc : b.commandEasyCon.sle 0x80
    · simp only [hh, hc, if_true, if_false, Bool.false_eq_true]
      rw [← andNotAssign_eq (w := 32) (by decide)]; rfl
    · simp only [hh, hc, if_false, Bool.false_eq_true]
      rw [← andNotAssign_eq (w := 32) (by decide)]; rfl

theorem set_run (s : StickObject O) (p : EasyConProtocolV147 (Line Report)) :
    set s p = sends p (setBytes s p.currentBytes) := by
  unfold set setBytes
  by_cases hl : getStick s = .LEFT
  · simp only [hl, if_true]; rfl
  · simp only [hl, if_false]; rfl

/-! The word after a call. -/

@[simp] theorem word_set_zero (r : Report) (x : BitVec 8) : word (r.set 0 x) = x ++ r[1] := by
  simp [word]

@[simp] theorem word_set_one (r : Report) (x : BitVec 8) : word (r.set 1 x) = r[0] ++ x := by
  simp [word]

theorem word_set_of_two_le (r : Report) (x : BitVec 8) {i : ℕ} (hi : i < 7) (h : 2 ≤ i) :
    word (r.set i x) = word r := by
  unfold word
  rw [Vector.getElem_set_ne _ _ (by omega), Vector.getElem_set_ne _ _ (by omega)]

theorem word_holdBytes {b : Button} (hb : NonHat b) (r : Report) :
    word (holdBytes b r) = word r ||| b.mask := by
  have hm := mask_halves b hb
  have hh : ¬ b.isHat = true := by rw [hb]; decide
  unfold holdBytes
  rw [if_neg hh]
  split
  · rename_i hc
    rw [if_pos hc] at hm
    rw [hm, word_set_one, append_or_right, word]
  · rename_i hc
    rw [if_neg hc] at hm
    rw [hm, word_set_zero, append_or_left, word]

theorem word_releaseBytes {b : Button} (hb : NonHat b) (r : Report) :
    word (releaseBytes b r) = word r &&& ~~~b.mask := by
  have hm := mask_halves b hb
  have hh : ¬ b.isHat = true := by rw [hb]; decide
  unfold releaseBytes
  rw [if_neg hh]
  split
  · rename_i hc
    rw [if_pos hc] at hm
    rw [hm, word_set_one, append_and_right, word]
  · rename_i hc
    rw [if_neg hc] at hm
    rw [hm, word_set_zero, append_and_left, word]

/-- A button that is no hat direction changes the first two bytes only. -/
theorem holdBytes_other {b : Button} (hb : NonHat b) (r : Report) {i : Fin 7} (hi : 2 ≤ i) :
    (holdBytes b r)[i] = r[i] := by
  have hh : ¬ b.isHat = true := by rw [hb]; decide
  have h2 : 2 ≤ i.val := hi
  unfold holdBytes
  rw [if_neg hh]
  split <;> exact Vector.getElem_set_ne _ _ (by omega)

theorem releaseBytes_other {b : Button} (hb : NonHat b) (r : Report) {i : Fin 7} (hi : 2 ≤ i) :
    (releaseBytes b r)[i] = r[i] := by
  have hh : ¬ b.isHat = true := by rw [hb]; decide
  have h2 : 2 ≤ i.val := hi
  unfold releaseBytes
  rw [if_neg hh]
  split <;> exact Vector.getElem_set_ne _ _ (by omega)

/-- Hat and sticks are as before, and so are their bytes. -/
theorem Shows.of_word {r r' : Report} {pad pad' : Pad O} (h : Shows r pad)
    (hw : Flags NintendoSwitchStandardButton.mask NonHat pad'.held (word r'))
    (hr : ∀ i : Fin 7, 2 ≤ i → r'.get i = r.get i) (hh : pad'.hat = pad.hat)
    (hs : pad'.sticks = pad.sticks) : Shows r' pad' := by
  refine ⟨hw, ?_, ?_, ?_, ?_, ?_⟩
  · rw [hh]; exact (hr 2 (by decide)).trans h.hat
  · rw [hs]; exact (hr 3 (by decide)).trans h.lx
  · rw [hs]; exact (hr 4 (by decide)).trans h.ly
  · rw [hs]; exact (hr 5 (by decide)).trans h.rx
  · rw [hs]; exact (hr 6 (by decide)).trans h.ry

/-- Buttons and sticks are as before, and the hat has its byte. -/
theorem Shows.of_hat {r r' : Report} {pad pad' : Pad O} (h : Shows r pad) (hw : word r' = word r)
    (hhat : r'.get 2 = hatByte pad'.hat) (hr : ∀ i : Fin 7, 3 ≤ i → r'.get i = r.get i)
    (hb : pad'.held = pad.held) (hs : pad'.sticks = pad.sticks) : Shows r' pad' := by
  refine ⟨by rw [hw, hb]; exact h.buttons, hhat, ?_, ?_, ?_, ?_⟩ <;> rw [hs]
  · exact (hr 3 (by decide)).trans h.lx
  · exact (hr 4 (by decide)).trans h.ly
  · exact (hr 5 (by decide)).trans h.rx
  · exact (hr 6 (by decide)).trans h.ry

theorem Shows.hold {r : Report} {pad : Pad O} (h : Shows r pad) (b : Button) :
    Shows (holdBytes b r) (pad.hold b) := by
  by_cases hh : b.isHat
  · have hr : holdBytes b r = r.set 2 (b.commandEasyCon.setWidth 8) := by
      unfold holdBytes; rw [if_pos hh]
    have hp : pad.hold b = { pad with hat := some b, calls := pad.calls ++ [.hold b] } := by
      unfold Pad.hold; simp only [hh, if_true]
    rw [hp, hr]
    refine h.of_hat (word_set_of_two_le r _ (by omega) (by omega)) (Vector.getElem_set_self _) (fun i hi => ?_) rfl rfl
    have h3 : 3 ≤ i.val := hi
    exact Vector.getElem_set_ne _ _ (by omega)
  · have hn : NonHat b := by simpa [NonHat] using hh
    have hp : pad.hold b =
        { pad with held := Function.update pad.held b true, calls := pad.calls ++ [.hold b] } := by
      unfold Pad.hold; simp only [hh, if_false, Bool.false_eq_true]
    have hw : Flags NintendoSwitchStandardButton.mask NonHat (Function.update pad.held b true)
        (word (holdBytes b r)) := by
      rw [word_holdBytes hn]
      exact h.buttons.set hn
    rw [hp]
    exact h.of_word hw (fun i hi => holdBytes_other hn r hi) rfl rfl

theorem Shows.release {r : Report} {pad : Pad O} (h : Shows r pad) (b : Button) :
    Shows (releaseBytes b r) (pad.release b) := by
  by_cases hh : b.isHat
  · have hr : releaseBytes b r = r.set 2 8 := by unfold releaseBytes; rw [if_pos hh]
    have hp : pad.release b = { pad with hat := none, calls := pad.calls ++ [.release (some b)] } := by
      unfold Pad.release; simp only [hh, if_true]
    rw [hp, hr]
    refine h.of_hat (word_set_of_two_le r _ (by omega) (by omega)) (Vector.getElem_set_self _) (fun i hi => ?_) rfl rfl
    have h3 : 3 ≤ i.val := hi
    exact Vector.getElem_set_ne _ _ (by omega)
  · have hn : NonHat b := by simpa [NonHat] using hh
    have hp : pad.release b =
        { pad with held := Function.update pad.held b false,
                   calls := pad.calls ++ [.release (some b)] } := by
      unfold Pad.release; simp only [hh, if_false, Bool.false_eq_true]
    have hw : Flags NintendoSwitchStandardButton.mask NonHat (Function.update pad.held b false)
        (word (releaseBytes b r)) := by
      rw [word_releaseBytes hn]
      exact h.buttons.clear hn fun j hj hne =>
        NintendoSwitchStandardButton.mask_disjoint j b hj hn hne
    rw [hp]
    exact h.of_word hw (fun i hi => releaseBytes_other hn r hi) rfl rfl

theorem Shows.set {r : Report} {pad : Pad O} (h : Shows r pad) (s : StickObject O) :
    Shows (setBytes s r) (pad.set s) := by
  unfold setBytes Pad.set
  cases hs : getStick s with
  | LEFT =>
    rw [if_pos rfl]
    refine ⟨?_, by simpa using h.hat, by simp, by simp, by simpa using h.rx, by simpa using h.ry⟩
    rw [word_set_of_two_le _ _ (by omega) (by omega), word_set_of_two_le _ _ (by omega) (by omega)]
    exact h.buttons
  | RIGHT =>
    rw [if_neg (by decide)]
    refine ⟨?_, by simpa using h.hat, by simpa using h.lx, by simpa using h.ly, by simp, by simp⟩
    rw [word_set_of_two_le _ _ (by omega) (by omega), word_set_of_two_le _ _ (by omega) (by omega)]
    exact h.buttons

/-- The protocol's report shows the pad. -/
def Reads (p : EasyConProtocolV147 (Line Report)) (pad : Pad O) : Prop := Shows p.currentBytes pad

/-- Every call on the protocol is the call on the pad. -/
theorem easyCon_call (c : Call O) :
    Sim (Reads (O := O)) (c.invoke : Java (EasyConProtocolV147 (Line Report)) Unit)
      (c.invoke : Java (Pad O) Unit) := by
  intro p pad h
  cases c with
  | hold b =>
    have hp : (Call.hold b : Call O).invoke p = sends p (holdBytes b p.currentBytes) := hold_run b p
    rw [hp]
    exact .ok () (Shows.hold h b)
  | release b =>
    cases b with
    | none => exact .error _ h
    | some b =>
      have hp : (Call.release (some b) : Call O).invoke p = sends p (releaseBytes b p.currentBytes) :=
        release_run b p
      rw [hp]
      exact .ok () (Shows.release h b)
  | set s =>
    have hp : (Call.set s : Call O).invoke p = sends p (setBytes s p.currentBytes) := set_run s p
    rw [hp]
    exact .ok () (Shows.set h s)

end EasyConProtocolV147

/-! ### The firmware, command by command -/

namespace Firmware

theorem executeCommand_hold {b : Button} (hb : NonHat b) (fw : Device) :
    (executeCommand b.holdCommandPGCon.toNat fw).2 =
      fw.put { fw.virtual_controller with Button := fw.virtual_controller.Button ||| b.mask } := by
  cases b <;> first | rfl | cases hb

theorem executeCommand_release {b : Button} (hb : NonHat b) (fw : Device) :
    (executeCommand b.releaseCommandPGCon.toNat fw).2 =
      fw.put { fw.virtual_controller with Button := fw.virtual_controller.Button &&& ~~~b.mask } := by
  -- the shifted bit that the firmware clears is the EasyCon command of the button
  have h : (executeCommand b.releaseCommandPGCon.toNat fw).2 = fw.put { fw.virtual_controller with
      Button := andMask fw.virtual_controller.Button (~~~b.commandEasyCon) } := by
    cases b <;> first | rfl | cases hb
  rw [h, andMask_eq (by decide), BitVec.setWidth_not (by decide)]
  rfl

/-- All four directions of the hat are held by their own command. -/
theorem executeCommand_hat {b : Button} (hb : b.isHat = true) (fw : Device) :
    (executeCommand b.holdCommandPGCon.toNat fw).2 =
      fw.put { fw.virtual_controller with HAT := hatByte (some b) } := by
  cases b <;> first | rfl | cases hb

/-- All four release commands of the hat mean the centre. -/
theorem executeCommand_center {b : Button} (hb : b.isHat = true) (fw : Device) :
    (executeCommand b.releaseCommandPGCon.toNat fw).2 =
      fw.put { fw.virtual_controller with HAT := hatByte none } := by
  cases b <;> first | rfl | cases hb

/-- What the command of an axis does: the right stick's vertical commands move
the left stick. -/
def moveAxis (vp : VirtualController) : NintendoSwitchBaseStick → VirtualController
  | .LX_MIN => { vp with LX := STICK_MIN }
  | .LX_MAX => { vp with LX := STICK_MAX }
  | .LX_CENTER => { vp with LX := STICK_CENTER }
  | .LY_MIN | .RY_MIN => { vp with LY := STICK_MIN }
  | .LY_MAX | .RY_MAX => { vp with LY := STICK_MAX }
  | .LY_CENTER | .RY_CENTER => { vp with LY := STICK_CENTER }
  | .RX_MIN => { vp with RX := STICK_MIN }
  | .RX_MAX => { vp with RX := STICK_MAX }
  | .RX_CENTER => { vp with RX := STICK_CENTER }

theorem executeCommand_axis (a : NintendoSwitchBaseStick) (fw : Device) :
    (executeCommand a.commandPGCon.toNat fw).2 = fw.put (moveAxis fw.virtual_controller a) := by
  cases a <;> rfl

theorem moveAxis_button (vp : VirtualController) (a : NintendoSwitchBaseStick) :
    (moveAxis vp a).Button = vp.Button ∧ (moveAxis vp a).HAT = vp.HAT := by
  cases a <;> exact ⟨rfl, rfl⟩

end Firmware

/-! ### PGCon -/

/-- The PGCon commands of every stick are commands of axes. -/
def AxisCommands (K : Type) [Stick K] : Prop :=
  ∀ s : K, ∃ ax ay : NintendoSwitchBaseStick,
    getXCommandPGCon s = ax.commandPGCon ∧ getYCommandPGCon s = ay.commandPGCon

theorem axisCommands_stickObject (h : AxisCommands O) : AxisCommands (StickObject O) := by
  intro s
  cases s with
  | standard s => exact ⟨s.args.2.1, s.args.2.2, rfl, rfl⟩
  | other o => exact h o

theorem axisCommands_direction : AxisCommands MonsterHunterRiseDirectionStick :=
  fun _ => ⟨.LX_CENTER, .LY_CENTER, rfl, rfl⟩

namespace PGConProtocol

open Firmware

/-- The bytes a call writes. -/
def bytes : Call O → List (BitVec 8)
  | .hold b => [b.holdCommandPGCon]
  | .release none => []
  | .release (some b) => [b.releaseCommandPGCon]
  | .set s => [getXCommandPGCon s, getYCommandPGCon s]

theorem send_run (c : BitVec 8) (p : PGConProtocol PGConSerialPort) :
    send (c.signExtend 32) p = .ok () ⟨⟨p.serialPort.written ++ [c]⟩⟩ := by
  have h : (c.signExtend 32).setWidth 8 = c := setWidth_signExtend (by decide) c
  have hs : send (c.signExtend 32) p =
      .ok () ⟨⟨p.serialPort.written ++ [(c.signExtend 32).setWidth 8]⟩⟩ := rfl
  rw [hs, h]

/-- A call that names a button or a stick writes its bytes. -/
theorem invoke_run (c : Call O) (hc : c ≠ .release none) (p : PGConProtocol PGConSerialPort) :
    c.invoke p = .ok () ⟨⟨p.serialPort.written ++ bytes c⟩⟩ := by
  cases c with
  | hold b => exact send_run _ p
  | release b =>
    cases b with
    | none => exact absurd rfl hc
    | some b => exact send_run _ p
  | set s =>
    have h : (Call.set s).invoke p = (send ((getXCommandPGCon s).signExtend 32) >>= fun _ =>
        send ((getYCommandPGCon s).signExtend 32)) p := rfl
    rw [h, bind_of_ok (send_run _ p), send_run]
    simp [bytes]

/-- The device at the other end of the line. -/
def device (p : PGConProtocol PGConSerialPort) : Device := execute p.serialPort.written Device.init

/-- The controller has the pad's buttons and hat. -/
structure Shows (vc : VirtualController) (pad : Pad O) : Prop where
  buttons : Flags NintendoSwitchStandardButton.mask NonHat pad.held vc.Button
  hat : vc.HAT = hatByte pad.hat

omit [Stick O] in
theorem shows_init : Shows initVirtualController (Pad.neutral : Pad O) := ⟨flags_zero, rfl⟩

omit [Stick O] in
theorem Shows.hold {fw : Device} {pad : Pad O} (h : Shows fw.virtual_controller pad) (b : Button) :
    Shows (executeCommand b.holdCommandPGCon.toNat fw).2.virtual_controller (pad.hold b) := by
  by_cases hh : b.isHat
  · rw [executeCommand_hat hh]
    unfold Pad.hold
    simp only [hh, if_true]
    exact ⟨h.buttons, rfl⟩
  · have hn : NonHat b := by simpa [NonHat] using hh
    rw [executeCommand_hold hn]
    unfold Pad.hold
    simp only [hh, if_false, Bool.false_eq_true]
    exact ⟨h.buttons.set hn, h.hat⟩

omit [Stick O] in
theorem Shows.release {fw : Device} {pad : Pad O} (h : Shows fw.virtual_controller pad) (b : Button) :
    Shows (executeCommand b.releaseCommandPGCon.toNat fw).2.virtual_controller (pad.release b) := by
  by_cases hh : b.isHat
  · rw [executeCommand_center hh]
    unfold Pad.release
    simp only [hh, if_true]
    exact ⟨h.buttons, rfl⟩
  · have hn : NonHat b := by simpa [NonHat] using hh
    rw [executeCommand_release hn]
    unfold Pad.release
    simp only [hh, if_false, Bool.false_eq_true]
    exact ⟨h.buttons.clear hn fun j hj hne =>
      NintendoSwitchStandardButton.mask_disjoint j b hj hn hne, h.hat⟩

omit [Stick O] in
theorem Shows.axis {fw : Device} {pad : Pad O} (h : Shows fw.virtual_controller pad)
    (a : NintendoSwitchBaseStick) :
    Shows (executeCommand a.commandPGCon.toNat fw).2.virtual_controller pad := by
  obtain ⟨hb, hh⟩ := moveAxis_button fw.virtual_controller a
  rw [executeCommand_axis]
  exact ⟨by rw [show (fw.put (moveAxis fw.virtual_controller a)).virtual_controller =
    moveAxis fw.virtual_controller a from rfl, hb]; exact h.buttons, hh.trans h.hat⟩

/-- The device has the pad's buttons and hat. -/
def Reads (p : PGConProtocol PGConSerialPort) (pad : Pad O) : Prop :=
  Shows (device p).virtual_controller pad

theorem device_written (p : PGConProtocol PGConSerialPort) (bs : List (BitVec 8)) :
    device ⟨⟨p.serialPort.written ++ bs⟩⟩ = execute bs (device p) := execute_append _ _ _

/-- Every call on the protocol is the call on the pad, as far as buttons and hat
go. -/
theorem pgCon_call (hO : AxisCommands O) (c : Call O) :
    Sim (Reads (O := O)) (c.invoke : Java (PGConProtocol PGConSerialPort) Unit)
      (c.invoke : Java (Pad O) Unit) := by
  intro p pad h
  by_cases hc : c = .release none
  · subst hc
    exact .error _ h
  · rw [invoke_run c hc]
    cases c with
    | hold b =>
      refine .ok () ?_
      unfold Reads
      rw [device_written]
      exact Shows.hold h b
    | release b =>
      cases b with
      | none => exact absurd rfl hc
      | some b =>
        refine .ok () ?_
        unfold Reads
        rw [device_written]
        exact Shows.release h b
    | set s =>
      obtain ⟨ax, ay, hx, hy⟩ := axisCommands_stickObject hO s
      refine .ok () ?_
      unfold Reads
      rw [device_written]
      have hp : Shows (device p).virtual_controller (pad.set s) := ⟨h.buttons, h.hat⟩
      have hb : bytes (.set s) = [ax.commandPGCon, ay.commandPGCon] := by rw [bytes, hx, hy]
      rw [hb]
      exact (hp.axis ax).axis ay

end PGConProtocol

end PGCon
