/-
# One protocol attached throughout

A script is a list of calls on the controller, executed one after the other
with a new protocol attached before the first. The controller on the concrete
protocol runs beside the one on a `Pad` (`Related.exec`), whose pad is the
controller's own records (`mirror_exec`); what a protocol shows of its pad it
therefore shows of those records.

* `report_exact`: the seven bytes of an EasyCon report are, after every script,
  the buttons, the hat and the sticks the controller has on record.
* `firmware_exact`: so are the buttons and the hat in the firmware at the other
  end of a PGCon line, however the bytes arrive.

Both say as well that the script returns: no call hands `null` to the protocol.
-/
import PGCon.Bookkeeping

namespace PGCon
namespace Attached

open Effect Word Firmware ControllerService

section Script

variable {P O : Type} [Stick O] [DecidableEq O] [Protocol P O]

/-- The calls, one after the other. -/
def script (calls : List (Op O)) : Java (ControllerService P O) Unit := forM calls Op.exec

/-- A new controller, with the protocol attached. -/
def attached (pressTime : ℤ) (p : P) : ControllerService P O :=
  { (init pressTime : ControllerService P O) with protocol := some p }

/-- No call asks for the expiry zero, which is how the arrays say "not held". -/
def NonZero (pressTime : ℤ) (calls : List (Op O)) : Prop :=
  ∀ op ∈ calls, op.expiry pressTime ≠ some 0

end Script

section Run

variable {O : Type} [Stick O] [DecidableEq O]

omit [Stick O] [DecidableEq O] in
theorem mirror_attached (pressTime : ℤ) : Mirror pressTime true (attached pressTime (Pad.neutral : Pad O)) := by
  refine ⟨rfl, rfl, by simp [attached, init], by simp [attached, init], fun _ _ => rfl, ?_, ?_, ?_⟩
  all_goals
    intro p hp
    obtain rfl : Pad.neutral = p := Option.some.inj hp
  · intro b _
    simp [attached, init, Pad.neutral]
  · rfl
  · rfl

/-- A script returns and leaves the mirror. -/
theorem keeps_script {pressTime : ℤ} {calls : List (Op O)} (h : NonZero pressTime calls) :
    Keeps (Mirror pressTime true) (fun _ _ => True)
      (script calls : Java (ControllerService (Pad O) O) Unit) :=
  Keeps.forM (fun _ _ _ _ _ => trivial) (fun _ => trivial) calls fun op ho =>
    (mirror_exec op (h op ho)).weaken fun _ _ _ => trivial

/-- A protocol that can be read as a pad at every call: a script returns, and
leaves the protocol read as a pad that mirrors the controller's records. -/
theorem script_related {P : Type} [Protocol P O] {R : P → Pad O → Prop}
    (hR : ∀ c : Call O, Sim R (c.invoke : Java P Unit) (c.invoke : Java (Pad O) Unit))
    {p : P} (hp : R p Pad.neutral) {pressTime : ℤ} {calls : List (Op O)} (hz : NonZero pressTime calls) :
    ∃ s t p' pad, script calls (attached pressTime p) = .ok () s ∧ Related R s t ∧
      Mirror pressTime true t ∧ s.protocol = some p' ∧ t.protocol = some pad ∧ R p' pad := by
  have h0 : Related R (attached pressTime p : ControllerService P O) (attached pressTime Pad.neutral) :=
    ⟨rfl, rfl, rfl, rfl, rfl, .some hp⟩
  obtain ⟨t, ht, hm, -⟩ := keeps_script hz _ (mirror_attached pressTime)
  have hsim : SimResult (Related R) (script calls (attached pressTime p)) (script calls _) :=
    Sim.forM (Related.exec hR) calls _ _ h0
  rw [ht] at hsim
  generalize hs : script calls (attached pressTime p) = x at hsim
  cases hsim with
  | ok _ h =>
    rename_i s
    obtain ⟨pad, hpad⟩ := Option.isSome_iff_exists.mp hm.attached_eq
    have hrel := h.protocol
    rw [hpad] at hrel
    cases hsp : s.protocol with
    | none => rw [hsp] at hrel; cases hrel
    | some p' =>
      rw [hsp] at hrel
      cases hrel with
      | some hpq => exact ⟨s, t, p', pad, rfl, h, hm, hsp, hpad, hpq⟩

end Run

/-- The button's bits in a word of flags tell whether the controller has it held. -/
theorem button_bit {O : Type} {time : ℤ} {att : Bool} {t : ControllerService (Pad O) O}
    (hm : Mirror time att t) {pad : Pad O} (hp : t.protocol = some pad) {x : BitVec 16}
    (hx : Flags NintendoSwitchStandardButton.mask NonHat pad.held x) {b : Button} (hb : NonHat b) :
    x &&& b.mask ≠ 0#16 ↔ t.buttonExpired b ≠ 0 := by
  have hd : ∀ c, NonHat c → c ≠ b → c.mask &&& b.mask = 0#16 := fun c hc =>
    NintendoSwitchStandardButton.mask_disjoint c b hc hb
  rw [hx.masked hb (NintendoSwitchStandardButton.mask_ne_zero b hb) hd]
  exact hm.held pad hp b hb

/-! ### EasyCon -/

section EasyCon

variable {P O : Type} [Stick O]

/-- The report has the buttons, the hat and the sticks on record. -/
structure ReportExact (s : ControllerService P O) (r : Report) : Prop where
  buttons : ∀ b, NonHat b → ((r.get 0 ++ r.get 1) &&& b.mask ≠ 0#16 ↔ s.buttonExpired b ≠ 0)
  other_bits : ∀ i, (r.get 0 ++ r.get 1).getLsbD i = true → ∃ b, NonHat b ∧ b.mask.getLsbD i = true
  hat_held : s.buttonExpired .D_TOP ≠ 0 →
    ∃ b, s.hatDirections = some b ∧ r.get 2 = b.commandEasyCon.setWidth 8
  hat_center : s.buttonExpired .D_TOP = 0 → s.hatDirections = none ∧ r.get 2 = 8
  left_stick : r.get 3 = getXCommandEasyCon (s.stickDirections .LEFT) ∧
    r.get 4 = getYCommandEasyCon (s.stickDirections .LEFT)
  right_stick : r.get 5 = getXCommandEasyCon (s.stickDirections .RIGHT) ∧
    r.get 6 = getYCommandEasyCon (s.stickDirections .RIGHT)
  left_center : s.stickExpired .LEFT = 0 → s.stickDirections .LEFT = .standard .L_CENTER
  right_center : s.stickExpired .RIGHT = 0 → s.stickDirections .RIGHT = .standard .R_CENTER

theorem reportExact_of_mirror {time : ℤ} {att : Bool} {t : ControllerService (Pad O) O}
    (hm : Mirror time att t) {pad : Pad O} (hp : t.protocol = some pad) {r : Report}
    (hr : EasyConProtocolV147.Shows r pad) : ReportExact t r := by
  have hhat : r.get 2 = hatByte t.hatDirections := by rw [← hm.hat pad hp]; exact hr.hat
  have hst := hm.sticks pad hp
  refine ⟨fun b hb => button_bit hm hp hr.buttons hb, ?_, ?_, ?_, ?_, ?_,
    hm.stick_center .LEFT, hm.stick_center .RIGHT⟩
  · intro i hi
    obtain ⟨b, hb, -, hbit⟩ := (hr.buttons i).mp hi
    exact ⟨b, hb, hbit⟩
  · intro h0
    obtain ⟨b, hb⟩ := Option.ne_none_iff_exists'.mp fun hn => h0 (hm.hat_null.mp hn)
    exact ⟨b, hb, by rw [hhat, hb]; rfl⟩
  · intro h0
    have hn := hm.hat_null.mpr h0
    exact ⟨hn, by rw [hhat, hn]; rfl⟩
  · rw [← hst]; exact ⟨hr.lx, hr.ly⟩
  · rw [← hst]; exact ⟨hr.rx, hr.ry⟩

/-- Only the records matter. -/
theorem ReportExact.of_related {Q : Type} {R : P → Q → Prop} {s : ControllerService P O}
    {t : ControllerService Q O} (h : Related R s t) {r : Report} (ht : ReportExact t r) :
    ReportExact s r := by
  obtain ⟨h1, h2, h3, h4, h5, h6, h7, h8⟩ := ht
  refine ⟨?_, h2, ?_, ?_, ?_, ?_, ?_, ?_⟩
  · rw [h.buttonExpired]; exact h1
  · rw [h.buttonExpired, h.hatDirections]; exact h3
  · rw [h.buttonExpired, h.hatDirections]; exact h4
  · rw [h.stickDirections]; exact h5
  · rw [h.stickDirections]; exact h6
  · rw [h.stickExpired, h.stickDirections]; exact h7
  · rw [h.stickExpired, h.stickDirections]; exact h8

/-- `new EasyConProtocolV147(...)`. -/
def newEasyCon : EasyConProtocolV147 (Line Report) := ⟨⟨[]⟩, EasyConProtocolV147.getDefault⟩

variable [DecidableEq O]

/-- After every script with EasyCon attached the report is what the controller
has on record. -/
theorem report_exact (pressTime : ℤ) (calls : List (Op O)) (h : NonZero pressTime calls) :
    ∃ s p, script calls (attached pressTime newEasyCon) = .ok () s ∧ s.protocol = some p ∧
      ReportExact s p.currentBytes := by
  obtain ⟨s, t, p, pad, hs, hr, hm, hp, hpad, hshow⟩ := script_related
    EasyConProtocolV147.easyCon_call (p := newEasyCon) EasyConProtocolV147.shows_default h
  exact ⟨s, p, hs, hp, (reportExact_of_mirror hm hpad hshow).of_related hr⟩

/-- A hat direction pressed twice, a button and a stick; the daemon at work between them. -/
theorem report_exact_press : ∃ s p, script [.pressButton .D_LEFT 5, .holdButton .A, .pressButton .D_TOP 9,
      .holdStickFor (.standard .R_TOP) 50 20, .autoRelease (fun _ => 30) (fun _ => 30)]
      (attached 100 newEasyCon : ControllerService _ Empty) = .ok () s ∧ s.protocol = some p ∧
      ReportExact s p.currentBytes :=
  report_exact 100 _ (by
    intro op ho
    fin_cases ho <;> decide)

end EasyCon

/-! ### PGCon -/

section PGCon

variable {P O : Type}

/-- The firmware's bit for a button. -/
def switchBit : Button → BitVec 16
  | .A => SWITCH_A
  | .B => SWITCH_B
  | .X => SWITCH_X
  | .Y => SWITCH_Y
  | .L => SWITCH_L
  | .R => SWITCH_R
  | .ZL => SWITCH_ZL
  | .ZR => SWITCH_ZR
  | .L_STICK => SWITCH_LCLICK
  | .R_STICK => SWITCH_RCLICK
  | .PLUS => SWITCH_START
  | .MINUS => SWITCH_SELECT
  | .HOME => SWITCH_HOME
  | .CAPTURE => SWITCH_CAPTURE
  | .D_TOP | .D_BOTTOM | .D_LEFT | .D_RIGHT => SWITCH_RELEASE

/-- The firmware's value for a hat direction. -/
def hatDirection : Option Button → BitVec 8
  | some .D_TOP => HAT_TOP
  | some .D_BOTTOM => HAT_BOTTOM
  | some .D_LEFT => HAT_LEFT
  | some .D_RIGHT => HAT_RIGHT
  | _ => HAT_CENTER

theorem mask_eq_switchBit : ∀ b : Button, NonHat b → b.mask = switchBit b := by decide

theorem hatByte_eq_hatDirection {d : Option Button} (h : ∀ b ∈ d, b.isHat = true) :
    hatByte d = hatDirection d := by
  cases d with
  | none => rfl
  | some b =>
    have hb := h b rfl
    cases b <;> first | rfl | cases hb

/-- The firmware has the buttons and the hat on record. -/
structure FirmwareExact (s : ControllerService P O) (vc : VirtualController) : Prop where
  buttons : ∀ b, NonHat b → (vc.Button &&& switchBit b ≠ 0#16 ↔ s.buttonExpired b ≠ 0)
  bit_14 : vc.Button.getLsbD 14 = false
  bit_15 : vc.Button.getLsbD 15 = false
  direction : ∀ b ∈ s.hatDirections, b.isHat = true
  hat : vc.HAT = hatDirection s.hatDirections

theorem firmwareExact_of_mirror {time : ℤ} {att : Bool} {t : ControllerService (Pad O) O}
    (hm : Mirror time att t) {pad : Pad O} (hp : t.protocol = some pad) {vc : VirtualController}
    (hv : PGConProtocol.Shows vc pad) : FirmwareExact t vc := by
  have hhigh : ∀ i, 14 ≤ i → vc.Button.getLsbD i = false := by
    intro i hi
    by_contra hne
    obtain ⟨b, -, -, hbit⟩ := (hv.buttons i).mp (by simpa using hne)
    have := NintendoSwitchStandardButton.mask_lt b i (BitVec.lt_of_getLsbD hbit) hbit
    omega
  refine ⟨?_, hhigh 14 (by omega), hhigh 15 (by omega), hm.hat_isHat, ?_⟩
  · intro b hb
    rw [← mask_eq_switchBit b hb]
    exact button_bit hm hp hv.buttons hb
  · rw [hv.hat, hm.hat pad hp]
    exact hatByte_eq_hatDirection hm.hat_isHat

/-- Only the records matter. -/
theorem FirmwareExact.of_related {Q : Type} {R : P → Q → Prop} {s : ControllerService P O}
    {t : ControllerService Q O} (h : Related R s t) {vc : VirtualController} (ht : FirmwareExact t vc) :
    FirmwareExact s vc := by
  obtain ⟨h1, h2, h3, h4, h5⟩ := ht
  refine ⟨?_, h2, h3, ?_, ?_⟩
  · rw [h.buttonExpired]; exact h1
  · rw [h.hatDirections]; exact h4
  · rw [h.hatDirections]; exact h5

/-- After every script with PGCon attached, and however the bytes it wrote are
spread over the passes of the firmware's main loop, all are consumed and the
firmware has the buttons and the hat that the controller has on record. -/
theorem firmware_exact (pressTime : ℤ) (calls : List (Op MonsterHunterRiseDirectionStick))
    (h : NonZero pressTime calls) :
    ∃ s p, script calls (attached pressTime (⟨⟨[]⟩⟩ : PGConProtocol PGConSerialPort)) = .ok () s ∧
      s.protocol = some p ∧ ∀ batches : List (List (BitVec 8)), batches.flatten = p.serialPort.written →
        (serve batches [] Device.init).1 = [] ∧
        FirmwareExact s (serve batches [] Device.init).2.virtual_controller := by
  obtain ⟨s, t, p, pad, hs, hr, hm, hp, hpad, hshow⟩ := script_related
    (PGConProtocol.pgCon_call axisCommands_direction) (p := ⟨⟨[]⟩⟩) PGConProtocol.shows_init h
  refine ⟨s, p, hs, hp, fun batches hb => ?_⟩
  rw [serve_eq, hb]
  exact ⟨rfl, (firmwareExact_of_mirror hm hpad hshow).of_related hr⟩

/-- A button, a changed hat direction and a script's own stick. -/
theorem firmware_exact_press :
    ∃ s p, script ([.pressButton .B 5, .holdButton .D_RIGHT, .pressButton .D_BOTTOM 9,
        .holdStick (.other ⟨0, 17, 200⟩), .autoRelease (fun _ => 30) (fun _ => 30)] :
        List (Op MonsterHunterRiseDirectionStick)) (attached 100 (⟨⟨[]⟩⟩ : PGConProtocol PGConSerialPort)) = .ok () s ∧
      s.protocol = some p ∧ ∀ batches : List (List (BitVec 8)), batches.flatten = p.serialPort.written →
        (serve batches [] Device.init).1 = [] ∧
        FirmwareExact s (serve batches [] Device.init).2.virtual_controller :=
  firmware_exact 100 _ (by
    intro op ho
    fin_cases ho <;> decide)

end PGCon

end Attached
end PGCon
