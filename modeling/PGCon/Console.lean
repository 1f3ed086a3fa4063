/-
# What the console sees

A whole PGCon connection: the controller on the computer, the serial line, the
firmware's main loop, and the console that takes USB reports. Calls, bytes on
their way, the statements of the main loop and the console's requests interleave
in any order.

The firmware copies its controller into a report whenever the IN endpoint is free,
and once more for every `GET_REPORT`, which it answers with as many bytes as were
asked for. A report may wait in the endpoint while commands go on, so what the
console takes can be old, but never older than what it took before: on each of the
two ways reports are snapshots of the calls made on the protocol, in the order of
the calls. A stick is set by two bytes, and a report can be written between them;
buttons and hat are never torn. Once the line has run empty one old report at most
is still to come, and all later ones have what the controller has on record.

The USB side is the library's: the standard requests that change the state of the
device or empty the endpoint, and the interrupts. An interrupt comes between two
statements of the main loop. A halted endpoint (`SET_FEATURE`) gives no reports and
is left out, since the console need not take any. The queue of bytes received has
no bound here: a byte that the UART would lose to an overrun is not lost.
-/
import PGCon.Attached
import PGCon.Machine

namespace PGCon
namespace Console

open Effect Firmware Machine Attached

/-! ### Reports -/

/-- The bytes `Endpoint_Write_Stream_LE` writes of a report: the struct as it lies in
memory, the low byte of `Button` first. -/
def wire (report : VirtualController) : List (BitVec 8) :=
  [report.Button.extractLsb' 0 8, report.Button.extractLsb' 8 8, report.HAT, report.LX, report.LY, report.RX,
    report.RY, report.VendorSpec]

/-- How the console reads a report. -/
def decode : List (BitVec 8) → Option VirtualController
  | [low, high, hat, lx, ly, rx, ry, vendor] => some ⟨high ++ low, hat, lx, ly, rx, ry, vendor⟩
  | _ => none

theorem decode_wire (report : VirtualController) : decode (wire report) = some report := by
  have h : (report.Button.extractLsb' 8 8 ++ report.Button.extractLsb' 0 8 : BitVec 16) = report.Button := by
    ext i hi
    simp only [BitVec.getElem_append, BitVec.getElem_extractLsb']
    split
    · simp [BitVec.getLsbD_eq_getElem hi]
    · simp only [show 8 + (i - 8) = i by omega, BitVec.getLsbD_eq_getElem hi]
  simp only [wire, decode, h]

/-! ### The system -/

/-- Where the firmware's main loop is. -/
inductive PC
  | receiveCommand
  /-- at `do{}while(executeCommand(Serial_ReceiveByte()))` -/
  | receiving
  | hidTask
  | usbTask
  deriving DecidableEq, Repr

/-- `USB_ControlRequest`. -/
structure ControlRequest where
  bmRequestType : BitVec 8
  bRequest : BitVec 8
  wValue : BitVec 16
  wIndex : BitVec 16
  wLength : BitVec 16
  deriving DecidableEq, Repr

/-- A control transfer. The host may give it up before its data stage. -/
structure Transfer where
  request : ControlRequest
  aborted : Bool
  deriving DecidableEq, Repr

def HID_REQ_GetReport : BitVec 8 := 0x01
def HID_REQ_SetReport : BitVec 8 := 0x09
def REQ_ClearFeature : BitVec 8 := 1
def REQ_SetAddress : BitVec 8 := 5
def REQ_SetConfiguration : BitVec 8 := 9

/-- `REQDIR_DEVICETOHOST | REQTYPE_CLASS | REQREC_INTERFACE`. -/
def classToHost : BitVec 8 := 0xA1

/-- `REQDIR_HOSTTODEVICE | REQTYPE_CLASS | REQREC_INTERFACE`. -/
def classToDevice : BitVec 8 := 0x21

/-- `REQDIR_HOSTTODEVICE | REQTYPE_STANDARD | REQREC_DEVICE`. -/
def standardToDevice : BitVec 8 := 0x00

/-- `REQDIR_HOSTTODEVICE | REQTYPE_STANDARD | REQREC_ENDPOINT`. -/
def standardToEndpoint : BitVec 8 := 0x02

def FEATURE_SEL_EndpointHalt : BitVec 8 := 0

/-- `JOYSTICK_IN_EPADDR & ENDPOINT_EPNUM_MASK`. -/
def joystickIn : BitVec 8 := 1

def FIXED_NUM_CONFIGURATIONS : BitVec 8 := 1

/-- `USB_DeviceState`. -/
inductive DeviceState
  | Unattached
  | Powered
  | Default
  | Addressed
  | Configured
  | Suspended
  deriving DecidableEq, Repr

/-- The data stage of an answer to `GET_REPORT`, and what was asked for. -/
structure Answer where
  wLength : BitVec 16
  bytes : List (BitVec 8)
  deriving DecidableEq, Repr

variable {O : Type}

structure State (O : Type) where
  controller : ControllerService (PGConProtocol PGConSerialPort) O
  /-- the calls made on the controller so far -/
  made : List (Op O)
  /-- how many of the bytes written have arrived -/
  arrived : ℕ
  /-- bytes that have arrived and have not been received -/
  rx : List (BitVec 8)
  device : Device
  pc : PC
  deviceState : DeviceState
  /-- `USB_Device_ConfigurationNumber` -/
  configurationNumber : BitVec 8
  /-- `USB_Device_IsAddressSet()` -/
  addressSet : Bool
  /-- the bank of the IN endpoint; it is ready for a report when empty -/
  bank : Option (List (BitVec 8))
  /-- the reports the console has taken from the IN endpoint -/
  delivered : List (List (BitVec 8))
  /-- the answers to `GET_REPORT` -/
  answered : List Answer

inductive Action (O : Type)
  /-- a script or the daemon calls the controller -/
  | call (op : Op O)
  /-- the next byte arrives -/
  | arrive
  /-- the main loop goes on; `USB_USBTask` finds this transfer -/
  | loop (transfer : Option Transfer)
  /-- the console takes a report -/
  | poll
  /-- the interrupts: end of a bus reset, suspend, wake-up, a change of VBUS -/
  | busReset
  | suspend
  | wakeUp
  | vbus (on : Bool)

/-- The bytes written so far. -/
def written (controller : ControllerService (PGConProtocol PGConSerialPort) O) : List (BitVec 8) :=
  match controller.protocol with
  | none => []
  | some p => p.serialPort.written

namespace State

/-- The report the firmware would write. -/
def report (s : State O) : List (BitVec 8) := wire s.device.virtual_controller

/-- The reports on the way through the IN endpoint, the one in the bank last. -/
def queued (s : State O) : List (List (BitVec 8)) := s.delivered ++ s.bank.toList

/-- `HID_Task`. What comes in through the OUT endpoint is read and dropped. -/
def hidTask (s : State O) : State O :=
  if s.deviceState = .Configured then
    match s.bank with
    | none => { s with bank := some s.report }
    | some _ => s
  else s

/-- `GET_REPORT`: `Endpoint_Write_Control_Stream_LE` writes no more than was asked for. -/
def getReport (transfer : Transfer) (s : State O) : State O :=
  if transfer.aborted ∨ s.deviceState = .Unattached ∨ s.deviceState = .Suspended then s
  else { s with answered := s.answered ++
      [⟨transfer.request.wLength, s.report.take transfer.request.wLength.toNat⟩] }

/-- `USB_Device_ClearSetFeature` for `CLEAR_FEATURE` of an endpoint: the endpoint is reset. -/
def clearFeature (request : ControlRequest) (s : State O) : State O :=
  if request.wValue.setWidth 8 = FEATURE_SEL_EndpointHalt ∧ request.wIndex.setWidth 8 &&& 0x0F = joystickIn then
    { s with bank := none }
  else s

/-- `USB_Device_SetAddress`. -/
def setAddress (request : ControlRequest) (s : State O) : State O :=
  { s with
    addressSet := true
    deviceState := if request.wValue &&& 0x7F = 0 then .Default else .Addressed }

/-- `USB_Device_SetConfiguration`, and `EVENT_USB_Device_ConfigurationChanged`, which sets
the endpoints up again. Without a configuration but with an address the device is
configured all the same. -/
def setConfiguration (request : ControlRequest) (s : State O) : State O :=
  if FIXED_NUM_CONFIGURATIONS < request.wValue.setWidth 8 then s
  else { s with
    configurationNumber := request.wValue.setWidth 8
    deviceState :=
      if request.wValue.setWidth 8 ≠ 0#8 then .Configured
      else if s.addressSet then .Configured else .Powered
    bank := none }

/-- `USB_Device_ProcessControlRequest`: first `EVENT_USB_Device_ControlRequest`, then the
standard requests. Those that are only answered are left out. -/
def controlRequest (transfer : Transfer) (s : State O) : State O :=
  let request := transfer.request
  if request.bRequest = HID_REQ_GetReport ∧ request.bmRequestType = classToHost then s.getReport transfer
  else if request.bRequest = HID_REQ_SetReport ∧ request.bmRequestType = classToDevice then s
  else if request.bRequest = REQ_ClearFeature ∧ request.bmRequestType = standardToEndpoint then
    s.clearFeature request
  else if request.bRequest = REQ_SetAddress ∧ request.bmRequestType = standardToDevice then s.setAddress request
  else if request.bRequest = REQ_SetConfiguration ∧ request.bmRequestType = standardToDevice then
    s.setConfiguration request
  else s

/-- `USB_USBTask`. -/
def usbTask (transfer : Option Transfer) (s : State O) : State O :=
  match transfer with
  | none => s
  | some transfer => if s.deviceState = .Unattached then s else s.controlRequest transfer

/-- `executeCommand(Serial_ReceiveByte())`, and the test of the loop around it. -/
def receive (s : State O) : State O :=
  let (c, rx) := receiveByte s.rx
  let (more, device) := executeCommand c s.device
  { s with rx := rx, device := device, pc := if more then .receiving else .hidTask }

/-- The next statement of `main`. -/
def loop (transfer : Option Transfer) (s : State O) : State O :=
  match s.pc with
  | .receiveCommand => if s.rx = [] then { s with pc := .hidTask } else { s with pc := .receiving }
  | .receiving => s.receive
  | .hidTask => { s.hidTask with pc := .usbTask }
  | .usbTask => { s.usbTask transfer with pc := .receiveCommand }

/-- The end of a bus reset: the endpoints and the address are gone. -/
def busReset (s : State O) : State O :=
  { s with deviceState := .Default, configurationNumber := 0, addressSet := false, bank := none }

def wakeUp (s : State O) : State O :=
  { s with deviceState :=
      if s.configurationNumber ≠ 0 then .Configured else if s.addressSet then .Addressed else .Powered }

end State

/-- A new protocol attached, the firmware just started. -/
def State.init (pressTime : ℤ) : State O where
  controller := attached pressTime ⟨⟨[]⟩⟩
  made := []
  arrived := 0
  rx := []
  device := Device.init
  pc := .receiveCommand
  deviceState := .Unattached
  configurationNumber := 0
  addressSet := false
  bank := none
  delivered := []
  answered := []

section Step

variable [Stick O] [DecidableEq O]

def step (s : State O) : Action O → Option (State O)
  | .call op => some { s with controller := left (op.exec s.controller), made := s.made ++ [op] }
  | .arrive => (written s.controller)[s.arrived]?.map fun b => { s with arrived := s.arrived + 1, rx := s.rx ++ [b] }
  | .loop transfer => some (s.loop transfer)
  | .poll => s.bank.map fun report => { s with bank := none, delivered := s.delivered ++ [report] }
  | .busReset => some s.busReset
  | .suspend => some { s with deviceState := .Suspended }
  | .wakeUp => some s.wakeUp
  | .vbus on => some { s with deviceState := if on then .Powered else .Unattached }

/-- No call asks for the expiry zero. -/
def timed (pressTime : ℤ) (_ : State O) : Action O → Prop
  | .call op => op.expiry pressTime ≠ some 0
  | _ => True

instance (pressTime : ℤ) : DecidableRel (timed (O := O) pressTime) := fun _ a =>
  match a with
  | .call op => inferInstanceAs (Decidable (op.expiry pressTime ≠ some 0))
  | .arrive | .loop _ | .poll | .busReset | .suspend | .wakeUp | .vbus _ => .isTrue trivial

omit [Stick O] [DecidableEq O] in
/-- The calls written down by a pad in the protocol's place. -/
def callsOn (controller : ControllerService (Pad O) O) : List (Call O) :=
  match controller.protocol with
  | none => []
  | some pad => pad.calls

/-- The calls the controller makes on its protocol for these calls on it. -/
def protocolCalls (pressTime : ℤ) (made : List (Op O)) : List (Call O) :=
  callsOn (left (script made (attached pressTime (Pad.neutral : Pad O))))

end Step

/-! ### Snapshots -/

variable [Stick O]

/-- The pad after these calls. -/
def replay (calls : List (Call O)) : Pad O :=
  calls.foldl (fun pad c => left ((c.invoke : Java (Pad O) Unit) pad)) Pad.neutral

/-- The report has the buttons and the hat of the pad after the first `k` calls. -/
def Shown (calls : List (Call O)) (report : List (BitVec 8)) (k : ℕ) : Prop :=
  ∃ vc, decode report = some vc ∧ PGConProtocol.Shows vc (replay (calls.take k))

/-- The reports are snapshots of the calls, in their order, none of them after call `n`. -/
def InOrder (calls : List (Call O)) (n : ℕ) (reports : List (List (BitVec 8))) : Prop :=
  ∃ ks : List ℕ, ks.Pairwise (· ≤ ·) ∧ (∀ k ∈ ks, k ≤ n) ∧ List.Forall₂ (Shown calls) reports ks

namespace InOrder

variable {calls : List (Call O)} {n : ℕ} {reports : List (List (BitVec 8))}

theorem nil : InOrder calls n [] := ⟨[], .nil, by simp, .nil⟩

theorem mono (h : InOrder calls n reports) {m : ℕ} (hm : n ≤ m) : InOrder calls m reports := by
  obtain ⟨ks, hs, hle, hks⟩ := h
  exact ⟨ks, hs, fun k hk => (hle k hk).trans hm, hks⟩

/-- Later calls do not change the snapshots taken. -/
theorem extend (h : InOrder calls n reports) (hn : n ≤ calls.length) {calls' : List (Call O)}
    (hc : calls <+: calls') : InOrder calls' n reports := by
  obtain ⟨ks, hs, hle, hks⟩ := h
  obtain ⟨more, rfl⟩ := hc
  refine ⟨ks, hs, hle, ?_⟩
  clear hs
  induction hks with
  | nil => exact .nil
  | @cons report k _ _ hr _ ih =>
    have hk : k ≤ calls.length := (hle k (by simp)).trans hn
    refine .cons ?_ (ih fun k' hk' => hle k' (List.mem_cons_of_mem _ hk'))
    rwa [Shown, List.take_append_of_le_length hk]

/-- A snapshot of the last call so far comes last. -/
theorem snoc (h : InOrder calls n reports) {report : List (BitVec 8)} (hr : Shown calls report n) :
    InOrder calls n (reports ++ [report]) := by
  obtain ⟨ks, hs, hle, hks⟩ := h
  refine ⟨ks ++ [n], ?_, ?_, ?_⟩
  · rw [List.pairwise_append]
    exact ⟨hs, List.pairwise_singleton _ _, fun k hk m hm => by simpa [List.mem_singleton.mp hm] using hle k hk⟩
  · intro k hk
    rcases List.mem_append.mp hk with hk | hk
    · exact hle k hk
    · exact (List.mem_singleton.mp hk).le
  · exact List.rel_append hks (.cons hr .nil)

theorem of_initial (h : InOrder calls n reports) {before : List (List (BitVec 8))} (hb : before <+: reports) :
    InOrder calls n before := by
  obtain ⟨ks, hs, hle, hks⟩ := h
  obtain ⟨after, rfl⟩ := hb
  have hbefore := List.forall₂_take before.length hks
  rw [List.take_left] at hbefore
  exact ⟨ks.take before.length, hs.take, fun k hk => hle k (List.mem_of_mem_take hk), hbefore⟩

end InOrder

/-- The answers are the first bytes of reports that are snapshots in order, as many as were
asked for. -/
def AnsweredInOrder (calls : List (Call O)) (n : ℕ) (answers : List Answer) : Prop :=
  ∃ reports, InOrder calls n reports ∧
    List.Forall₂ (fun answer report => answer.bytes = report.take answer.wLength.toNat) answers reports

namespace AnsweredInOrder

variable {calls : List (Call O)} {n : ℕ} {answers : List Answer}

theorem nil : AnsweredInOrder calls n [] := ⟨[], .nil, .nil⟩

theorem mono (h : AnsweredInOrder calls n answers) {m : ℕ} (hm : n ≤ m) : AnsweredInOrder calls m answers := by
  obtain ⟨reports, horder, hcut⟩ := h
  exact ⟨reports, horder.mono hm, hcut⟩

theorem extend (h : AnsweredInOrder calls n answers) (hn : n ≤ calls.length) {calls' : List (Call O)}
    (hc : calls <+: calls') : AnsweredInOrder calls' n answers := by
  obtain ⟨reports, horder, hcut⟩ := h
  exact ⟨reports, horder.extend hn hc, hcut⟩

theorem snoc (h : AnsweredInOrder calls n answers) {report : List (BitVec 8)} (hr : Shown calls report n)
    (wLength : BitVec 16) : AnsweredInOrder calls n (answers ++ [⟨wLength, report.take wLength.toNat⟩]) := by
  obtain ⟨reports, horder, hcut⟩ := h
  exact ⟨reports ++ [report], horder.snoc hr, List.rel_append hcut (.cons rfl .nil)⟩

end AnsweredInOrder

/-! ### How many calls have been carried out after some bytes -/

open PGConProtocol (bytes Shows)

/-- The calls of which all bytes are among the first `n`. -/
def completed : List (Call O) → ℕ → ℕ
  | [], _ => 0
  | c :: calls, n => if (bytes c).length ≤ n then completed calls (n - (bytes c).length) + 1 else 0

theorem completed_le_length : ∀ (calls : List (Call O)) (n : ℕ), completed calls n ≤ calls.length
  | [], _ => le_rfl
  | c :: calls, n => by
    rw [completed, List.length_cons]
    split
    · exact Nat.succ_le_succ (completed_le_length calls _)
    · exact Nat.zero_le _

theorem completed_mono : ∀ (calls : List (Call O)) {n m : ℕ}, n ≤ m → completed calls n ≤ completed calls m
  | [], _, _, _ => le_rfl
  | c :: calls, n, m, h => by
    rw [completed, completed]
    split
    · rename_i hn
      rw [if_pos (hn.trans h)]
      exact Nat.succ_le_succ (completed_mono calls (Nat.sub_le_sub_right h _))
    · exact Nat.zero_le _

theorem completed_append (more : List (Call O)) : ∀ (calls : List (Call O)) (n : ℕ),
    completed calls n ≤ completed (calls ++ more) n
  | [], _ => Nat.zero_le _
  | c :: calls, n => by
    rw [List.cons_append, completed, completed]
    split
    · exact Nat.succ_le_succ (completed_append more calls _)
    · exact le_rfl

/-- The firmware carries out a call. -/
theorem shows_call (hO : AxisCommands O) {fw : Device} {pad : Pad O} (h : Shows fw.virtual_controller pad) (c : Call O) :
    Shows (execute (bytes c) fw).virtual_controller (left ((c.invoke : Java (Pad O) Unit) pad)) := by
  rcases c with b | b | s
  · exact h.hold b
  · rcases b with _ | b
    · exact h
    · exact h.release b
  · obtain ⟨ax, ay, hx, hy⟩ := axisCommands_stickObject hO s
    have hset : Shows fw.virtual_controller (left (((Call.set s).invoke : Java (Pad O) Unit) pad)) := ⟨h.buttons, h.hat⟩
    rw [bytes, hx, hy]
    exact (hset.axis ax).axis ay

/-- A call cut short changes neither buttons nor hat: only a stick has two bytes. -/
theorem shows_cut (hO : AxisCommands O) {fw : Device} {pad : Pad O} (h : Shows fw.virtual_controller pad) (c : Call O)
    {n : ℕ} (hn : n < (bytes c).length) : Shows (execute ((bytes c).take n) fw).virtual_controller pad := by
  obtain _ | n := n
  · exact h
  rcases c with b | b | s
  · simp [bytes] at hn
  · rcases b with _ | b <;> simp [bytes] at hn
  · obtain ⟨ax, ay, hx, hy⟩ := axisCommands_stickObject hO s
    obtain rfl : n = 0 := by simpa [bytes] using hn
    rw [bytes, hx]
    exact h.axis ax

/-- After any number of bytes the firmware shows the pad after the calls completed. -/
theorem shows_completed (hO : AxisCommands O) : ∀ (calls : List (Call O)) (n : ℕ) {fw : Device} {pad : Pad O},
    Shows fw.virtual_controller pad → Shows (execute ((calls.flatMap bytes).take n) fw).virtual_controller
      ((calls.take (completed calls n)).foldl (fun pad c => left ((c.invoke : Java (Pad O) Unit) pad)) pad)
  | [], n, fw, pad, h => by simpa [execute] using h
  | c :: calls, n, fw, pad, h => by
    rw [List.flatMap_cons, completed]
    split
    · rename_i hn
      rw [List.take_append, List.take_of_length_le hn, execute_append, List.take_succ_cons, List.foldl_cons]
      exact shows_completed hO calls _ (shows_call hO h c)
    · rename_i hn
      rw [List.take_append_of_le_length (by omega)]
      exact shows_cut hO h c (by omega)

theorem shown_completed (hO : AxisCommands O) (calls : List (Call O)) (n : ℕ) :
    Shown calls (wire (execute ((calls.flatMap bytes).take n) Device.init).virtual_controller) (completed calls n) :=
  ⟨_, decode_wire _, shows_completed hO calls n PGConProtocol.shows_init⟩

/-! ### The computer's side -/

/-- The bytes written are those of the calls on the pad, which is as they left it. -/
def Told (p : PGConProtocol PGConSerialPort) (pad : Pad O) : Prop :=
  p.serialPort.written = pad.calls.flatMap bytes ∧ replay pad.calls = pad

/-- The same pad, with at least these calls. -/
def Extends (calls : List (Call O)) (p q : Pad O) : Prop := p = q ∧ calls <+: p.calls

/-- A call that names its control is written down. -/
theorem invoke_pad (c : Call O) (hc : c ≠ .release none) (pad : Pad O) :
    ∃ pad', (c.invoke : Java (Pad O) Unit) pad = .ok () pad' ∧ pad'.calls = pad.calls ++ [c] := by
  rcases c with b | b | s
  · refine ⟨_, rfl, ?_⟩
    unfold Pad.hold
    dsimp only
    split <;> rfl
  · rcases b with _ | b
    · exact absurd rfl hc
    · refine ⟨_, rfl, ?_⟩
      unfold Pad.release
      dsimp only
      split <;> rfl
  · exact ⟨_, rfl, rfl⟩

theorem told_call (c : Call O) :
    Sim Told (c.invoke : Java (PGConProtocol PGConSerialPort) Unit) (c.invoke : Java (Pad O) Unit) := by
  intro p pad h
  by_cases hc : c = .release none
  · subst hc
    exact .error _ h
  obtain ⟨pad', hpad, hcalls⟩ := invoke_pad c hc pad
  rw [PGConProtocol.invoke_run c hc, hpad]
  refine .ok () ⟨?_, ?_⟩
  · rw [hcalls, List.flatMap_append, ← h.1]
    simp
  · have hreplay : replay (pad.calls ++ [c]) = left ((c.invoke : Java (Pad O) Unit) (replay pad.calls)) := by
      simp [replay]
    rw [hcalls, hreplay, h.2, hpad]
    rfl

theorem extends_call (calls : List (Call O)) (c : Call O) :
    Sim (Extends calls) (c.invoke : Java (Pad O) Unit) (c.invoke : Java (Pad O) Unit) := by
  rintro p q ⟨rfl, h⟩
  by_cases hc : c = .release none
  · subst hc
    exact .error _ ⟨rfl, h⟩
  · obtain ⟨pad', hpad, hcalls⟩ := invoke_pad c hc p
    rw [hpad]
    exact .ok () ⟨rfl, hcalls ▸ h.trans (List.prefix_append _ _)⟩

variable [DecidableEq O]

/-- A script beside the same script on a pad. -/
theorem script_beside {P : Type} [Protocol P O] {R : P → Pad O → Prop}
    (hR : ∀ c : Call O, Sim R (c.invoke : Java P Unit) (c.invoke : Java (Pad O) Unit))
    {p : P} (hp : R p Pad.neutral) {pressTime : ℤ} {made : List (Op O)} (hz : NonZero pressTime made) :
    ∃ s t p' pad, script made (attached pressTime p) = .ok () s ∧
      script made (attached pressTime (Pad.neutral : Pad O)) = .ok () t ∧ Related R s t ∧ Mirror pressTime true t ∧
      s.protocol = some p' ∧ t.protocol = some pad ∧ R p' pad := by
  have h0 : Related R (attached pressTime p : ControllerService P O) (attached pressTime Pad.neutral) :=
    ⟨rfl, rfl, rfl, rfl, rfl, .some hp⟩
  obtain ⟨t, ht, hm, -⟩ := keeps_script hz _ (mirror_attached pressTime)
  have hsim : SimResult (Related R) (script made (attached pressTime p)) (script made _) :=
    Sim.forM (Related.exec hR) made _ _ h0
  rw [ht] at hsim
  obtain ⟨pad, hpad⟩ := Option.isSome_iff_exists.mp hm.attached_eq
  generalize hs : script made (attached pressTime p) = x at hsim
  cases hsim with
  | @ok _ s _ hrel =>
    have hp := hrel.protocol
    rw [hpad] at hp
    cases hsp : s.protocol with
    | none =>
      rw [hsp] at hp
      cases hp
    | some p' =>
      rw [hsp] at hp
      cases hp with
      | some hpq => exact ⟨s, t, p', pad, rfl, ht, hrel, hm, hsp, hpad, hpq⟩

/-- One call more. -/
theorem script_snoc {P : Type} [Protocol P O] {made : List (Op O)} {op : Op O} {c c' : ControllerService P O}
    (h : script made c = .ok () c') : script (made ++ [op]) c = op.exec c' := by
  have happ : script (made ++ [op]) = (script made >>= fun _ => (op.exec : Java (ControllerService P O) Unit)) := by
    simp [script]
  rw [happ, bind_of_ok h]

theorem protocolCalls_eq {pressTime : ℤ} {made : List (Op O)} {t : ControllerService (Pad O) O} {pad : Pad O}
    (ht : script made (attached pressTime Pad.neutral) = .ok () t) (hpad : t.protocol = some pad) :
    protocolCalls pressTime made = pad.calls := by
  rw [protocolCalls, ht]
  simp only [left, callsOn, hpad]

/-- The bytes on the line are those of the calls on the protocol. -/
theorem written_eq {pressTime : ℤ} {made : List (Op O)} (hz : NonZero pressTime made)
    {controller : ControllerService (PGConProtocol PGConSerialPort) O}
    (h : script made (attached pressTime ⟨⟨[]⟩⟩) = .ok () controller) :
    written controller = (protocolCalls pressTime made).flatMap bytes := by
  obtain ⟨s, t, p, pad, hs, ht, -, -, hp, hpad, htold⟩ := script_beside told_call (p := ⟨⟨[]⟩⟩) ⟨rfl, rfl⟩ hz
  obtain rfl : controller = s := by
    rw [h] at hs
    cases hs
    rfl
  rw [written, hp, protocolCalls_eq ht hpad]
  exact htold.1

theorem protocolCalls_snoc {pressTime : ℤ} {made : List (Op O)} {op : Op O} (hz : NonZero pressTime (made ++ [op])) :
    protocolCalls pressTime made <+: protocolCalls pressTime (made ++ [op]) := by
  have hmade : NonZero pressTime made := fun o ho => hz o (List.mem_append_left _ ho)
  obtain ⟨-, t, -, pad, -, ht, -, -, -, hpad, -⟩ := script_beside told_call (p := ⟨⟨[]⟩⟩) ⟨rfl, rfl⟩ hmade
  obtain ⟨-, t', -, pad', -, ht', -, -, -, hpad', -⟩ := script_beside told_call (p := ⟨⟨[]⟩⟩) ⟨rfl, rfl⟩ hz
  have hrel : Related (Extends pad.calls) t t := by
    refine ⟨rfl, rfl, rfl, rfl, rfl, ?_⟩
    rw [hpad]
    exact .some ⟨rfl, List.prefix_rfl⟩
  have hafter := (Related.exec (extends_call pad.calls) op t t hrel).left.protocol
  rw [script_snoc ht] at ht'
  rw [ht', left, hpad'] at hafter
  rw [protocolCalls_eq ht hpad, protocolCalls_eq ((script_snoc ht).trans ht') hpad']
  cases hafter with
  | some h => exact h.2

/-! ### Every step -/

/-- What the system keeps: the bytes received are the first of those written, the
firmware has carried them out, and the reports are snapshots up to there. -/
structure Inv (pressTime : ℤ) (s : State O) : Prop where
  timed : NonZero pressTime s.made
  ran : script s.made (attached pressTime ⟨⟨[]⟩⟩) = .ok () s.controller
  arrived : s.arrived ≤ (written s.controller).length
  received : ∃ done, done ++ s.rx = (written s.controller).take s.arrived ∧ s.device = execute done Device.init ∧
    InOrder (protocolCalls pressTime s.made) (completed (protocolCalls pressTime s.made) done.length) s.queued ∧
    AnsweredInOrder (protocolCalls pressTime s.made) (completed (protocolCalls pressTime s.made) done.length) s.answered

theorem inv_init (pressTime : ℤ) : Inv pressTime (State.init pressTime : State O) :=
  ⟨by simp [NonZero, State.init], rfl, le_rfl, [], rfl, rfl, .nil, .nil⟩

variable {pressTime : ℤ} {s : State O}

/-- A call only adds bytes to the line. -/
theorem Inv.call (h : Inv pressTime s) {op : Op O} (hop : op.expiry pressTime ≠ some 0) :
    Inv pressTime { s with controller := left (op.exec s.controller), made := s.made ++ [op] } := by
  obtain ⟨htimed, hran, harrived, done, hdone, hdevice, hqueued, hanswered⟩ := h
  have hz : NonZero pressTime (s.made ++ [op]) := by
    intro o ho
    rcases List.mem_append.mp ho with ho | ho
    · exact htimed o ho
    · exact (List.mem_singleton.mp ho) ▸ hop
  obtain ⟨c, -, -, -, hc, -⟩ := script_beside (O := O) told_call (p := ⟨⟨[]⟩⟩) ⟨rfl, rfl⟩ hz
  have hexec : op.exec s.controller = .ok () c := (script_snoc hran).symm.trans hc
  have hpre := protocolCalls_snoc hz
  have hwritten : written s.controller <+: written c := by
    rw [written_eq htimed hran, written_eq hz hc]
    obtain ⟨more, hmore⟩ := hpre
    rw [← hmore, List.flatMap_append]
    exact List.prefix_append _ _
  have hcompleted : completed (protocolCalls pressTime s.made) done.length ≤
      completed (protocolCalls pressTime (s.made ++ [op])) done.length := by
    obtain ⟨more, hmore⟩ := hpre
    rw [← hmore]
    exact completed_append more _ _
  rw [hexec, left]
  refine ⟨hz, hc, harrived.trans hwritten.length_le, done, ?_, hdevice, ?_, ?_⟩
  · obtain ⟨more, hmore⟩ := hwritten
    rw [hdone, ← hmore, List.take_append_of_le_length harrived]
  · exact (hqueued.extend (completed_le_length _ _) hpre).mono hcompleted
  · exact (hanswered.extend (completed_le_length _ _) hpre).mono hcompleted

theorem Inv.arrive (h : Inv pressTime s) {b : BitVec 8} (hb : (written s.controller)[s.arrived]? = some b) :
    Inv pressTime { s with arrived := s.arrived + 1, rx := s.rx ++ [b] } := by
  obtain ⟨htimed, hran, harrived, done, hdone, hrest⟩ := h
  obtain ⟨hlt, -⟩ := List.getElem?_eq_some_iff.mp hb
  refine ⟨htimed, hran, hlt, done, ?_, hrest⟩
  rw [List.take_add_one, hb, ← hdone, List.append_assoc]
  rfl

/-- The report the firmware would write is a snapshot of the calls completed. -/
theorem shown_report (hO : AxisCommands O) (htimed : NonZero pressTime s.made)
    (hran : script s.made (attached pressTime ⟨⟨[]⟩⟩) = .ok () s.controller) {done : List (BitVec 8)}
    (hdone : done ++ s.rx = (written s.controller).take s.arrived) (hdevice : s.device = execute done Device.init) :
    Shown (protocolCalls pressTime s.made) s.report (completed (protocolCalls pressTime s.made) done.length) := by
  have hpre : done <+: written s.controller :=
    (List.prefix_append _ _).trans (hdone ▸ List.take_prefix _ _)
  have hdone' : done = ((protocolCalls pressTime s.made).flatMap bytes).take done.length := by
    rw [← written_eq htimed hran]
    exact List.prefix_iff_eq_take.mp hpre
  have hshown := shown_completed hO (protocolCalls pressTime s.made) done.length
  rw [← hdone'] at hshown
  rw [State.report, hdevice]
  exact hshown

theorem Inv.goto (h : Inv pressTime s) (pc : PC) : Inv pressTime { s with pc := pc } :=
  ⟨h.timed, h.ran, h.arrived, h.received⟩

/-- A byte is carried out: more calls may be complete after it, never fewer. -/
theorem Inv.receive (h : Inv pressTime s) : Inv pressTime s.receive := by
  rw [State.receive]
  cases hrx : s.rx with
  | nil =>
    obtain ⟨htimed, hran, harrived, done, hdone, hrest⟩ := h
    rw [hrx] at hdone
    exact ⟨htimed, hran, harrived, done, hdone, hrest⟩
  | cons b rx =>
    obtain ⟨htimed, hran, harrived, done, hdone, hdevice, hqueued, hanswered⟩ := h
    have hle : completed (protocolCalls pressTime s.made) done.length ≤
        completed (protocolCalls pressTime s.made) (done ++ [b]).length :=
      completed_mono _ (by rw [List.length_append]; exact Nat.le_add_right _ _)
    refine ⟨htimed, hran, harrived, done ++ [b], ?_, ?_, hqueued.mono hle, hanswered.mono hle⟩
    · rw [hrx] at hdone
      rw [List.append_assoc]
      exact hdone
    · rw [execute_append, ← hdevice]
      rfl

theorem Inv.hidTask (hO : AxisCommands O) (h : Inv pressTime s) : Inv pressTime s.hidTask := by
  rw [State.hidTask]
  split
  · cases hbank : s.bank with
    | none =>
      obtain ⟨htimed, hran, harrived, done, hdone, hdevice, hqueued, hanswered⟩ := h
      refine ⟨htimed, hran, harrived, done, hdone, hdevice, ?_, hanswered⟩
      rw [State.queued, hbank] at hqueued
      have hnew := (hqueued.of_initial (List.prefix_append _ _)).snoc (shown_report hO htimed hran hdone hdevice)
      exact hnew
    | some report => exact h
  · exact h

/-- What the USB side changes of the state matters only as far as it empties the bank. -/
theorem Inv.usb (h : Inv pressTime s) {s' : State O} (hs : s' = { s with
    deviceState := s'.deviceState, configurationNumber := s'.configurationNumber, addressSet := s'.addressSet,
    bank := s'.bank }) (hbank : s'.bank = s.bank ∨ s'.bank = none) : Inv pressTime s' := by
  obtain ⟨htimed, hran, harrived, done, hdone, hdevice, hqueued, hanswered⟩ := h
  rw [hs]
  refine ⟨htimed, hran, harrived, done, hdone, hdevice, hqueued.of_initial ?_, hanswered⟩
  rcases hbank with hbank | hbank
  · simp [State.queued, hbank]
  · simp [State.queued, hbank]

theorem Inv.getReport (hO : AxisCommands O) (h : Inv pressTime s) (transfer : Transfer) :
    Inv pressTime (s.getReport transfer) := by
  rw [State.getReport]
  split
  · exact h
  · obtain ⟨htimed, hran, harrived, done, hdone, hdevice, hqueued, hanswered⟩ := h
    have hnew := hanswered.snoc (shown_report hO htimed hran hdone hdevice) transfer.request.wLength
    exact ⟨htimed, hran, harrived, done, hdone, hdevice, hqueued, hnew⟩

theorem Inv.controlRequest (hO : AxisCommands O) (h : Inv pressTime s) (transfer : Transfer) :
    Inv pressTime (s.controlRequest transfer) := by
  unfold State.controlRequest
  dsimp only
  split_ifs
  · exact h.getReport hO transfer
  · exact h
  · rw [State.clearFeature]
    split
    · exact h.usb rfl (.inr rfl)
    · exact h
  · exact h.usb rfl (.inl rfl)
  · rw [State.setConfiguration]
    split
    · exact h
    · exact h.usb rfl (.inr rfl)
  · exact h

theorem Inv.usbTask (hO : AxisCommands O) (h : Inv pressTime s) (transfer : Option Transfer) :
    Inv pressTime (s.usbTask transfer) := by
  cases transfer with
  | none => exact h
  | some transfer =>
    rw [State.usbTask]
    split
    · exact h
    · exact h.controlRequest hO transfer

/-- A statement of the main loop. -/
theorem Inv.loop (hO : AxisCommands O) (h : Inv pressTime s) (transfer : Option Transfer) :
    Inv pressTime (s.loop transfer) := by
  unfold State.loop
  cases s.pc with
  | receiveCommand =>
    dsimp only
    split <;> exact h.goto _
  | receiving => exact h.receive
  | hidTask => exact (h.hidTask hO).goto _
  | usbTask => exact (h.usbTask hO transfer).goto _

theorem inv_step (hO : AxisCommands O) {s' : State O} {a : Action O} (h : Inv pressTime s) (ha : timed pressTime s a)
    (hs : step s a = some s') : Inv pressTime s' := by
  cases a with
  | call op =>
    cases hs
    exact h.call ha
  | arrive =>
    obtain ⟨b, hb, rfl⟩ := Option.map_eq_some_iff.mp hs
    exact h.arrive hb
  | loop transfer =>
    cases hs
    exact h.loop hO transfer
  | poll =>
    obtain ⟨report, hbank, rfl⟩ := Option.map_eq_some_iff.mp hs
    obtain ⟨htimed, hran, harrived, done, hdone, hdevice, hqueued, hanswered⟩ := h
    refine ⟨htimed, hran, harrived, done, hdone, hdevice, ?_, hanswered⟩
    rw [State.queued, hbank] at hqueued
    simpa [State.queued] using hqueued
  | busReset =>
    cases hs
    exact h.usb rfl (.inr rfl)
  | suspend =>
    cases hs
    exact h.usb rfl (.inl rfl)
  | wakeUp =>
    cases hs
    exact h.usb rfl (.inl rfl)
  | vbus on =>
    cases hs
    exact h.usb rfl (.inl rfl)

theorem inv_of_reach (hO : AxisCommands O) (h : Reach step (timed pressTime) (State.init pressTime) s) :
    Inv pressTime s :=
  h.invariant (inv_init pressTime) fun _ _ _ hi ha hs => inv_step hO hi ha hs

/-! ### The console's view -/

/-- The reports of each of the two ways are snapshots of the calls made on the protocol,
in the order of the calls; of those asked for the console gets as much as it asked for. -/
theorem reports_in_order {s : State MonsterHunterRiseDirectionStick}
    (h : Reach step (timed pressTime) (State.init pressTime) s) :
    InOrder (protocolCalls pressTime s.made) (protocolCalls pressTime s.made).length s.delivered ∧
      AnsweredInOrder (protocolCalls pressTime s.made) (protocolCalls pressTime s.made).length s.answered := by
  obtain ⟨-, -, -, done, -, -, hqueued, hanswered⟩ := inv_of_reach axisCommands_direction h
  have hle := completed_le_length (protocolCalls pressTime s.made) done.length
  exact ⟨(hqueued.mono hle).of_initial (List.prefix_append _ _), hanswered.mono hle⟩

/-- The console's requests: the first configuration, and three bytes of a report. -/
def configure : Transfer := ⟨⟨standardToDevice, REQ_SetConfiguration, 1, 0, 0⟩, false⟩
def askReport : Transfer := ⟨⟨classToHost, HID_REQ_GetReport, 0x0100, 0, 3⟩, false⟩

/-- Device, statements and requests up to the first report in the endpoint. -/
def firstReport : List (Action MonsterHunterRiseDirectionStick) :=
  [.vbus true, .busReset, .loop none, .loop none, .loop (some configure), .loop none, .loop none]

/-- A button is held and carried out, and the console asks for three bytes of a report. -/
def heldButton : List (Action MonsterHunterRiseDirectionStick) :=
  [.call (.holdButton .A), .arrive, .loop none, .loop none, .loop none, .loop none, .loop none, .loop (some askReport)]

/-- The old report is taken, and then the one that the firmware has written since. -/
def twoReports : List (Action MonsterHunterRiseDirectionStick) := [.poll, .loop none, .loop none, .poll]

/-- A button is held while a report waits in the endpoint. -/
theorem reports_in_order_hold : ∃ s : State MonsterHunterRiseDirectionStick,
    s.delivered.length = 2 ∧ s.answered.length = 1 ∧ protocolCalls 100 s.made = [.hold .A] ∧
      InOrder (protocolCalls 100 s.made) (protocolCalls 100 s.made).length s.delivered ∧
      AnsweredInOrder (protocolCalls 100 s.made) (protocolCalls 100 s.made).length s.answered := by
  obtain ⟨s, hrun, hdelivered, hanswered, hcalls⟩ : ∃ s : State MonsterHunterRiseDirectionStick,
      run step (timed 100) (State.init 100) (firstReport ++ heldButton ++ twoReports) = some s ∧
        s.delivered.length = 2 ∧ s.answered.length = 1 ∧ protocolCalls 100 s.made = [.hold .A] :=
    ⟨_, rfl, rfl, rfl, rfl⟩
  exact ⟨s, hdelivered, hanswered, hcalls, reports_in_order (reach_of_run _ .start hrun)⟩

/-! ### After the line has run empty -/

/-- No call is made. -/
def quiet (_ : State O) : Action O → Prop
  | .call _ => False
  | _ => True

instance : DecidableRel (quiet (O := O)) := fun _ a =>
  match a with
  | .call _ => .isFalse id
  | .arrive | .loop _ | .poll | .busReset | .suspend | .wakeUp | .vbus _ => .isTrue trivial

/-- Everything written has been carried out. -/
structure Drained (s : State O) : Prop where
  rx : s.rx = []
  arrived : s.arrived = (written s.controller).length

/-- Since `s₀`, where everything written was carried out: the firmware is as it was, and
only the first report taken can be an older one. -/
structure Settled (s₀ s : State O) : Prop where
  controller : s.controller = s₀.controller
  device : s.device = s₀.device
  drained : Drained s
  taken : ∃ new, s.delivered = s₀.delivered ++ new ∧ (∀ report ∈ new.drop 1, report = s₀.report) ∧
    (new ≠ [] → ∀ report ∈ s.bank, report = s₀.report)

section Settled

omit [Stick O] [DecidableEq O]

variable {s₀ s : State O}

theorem Drained.settled (h : Drained s₀) : Settled s₀ s₀ :=
  ⟨rfl, rfl, h, [], by simp, by simp, fun hne => absurd rfl hne⟩

theorem Settled.goto (h : Settled s₀ s) (pc : PC) : Settled s₀ { s with pc := pc } :=
  ⟨h.controller, h.device, ⟨h.drained.rx, h.drained.arrived⟩, h.taken⟩

theorem Settled.receive (h : Settled s₀ s) : Settled s₀ s.receive := by
  have hreceive : s.receive = { s with pc := .hidTask } := by
    rw [State.receive, h.drained.rx]
    simp [receiveByte, executeCommand, h.drained.rx.symm]
  rw [hreceive]
  exact h.goto _

/-- A report written now is the one of `s₀`. -/
theorem Settled.hidTask (h : Settled s₀ s) : Settled s₀ s.hidTask := by
  rw [State.hidTask]
  split
  · cases s.bank with
    | none =>
      obtain ⟨hcontroller, hdevice, hdrained, new, hnew, hold, -⟩ := h
      refine ⟨hcontroller, hdevice, ⟨hdrained.rx, hdrained.arrived⟩, new, hnew, hold, fun _ report hreport => ?_⟩
      obtain rfl : s.report = report := Option.some.inj hreport
      rw [State.report, State.report, hdevice]
    | some report => exact h
  · exact h

/-- The USB side at most empties the bank. -/
theorem Settled.usb (h : Settled s₀ s) {s' : State O} (hs : s' = { s with
    deviceState := s'.deviceState, configurationNumber := s'.configurationNumber, addressSet := s'.addressSet,
    bank := s'.bank, answered := s'.answered }) (hbank : s'.bank = s.bank ∨ s'.bank = none) : Settled s₀ s' := by
  obtain ⟨hcontroller, hdevice, hdrained, new, hnew, hold, hfresh⟩ := h
  rw [hs]
  refine ⟨hcontroller, hdevice, ⟨hdrained.rx, hdrained.arrived⟩, new, hnew, hold, fun hne report hreport => ?_⟩
  rcases hbank with hbank | hbank
  · exact hfresh hne report (hbank ▸ hreport)
  · rw [hbank] at hreport
    cases hreport

theorem Settled.controlRequest (h : Settled s₀ s) (transfer : Transfer) :
    Settled s₀ (s.controlRequest transfer) := by
  unfold State.controlRequest
  dsimp only
  split_ifs
  · rw [State.getReport]
    split
    · exact h
    · exact h.usb rfl (.inl rfl)
  · exact h
  · rw [State.clearFeature]
    split
    · exact h.usb rfl (.inr rfl)
    · exact h
  · exact h.usb rfl (.inl rfl)
  · rw [State.setConfiguration]
    split
    · exact h
    · exact h.usb rfl (.inr rfl)
  · exact h

theorem Settled.loop (h : Settled s₀ s) (transfer : Option Transfer) : Settled s₀ (s.loop transfer) := by
  unfold State.loop
  cases s.pc with
  | receiveCommand =>
    dsimp only
    split <;> exact h.goto _
  | receiving => exact h.receive
  | hidTask => exact h.hidTask.goto _
  | usbTask =>
    refine Settled.goto ?_ _
    cases transfer with
    | none => exact h
    | some transfer =>
      rw [State.usbTask]
      split
      · exact h
      · exact h.controlRequest transfer

end Settled

variable {s₀ : State O}

theorem settled_step {s' : State O} {a : Action O} (h : Settled s₀ s) (ha : quiet s a) (hs : step s a = some s') :
    Settled s₀ s' := by
  cases a with
  | call op => exact ha.elim
  | arrive =>
    obtain ⟨b, hb, rfl⟩ := Option.map_eq_some_iff.mp hs
    rw [h.drained.arrived] at hb
    simp at hb
  | loop transfer =>
    cases hs
    exact h.loop transfer
  | poll =>
    obtain ⟨report, hbank, rfl⟩ := Option.map_eq_some_iff.mp hs
    obtain ⟨hcontroller, hdevice, hdrained, new, hnew, hold, hfresh⟩ := h
    refine ⟨hcontroller, hdevice, ⟨hdrained.rx, hdrained.arrived⟩, new ++ [report], ?_, ?_, by simp⟩
    · rw [hnew, List.append_assoc]
    · rcases new with _ | ⟨first, new⟩
      · simp
      · intro r hr
        rcases List.mem_append.mp hr with hr | hr
        · exact hold r hr
        · rw [List.mem_singleton.mp hr]
          exact hfresh (by simp) report (by rw [hbank]; rfl)
  | busReset =>
    cases hs
    exact h.usb rfl (.inr rfl)
  | suspend =>
    cases hs
    exact h.usb rfl (.inl rfl)
  | wakeUp =>
    cases hs
    exact h.usb rfl (.inl rfl)
  | vbus on =>
    cases hs
    exact h.usb rfl (.inl rfl)

theorem reach_loop (s : State O) : Reach step quiet s (s.loop none) := .step (.loop none) .start trivial rfl

omit [Stick O] [DecidableEq O] in
/-- `HID_Task` does not touch the line. -/
theorem hidTask_line (s : State O) :
    s.hidTask.rx = s.rx ∧ s.hidTask.arrived = s.arrived ∧ s.hidTask.controller = s.controller := by
  rw [State.hidTask]
  split
  · cases s.bank <;> exact ⟨rfl, rfl, rfl⟩
  · exact ⟨rfl, rfl, rfl⟩

/-- The firmware gets back to its line: a few statements of the loop later it is about to
receive, with the same bytes before it. -/
theorem exists_receiving (hrx : s.rx ≠ []) : ∃ t, Reach step quiet s t ∧ t.pc = .receiving ∧ t.rx = s.rx ∧
    t.arrived = s.arrived ∧ t.controller = s.controller := by
  have hreceive : ∀ u : State O, u.rx ≠ [] → u.pc = .receiveCommand →
      Reach step quiet u { u with pc := .receiving } := by
    intro u hu hpc
    have hloop := reach_loop u
    rwa [State.loop, hpc, if_neg hu] at hloop
  have husb : ∀ u : State O, u.rx ≠ [] → u.pc = .usbTask → Reach step quiet u { u with pc := .receiving } := by
    intro u hu hpc
    have hloop := reach_loop u
    rw [State.loop, hpc] at hloop
    exact hloop.trans (hreceive { u with pc := .receiveCommand } hu rfl)
  cases hpc : s.pc with
  | receiveCommand => exact ⟨_, hreceive s hrx hpc, rfl, rfl, rfl, rfl⟩
  | receiving => exact ⟨s, .start, hpc, rfl, rfl, rfl⟩
  | hidTask =>
    obtain ⟨hr, ha, hc⟩ := hidTask_line s
    have hloop := reach_loop s
    rw [State.loop, hpc] at hloop
    exact ⟨_, hloop.trans (husb { s.hidTask with pc := .usbTask } (hr ▸ hrx) rfl), rfl, hr, ha, hc⟩
  | usbTask => exact ⟨_, husb s hrx hpc, rfl, rfl, rfl, rfl⟩

/-- All the bytes written can arrive. -/
theorem exists_arrived : ∀ (n : ℕ) (s : State O), s.arrived + n = (written s.controller).length →
    ∃ t, Reach step quiet s t ∧ t.arrived = (written t.controller).length
  | 0, s, h => ⟨s, .start, h⟩
  | n + 1, s, h => by
    obtain ⟨b, hb⟩ : ∃ b, (written s.controller)[s.arrived]? = some b :=
      ⟨_, List.getElem?_eq_getElem (by omega)⟩
    have harrive : step s .arrive = some { s with arrived := s.arrived + 1, rx := s.rx ++ [b] } := by
      rw [step, hb]
      rfl
    obtain ⟨t, ht, ha⟩ := exists_arrived n { s with arrived := s.arrived + 1, rx := s.rx ++ [b] } (by dsimp only; omega)
    exact ⟨t, Reach.trans (.step .arrive .start trivial harrive) ht, ha⟩

/-- All the bytes that have arrived can be carried out. -/
theorem exists_carried_out : ∀ (n : ℕ) (s : State O), s.rx.length = n → s.arrived = (written s.controller).length →
    ∃ t, Reach step quiet s t ∧ Drained t
  | 0, s, hn, ha => ⟨s, .start, List.length_eq_zero_iff.mp hn, ha⟩
  | n + 1, s, hn, ha => by
    obtain ⟨t, ht, hpc, hrx, harrived, hcontroller⟩ :=
      exists_receiving (s := s) (fun h => by rw [h] at hn; cases hn)
    rw [← hrx] at hn
    obtain ⟨b, rx, hb⟩ := List.exists_cons_of_length_eq_add_one hn
    have hloop := reach_loop t
    rw [State.loop, hpc] at hloop
    have hreceive : t.receive.rx = rx ∧ t.receive.arrived = t.arrived ∧ t.receive.controller = t.controller := by
      rw [State.receive, hb]
      exact ⟨rfl, rfl, rfl⟩
    obtain ⟨h₁, h₂, h₃⟩ := hreceive
    rw [hb, List.length_cons] at hn
    obtain ⟨u, hu, hdrained⟩ := exists_carried_out n t.receive (by rw [h₁]; omega)
      (by rw [h₂, h₃, harrived, hcontroller, ha])
    exact ⟨u, (ht.trans hloop).trans hu, hdrained⟩

/-- The firmware can always carry out everything written. -/
theorem exists_drained (h : s.arrived ≤ (written s.controller).length) : ∃ t, Reach step quiet s t ∧ Drained t := by
  obtain ⟨n, hn⟩ := Nat.exists_eq_add_of_le h
  obtain ⟨t, ht, ha⟩ := exists_arrived n s hn.symm
  obtain ⟨u, hu, hdrained⟩ := exists_carried_out t.rx.length t rfl ha
  exact ⟨u, ht.trans hu, hdrained⟩

/-- What the firmware has when everything is carried out is what the controller has on
record. -/
theorem Drained.exact (hO : AxisCommands O) (hd : Drained s) (h : Inv pressTime s) :
    FirmwareExact s.controller s.device.virtual_controller := by
  obtain ⟨htimed, hran, -, done, hdone, hdevice, -⟩ := h
  rw [hd.rx, List.append_nil, hd.arrived, List.take_length] at hdone
  obtain ⟨c, t, p, pad, hc, -, hrel, hm, hp, hpad, hreads⟩ := script_beside (PGConProtocol.pgCon_call hO) (p := ⟨⟨[]⟩⟩)
    PGConProtocol.shows_init htimed
  obtain rfl : s.controller = c := by
    rw [hran] at hc
    cases hc
    rfl
  rw [written, hp] at hdone
  rw [hdevice, hdone]
  exact (firmwareExact_of_mirror hm hpad hreads).of_related hrel

/-- Everything written can always be carried out; and once it is, one old report at most
is taken before the reports have what the controller has on record. -/
theorem reports_settle {s : State MonsterHunterRiseDirectionStick}
    (h : Reach step (timed pressTime) (State.init pressTime) s) :
    (∃ t, Reach step quiet s t ∧ Drained t) ∧ (Drained s → ∀ t, Reach step quiet s t →
      ∃ new, t.delivered = s.delivered ++ new ∧ ∀ report ∈ new.drop 1, ∃ vc, decode report = some vc ∧
        FirmwareExact t.controller vc) := by
  have hinv := inv_of_reach axisCommands_direction h
  refine ⟨exists_drained hinv.arrived, fun hd t ht => ?_⟩
  have hsettled : Settled s t := ht.invariant hd.settled fun _ _ _ hi ha hs => settled_step hi ha hs
  obtain ⟨hcontroller, -, -, new, hnew, hold, -⟩ := hsettled
  refine ⟨new, hnew, fun report hr => ⟨s.device.virtual_controller, ?_, ?_⟩⟩
  · rw [hold report hr, State.report, decode_wire]
  · rw [hcontroller]
    exact hd.exact axisCommands_direction hinv

/-- The button is carried out while an old report waits in the endpoint; the console takes
that one and the next. -/
theorem reports_settle_hold : ∃ s t : State MonsterHunterRiseDirectionStick, Drained s ∧ s.bank ≠ some s.report ∧
    Reach step quiet s t ∧ t.delivered.length = 2 ∧
    ∃ new, t.delivered = s.delivered ++ new ∧ ∀ report ∈ new.drop 1, ∃ vc, decode report = some vc ∧
      FirmwareExact t.controller vc := by
  obtain ⟨s, t, hs, hd, hbank, ht, hdelivered⟩ : ∃ s t : State MonsterHunterRiseDirectionStick,
      run step (timed 100) (State.init 100) (firstReport ++ heldButton) = some s ∧ Drained s ∧
        s.bank ≠ some s.report ∧ run step quiet s twoReports = some t ∧ t.delivered.length = 2 :=
    ⟨_, _, rfl, ⟨rfl, rfl⟩, by decide, rfl, rfl⟩
  have hreach := reach_of_run twoReports .start ht
  exact ⟨s, t, hd, hbank, hreach, hdelivered, (reports_settle (reach_of_run _ .start hs)).2 hd t hreach⟩

end Console
end PGCon
