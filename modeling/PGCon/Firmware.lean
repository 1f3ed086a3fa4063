/-
# The firmware

`firmware/Joystick.c`: the virtual controller that the USB reports are copied
from, the interpreter of command bytes (`executeCommand`), and the loop that
feeds it from the serial line (`receiveCommand`).

The main loop passes over `receiveCommand` again and again; a pass takes every
byte that has arrived. However the bytes are spread over the passes, the state
in the end is that of executing them one by one (`serve_eq`).
-/
import PGCon.Word

namespace PGCon
namespace Firmware

open Word

/-! ### Joystick.h -/

def SWITCH_Y : BitVec 16 := 0x01
def SWITCH_B : BitVec 16 := 0x02
def SWITCH_A : BitVec 16 := 0x04
def SWITCH_X : BitVec 16 := 0x08
def SWITCH_L : BitVec 16 := 0x10
def SWITCH_R : BitVec 16 := 0x20
def SWITCH_ZL : BitVec 16 := 0x40
def SWITCH_ZR : BitVec 16 := 0x80
def SWITCH_SELECT : BitVec 16 := 0x100
def SWITCH_START : BitVec 16 := 0x200
def SWITCH_LCLICK : BitVec 16 := 0x400
def SWITCH_RCLICK : BitVec 16 := 0x800
def SWITCH_HOME : BitVec 16 := 0x1000
def SWITCH_CAPTURE : BitVec 16 := 0x2000
def SWITCH_RELEASE : BitVec 16 := 0x00

def HAT_TOP : BitVec 8 := 0x00
def HAT_RIGHT : BitVec 8 := 0x02
def HAT_BOTTOM : BitVec 8 := 0x04
def HAT_LEFT : BitVec 8 := 0x06
def HAT_CENTER : BitVec 8 := 0x08

def STICK_MIN : BitVec 8 := 0
def STICK_CENTER : BitVec 8 := 128
def STICK_MAX : BitVec 8 := 255

/-- `Virtual_Controller`. -/
structure VirtualController where
  Button : BitVec 16
  HAT : BitVec 8
  LX : BitVec 8
  LY : BitVec 8
  RX : BitVec 8
  RY : BitVec 8
  VendorSpec : BitVec 8
  deriving DecidableEq, Repr

/-- What `initVirtualController` leaves in `virtual_controller`. -/
def initVirtualController : VirtualController where
  Button := SWITCH_RELEASE
  HAT := HAT_CENTER
  LX := STICK_CENTER
  LY := STICK_CENTER
  RX := STICK_CENTER
  RY := STICK_CENTER
  VendorSpec := 0

/-- The device: its controller, and the strings it has sent to the host. -/
structure Device where
  virtual_controller : VirtualController
  sent : List String
  deriving DecidableEq, Repr

namespace Device

/-- `Serial_SendString`. -/
def sendString (fw : Device) (text : String) : Device := { fw with sent := fw.sent ++ [text] }

def put (fw : Device) (vp : VirtualController) : Device := { fw with virtual_controller := vp }

/-- After `init`. -/
def init : Device := ⟨initVirtualController, []⟩

end Device

/-! ### Joystick.c -/

/-- `executeCommand`: the flag it returns and the device after it. The
commands 46 to 48 move the vertical axis of the left stick. -/
def executeCommand (c : ℤ) (fw : Device) : Bool × Device :=
  if c < 0 then (false, fw)
  else
    let vp := fw.virtual_controller
    (true, match c.toNat with
      | 0 => fw.sendString "I'm Ready!"
      | 1 => fw.put { vp with Button := vp.Button ||| SWITCH_A }
      | 2 => fw.put { vp with Button := andMask vp.Button (~~~(1#32 <<< 2)) }
      | 3 => fw.put { vp with Button := vp.Button ||| SWITCH_B }
      | 4 => fw.put { vp with Button := andMask vp.Button (~~~(1#32 <<< 1)) }
      | 5 => fw.put { vp with Button := vp.Button ||| SWITCH_X }
      | 6 => fw.put { vp with Button := andMask vp.Button (~~~(1#32 <<< 3)) }
      | 7 => fw.put { vp with Button := vp.Button ||| SWITCH_Y }
      | 8 => fw.put { vp with Button := andMask vp.Button (~~~(1#32 <<< 0)) }
      | 9 => fw.put { vp with Button := vp.Button ||| SWITCH_L }
      | 10 => fw.put { vp with Button := andMask vp.Button (~~~(1#32 <<< 4)) }
      | 11 => fw.put { vp with Button := vp.Button ||| SWITCH_R }
      | 12 => fw.put { vp with Button := andMask vp.Button (~~~(1#32 <<< 5)) }
      | 13 => fw.put { vp with Button := vp.Button ||| SWITCH_ZL }
      | 14 => fw.put { vp with Button := andMask vp.Button (~~~(1#32 <<< 6)) }
      | 15 => fw.put { vp with Button := vp.Button ||| SWITCH_ZR }
      | 16 => fw.put { vp with Button := andMask vp.Button (~~~(1#32 <<< 7)) }
      | 17 => fw.put { vp with Button := vp.Button ||| SWITCH_LCLICK }
      | 18 => fw.put { vp with Button := andMask vp.Button (~~~(1#32 <<< 10)) }
      | 19 => fw.put { vp with Button := vp.Button ||| SWITCH_RCLICK }
      | 20 => fw.put { vp with Button := andMask vp.Button (~~~(1#32 <<< 11)) }
      | 21 => fw.put { vp with HAT := HAT_TOP }
      | 22 => fw.put { vp with HAT := HAT_CENTER }
      | 23 => fw.put { vp with HAT := HAT_BOTTOM }
      | 24 => fw.put { vp with HAT := HAT_CENTER }
      | 25 => fw.put { vp with HAT := HAT_LEFT }
      | 26 => fw.put { vp with HAT := HAT_CENTER }
      | 27 => fw.put { vp with HAT := HAT_RIGHT }
      | 28 => fw.put { vp with HAT := HAT_CENTER }
      | 29 => fw.put { vp with Button := vp.Button ||| SWITCH_START }
      | 30 => fw.put { vp with Button := andMask vp.Button (~~~(1#32 <<< 9)) }
      | 31 => fw.put { vp with Button := vp.Button ||| SWITCH_SELECT }
      | 32 => fw.put { vp with Button := andMask vp.Button (~~~(1#32 <<< 8)) }
      | 33 => fw.put { vp with Button := vp.Button ||| SWITCH_HOME }
      | 34 => fw.put { vp with Button := andMask vp.Button (~~~(1#32 <<< 12)) }
      | 35 => fw.put { vp with Button := vp.Button ||| SWITCH_CAPTURE }
      | 36 => fw.put { vp with Button := andMask vp.Button (~~~(1#32 <<< 13)) }
      | 37 => fw.put { vp with LX := STICK_MIN }
      | 38 => fw.put { vp with LX := STICK_MAX }
      | 39 => fw.put { vp with LX := STICK_CENTER }
      | 40 => fw.put { vp with LY := STICK_MIN }
      | 41 => fw.put { vp with LY := STICK_MAX }
      | 42 => fw.put { vp with LY := STICK_CENTER }
      | 43 => fw.put { vp with RX := STICK_MIN }
      | 44 => fw.put { vp with RX := STICK_MAX }
      | 45 => fw.put { vp with RX := STICK_CENTER }
      | 46 => fw.put { vp with LY := STICK_MIN }
      | 47 => fw.put { vp with LY := STICK_MAX }
      | 48 => fw.put { vp with LY := STICK_CENTER }
      | 49 => fw.put initVirtualController
      | _ => fw.sendString "?")

/-- `Serial_ReceiveByte`: the next byte of the line as an `int16_t`, -1 if none
has arrived, and the line after it. -/
def receiveByte : List (BitVec 8) → ℤ × List (BitVec 8)
  | [] => (-1, [])
  | b :: rx => (b.toNat, rx)

/-- The loop of `receiveCommand`. A byte that is there makes `executeCommand`
answer true, so the loop ends with the line empty. -/
def receiveLoop : List (BitVec 8) → Device → List (BitVec 8) × Device
  | [], fw => ([], (executeCommand (receiveByte []).1 fw).2)
  | b :: rx, fw =>
    match executeCommand (receiveByte (b :: rx)).1 fw with
    | (true, fw') => receiveLoop rx fw'
    | (false, fw') => (rx, fw')

/-- `receiveCommand`, with the bytes on the line. -/
def receiveCommand (rx : List (BitVec 8)) (fw : Device) : List (BitVec 8) × Device :=
  if rx = [] then (rx, fw) else receiveLoop rx fw

/-- Passes of the main loop: before each pass the bytes of a batch arrive. -/
def serve (batches : List (List (BitVec 8))) (rx : List (BitVec 8)) (fw : Device) :
    List (BitVec 8) × Device :=
  batches.foldl (fun p batch => receiveCommand (p.1 ++ batch) p.2) (rx, fw)

/-- The commands executed one by one. -/
def execute (bytes : List (BitVec 8)) (fw : Device) : Device :=
  bytes.foldl (fun fw b => (executeCommand b.toNat fw).2) fw

/-! ### What the loop does -/

theorem executeCommand_true (b : BitVec 8) (fw : Device) : (executeCommand b.toNat fw).1 = true := by
  have h : ¬ ((b.toNat : ℤ) < 0) := by omega
  rw [executeCommand, if_neg h]

theorem execute_append (bs cs : List (BitVec 8)) (fw : Device) :
    execute (bs ++ cs) fw = execute cs (execute bs fw) := List.foldl_append

theorem receiveLoop_eq : ∀ (rx : List (BitVec 8)) (fw : Device), receiveLoop rx fw = ([], execute rx fw)
  | [], fw => rfl
  | b :: rx, fw => by
    have h := executeCommand_true b fw
    rw [receiveLoop]
    simp only [receiveByte]
    rcases he : executeCommand (b.toNat : ℤ) fw with ⟨more, fw'⟩
    rw [he] at h
    simp only at h
    subst h
    simp only
    rw [receiveLoop_eq rx fw']
    simp only [execute, List.foldl_cons, he]

theorem receiveCommand_eq (rx : List (BitVec 8)) (fw : Device) :
    receiveCommand rx fw = ([], execute rx fw) := by
  unfold receiveCommand
  split
  · rename_i h
    rw [h]; rfl
  · exact receiveLoop_eq rx fw

/-- Passes over an empty line: all the batches' bytes are executed in order. -/
theorem serve_eq : ∀ (batches : List (List (BitVec 8))) (fw : Device),
    serve batches [] fw = ([], execute batches.flatten fw)
  | [], fw => rfl
  | batch :: batches, fw => by
    rw [serve, List.foldl_cons, List.nil_append, receiveCommand_eq, List.flatten_cons, execute_append]
    exact serve_eq batches _

end Firmware
end PGCon
