/-
# Is the device there?

`PGConSerialPort.checkConnection` writes the commands 0 and 49, gives the device
time to answer, and looks whether anything has come back. To 0 the firmware
answers "I'm Ready!"; 49 resets its controller.

The host takes an empty input for a connected device: `available() == 0`. So the
verdict is the wrong way round on every line, whatever the device did before
(`verdict_inverted`): a device that answers is refused, and a line on which
nobody answers passes. The reset arrives all the same.
-/
import PGCon.Effect
import PGCon.Firmware
import PGCon.Protocol

namespace PGCon
namespace ConnectionCheck

open Effect Firmware

/-- The serial line: the bytes on their way to the device, the device, and how
many of the bytes it has sent the host has read. -/
structure Link where
  line : List (BitVec 8)
  device : Device
  read : ℕ

namespace Link

/-- The number of bytes the device has sent. -/
def replied (l : Link) : ℕ := (l.device.sent.map String.utf8ByteSize).sum

/-- `outputStream.write(int)`. -/
def write (b : BitVec 8) : Java Link Unit := modify fun l => { l with line := l.line ++ [b] }

/-- `inputStream.available()`. -/
def available : Java Link ℕ := do
  let l ← get
  return l.replied - l.read

/-- Passes of the firmware's main loop, over all the bytes on the line. -/
def answers (batches : List (List (BitVec 8))) : Java Link Unit := modify fun l =>
  { l with line := (serve batches [] l.device).1, device := (serve batches [] l.device).2 }

end Link

/-- `checkConnection`. What happens on the line during `Thread.sleep(100)` is an
argument. -/
def checkConnection (sleep : Java Link Unit) : Java Link Bool := do
  Link.write 0
  Link.write 49
  sleep
  return (← Link.available) = 0

/-! ### What the device sends -/

theorem sent_executeCommand (c : ℤ) (fw : Device) : fw.sent <+: (executeCommand c fw).2.sent := by
  unfold executeCommand
  split
  · exact List.prefix_rfl
  · simp only
    split <;> first | exact List.prefix_append _ _ | exact List.prefix_rfl

/-- The device takes nothing back. -/
theorem sent_execute (bytes : List (BitVec 8)) (fw : Device) : fw.sent <+: (execute bytes fw).sent := by
  induction bytes generalizing fw with
  | nil => exact List.prefix_rfl
  | cons b bytes ih => exact (sent_executeCommand b.toNat fw).trans (ih _)

/-- The two commands: one reply, and the controller reset. -/
theorem execute_check (fw : Device) :
    execute [0, 49] fw = ⟨initVirtualController, fw.sent ++ ["I'm Ready!"]⟩ := rfl

/-- Every line on which all replies have been read: the device that answers is not
recognised, it is left reset, and a line on which nobody answers is taken for a
device. -/
theorem verdict_inverted (l : Link) (hread : l.read = l.replied) {batches : List (List (BitVec 8))}
    (hb : batches.flatten = l.line ++ [0, 49]) :
    answer (checkConnection (Link.answers batches) l) = .ok false ∧
      (left (checkConnection (Link.answers batches) l)).device.virtual_controller = initVirtualController ∧
      answer (checkConnection (pure ()) l) = .ok true := by
  have hserve : (serve batches [] l.device).2 =
      ⟨initVirtualController, (execute l.line l.device).sent ++ ["I'm Ready!"]⟩ := by
    rw [serve_eq, hb, execute_append, execute_check]
  have hlive : answer (checkConnection (Link.answers batches) l) = .ok (decide
      ((((serve batches [] l.device).2.sent.map String.utf8ByteSize).sum - l.read) = 0)) := rfl
  have hleft : (left (checkConnection (Link.answers batches) l)).device = (serve batches [] l.device).2 := rfl
  have hdead : answer (checkConnection (pure ()) l) = .ok (decide (l.replied - l.read = 0)) := rfl
  have hgrows : l.replied ≤ ((execute l.line l.device).sent.map String.utf8ByteSize).sum := by
    obtain ⟨more, hmore⟩ := sent_execute l.line l.device
    rw [← hmore, List.map_append, List.sum_append]
    exact Nat.le_add_right _ _
  have hready : ("I'm Ready!" : String).utf8ByteSize = 10 := by decide
  refine ⟨?_, ?_, ?_⟩
  · rw [hlive, hserve]
    simp only [List.map_append, List.map_cons, List.map_nil, List.sum_append, List.sum_cons, List.sum_nil,
      hready, hread]
    congr 1
    rw [decide_eq_false_iff_not]
    omega
  · rw [hleft, hserve]
  · rw [hdead, hread, Nat.sub_self]
    rfl

/-- A device just switched on; both bytes arrive in one pass. -/
theorem verdict_inverted_fresh :
    answer (checkConnection (Link.answers [[0, 49]]) ⟨[], Device.init, 0⟩) = .ok false ∧
      (left (checkConnection (Link.answers [[0, 49]]) ⟨[], Device.init, 0⟩)).device.virtual_controller =
        initVirtualController ∧
      answer (checkConnection (pure ()) ⟨[], Device.init, 0⟩) = .ok true :=
  verdict_inverted ⟨[], Device.init, 0⟩ rfl rfl

/-- A device just switched on is not recognised. -/
theorem not_recognised : ¬ ∀ (l : Link) (batches : List (List (BitVec 8))), l.read = l.replied →
    batches.flatten = l.line ++ [0, 49] →
    answer (checkConnection (Link.answers batches) l) = .ok true ∧
      (left (checkConnection (Link.answers batches) l)).device.virtual_controller = initVirtualController ∧
      answer (checkConnection (pure ()) l) = .ok false := by
  intro h
  have hlive := (h ⟨[], Device.init, 0⟩ [[0], [49]] rfl rfl).1
  have hanswer : answer (checkConnection (Link.answers [[0], [49]]) ⟨[], Device.init, 0⟩) = .ok false := rfl
  rw [hanswer] at hlive
  cases hlive

end ConnectionCheck
end PGCon
