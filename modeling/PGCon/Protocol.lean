/-
# The two output protocols

`Protocol` is what the controller needs of a device: hold and release a button,
set a stick, clear. `EasyConProtocolV147` keeps the seven bytes of a report and
sends all of them at every call; `PGConProtocol` sends the command bytes of the
control that changed. A method call can throw: a serial port that fails, or a
`null` button.

`Pad` is what both are for: the buttons held, the hat, the sticks, as the calls
left them. A protocol is right when it can be read as a pad at every moment, and
everything built on `Protocol` inherits it (`Effect.Sim`).
-/
import PGCon.Word
import PGCon.Effect
import PGCon.Action

namespace PGCon

open Word Effect

/-- What the calls modelled here can throw. -/
inductive JavaException
  | nullPointer
  | ioException
  | illegalArgument
  | cvException
  | alertError
  | interruptScript
  | arrayIndexOutOfBounds
  | negativeArraySize
  | unsupportedOperation
  | stringIndexOutOfBounds
  | indexOutOfBounds
  | classNotFound
  | loadScript
  /-- an `Error`: no `catch (Exception e)` takes it -/
  | javaError
  deriving DecidableEq, Repr

/-- A method of an object with state `S`. -/
abbrev Java (S α : Type) := EStateM JavaException S α

/-- The interface `SerialPort<C>`. -/
class SerialPort (SP C : Type) where
  sendCommand : C → Java SP Unit
  close : Java SP Unit

/-- The interface `Protocol`, for sticks of the classes `O`. A reference to a
button that can be `null` is an `Option`. -/
class Protocol (P O : Type) where
  hold : Button → Java P Unit
  release : Option Button → Java P Unit
  set : StickObject O → Java P Unit
  clear : Java P Unit

/-! ### EasyCon -/

/-- The report of the EasyCon protocol, `byte[7]`. -/
abbrev Report := Vector (BitVec 8) 7

/-- `EasyConProtocolV147` on a serial port. -/
structure EasyConProtocolV147 (SP : Type) where
  serialPort : SP
  currentBytes : Report

namespace EasyConProtocolV147

variable {SP : Type}

/-- `getDefault`. -/
def getDefault : Report := #v[0, 0, 8, BitVec.ofInt 8 (-128), BitVec.ofInt 8 (-128),
  BitVec.ofInt 8 (-128), BitVec.ofInt 8 (-128)]

/-- A method of the serial port, called from the protocol. -/
def port {α : Type} (m : Java SP α) : Java (EasyConProtocolV147 SP) α := fun p =>
  match m p.serialPort with
  | .ok a sp => .ok a { p with serialPort := sp }
  | .error e sp => .error e { p with serialPort := sp }

/-- `bytes[i] = f(bytes[i])`. -/
def assign (i : Fin 7) (f : BitVec 8 → BitVec 8) : Java (EasyConProtocolV147 SP) Unit :=
  modify fun p => { p with currentBytes := p.currentBytes.set i (f p.currentBytes[i]) }

variable [SerialPort SP Report]

/-- `serialPort.sendCommand(bytes)`. -/
def send : Java (EasyConProtocolV147 SP) Unit := do
  let bytes := (← get).currentBytes
  port (SerialPort.sendCommand bytes)

def hold (buttonType : Button) : Java (EasyConProtocolV147 SP) Unit := do
  let command := buttonType.commandEasyCon
  if buttonType.isHat then
    assign 2 fun _ => command.setWidth 8
  else if command.sle 0x80 then
    assign 1 fun b => orAssign 32 b (command.setWidth 8)
  else
    assign 0 fun b => orAssign 32 b ((command.sshiftRight 8).setWidth 8)
  send

/-- The button is dereferenced first, so `null` throws before any byte changes. -/
def release : Option Button → Java (EasyConProtocolV147 SP) Unit
  | none => throw .nullPointer
  | some buttonType => do
    let command := buttonType.commandEasyCon
    if buttonType.isHat then
      assign 2 fun _ => 8
    else if command.sle 0x80 then
      assign 1 fun b => andNotAssign 32 b (command.setWidth 8)
    else
      assign 0 fun b => andNotAssign 32 b ((command.sshiftRight 8).setWidth 8)
    send

def set {K : Type} [Stick K] (action : K) : Java (EasyConProtocolV147 SP) Unit := do
  if getStick action = .LEFT then
    assign 3 fun _ => getXCommandEasyCon action
    assign 4 fun _ => getYCommandEasyCon action
  else
    assign 5 fun _ => getXCommandEasyCon action
    assign 6 fun _ => getYCommandEasyCon action
  send

def clear : Java (EasyConProtocolV147 SP) Unit := do
  port (SerialPort.sendCommand getDefault)
  port (SerialPort.close (C := Report))

instance {O : Type} [Stick O] : Protocol (EasyConProtocolV147 SP) O where
  hold := hold
  release := release
  set := set
  clear := clear

end EasyConProtocolV147

/-! ### PGCon -/

/-- `PGConProtocol` on a serial port. -/
structure PGConProtocol (SP : Type) where
  serialPort : SP

namespace PGConProtocol

variable {SP : Type}

/-- A method of the serial port, called from the protocol. -/
def port {α : Type} (m : Java SP α) : Java (PGConProtocol SP) α := fun p =>
  match m p.serialPort with
  | .ok a sp => .ok a ⟨sp⟩
  | .error e sp => .error e ⟨sp⟩

variable [SerialPort SP (BitVec 32)]

/-- `send(int pgcCommand)`. -/
def send (pgcCommand : BitVec 32) : Java (PGConProtocol SP) Unit :=
  port (SerialPort.sendCommand pgcCommand)

def hold (buttonType : Button) : Java (PGConProtocol SP) Unit :=
  send (buttonType.holdCommandPGCon.signExtend 32)

def release : Option Button → Java (PGConProtocol SP) Unit
  | none => throw .nullPointer
  | some buttonType => send (buttonType.releaseCommandPGCon.signExtend 32)

def set {K : Type} [Stick K] (action : K) : Java (PGConProtocol SP) Unit := do
  send ((getXCommandPGCon action).signExtend 32)
  send ((getYCommandPGCon action).signExtend 32)

def clear : Java (PGConProtocol SP) Unit := do
  send 49
  port (SerialPort.close (C := BitVec 32))

instance {O : Type} [Stick O] : Protocol (PGConProtocol SP) O where
  hold := hold
  release := release
  set := set
  clear := clear

end PGConProtocol

/-! ### Serial ports that take everything -/

/-- A port on which every command arrives. -/
structure Line (C : Type) where
  sent : List C
  deriving DecidableEq, Repr

instance {C : Type} : SerialPort (Line C) C where
  sendCommand c := modify fun l => ⟨l.sent ++ [c]⟩
  close := pure ()

/-- `PGConSerialPort`, as far as `sendCommand` goes: `outputStream.write(command)`
writes the low eight bits. -/
structure PGConSerialPort where
  written : List (BitVec 8)
  deriving DecidableEq, Repr

instance : SerialPort PGConSerialPort (BitVec 32) where
  sendCommand command := modify fun sp => ⟨sp.written ++ [command.setWidth 8]⟩
  close := pure ()

/-! ### What a protocol is for -/

/-- A call on a `Protocol`. -/
inductive Call (O : Type)
  | hold (b : Button)
  | release (b : Option Button)
  | set (s : StickObject O)
  deriving DecidableEq, Repr

/-- The method a call invokes. -/
def Call.invoke {P O : Type} [Protocol P O] : Call O → Java P Unit
  | .hold b => Protocol.hold O b
  | .release b => Protocol.release O b
  | .set s => Protocol.set s

/-- The controls of a device as the calls so far left them, and those calls. -/
structure Pad (O : Type) where
  held : Button → Bool
  hat : Option Button
  sticks : Sticks → StickObject O
  calls : List (Call O)

namespace Pad

variable {O : Type}

/-- Nothing held, the hat and the sticks centred. -/
def neutral : Pad O where
  held _ := false
  hat := none
  sticks := StickObject.center
  calls := []

def hold (b : Button) (p : Pad O) : Pad O :=
  let p := { p with calls := p.calls ++ [Call.hold b] }
  if b.isHat then { p with hat := some b } else { p with held := Function.update p.held b true }

def release (b : Button) (p : Pad O) : Pad O :=
  let p := { p with calls := p.calls ++ [Call.release (some b)] }
  if b.isHat then { p with hat := none } else { p with held := Function.update p.held b false }

def set [Stick O] (s : StickObject O) (p : Pad O) : Pad O :=
  { p with sticks := Function.update p.sticks (getStick s) s, calls := p.calls ++ [.set s] }

instance [Stick O] : Protocol (Pad O) O where
  hold b := modify (hold b)
  release
    | none => throw .nullPointer
    | some b => modify (release b)
  set s := modify (set s)
  clear := modify fun _ => neutral

end Pad

/-- A protocol on which no call that names its button fails, and what its calls do. -/
class Reliable (P O : Type) [Protocol P O] where
  hold (O) : Button → P → P
  release (O) : Button → P → P
  set : StickObject O → P → P
  hold_eq (b : Button) (p : P) : (Protocol.hold O b : Java P Unit) p = .ok () (hold b p)
  release_eq (b : Button) (p : P) : (Protocol.release O (some b) : Java P Unit) p = .ok () (release b p)
  set_eq (s : StickObject O) (p : P) : (Protocol.set s : Java P Unit) p = .ok () (set s p)

instance {O : Type} [Stick O] : Reliable (Pad O) O where
  hold := Pad.hold
  release := Pad.release
  set := Pad.set
  hold_eq _ _ := rfl
  release_eq _ _ := rfl
  set_eq _ _ := rfl

end PGCon
