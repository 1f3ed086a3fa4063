/-
# Buttons and sticks

The controls of `com.duanxr.pgcon.output.action`, with the codes each of them
has in the two protocols: a command byte for holding and one for releasing
(PGCon), a bit mask or a hat value (EasyCon), and for a stick one byte per axis
in either protocol.

`Stick` is an interface and scripts bring sticks of their own
(`MonsterHunterRiseDirectionStick`); the controller compares sticks as
objects. `StickObject O` is what a variable of type `Stick` can refer to: a
constant of the enumeration or an object of another class, `O` being the
objects of all the other classes, told apart by identity.
-/
import Mathlib

namespace PGCon

/-! ### Buttons -/

/-- `NintendoSwitchStandardButton`, in the order of its declaration. -/
inductive NintendoSwitchStandardButton
  | A | B | X | Y | L | R | ZL | ZR | L_STICK | R_STICK
  | D_TOP | D_BOTTOM | D_LEFT | D_RIGHT | PLUS | MINUS | HOME | CAPTURE
  deriving DecidableEq, Repr

/-- The interface `Button`: the enumeration is the only class that implements it. -/
abbrev Button := NintendoSwitchStandardButton

namespace NintendoSwitchStandardButton

/-- The constructor arguments of each constant: `holdCommandPGCon`,
`releaseCommandPGCon`, `commandEasyCon`, `isHat`. -/
def args : NintendoSwitchStandardButton → ℕ × ℕ × ℕ × Bool
  | A => (1, 2, 0x04, false)
  | B => (3, 4, 0x02, false)
  | X => (5, 6, 0x08, false)
  | Y => (7, 8, 0x01, false)
  | L => (9, 10, 0x10, false)
  | R => (11, 12, 0x20, false)
  | ZL => (13, 14, 0x40, false)
  | ZR => (15, 16, 0x80, false)
  | L_STICK => (17, 18, 0x400, false)
  | R_STICK => (19, 20, 0x800, false)
  | D_TOP => (21, 22, 0x00, true)
  | D_BOTTOM => (23, 24, 0x04, true)
  | D_LEFT => (25, 26, 0x06, true)
  | D_RIGHT => (27, 28, 0x02, true)
  | PLUS => (29, 30, 0x200, false)
  | MINUS => (31, 32, 0x100, false)
  | HOME => (33, 34, 0x1000, false)
  | CAPTURE => (35, 36, 0x2000, false)

/-- `(byte) holdCommandPGCon`. -/
def holdCommandPGCon (b : NintendoSwitchStandardButton) : BitVec 8 := BitVec.ofNat 8 b.args.1

/-- `(byte) releaseCommandPGCon`. -/
def releaseCommandPGCon (b : NintendoSwitchStandardButton) : BitVec 8 := BitVec.ofNat 8 b.args.2.1

/-- The Java `int` of the EasyCon protocol. -/
def commandEasyCon (b : NintendoSwitchStandardButton) : BitVec 32 := BitVec.ofNat 32 b.args.2.2.1

def isHat (b : NintendoSwitchStandardButton) : Bool := b.args.2.2.2

/-- `values()`: the constants by ordinal. -/
def values : List NintendoSwitchStandardButton :=
  [A, B, X, Y, L, R, ZL, ZR, L_STICK, R_STICK, D_TOP, D_BOTTOM, D_LEFT, D_RIGHT, PLUS, MINUS, HOME,
    CAPTURE]

theorem mem_values (b : NintendoSwitchStandardButton) : b ∈ values := by
  cases b <;> decide

instance : Fintype NintendoSwitchStandardButton := Fintype.ofList values mem_values

/-- The EasyCon mask of a button in the sixteen bits of the report. -/
def mask (b : NintendoSwitchStandardButton) : BitVec 16 := b.commandEasyCon.setWidth 16

theorem mask_disjoint : ∀ b c : NintendoSwitchStandardButton, b.isHat = false → c.isHat = false →
    b ≠ c → b.mask &&& c.mask = 0#16 := by
  decide

theorem mask_ne_zero : ∀ b : NintendoSwitchStandardButton, b.isHat = false → b.mask ≠ 0#16 := by
  decide

/-- The two high bits belong to no button. -/
theorem mask_lt : ∀ b : NintendoSwitchStandardButton, ∀ i < 16, b.mask.getLsbD i = true → i < 14 := by
  decide

end NintendoSwitchStandardButton

/-! ### Sticks -/

/-- `Sticks`. -/
inductive Sticks
  | LEFT | RIGHT
  deriving DecidableEq, Repr

instance : Fintype Sticks := Fintype.ofList [.LEFT, .RIGHT] fun i => by cases i <;> decide

/-- `NintendoSwitchBaseStick`: the positions of one axis. -/
inductive NintendoSwitchBaseStick
  | LX_MIN | LX_MAX | LX_CENTER | LY_MIN | LY_MAX | LY_CENTER
  | RX_MIN | RX_MAX | RX_CENTER | RY_MIN | RY_MAX | RY_CENTER
  deriving DecidableEq, Repr

namespace NintendoSwitchBaseStick

/-- The constructor arguments of each constant: `commandPGCon`,
`commandEasyCon`. -/
def args : NintendoSwitchBaseStick → ℕ × ℤ
  | LX_MIN => (37, 0)
  | LX_MAX => (38, -1)
  | LX_CENTER => (39, -128)
  | LY_MIN => (40, 0)
  | LY_MAX => (41, -1)
  | LY_CENTER => (42, -128)
  | RX_MIN => (43, 0)
  | RX_MAX => (44, -1)
  | RX_CENTER => (45, -128)
  | RY_MIN => (46, 0)
  | RY_MAX => (47, -1)
  | RY_CENTER => (48, -128)

/-- `(byte) commandPGCon`. -/
def commandPGCon (a : NintendoSwitchBaseStick) : BitVec 8 := BitVec.ofNat 8 a.args.1

/-- `(byte) commandEasyCon`. -/
def commandEasyCon (a : NintendoSwitchBaseStick) : BitVec 8 := BitVec.ofInt 8 a.args.2

end NintendoSwitchBaseStick

/-- `NintendoSwitchStandardStick`, in the order of its declaration. -/
inductive NintendoSwitchStandardStick
  | L_TOP | L_TOP_RIGHT | L_RIGHT | L_BOTTOM_RIGHT | L_BOTTOM | L_BOTTOM_LEFT | L_LEFT | L_TOP_LEFT
  | L_CENTER
  | R_TOP | R_TOP_RIGHT | R_RIGHT | R_BOTTOM_RIGHT | R_BOTTOM | R_BOTTOM_LEFT | R_LEFT | R_TOP_LEFT
  | R_CENTER
  deriving DecidableEq, Repr

namespace NintendoSwitchStandardStick

open NintendoSwitchBaseStick in
/-- The constructor arguments of each constant: `stick`, `actionX`, `actionY`.
Three of the right stick's constants take their vertical axis from the left
stick's. -/
def args : NintendoSwitchStandardStick → Sticks × NintendoSwitchBaseStick × NintendoSwitchBaseStick
  | L_TOP => (.LEFT, LX_CENTER, LY_MIN)
  | L_TOP_RIGHT => (.LEFT, LX_MAX, LY_MIN)
  | L_RIGHT => (.LEFT, LX_MAX, LY_CENTER)
  | L_BOTTOM_RIGHT => (.LEFT, LX_MAX, LY_MAX)
  | L_BOTTOM => (.LEFT, LX_CENTER, LY_MAX)
  | L_BOTTOM_LEFT => (.LEFT, LX_MIN, LY_MAX)
  | L_LEFT => (.LEFT, LX_MIN, LY_CENTER)
  | L_TOP_LEFT => (.LEFT, LX_MIN, LY_MIN)
  | L_CENTER => (.LEFT, LX_CENTER, LY_CENTER)
  | R_TOP => (.RIGHT, RX_CENTER, LY_MIN)
  | R_TOP_RIGHT => (.RIGHT, RX_MAX, LY_MIN)
  | R_RIGHT => (.RIGHT, RX_MAX, RY_CENTER)
  | R_BOTTOM_RIGHT => (.RIGHT, RX_MAX, RY_MAX)
  | R_BOTTOM => (.RIGHT, RX_CENTER, RY_MAX)
  | R_BOTTOM_LEFT => (.RIGHT, RX_MIN, RY_MAX)
  | R_LEFT => (.RIGHT, RX_MIN, RY_CENTER)
  | R_TOP_LEFT => (.RIGHT, RX_MIN, LY_MIN)
  | R_CENTER => (.RIGHT, RX_CENTER, RY_CENTER)

end NintendoSwitchStandardStick

/-- The interface `Stick`, for the objects of a class `K`. -/
class Stick (K : Type) where
  getStick : K → Sticks
  getXCommandPGCon : K → BitVec 8
  getYCommandPGCon : K → BitVec 8
  getXCommandEasyCon : K → BitVec 8
  getYCommandEasyCon : K → BitVec 8

export Stick (getStick getXCommandPGCon getYCommandPGCon getXCommandEasyCon getYCommandEasyCon)

instance : Stick NintendoSwitchStandardStick where
  getStick s := s.args.1
  getXCommandPGCon s := s.args.2.1.commandPGCon
  getYCommandPGCon s := s.args.2.2.commandPGCon
  getXCommandEasyCon s := s.args.2.1.commandEasyCon
  getYCommandEasyCon s := s.args.2.2.commandEasyCon

/-- `MonsterHunterRiseDirectionStick` of the Monster Hunter engine: a direction
of the left stick that the PGCon protocol sees as the centre. `ref` is the
identity of the object; its two bytes come from `Math.sin` and `Math.cos` of the
angle it was made for and can be any here. -/
structure MonsterHunterRiseDirectionStick where
  ref : ℕ
  x : BitVec 8
  y : BitVec 8
  deriving DecidableEq, Repr

instance : Stick MonsterHunterRiseDirectionStick where
  getStick _ := .LEFT
  getXCommandPGCon _ := getXCommandPGCon NintendoSwitchStandardStick.L_CENTER
  getYCommandPGCon _ := getYCommandPGCon NintendoSwitchStandardStick.L_CENTER
  getXCommandEasyCon s := s.x
  getYCommandEasyCon s := s.y

/-- What a variable of type `Stick` refers to. -/
inductive StickObject (O : Type)
  | standard (s : NintendoSwitchStandardStick)
  | other (o : O)
  deriving DecidableEq, Repr

instance : Stick Empty where
  getStick := Empty.elim
  getXCommandPGCon := Empty.elim
  getYCommandPGCon := Empty.elim
  getXCommandEasyCon := Empty.elim
  getYCommandEasyCon := Empty.elim

instance {O : Type} [Stick O] : Stick (StickObject O) where
  getStick | .standard s => getStick s | .other o => getStick o
  getXCommandPGCon | .standard s => getXCommandPGCon s | .other o => getXCommandPGCon o
  getYCommandPGCon | .standard s => getYCommandPGCon s | .other o => getYCommandPGCon o
  getXCommandEasyCon | .standard s => getXCommandEasyCon s | .other o => getXCommandEasyCon o
  getYCommandEasyCon | .standard s => getYCommandEasyCon s | .other o => getYCommandEasyCon o

/-- The released position of a stick. -/
def StickObject.center {O : Type} : Sticks → StickObject O
  | .LEFT => .standard .L_CENTER
  | .RIGHT => .standard .R_CENTER

theorem StickObject.getStick_center {O : Type} [Stick O] (i : Sticks) :
    getStick (StickObject.center i : StickObject O) = i := by
  cases i <;> rfl

end PGCon
