/-
# Do the two protocols drive the console alike?

The same calls, through `PGConProtocol` and the firmware on one side and into
the report of `EasyConProtocolV147` on the other. Buttons, hat and horizontal
axes always agree. The vertical axes need not: the firmware's commands for the
right stick's vertical axis (46 to 48) write `LY`, and three constants of the
right stick send the left stick's vertical commands to begin with. So `RY` stays
centred, and `LY` follows the stick set last, whichever it is.

`agree_iff`: the two sides agree after a sequence of calls if and only if the
right stick was last left level, and, when it was the last stick set, the left
one was last left level too.
-/
import PGCon.Refinement

namespace PGCon
namespace Agreement

open Firmware Effect Word

/-- A call with a constant of the two enumerations. -/
inductive StandardCall
  | hold (b : NintendoSwitchStandardButton)
  | release (b : NintendoSwitchStandardButton)
  | set (s : NintendoSwitchStandardStick)
  deriving DecidableEq, Repr

/-- As a call of the interface, no other class of sticks being needed. -/
def StandardCall.toCall : StandardCall → Call Empty
  | .hold b => .hold b
  | .release b => .release (some b)
  | .set s => .set (.standard s)

/-- The protocol object after the calls. -/
def drive {P : Type} [Protocol P Empty] (calls : List StandardCall) (p : P) : P :=
  calls.foldl (fun p c => left (c.toCall.invoke p)) p

/-- The firmware's controller after the bytes of the calls. -/
def pgCon (calls : List StandardCall) : VirtualController :=
  (PGConProtocol.device (drive calls ⟨⟨[]⟩⟩)).virtual_controller

/-- `currentBytes` after the calls. -/
def easyCon (calls : List StandardCall) : Report :=
  (drive calls (⟨⟨[]⟩, EasyConProtocolV147.getDefault⟩ : EasyConProtocolV147 (Line Report))).currentBytes

/-- The pad after the calls. -/
def pad (calls : List StandardCall) : Pad Empty := drive calls Pad.neutral

/-- Every field of the controller is that of the report. -/
structure Agree (vc : VirtualController) (r : Report) : Prop where
  button : vc.Button.toNat = (r.get 0).toNat * 256 + (r.get 1).toNat
  hat : vc.HAT = r.get 2
  lx : vc.LX = r.get 3
  ly : vc.LY = r.get 4
  rx : vc.RX = r.get 5
  ry : vc.RY = r.get 6

/-! ### The condition -/

/-- The vertical axis is centred. -/
def level : NintendoSwitchStandardStick → Bool
  | .L_RIGHT | .L_LEFT | .L_CENTER | .R_RIGHT | .R_LEFT | .R_CENTER => true
  | _ => false

/-- The stick a call sets. -/
def StandardCall.stick : StandardCall → Option NintendoSwitchStandardStick
  | .set s => some s
  | _ => none

/-- The stick set last. -/
def lastStick (calls : List StandardCall) : Option NintendoSwitchStandardStick :=
  (calls.filterMap StandardCall.stick).getLast?

/-- How stick `i` was set last. -/
def lastSet (i : Sticks) (calls : List StandardCall) : Option NintendoSwitchStandardStick :=
  ((calls.filterMap StandardCall.stick).filter fun s => getStick s = i).getLast?

/-- The right stick was last left level, and if it was the last stick set, the
left one was last left level as well. -/
def LeftLevel (calls : List StandardCall) : Prop :=
  (∀ s ∈ lastSet .RIGHT calls, level s = true) ∧
    ∀ s ∈ lastStick calls, getStick s = .RIGHT → ∀ l ∈ lastSet .LEFT calls, level l = true

/-! ### Both sides, call by call -/

section Drive

variable {P : Type} [Protocol P Empty]

theorem drive_append (calls : List StandardCall) (c : StandardCall) (p : P) :
    drive (calls ++ [c]) p = left (c.toCall.invoke (drive calls p)) := by
  simp [drive]

end Drive

/-- The report shows the pad after any calls. -/
theorem easyCon_shows (calls : List StandardCall) :
    EasyConProtocolV147.Shows (easyCon calls) (pad calls) := by
  induction calls using List.reverseRecOn with
  | nil => exact EasyConProtocolV147.shows_default
  | append_singleton calls c ih =>
    unfold easyCon pad
    rw [drive_append, drive_append]
    exact (EasyConProtocolV147.easyCon_call c.toCall _ _ ih).left

/-- The device has the pad's buttons and hat after any calls. -/
theorem pgCon_shows (calls : List StandardCall) : PGConProtocol.Shows (pgCon calls) (pad calls) := by
  induction calls using List.reverseRecOn with
  | nil => exact PGConProtocol.shows_init
  | append_singleton calls c ih =>
    unfold pgCon pad
    rw [drive_append, drive_append]
    exact (PGConProtocol.pgCon_call (fun o => o.elim) c.toCall _ _ ih).left

/-! ### The axes -/

theorem level_iff (s : NintendoSwitchStandardStick) :
    getYCommandEasyCon s = 128#8 ↔ level s = true := by
  cases s <;> decide

/-- The constant a stick starts from. -/
def start : Sticks → NintendoSwitchStandardStick
  | .LEFT => .L_CENTER
  | .RIGHT => .R_CENTER

theorem lastStick_append (calls : List StandardCall) (c : StandardCall) :
    lastStick (calls ++ [c]) = c.stick.or (lastStick calls) := by
  unfold lastStick
  cases c <;> simp [List.filterMap_append, StandardCall.stick]

theorem lastSet_append (i : Sticks) (calls : List StandardCall) (c : StandardCall) :
    lastSet i (calls ++ [c]) = (c.stick.filter fun s => getStick s = i).or (lastSet i calls) := by
  unfold lastSet
  rw [List.filterMap_append, List.filter_append, List.getLast?_append]
  cases c with
  | hold b => rfl
  | release b => rfl
  | set s =>
    by_cases h : getStick s = i <;> simp [StandardCall.stick, Option.filter, h]

/-- The stick set last was set last among its own calls. -/
theorem lastSet_of_lastStick {calls : List StandardCall} {s : NintendoSwitchStandardStick}
    (h : lastStick calls = some s) : lastSet (getStick s) calls = some s := by
  obtain ⟨front, hf⟩ := List.getLast?_eq_some_iff.mp h
  unfold lastSet
  rw [hf, List.filter_append]
  simp

theorem lastSet_of_lastStick_none {calls : List StandardCall} (h : lastStick calls = none) (i : Sticks) :
    lastSet i calls = none := by
  unfold lastSet
  rw [List.getLast?_eq_none_iff.mp h]
  rfl

/-- Both commands of a stick: its own horizontal axis, and the left stick's
vertical one. -/
theorem moveAxis_stick (s : NintendoSwitchStandardStick) (vp : VirtualController) :
    (moveAxis (moveAxis vp s.args.2.1) s.args.2.2).LX =
        (if getStick s = .LEFT then getXCommandEasyCon s else vp.LX) ∧
      (moveAxis (moveAxis vp s.args.2.1) s.args.2.2).RX =
        (if getStick s = .RIGHT then getXCommandEasyCon s else vp.RX) ∧
      (moveAxis (moveAxis vp s.args.2.1) s.args.2.2).LY = getYCommandEasyCon s ∧
      (moveAxis (moveAxis vp s.args.2.1) s.args.2.2).RY = vp.RY := by
  cases s <;> exact ⟨rfl, rfl, rfl, rfl⟩

/-- Buttons leave the axes alone. -/
def SameAxes (vp vp' : VirtualController) : Prop :=
  vp'.LX = vp.LX ∧ vp'.LY = vp.LY ∧ vp'.RX = vp.RX ∧ vp'.RY = vp.RY

theorem sameAxes_hold (b : Button) (fw : Device) : SameAxes fw.virtual_controller
    (executeCommand b.holdCommandPGCon.toNat fw).2.virtual_controller := by
  by_cases hh : b.isHat
  · rw [executeCommand_hat hh]; exact ⟨rfl, rfl, rfl, rfl⟩
  · rw [executeCommand_hold (by simpa [NonHat] using hh)]; exact ⟨rfl, rfl, rfl, rfl⟩

theorem sameAxes_release (b : Button) (fw : Device) : SameAxes fw.virtual_controller
    (executeCommand b.releaseCommandPGCon.toNat fw).2.virtual_controller := by
  by_cases hh : b.isHat
  · rw [executeCommand_center hh]; exact ⟨rfl, rfl, rfl, rfl⟩
  · rw [executeCommand_release (by simpa [NonHat] using hh)]; exact ⟨rfl, rfl, rfl, rfl⟩

/-- The device after one more call executes the call's bytes. -/
theorem pgCon_append (calls : List StandardCall) (c : StandardCall) :
    pgCon (calls ++ [c]) =
      (execute (PGConProtocol.bytes c.toCall)
        (PGConProtocol.device (drive calls ⟨⟨[]⟩⟩))).virtual_controller := by
  have hc : c.toCall ≠ .release none := by cases c <;> simp [StandardCall.toCall]
  unfold pgCon
  rw [drive_append, PGConProtocol.invoke_run _ hc]
  exact congrArg Device.virtual_controller (PGConProtocol.device_written _ _)

/-- The firmware's axes: each horizontal one from its own stick, `LY` from the
stick set last, `RY` from none. -/
theorem pgCon_axes (calls : List StandardCall) :
    (pgCon calls).LX = getXCommandEasyCon ((lastSet .LEFT calls).getD (start .LEFT)) ∧
      (pgCon calls).RX = getXCommandEasyCon ((lastSet .RIGHT calls).getD (start .RIGHT)) ∧
      (pgCon calls).LY = getYCommandEasyCon ((lastStick calls).getD (start .LEFT)) ∧
      (pgCon calls).RY = 128#8 := by
  induction calls using List.reverseRecOn with
  | nil => exact ⟨rfl, rfl, rfl, rfl⟩
  | append_singleton calls c ih =>
    obtain ⟨hlx, hrx, hly, hry⟩ := ih
    set fw := PGConProtocol.device (drive calls ⟨⟨[]⟩⟩) with hfw
    have hvc : pgCon calls = fw.virtual_controller := rfl
    rw [hvc] at hlx hrx hly hry
    rw [pgCon_append, ← hfw]
    simp only [lastSet_append, lastStick_append]
    cases c with
    | hold b =>
      obtain ⟨h1, h2, h3, h4⟩ := sameAxes_hold b fw
      exact ⟨h1.trans hlx, h3.trans hrx, h2.trans hly, h4.trans hry⟩
    | release b =>
      obtain ⟨h1, h2, h3, h4⟩ := sameAxes_release b fw
      exact ⟨h1.trans hlx, h3.trans hrx, h2.trans hly, h4.trans hry⟩
    | set s =>
      have he : (execute (PGConProtocol.bytes (StandardCall.set s).toCall) fw).virtual_controller =
          moveAxis (moveAxis fw.virtual_controller s.args.2.1) s.args.2.2 := by
        show (executeCommand s.args.2.2.commandPGCon.toNat
          (executeCommand s.args.2.1.commandPGCon.toNat fw).2).2.virtual_controller = _
        rw [executeCommand_axis, executeCommand_axis]
        rfl
      obtain ⟨h1, h2, h3, h4⟩ := moveAxis_stick s fw.virtual_controller
      rw [he, h1, h2, h3, h4]
      cases hs : getStick s with
      | LEFT => simpa [StandardCall.stick, hs, Option.filter] using ⟨hrx, hry⟩
      | RIGHT => simpa [StandardCall.stick, hs, Option.filter] using ⟨hlx, hry⟩

/-- The pad's sticks are those set last. -/
theorem pad_sticks (calls : List StandardCall) (i : Sticks) :
    (pad calls).sticks i = .standard ((lastSet i calls).getD (start i)) := by
  induction calls using List.reverseRecOn with
  | nil => cases i <;> rfl
  | append_singleton calls c ih =>
    unfold pad
    rw [drive_append, lastSet_append]
    cases c with
    | hold b =>
      have h : (left ((StandardCall.hold b).toCall.invoke (drive calls (Pad.neutral : Pad Empty)))) =
          (pad calls).hold b := rfl
      rw [h]
      unfold Pad.hold
      split <;> simpa [StandardCall.stick] using ih
    | release b =>
      have h : (left ((StandardCall.release b).toCall.invoke (drive calls (Pad.neutral : Pad Empty)))) =
          (pad calls).release b := rfl
      rw [h]
      unfold Pad.release
      split <;> simpa [StandardCall.stick] using ih
    | set s =>
      have h : (left ((StandardCall.set s).toCall.invoke (drive calls (Pad.neutral : Pad Empty)))).sticks =
          Function.update (pad calls).sticks (getStick s) (.standard s) := rfl
      rw [h]
      by_cases hs : getStick s = i
      · subst hs
        simp [StandardCall.stick, Option.filter]
      · rw [Function.update_of_ne (Ne.symm hs), ih]
        simp [StandardCall.stick, hs, Option.filter]

/-! ### When they agree -/

theorem word_toNat (r : Report) :
    (EasyConProtocolV147.word r).toNat = (r.get 0).toNat * 256 + (r.get 1).toNat := by
  have h1 := (r.get 1).isLt
  show (r.get 0 ++ r.get 1).toNat = _
  rw [BitVec.toNat_append, ← Nat.shiftLeft_add_eq_or_of_lt h1, Nat.shiftLeft_eq]

theorem button_agree (calls : List StandardCall) :
    (pgCon calls).Button.toNat = ((easyCon calls).get 0).toNat * 256 + ((easyCon calls).get 1).toNat := by
  rw [← word_toNat]
  exact congrArg BitVec.toNat ((pgCon_shows calls).buttons.unique (easyCon_shows calls).buttons)

theorem hat_agree (calls : List StandardCall) : (pgCon calls).HAT = (easyCon calls).get 2 :=
  (pgCon_shows calls).hat.trans (easyCon_shows calls).hat.symm

/-- The vertical axes agree exactly when the condition holds. -/
theorem vertical_agree_iff (calls : List StandardCall) :
    ((pgCon calls).LY = (easyCon calls).get 4 ∧ (pgCon calls).RY = (easyCon calls).get 6) ↔
      LeftLevel calls := by
  obtain ⟨-, -, hly, hry⟩ := pgCon_axes calls
  have h4 : (easyCon calls).get 4 = getYCommandEasyCon ((lastSet .LEFT calls).getD (start .LEFT)) := by
    refine (easyCon_shows calls).ly.trans ?_
    rw [pad_sticks]; rfl
  have h6 : (easyCon calls).get 6 = getYCommandEasyCon ((lastSet .RIGHT calls).getD (start .RIGHT)) := by
    refine (easyCon_shows calls).ry.trans ?_
    rw [pad_sticks]; rfl
  have hR : (pgCon calls).RY = (easyCon calls).get 6 ↔ ∀ s ∈ lastSet .RIGHT calls, level s = true := by
    rw [hry, h6, eq_comm]
    cases hr : lastSet .RIGHT calls with
    | none => simp [start]; rfl
    | some s => simpa using level_iff s
  unfold LeftLevel
  rw [and_comm, hR, hly, h4]
  refine and_congr_right fun hlev => ?_
  cases ht : lastStick calls with
  | none => simp [lastSet_of_lastStick_none ht]
  | some s =>
    have hlast := lastSet_of_lastStick ht
    cases hs : getStick s with
    | LEFT =>
      rw [hs] at hlast
      simp [hlast, hs]
    | RIGHT =>
      -- the last call moved the left stick's vertical axis, to the centre
      rw [hs] at hlast
      have h128 : getYCommandEasyCon s = 128#8 := (level_iff s).mpr (hlev s hlast)
      simp only [Option.getD_some, Option.mem_some_iff, forall_eq', hs, forall_true_left, h128]
      cases hl : lastSet .LEFT calls with
      | none => simp [start]; rfl
      | some l =>
        simp only [Option.getD_some, Option.mem_some_iff, forall_eq']
        rw [eq_comm]
        exact level_iff l

/-- After any calls, the firmware's controller and the EasyCon report agree on
every field if and only if the sticks were left level. -/
theorem agree_iff (calls : List StandardCall) :
    Agree (pgCon calls) (easyCon calls) ↔ LeftLevel calls := by
  obtain ⟨hlx, hrx, -, -⟩ := pgCon_axes calls
  have h3 : (pgCon calls).LX = (easyCon calls).get 3 := by
    refine Eq.trans ?_ (easyCon_shows calls).lx.symm
    rw [hlx, pad_sticks]; rfl
  have h5 : (pgCon calls).RX = (easyCon calls).get 5 := by
    refine Eq.trans ?_ (easyCon_shows calls).rx.symm
    rw [hrx, pad_sticks]; rfl
  rw [← vertical_agree_iff]
  constructor
  · intro h
    exact ⟨h.ly, h.ry⟩
  · rintro ⟨hly, hry⟩
    exact ⟨button_agree calls, hat_agree calls, h3, hly, h5, hry⟩

/-- One call is enough: the right stick pushed down moves the left stick on the
PGCon side. -/
theorem disagree_right_bottom : ¬ ∀ calls : List StandardCall, Agree (pgCon calls) (easyCon calls) :=
  fun h => absurd (h [.set .R_BOTTOM]).ly (by decide)

end Agreement
end PGCon
