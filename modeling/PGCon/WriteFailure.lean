/-
# Calls that fail on the serial line

A call on the controller assigns the expiry of its control, then calls the
protocol, then assigns the direction. The protocol writes to a serial port, and
a write can throw; the exception leaves the call at that point.

So a call that throws leaves exactly one assignment behind, that of the expiry
(`records_of_throws`): the new hold, or the zero of a release, is on record and
the device never heard of it. The records are as before exactly when that
assignment changes nothing (`records_kept_iff`).
-/
import PGCon.Machine
import PGCon.Bookkeeping

namespace PGCon
namespace WriteFailure

open Effect Machine ControllerService

/-! ### A port that breaks -/

/-- A port whose writes fail once it is broken. -/
structure Plug (C : Type) where
  broken : Bool
  sent : List C
  deriving DecidableEq, Repr

instance {C : Type} : SerialPort (Plug C) C where
  sendCommand c := fun plug =>
    if plug.broken then .error .ioException plug else .ok () { plug with sent := plug.sent ++ [c] }
  close := pure ()

/-! ### What is on record, and what a call asks for -/

/-- The four arrays of the controller. -/
structure Records (O : Type) where
  buttonExpired : Button → ℤ
  stickExpired : Sticks → ℤ
  hatDirections : Option Button
  stickDirections : Sticks → StickObject O

section Records

variable {P O : Type}

def records (s : ControllerService P O) : Records O :=
  ⟨s.buttonExpired, s.stickExpired, s.hatDirections, s.stickDirections⟩

variable [Stick O]

/-- The expiry on record for the control that a press, hold or release names. -/
def recorded (s : ControllerService P O) : Op O → Option ℤ
  | .pressButton b _ | .holdButtonFor b _ _ | .holdButton b | .releaseButton b =>
    some (s.buttonExpired (getExpireTimeIndex b))
  | .pressStick a _ | .holdStickFor a _ _ | .holdStick a | .releaseStick a =>
    some (s.stickExpired (getStick a))
  | .autoRelease _ _ => none

/-- The expiry a call asks for: none is zero. -/
def asked (s : ControllerService P O) (op : Op O) : ℤ := (op.expiry s.pressTime).getD 0

/-- The records with the expiry of the call's control assigned, and nothing else. -/
def assigned (s : ControllerService P O) : Op O → ℤ → Records O
  | .pressButton b _, e | .holdButtonFor b _ _, e | .holdButton b, e | .releaseButton b, e =>
    { records s with buttonExpired := Function.update s.buttonExpired (getExpireTimeIndex b) e }
  | .pressStick a _, e | .holdStickFor a _ _, e | .holdStick a, e | .releaseStick a, e =>
    { records s with stickExpired := Function.update s.stickExpired (getStick a) e }
  | .autoRelease _ _, _ => records s

theorem assigned_eq_iff (s : ControllerService P O) {op : Op O} {old : ℤ} (h : recorded s op = some old)
    (e : ℤ) : assigned s op e = records s ↔ old = e := by
  have hbutton : ∀ b, ({ records s with buttonExpired := Function.update s.buttonExpired b e } : Records O) =
      records s ↔ s.buttonExpired b = e := by
    intro b
    rw [eq_comm (b := e), ← Function.update_eq_self_iff (f := s.buttonExpired)]
    exact ⟨fun hr => congrArg Records.buttonExpired hr, fun hu => by rw [hu]; rfl⟩
  have hstick : ∀ i, ({ records s with stickExpired := Function.update s.stickExpired i e } : Records O) =
      records s ↔ s.stickExpired i = e := by
    intro i
    rw [eq_comm (b := e), ← Function.update_eq_self_iff (f := s.stickExpired)]
    exact ⟨fun hr => congrArg Records.stickExpired hr, fun hu => by rw [hu]; rfl⟩
  cases op with
  | autoRelease stickNow buttonNow => cases h
  | pressButton b now | holdButtonFor b duration now | holdButton b | releaseButton b =>
    obtain rfl := Option.some.inj h
    exact hbutton _
  | pressStick a now | holdStickFor a duration now | holdStick a | releaseStick a =>
    obtain rfl := Option.some.inj h
    exact hstick _

end Records

/-! ### What an exception leaves behind -/

section Throws

variable {P O : Type} {s s' : ControllerService P O} {e : JavaException}

/-- The protocol is called and then only assignments are made: a call that throws
has thrown in the protocol, and no record has changed. -/
theorem records_of_throws_protocol {m : Java P Unit} {f : Unit → Java (ControllerService P O) Unit}
    (h : (withProtocol m >>= f) s = .error e s') (hf : ∀ t, ∃ t', f () t = .ok () t') :
    records s' = records s := by
  have hw : records (left (withProtocol m s)) = records s := frame_withProtocol m (fun _ _ => rfl) s
  rw [bind_run] at h
  cases hr : withProtocol m s with
  | ok _ t =>
    rw [hr] at h
    obtain ⟨t', ht⟩ := hf t
    rw [show f () t = .error e s' from h] at ht
    cases ht
  | error e' t =>
    rw [hr] at h hw
    cases h
    exact hw

variable [Protocol P O]

theorem records_releaseButton {b : Button} (h : releaseButton b s = .error e s') :
    records s' = { records s with
      buttonExpired := Function.update s.buttonExpired (getExpireTimeIndex b) 0 } := by
  unfold releaseButton at h
  simp only [get_bind_run, ite_run, setButtonExpired, modify_bind_run] at h
  split at h
  · refine records_of_throws_protocol h fun t => ?_
    rw [ite_run]
    split <;> exact ⟨_, rfl⟩
  · cases h

theorem records_checkAndHoldButton {b : Button} {t : ℤ} (h : checkAndHoldButton b t s = .error e s') :
    records s' = { records s with
      buttonExpired := Function.update s.buttonExpired (getExpireTimeIndex b) t } := by
  unfold checkAndHoldButton at h
  simp only [get_bind_run, ite_run, setButtonExpired, modify_bind_run] at h
  split at h
  · refine records_of_throws_protocol h fun t => ?_
    rw [ite_run]
    split <;> exact ⟨_, rfl⟩
  · split at h
    · split at h
      · split at h <;> cases h
      · exact records_of_throws_protocol h fun t => ⟨_, rfl⟩
    · split at h <;> cases h

variable [Stick O]

theorem records_releaseStick {a : StickObject O} (h : releaseStick a s = .error e s') :
    records s' = { records s with stickExpired := Function.update s.stickExpired (getStick a) 0 } := by
  unfold releaseStick at h
  simp only [get_bind_run, ite_run, setStickExpired, modify_bind_run] at h
  split at h
  · exact records_of_throws_protocol h fun t => ⟨_, rfl⟩
  · cases h

theorem records_checkAndHoldStick [DecidableEq O] {a : StickObject O} {t : ℤ}
    (h : checkAndHoldStick a t s = .error e s') :
    records s' = { records s with stickExpired := Function.update s.stickExpired (getStick a) t } := by
  unfold checkAndHoldStick at h
  simp only [get_bind_run, ite_run, setStickExpired, modify_bind_run] at h
  split at h
  · exact records_of_throws_protocol h fun t => ⟨_, rfl⟩
  · split at h
    · split at h <;> cases h
    · exact records_of_throws_protocol h fun t => ⟨_, rfl⟩

variable [DecidableEq O]

/-- A press, hold or release that throws leaves the expiry it asked for, and every
other record as it was. -/
theorem records_of_throws {op : Op O} (hop : recorded s op ≠ none) (h : op.exec s = .error e s') :
    records s' = assigned s op (asked s op) := by
  cases op with
  | pressButton b now => exact records_checkAndHoldButton h
  | holdButtonFor b duration now => exact records_checkAndHoldButton h
  | holdButton b => exact records_checkAndHoldButton h
  | releaseButton b => exact records_releaseButton h
  | pressStick a now => exact records_checkAndHoldStick h
  | holdStickFor a duration now => exact records_checkAndHoldStick h
  | holdStick a => exact records_checkAndHoldStick h
  | releaseStick a => exact records_releaseStick h
  | autoRelease stickNow buttonNow => exact absurd rfl hop

/-- A press, hold or release that throws leaves the records as they were if and
only if the expiry it asked for was on record already. -/
theorem records_kept_iff {op : Op O} (hop : recorded s op ≠ none) (h : op.exec s = .error e s') :
    records s' = records s ↔ recorded s op = some (asked s op) := by
  obtain ⟨old, hold⟩ := Option.ne_none_iff_exists'.mp hop
  rw [records_of_throws hop h, assigned_eq_iff s hold, hold, Option.some.injEq]

end Throws

/-- `D_TOP` is held for good, and the port has broken since. -/
def unplugged : ControllerService (PGConProtocol (Plug (BitVec 32))) Empty where
  pressTime := 100
  buttonExpired := Function.update (fun _ => 0) .D_TOP maxLong
  hatDirections := some .D_TOP
  stickDirections := StickObject.center
  stickExpired _ := 0
  protocol := some ⟨⟨true, []⟩⟩

/-- Another direction held for good fails, and leaves no trace. -/
theorem records_kept_iff_hat : ∃ e s', Op.exec (.holdButton .D_LEFT) unplugged = .error e s' ∧
    (records s' = records unplugged ↔
      recorded unplugged (.holdButton .D_LEFT) = some (asked unplugged (.holdButton .D_LEFT))) ∧
    recorded unplugged (.holdButton .D_LEFT) = some maxLong := by
  have hthrows : ∃ e s', Op.exec (.holdButton .D_LEFT) unplugged = .error e s' := ⟨_, _, rfl⟩
  obtain ⟨e, s', h⟩ := hthrows
  exact ⟨e, s', h, records_kept_iff (by decide) h, by decide⟩

/-! ### Runs -/

/-- What can be called on the controller. -/
inductive Action (P O : Type)
  | call (op : Op O)
  | clear
  | setProtocol (p : Option P)

/-- One call, which returns or throws. -/
def step {P O : Type} [Protocol P O] [Stick O] [DecidableEq O] (s : ControllerService P O) :
    Action P O → Option (ControllerService P O)
  | .call op => some (left (op.exec s))
  | .clear => some (left (ControllerService.clear s))
  | .setProtocol p => some (left (ControllerService.setProtocol p s))

/-- A port that is broken from the start, and the first hold: `A` is on record as
held for good. -/
theorem hold_recorded : ¬ ∀ s : ControllerService (PGConProtocol (Plug (BitVec 32))) Empty,
    Reach step anyStep (init 100) s → ∀ (op : Op Empty) e s', recorded s op ≠ none →
      op.exec s = .error e s' → records s' = records s := by
  intro h
  have hr : Reach step anyStep (init 100 : ControllerService (PGConProtocol (Plug (BitVec 32))) Empty) _ :=
    reach_of_run [.setProtocol (some ⟨⟨true, []⟩⟩)] .start rfl
  have hkept := h _ hr (.holdButton .A) _ _ (by decide) rfl
  have hA : maxLong = 0 := congrFun (congrArg Records.buttonExpired hkept) .A
  exact absurd hA (by decide)

end WriteFailure
end PGCon
