/-
# Across connects and disconnects

A sequential run of everything that can be called on the controller: scripts'
and the daemon's calls, with or without a protocol attached, `clear`, and
`setProtocol` with a new protocol, whose device starts neutral, or with `null`.

`clear` resets the records only while a protocol is attached. A hold that comes
when none is leaves its expiry in the arrays, the next device never hears of it,
and the control is dead there: `stale_hold`. Where every protocol is attached to
records that are empty, the records mirror the device at all times
(`mirrors_device`).
-/
import PGCon.Machine
import PGCon.Bookkeeping

namespace PGCon
namespace Reconnect

open Effect Machine ControllerService

variable {O : Type}

/-- A call of a run. -/
inductive Action (O : Type)
  | call (op : Op O)
  | clear
  /-- `setProtocol` with a protocol whose device is neutral -/
  | attach
  /-- `setProtocol(null)` -/
  | detach

/-- The controller and, for each stick, whether a hold of it was sent to the
device attached and has not been released since. -/
structure Session (O : Type) where
  service : ControllerService (Pad O) O
  sent : Sticks → Bool

/-- Before the first call. -/
def start (pressTime : ℤ) : Session O := ⟨init pressTime, fun _ => false⟩

/-- The calls the device attached has received between the two states. -/
def received (s s' : ControllerService (Pad O) O) : List (Call O) :=
  match s.protocol, s'.protocol with
  | some p, some p' => p'.calls.drop p.calls.length
  | _, _ => []

variable [Stick O] [DecidableEq O]

/-- One call. A call that moves a stick of the device holds it or releases it, as
the call does. -/
def step (s : Session O) : Action O → Option (Session O)
  | .call op =>
    let service := left (op.exec s.service)
    some ⟨service, fun i =>
      if (received s.service service).any (Call.setsStick i) then op.holdsStick else s.sent i⟩
  | .clear => some ⟨left (ControllerService.clear s.service), fun _ => false⟩
  | .attach => some ⟨left (setProtocol (some Pad.neutral) s.service), fun _ => false⟩
  | .detach => some ⟨left (setProtocol none s.service), fun _ => false⟩

/-- The records say what the device does. -/
structure MirrorsDevice (s : Session O) (p : Pad O) : Prop where
  button : ∀ b, NonHat b → (s.service.buttonExpired b ≠ 0 ↔ p.held b = true)
  hat : s.service.buttonExpired .D_TOP ≠ 0 ↔ p.hat ≠ none
  stick : ∀ i, s.service.stickExpired i ≠ 0 ↔ s.sent i = true

/-- A protocol is attached only to empty records, and no call asks for the expiry
zero. -/
def Tidy (s : Session O) : Action O → Prop
  | .call op => op.expiry s.service.pressTime ≠ some 0
  | .attach => (∀ b, s.service.buttonExpired b = 0) ∧ ∀ i, s.service.stickExpired i = 0
  | .clear | .detach => True

instance : DecidableRel (Tidy (O := O)) := fun s a => by
  cases a <;> unfold Tidy <;> infer_instance

/-! ### The invariant -/

/-- The mirror, attached or not, and the sticks as they were sent. -/
structure Inv (time : ℤ) (s : Session O) : Prop where
  mirror : ∃ att, Mirror time att s.service
  sent : ∀ p ∈ s.service.protocol, ∀ i, s.service.stickExpired i ≠ 0 ↔ s.sent i = true

theorem inv_call {time : ℤ} {s : Session O} (h : Inv time s) (op : Op O)
    (he : op.expiry s.service.pressTime ≠ some 0) {s' : Session O} (hs : step s (.call op) = some s') :
    Inv time s' := by
  obtain ⟨⟨att, hm⟩, hsent⟩ := h
  obtain ⟨t, ht, hm', htr⟩ := mirror_exec op (hm.pressTime_eq ▸ he) s.service hm
  simp only [step, ht, left, Option.some.injEq] at hs
  subst hs
  refine ⟨⟨att, hm'⟩, fun p' hp' i => ?_⟩
  -- the device attached now was attached before
  have hsome : s.service.protocol.isSome = true := by
    rw [hm.attached_eq, ← hm'.attached_eq, hp']; rfl
  obtain ⟨p, hp⟩ := Option.isSome_iff_exists.mp hsome
  obtain ⟨q, hq, new, hnew, hst⟩ := htr p hp
  obtain rfl : p' = q := Option.some.inj (hp'.symm.trans hq)
  have hr : received s.service t = new := by
    unfold received
    rw [hp, show t.protocol = some p' from hp']
    simp only [hnew, List.drop_left]
  show t.stickExpired i ≠ 0 ↔ (if (received s.service t).any _ then _ else _) = true
  rw [hr, hst i]
  split
  · rfl
  · exact hsent p hp i

omit [Stick O] [DecidableEq O] in
theorem inv_detached {time : ℤ} {s : Session O} (h : Inv time s) : Inv time
    ⟨{ s.service with protocol := none }, fun _ => false⟩ := by
  obtain ⟨⟨att, hm⟩, -⟩ := h
  refine ⟨⟨false, ?_⟩, by simp⟩
  exact ⟨hm.pressTime_eq, rfl, hm.hat_null, hm.hat_isHat, hm.stick_center, by simp, by simp, by simp⟩

omit [DecidableEq O] in
theorem inv_clear {time : ℤ} {s : Session O} (h : Inv time s) :
    Inv time ⟨left (ControllerService.clear s.service), fun _ => false⟩ := by
  cases hp : s.service.protocol with
  | none =>
    have hd := inv_detached h
    rw [← hp] at hd
    rw [clear_detached hp]
    exact hd
  | some p =>
    obtain ⟨⟨att, hm⟩, -⟩ := h
    rw [clear_attached hp rfl, hm.pressTime_eq]
    exact ⟨⟨false, mirror_init time⟩, by simp [left, init]⟩

omit [Stick O] [DecidableEq O] in
/-- On empty records the hat is `null` and the sticks are centred, as on the new
device. -/
theorem inv_attach {time : ℤ} {s : Session O} (h : Inv time s)
    (hb : ∀ b, s.service.buttonExpired b = 0) (hst : ∀ i, s.service.stickExpired i = 0) :
    Inv time ⟨{ s.service with protocol := some Pad.neutral }, fun _ => false⟩ := by
  obtain ⟨⟨att, hm⟩, -⟩ := h
  have hnull := hm.hat_null.mpr (hb .D_TOP)
  have hcenter : s.service.stickDirections = StickObject.center := by
    funext i
    exact hm.stick_center i (hst i)
  refine ⟨⟨true, hm.pressTime_eq, rfl, hm.hat_null, hm.hat_isHat, hm.stick_center, ?_, ?_, ?_⟩, ?_⟩
  all_goals
    intro p hp
    obtain rfl : Pad.neutral = p := Option.some.inj hp
  · intro b _
    simp [Pad.neutral, hb b]
  · exact hnull.symm
  · exact hcenter.symm
  · intro i
    simp [hst i]

theorem inv_step {time : ℤ} (s : Session O) (a : Action O) (s' : Session O) (h : Inv time s)
    (ht : Tidy s a) (hs : step s a = some s') : Inv time s' := by
  cases a with
  | call op => exact inv_call h op ht hs
  | clear =>
    obtain rfl := Option.some.inj hs
    exact inv_clear h
  | attach =>
    obtain rfl := Option.some.inj hs
    exact inv_attach h ht.1 ht.2
  | detach =>
    obtain rfl := Option.some.inj hs
    exact inv_detached h

/-- Where every protocol is attached to empty records and no call asks for the
expiry zero, the records mirror the device attached in every state reached. -/
theorem mirrors_device {pressTime : ℤ} {s : Session O} (h : Reach step Tidy (start pressTime) s) :
    ∀ p ∈ s.service.protocol, MirrorsDevice s p := by
  have h0 : Inv pressTime (start pressTime : Session O) :=
    ⟨⟨false, mirror_init pressTime⟩, by simp [start, init]⟩
  obtain ⟨⟨att, hm⟩, hsent⟩ := h.invariant h0 inv_step
  intro p hp
  refine ⟨fun b hb => (hm.held p hp b hb).symm, ?_, hsent p hp⟩
  rw [hm.hat p hp, ne_eq, ne_eq, hm.hat_null]

/-- Two devices one after the other, both used, with a hold released between
them. -/
theorem mirrors_device_twice : ∃ (s : Session Empty) (p : Pad Empty), Reach step Tidy (start 100) s ∧
    s.service.protocol = some p ∧ s.service.buttonExpired .A ≠ 0 ∧ MirrorsDevice s p := by
  have hr : Reach step Tidy (start 100 : Session Empty) _ :=
    reach_of_run [.attach, .call (.holdButton .A), .call (.pressStick (.standard .L_TOP) 5), .clear,
      .call (.holdButton .B), .call (.releaseButton .B), .attach, .call (.holdButton .A)] .start rfl
  exact ⟨_, _, hr, rfl, by decide, mirrors_device hr _ rfl⟩

/-- A button held while no protocol is attached is on record for the next device,
which does not hold it. -/
theorem stale_hold : ¬ ∀ s : Session Empty, Reach step anyStep (start 100) s →
    ∀ p ∈ s.service.protocol, MirrorsDevice s p := by
  intro h
  have hr : Reach step anyStep (start 100 : Session Empty) _ :=
    reach_of_run [.call (.holdButton .A), .clear, .attach] .start rfl
  have hm := h _ hr _ rfl
  exact absurd ((hm.button .A rfl).mp (by decide)) (by decide)

end Reconnect
end PGCon
