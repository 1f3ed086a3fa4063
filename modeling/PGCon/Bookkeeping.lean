/-
# The bookkeeping mirrors the pad

With a `Pad` for a protocol, what the controller believes and what the device
does can be compared: `Mirror`. A button's expiry is non-zero exactly while the
pad holds it, the hat direction is the pad's hat and is `null` exactly while the
shared slot is zero, the stick objects are the pad's sticks and are the centres
while their expiry is zero.

Every method keeps it when the expiries asked for are not zero, and never hands
`null` to the protocol, so it returns (`mirror_exec`).
-/
import PGCon.Refinement
import PGCon.Controller

namespace PGCon

open Effect ControllerService

variable {O : Type}

/-- The controller's records and the pad attached say the same. What no call
changes stands in front: the configured time of a press, and whether a pad is
attached. -/
structure Mirror (time : ℤ) (att : Bool) (s : ControllerService (Pad O) O) : Prop where
  pressTime_eq : s.pressTime = time
  attached_eq : s.protocol.isSome = att
  hat_null : s.hatDirections = none ↔ s.buttonExpired .D_TOP = 0
  hat_isHat : ∀ b ∈ s.hatDirections, b.isHat = true
  stick_center : ∀ i, s.stickExpired i = 0 → s.stickDirections i = .center i
  held : ∀ p ∈ s.protocol, ∀ b, NonHat b → (p.held b = true ↔ s.buttonExpired b ≠ 0)
  hat : ∀ p ∈ s.protocol, p.hat = s.hatDirections
  sticks : ∀ p ∈ s.protocol, p.sticks = s.stickDirections

theorem mirror_init (pressTime : ℤ) : Mirror pressTime false (init pressTime : ControllerService (Pad O) O) :=
  ⟨rfl, rfl, by simp [init], by simp [init], fun _ _ => rfl, by simp [init], by simp [init], by simp [init]⟩

/-! ### Calls on a reliable protocol -/

section Calls

variable {P : Type}

theorem withProtocol_of_ok {m : Java P Unit} {f : P → P} (h : ∀ p, m p = .ok () (f p))
    (s : ControllerService P O) :
    withProtocol m s = .ok () { s with protocol := s.protocol.map f } := by
  unfold withProtocol
  cases s with
  | mk _ _ _ _ _ protocol =>
    cases protocol with
    | none => rfl
    | some p =>
      simp only [h p]
      rfl

variable [Protocol P O] [Reliable P O]

theorem withProtocol_hold (b : Button) (s : ControllerService P O) : withProtocol (Protocol.hold O b) s =
    .ok () { s with protocol := s.protocol.map (Reliable.hold O b) } :=
  withProtocol_of_ok (Reliable.hold_eq b) s

theorem withProtocol_release (b : Button) (s : ControllerService P O) :
    withProtocol (Protocol.release O (some b)) s =
      .ok () { s with protocol := s.protocol.map (Reliable.release O b) } :=
  withProtocol_of_ok (Reliable.release_eq b) s

theorem withProtocol_change (d b : Button) (s : ControllerService P O) :
    withProtocol (do Protocol.release O (some d); Protocol.hold O b) s = .ok () { s with
      protocol := s.protocol.map fun p => Reliable.hold O b (Reliable.release O d p) } := by
  refine withProtocol_of_ok (fun p => ?_) s
  rw [bind_of_ok (Reliable.release_eq d p)]
  exact Reliable.hold_eq b _

theorem withProtocol_set (a : StickObject O) (s : ControllerService P O) :
    withProtocol (Protocol.set a) s = .ok () { s with protocol := s.protocol.map (Reliable.set a) } :=
  withProtocol_of_ok (Reliable.set_eq a) s

end Calls

theorem Pad.hold_hat {b : Button} (hb : b.isHat = true) (p : Pad O) :
    (p.hold b).held = p.held ∧ (p.hold b).hat = some b ∧ (p.hold b).sticks = p.sticks := by
  simp [Pad.hold, hb]

theorem Pad.hold_nonHat {b : Button} (hb : NonHat b) (p : Pad O) :
    (p.hold b).held = Function.update p.held b true ∧ (p.hold b).hat = p.hat ∧
      (p.hold b).sticks = p.sticks := by
  have hb' : b.isHat = false := hb
  simp [Pad.hold, hb']

theorem Pad.release_hat {b : Button} (hb : b.isHat = true) (p : Pad O) :
    (p.release b).held = p.held ∧ (p.release b).hat = none ∧ (p.release b).sticks = p.sticks := by
  simp [Pad.release, hb]

theorem Pad.release_nonHat {b : Button} (hb : NonHat b) (p : Pad O) :
    (p.release b).held = Function.update p.held b false ∧ (p.release b).hat = p.hat ∧
      (p.release b).sticks = p.sticks := by
  have hb' : b.isHat = false := hb
  simp [Pad.release, hb']

theorem Pad.hold_calls (b : Button) (p : Pad O) : (p.hold b).calls = p.calls ++ [.hold b] := by
  unfold Pad.hold
  split <;> rfl

theorem Pad.release_calls (b : Button) (p : Pad O) :
    (p.release b).calls = p.calls ++ [.release (some b)] := by
  unfold Pad.release
  split <;> rfl

theorem nonHat_ne_top {b : Button} (hb : NonHat b) : b ≠ .D_TOP := by
  rintro rfl
  cases hb

theorem index_hat {b : Button} (hb : b.isHat = true) : getExpireTimeIndex b = .D_TOP := by
  unfold getExpireTimeIndex
  rw [if_pos hb]

theorem index_nonHat {b : Button} (hb : NonHat b) : getExpireTimeIndex b = b := by
  unfold getExpireTimeIndex
  rw [if_neg (by rw [hb]; decide)]

/-! ### What the methods do

One equation per branch: the state each method leaves. -/

section Run

variable {P : Type} [Protocol P O] [Reliable P O]

/-- The expiry of a hold that is already there. -/
def merged (old new : ℤ) : ℤ := if old < new then new else old

omit [Reliable P O] in
theorem releaseButton_idle (b : Button) (s : ControllerService P O)
    (h : s.buttonExpired (getExpireTimeIndex b) = 0) : releaseButton b s = .ok () s := by
  simp [releaseButton, h]

theorem releaseButton_held (b : Button) (s : ControllerService P O)
    (h : s.buttonExpired (getExpireTimeIndex b) ≠ 0) :
    releaseButton b s = .ok () { s with
      buttonExpired := Function.update s.buttonExpired (getExpireTimeIndex b) 0
      protocol := s.protocol.map (Reliable.release O b)
      hatDirections := if b.isHat then none else s.hatDirections } := by
  unfold releaseButton
  simp only [get_bind_run, ite_run, if_pos h, setButtonExpired, modify_bind_run]
  rw [bind_of_ok (withProtocol_release b _)]
  by_cases hh : b.isHat <;> simp [hh, setHatDirection]

theorem checkAndHoldButton_first (b : Button) (e : ℤ) (s : ControllerService P O)
    (h : s.buttonExpired (getExpireTimeIndex b) = 0) :
    checkAndHoldButton b e s = .ok () { s with
      buttonExpired := Function.update s.buttonExpired (getExpireTimeIndex b) e
      protocol := s.protocol.map (Reliable.hold O b)
      hatDirections := if b.isHat then some b else s.hatDirections } := by
  unfold checkAndHoldButton
  simp only [get_bind_run, ite_run, if_pos h, setButtonExpired, modify_bind_run]
  rw [bind_of_ok (withProtocol_hold b _)]
  by_cases hh : b.isHat <;> simp [hh, setHatDirection]

omit [Reliable P O] in
/-- A button that is held, or the hat direction in force, only moves its expiry. -/
theorem checkAndHoldButton_again (b : Button) (e : ℤ) (s : ControllerService P O)
    (h : s.buttonExpired (getExpireTimeIndex b) ≠ 0)
    (hd : b.isHat = true → s.hatDirections = some b) :
    checkAndHoldButton b e s = .ok () { s with
      buttonExpired := Function.update s.buttonExpired (getExpireTimeIndex b)
        (merged (s.buttonExpired (getExpireTimeIndex b)) e) } := by
  unfold checkAndHoldButton merged
  by_cases hh : b.isHat
  · by_cases hlt : s.buttonExpired (getExpireTimeIndex b) < e
    · simp [h, hh, hd hh, hlt, setButtonExpired]
    · simp [h, hh, hd hh, hlt]
      rw [← hd hh]
  · by_cases hlt : s.buttonExpired (getExpireTimeIndex b) < e
    · simp [h, hh, hlt, setButtonExpired]
    · simp [h, hh, hlt]

/-- Another hat direction: the one in force is released. -/
theorem checkAndHoldButton_change {b d : Button} (e : ℤ) (s : ControllerService P O)
    (h : s.buttonExpired (getExpireTimeIndex b) ≠ 0) (hb : b.isHat = true)
    (hd : s.hatDirections = some d) (hne : d ≠ b) :
    checkAndHoldButton b e s = .ok () { s with
      buttonExpired := Function.update s.buttonExpired (getExpireTimeIndex b) e
      protocol := s.protocol.map fun p => Reliable.hold O b (Reliable.release O d p)
      hatDirections := some b } := by
  have hne' : ¬ some d = some b := fun he => hne (Option.some.inj he)
  unfold checkAndHoldButton
  simp only [get_bind_run, ite_run, if_neg h, hb, hd, hne', if_true, if_false, setButtonExpired,
    modify_bind_run]
  rw [bind_of_ok (withProtocol_change d b _)]
  simp [setHatDirection]

variable [Stick O]

omit [Reliable P O] in
theorem releaseStick_idle (a : StickObject O) (s : ControllerService P O)
    (h : s.stickExpired (getStick a) = 0) : releaseStick a s = .ok () s := by
  simp [releaseStick, h]

theorem releaseAction_eq (a : StickObject O) : getReleaseAction a = .center (getStick a) := by
  unfold getReleaseAction
  cases h : getStick a
  · rfl
  · rfl

theorem releaseStick_held (a : StickObject O) (s : ControllerService P O)
    (h : s.stickExpired (getStick a) ≠ 0) :
    releaseStick a s = .ok () { s with
      stickExpired := Function.update s.stickExpired (getStick a) 0
      protocol := s.protocol.map (Reliable.set (StickObject.center (O := O) (getStick a)))
      stickDirections := Function.update s.stickDirections (getStick a) (.center (getStick a)) } := by
  unfold releaseStick
  simp only [get_bind_run, ite_run, if_pos h, setStickExpired, modify_bind_run, releaseAction_eq]
  rw [bind_of_ok (withProtocol_set _ _)]
  simp [setStickDirection]

variable [DecidableEq O]

/-- A stick that is not held, or held in another direction, takes the new one. -/
theorem checkAndHoldStick_new (a : StickObject O) (e : ℤ) (s : ControllerService P O)
    (h : s.stickExpired (getStick a) = 0 ∨ s.stickDirections (getStick a) ≠ a) :
    checkAndHoldStick a e s = .ok () { s with
      stickExpired := Function.update s.stickExpired (getStick a) e
      protocol := s.protocol.map (Reliable.set a)
      stickDirections := Function.update s.stickDirections (getStick a) a } := by
  unfold checkAndHoldStick
  by_cases h0 : s.stickExpired (getStick a) = 0
  · simp only [get_bind_run, ite_run, if_pos h0, setStickExpired, modify_bind_run]
    rw [bind_of_ok (withProtocol_set _ _)]
    simp [setStickDirection]
  · have hd : ¬ s.stickDirections (getStick a) = a := h.resolve_left h0
    simp only [get_bind_run, ite_run, if_neg h0, if_neg hd, setStickExpired, modify_bind_run]
    rw [bind_of_ok (withProtocol_set _ _)]
    simp [setStickDirection]

omit [Reliable P O] in
/-- The stick object in force only moves its expiry. -/
theorem checkAndHoldStick_again (a : StickObject O) (e : ℤ) (s : ControllerService P O)
    (h : s.stickExpired (getStick a) ≠ 0) (hd : s.stickDirections (getStick a) = a) :
    checkAndHoldStick a e s = .ok () { s with
      stickExpired := Function.update s.stickExpired (getStick a)
        (merged (s.stickExpired (getStick a)) e)
      stickDirections := Function.update s.stickDirections (getStick a) a } := by
  unfold checkAndHoldStick merged
  by_cases hlt : s.stickExpired (getStick a) < e
  · simp [h, hd, hlt, setStickExpired, setStickDirection]
  · simp [h, hd, hlt, setStickDirection]

end Run

/-! ### Every method keeps the mirror -/

section Mirror

variable {time : ℤ} {att : Bool}

theorem merged_ne_zero {old new : ℤ} (h : old ≠ 0) (h' : new ≠ 0) : merged old new ≠ 0 := by
  unfold merged
  split <;> assumption

/-- An expiry that moves from one non-zero time to another. -/
theorem Mirror.move {s : ControllerService (Pad O) O} (h : Mirror time att s) {i : Button} {e : ℤ}
    (hi : s.buttonExpired i ≠ 0) (he : e ≠ 0) :
    Mirror time att { s with buttonExpired := Function.update s.buttonExpired i e } := by
  have hz : ∀ b, Function.update s.buttonExpired i e b = 0 ↔ s.buttonExpired b = 0 := by
    intro b
    by_cases hb : b = i
    · subst hb; simp [hi, he]
    · rw [Function.update_of_ne hb]
  refine ⟨h.pressTime_eq, h.attached_eq, ?_, h.hat_isHat, h.stick_center, fun p hp b hb => ?_, h.hat, h.sticks⟩
  · rw [hz]; exact h.hat_null
  · rw [ne_eq, hz]; exact h.held p hp b hb

/-- The hat slot and the hat direction change together, and the pad with them. -/
theorem Mirror.hatTo {s : ControllerService (Pad O) O} (h : Mirror time att s) {e : ℤ} {d : Option Button}
    {f : Pad O → Pad O} (hd : d = none ↔ e = 0) (hh : ∀ b ∈ d, b.isHat = true)
    (hf : ∀ p, (f p).held = p.held ∧ (f p).hat = d ∧ (f p).sticks = p.sticks) :
    Mirror time att { s with
      buttonExpired := Function.update s.buttonExpired .D_TOP e
      protocol := s.protocol.map f
      hatDirections := d } := by
  refine ⟨h.pressTime_eq, by simpa using h.attached_eq, by simpa using hd, hh, h.stick_center, ?_, ?_, ?_⟩
  · intro p hp b hb
    obtain ⟨q, hq, rfl⟩ := Option.mem_map.mp hp
    rw [(hf q).1]
    simp only [Function.update_of_ne (nonHat_ne_top hb)]
    exact h.held q hq b hb
  · intro p hp
    obtain ⟨q, -, rfl⟩ := Option.mem_map.mp hp
    exact (hf q).2.1
  · intro p hp
    obtain ⟨q, hq, rfl⟩ := Option.mem_map.mp hp
    rw [(hf q).2.2]
    exact h.sticks q hq

/-- The slot of another button changes, and the pad with it. -/
theorem Mirror.buttonTo {s : ControllerService (Pad O) O} (h : Mirror time att s) {b : Button} (hb : NonHat b)
    {e : ℤ} {v : Bool} {f : Pad O → Pad O} (hv : v = true ↔ e ≠ 0)
    (hf : ∀ p, (f p).held = Function.update p.held b v ∧ (f p).hat = p.hat ∧ (f p).sticks = p.sticks) :
    Mirror time att { s with
      buttonExpired := Function.update s.buttonExpired b e
      protocol := s.protocol.map f } := by
  refine ⟨h.pressTime_eq, by simpa using h.attached_eq, ?_, h.hat_isHat, h.stick_center, ?_, ?_, ?_⟩
  · simp only [Function.update_of_ne (nonHat_ne_top hb).symm]
    exact h.hat_null
  · intro p hp c hc
    obtain ⟨q, hq, rfl⟩ := Option.mem_map.mp hp
    rw [(hf q).1]
    by_cases hcb : c = b
    · subst hcb; simpa using hv
    · simp only [Function.update_of_ne hcb]
      exact h.held q hq c hc
  · intro p hp
    obtain ⟨q, hq, rfl⟩ := Option.mem_map.mp hp
    rw [(hf q).2.1]
    exact h.hat q hq
  · intro p hp
    obtain ⟨q, hq, rfl⟩ := Option.mem_map.mp hp
    rw [(hf q).2.2]
    exact h.sticks q hq

variable [Stick O]

/-- A stick's slot, object and axes change together. -/
theorem Mirror.stickTo {s : ControllerService (Pad O) O} (h : Mirror time att s) {a : StickObject O} {e : ℤ}
    (he : e = 0 → a = .center (getStick a)) :
    Mirror time att { s with
      stickExpired := Function.update s.stickExpired (getStick a) e
      protocol := s.protocol.map (Pad.set a)
      stickDirections := Function.update s.stickDirections (getStick a) a } := by
  refine ⟨h.pressTime_eq, by simpa using h.attached_eq, h.hat_null, h.hat_isHat, fun i hi => ?_, ?_, ?_, ?_⟩
  · by_cases hia : i = getStick a
    · subst hia
      simp only [Function.update_self] at hi ⊢
      exact he hi
    · simp only [Function.update_of_ne hia] at hi ⊢
      exact h.stick_center i hi
  · intro p hp b hb
    obtain ⟨q, hq, rfl⟩ := Option.mem_map.mp hp
    exact h.held q hq b hb
  · intro p hp
    obtain ⟨q, hq, rfl⟩ := Option.mem_map.mp hp
    exact h.hat q hq
  · intro p hp
    obtain ⟨q, hq, rfl⟩ := Option.mem_map.mp hp
    show Function.update q.sticks _ _ = _
    rw [h.sticks q hq]

/-! ### What is sent about the sticks

A call reports its stick to the device exactly when it changes whether the stick
is held: holding calls report a held stick, releasing calls a released one. -/

/-- The call moves stick `i`. -/
def Call.setsStick (i : Sticks) : Call O → Bool
  | .set a => getStick a = i
  | _ => false

/-- What a call that holds (or releases) sent to the pad attached: where it moved a
stick, the stick is held (released) on record, elsewhere the record stays. -/
def Tracks (hold : Bool) (s s' : ControllerService (Pad O) O) : Prop :=
  ∀ p ∈ s.protocol, ∃ p' ∈ s'.protocol, ∃ new, p'.calls = p.calls ++ new ∧
    ∀ i, (s'.stickExpired i ≠ 0) =
      if new.any (Call.setsStick i) then hold = true else s.stickExpired i ≠ 0

theorem Tracks.refl (hold : Bool) (s : ControllerService (Pad O) O) : Tracks hold s s :=
  fun p hp => ⟨p, hp, [], by simp, fun i => by simp⟩

/-- Releases one after the other. -/
theorem Tracks.trans (s s' s'' : ControllerService (Pad O) O) (h : Tracks false s s')
    (h' : Tracks false s' s'') : Tracks false s s'' := by
  intro p hp
  obtain ⟨p', hp', new, hnew, hst⟩ := h p hp
  obtain ⟨p'', hp'', new', hnew', hst'⟩ := h' p' hp'
  refine ⟨p'', hp'', new ++ new', by rw [hnew', hnew, List.append_assoc], fun i => ?_⟩
  rw [hst' i, hst i, List.any_append]
  cases new.any (Call.setsStick i) <;> cases new'.any (Call.setsStick i) <;> simp

/-- Calls about buttons leave the sticks alone. -/
theorem Tracks.of_buttons {hold : Bool} {s s' : ControllerService (Pad O) O} {f : Pad O → Pad O}
    {l : List (Call O)} (hp : s'.protocol = s.protocol.map f) (hs : s'.stickExpired = s.stickExpired)
    (hf : ∀ p, (f p).calls = p.calls ++ l) (hn : ∀ i, l.any (Call.setsStick i) = false) :
    Tracks hold s s' := by
  intro p h
  refine ⟨f p, by rw [hp]; exact Option.mem_map_of_mem f h, l, hf p, fun i => ?_⟩
  rw [hs, hn i]
  simp

/-- One stick is moved, and its slot with it. -/
theorem Tracks.of_stick {hold : Bool} {s s' : ControllerService (Pad O) O} {a : StickObject O} {e : ℤ}
    (hp : s'.protocol = s.protocol.map (Pad.set a))
    (hs : s'.stickExpired = Function.update s.stickExpired (getStick a) e) (he : e ≠ 0 ↔ hold = true) :
    Tracks hold s s' := by
  intro p h
  refine ⟨p.set a, by rw [hp]; exact Option.mem_map_of_mem _ h, [.set a], rfl, fun i => ?_⟩
  rw [hs]
  by_cases hi : i = getStick a
  · subst hi; simpa [Call.setsStick] using he
  · have hi' : ¬ getStick a = i := fun h => hi h.symm
    simp [Call.setsStick, hi', Function.update_of_ne hi]

/-! ### The methods, one by one -/

theorem keeps_releaseButton (b : Button) (hold : Bool) :
    Keeps (Mirror (O := O) time att) (Tracks hold) (releaseButton b) := by
  intro s h
  by_cases h0 : s.buttonExpired (getExpireTimeIndex b) = 0
  · exact ⟨s, releaseButton_idle b s h0, h, Tracks.refl _ s⟩
  · refine ⟨_, releaseButton_held b s h0, ?_, .of_buttons rfl rfl (Pad.release_calls b) fun _ => rfl⟩
    by_cases hh : b.isHat
    · simp only [index_hat hh, hh, if_true]
      exact h.hatTo (by simp) (by simp) fun p => Pad.release_hat hh p
    · have hn : NonHat b := by simpa [NonHat] using hh
      simp only [index_nonHat hn, hh, if_false, Bool.false_eq_true]
      exact h.buttonTo hn (by simp) fun p => Pad.release_nonHat hn p

theorem keeps_checkAndHoldButton (b : Button) {e : ℤ} (he : e ≠ 0) (hold : Bool) :
    Keeps (Mirror (O := O) time att) (Tracks hold) (checkAndHoldButton b e) := by
  intro s h
  by_cases h0 : s.buttonExpired (getExpireTimeIndex b) = 0
  · refine ⟨_, checkAndHoldButton_first b e s h0, ?_, .of_buttons rfl rfl (Pad.hold_calls b) fun _ => rfl⟩
    by_cases hh : b.isHat
    · simp only [index_hat hh, hh, if_true]
      exact h.hatTo (by simp [he]) (by simpa using hh) fun p => Pad.hold_hat hh p
    · have hn : NonHat b := by simpa [NonHat] using hh
      simp only [index_nonHat hn, hh, if_false, Bool.false_eq_true]
      exact h.buttonTo hn (by simp [he]) fun p => Pad.hold_nonHat hn p
  · by_cases hd : b.isHat = true → s.hatDirections = some b
    · refine ⟨_, checkAndHoldButton_again b e s h0 hd, h.move h0 (merged_ne_zero h0 he), ?_⟩
      exact .of_buttons (f := id) (l := []) (by simp) rfl (by simp) fun _ => rfl
    · push Not at hd
      obtain ⟨hb, hdir⟩ := hd
      -- the slot is taken, so a direction is in force
      rw [index_hat hb] at h0
      cases hs : s.hatDirections with
      | none => exact absurd (h.hat_null.mp hs) h0
      | some d =>
        have hne : d ≠ b := fun hdb => hdir (by rw [hs, hdb])
        refine ⟨_, checkAndHoldButton_change e s (by rwa [index_hat hb]) hb hs hne, ?_, ?_⟩
        · simp only [index_hat hb]
          refine h.hatTo (by simp [he]) (by simpa using hb) fun p => ?_
          have hdh := h.hat_isHat d hs
          obtain ⟨h1, -, h3⟩ := Pad.release_hat hdh p
          obtain ⟨g1, g2, g3⟩ := Pad.hold_hat hb (p.release d)
          exact ⟨g1.trans h1, g2, g3.trans h3⟩
        · refine .of_buttons (l := [.release (some d), .hold b]) rfl rfl (fun p => ?_) fun _ => rfl
          show ((p.release d).hold b).calls = _
          rw [Pad.hold_calls, Pad.release_calls, List.append_assoc]
          rfl

theorem keeps_releaseStick (a : StickObject O) :
    Keeps (Mirror (O := O) time att) (Tracks false) (releaseStick a) := by
  intro s h
  by_cases h0 : s.stickExpired (getStick a) = 0
  · exact ⟨s, releaseStick_idle a s h0, h, Tracks.refl _ s⟩
  · have hc := StickObject.getStick_center (O := O) (getStick a)
    refine ⟨_, releaseStick_held a s h0, ?_, ?_⟩
    · have := h.stickTo (a := StickObject.center (getStick a)) (e := 0) fun _ => by rw [hc]
      rwa [hc] at this
    · exact .of_stick (e := 0) rfl (by rw [hc]) (by simp)

theorem keeps_checkAndHoldStick [DecidableEq O] (a : StickObject O) {e : ℤ} (he : e ≠ 0) :
    Keeps (Mirror (O := O) time att) (Tracks true) (checkAndHoldStick a e) := by
  intro s h
  by_cases h0 : s.stickExpired (getStick a) = 0 ∨ s.stickDirections (getStick a) ≠ a
  · exact ⟨_, checkAndHoldStick_new a e s h0, h.stickTo fun h0 => absurd h0 he,
      .of_stick rfl rfl (by simp [he])⟩
  · push Not at h0
    obtain ⟨h0, hd⟩ := h0
    have hu : Function.update s.stickDirections (getStick a) a = s.stickDirections := by
      rw [Function.update_eq_self_iff, hd]
    have hz : ∀ i, Function.update s.stickExpired (getStick a) (merged (s.stickExpired (getStick a)) e) i
        = 0 ↔ s.stickExpired i = 0 := by
      intro i
      by_cases hia : i = getStick a
      · subst hia; simp [h0, merged_ne_zero h0 he]
      · rw [Function.update_of_ne hia]
    refine ⟨_, checkAndHoldStick_again a e s h0 hd, ?_, ?_⟩
    · rw [hu]
      exact ⟨h.pressTime_eq, h.attached_eq, h.hat_null, h.hat_isHat,
        fun i hi => h.stick_center i ((hz i).mp hi), h.held, h.hat, h.sticks⟩
    · intro p hp
      refine ⟨p, hp, [], by simp, fun i => ?_⟩
      simp only [ne_eq, hz]
      simp

theorem keeps_autoRelease [DecidableEq O] (stickNow : Sticks → ℤ) (buttonNow : Button → ℤ) :
    Keeps (Mirror (O := O) time att) (Tracks false) (autoRelease stickNow buttonNow) := by
  have hsticks : ∀ i, Keeps (Mirror (O := O) time att) (Tracks false)
      (autoReleaseStick (stickNow i) i) := by
    intro i s h
    unfold autoReleaseStick
    simp only [get_bind_run, ite_run]
    split
    · exact keeps_releaseStick _ s h
    · exact ⟨s, rfl, h, Tracks.refl _ s⟩
  have hbuttons : ∀ b, Keeps (Mirror (O := O) time att) (Tracks false)
      (autoReleaseButton (buttonNow b) b) := by
    intro b s h
    unfold autoReleaseButton
    simp only [get_bind_run, ite_run]
    split
    · exact keeps_releaseButton b _ s h
    · exact ⟨s, rfl, h, Tracks.refl _ s⟩
  refine Keeps.bind Tracks.trans ?_ ?_
  · exact Keeps.forM Tracks.trans (Tracks.refl _) _ fun i _ => hsticks i
  · exact Keeps.forM Tracks.trans (Tracks.refl _) _ fun b _ => hbuttons b

/-- The call holds a stick. -/
def Op.holdsStick : Op O → Bool
  | .pressStick _ _ | .holdStickFor _ _ _ | .holdStick _ => true
  | _ => false

/-- The method returns and keeps the mirror, unless it asks for the expiry zero. -/
theorem mirror_exec [DecidableEq O] (op : Op O) (he : op.expiry time ≠ some 0) :
    Keeps (Mirror (O := O) time att) (Tracks op.holdsStick) op.exec := by
  intro s h
  cases op with
  | pressButton b now =>
    refine keeps_checkAndHoldButton b (fun h0 => he ?_) _ s h
    rw [Op.expiry, ← h.pressTime_eq, h0]
  | holdButtonFor b duration now =>
    exact keeps_checkAndHoldButton b (fun h0 => he (congrArg some h0)) _ s h
  | holdButton b => exact keeps_checkAndHoldButton b (by decide) _ s h
  | releaseButton b => exact keeps_releaseButton b _ s h
  | pressStick a now =>
    refine keeps_checkAndHoldStick a (fun h0 => he ?_) s h
    rw [Op.expiry, ← h.pressTime_eq, h0]
  | holdStickFor a duration now => exact keeps_checkAndHoldStick a (fun h0 => he (congrArg some h0)) s h
  | holdStick a => exact keeps_checkAndHoldStick a (by decide) s h
  | releaseStick a => exact keeps_releaseStick a s h
  | autoRelease stickNow buttonNow => exact keeps_autoRelease stickNow buttonNow s h

end Mirror

end PGCon
