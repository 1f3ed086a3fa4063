/-
# Disconnecting while scripts run

`clear` is the one method that changes the controller's records outside the
monitor, assignment by assignment, while the synchronized methods run between
them. What is said here is about the hat: its slot in `buttonExpired` and its
direction in `hatDirections[0]`.

`hatOf` is the pair of the two, and what a call does to it is a function of the
pair alone (`exec_hat`). A hold of a hat direction that comes after `clear` has
zeroed the slot, and before it has put `null` in the direction, leaves a slot
without a direction behind (`hat_lost`): the next hold of another direction
passes `null` to the protocol. Where no such hold comes, the two agree whenever
no `clear` is in progress, and no call passes `null` (`hat_consistent`).
-/
import PGCon.Machine
import PGCon.Bookkeeping

namespace PGCon
namespace Disconnect

open Effect Machine ControllerService

/-! ### The hat, call by call -/

/-- The shared slot of the hat directions, and the direction. -/
abbrev Hat := ℤ × Option Button

/-- A hold of direction `b` until `e`. -/
def holdHat (b : Button) (e : ℤ) (h : Hat) : Hat :=
  if h.1 = 0 then (e, some b) else if h.2 = some b then (merged h.1 e, h.2) else (e, some b)

/-- A release of any direction. -/
def releaseHat (h : Hat) : Hat := if h.1 = 0 then h else (0, none)

section Hat

variable {P O : Type}

def hatOf (s : ControllerService P O) : Hat := (s.buttonExpired .D_TOP, s.hatDirections)

/-- The hold of a hat direction a call makes: the direction and its expiry. -/
def holdsHat (pressTime : ℤ) : Op O → Option (Button × ℤ)
  | .pressButton b now => if b.isHat then some (b, addLong now pressTime) else none
  | .holdButtonFor b duration now => if b.isHat then some (b, addLong now duration) else none
  | .holdButton b => if b.isHat then some (b, maxLong) else none
  | _ => none

/-- The call releases a hat direction. -/
def releasesHat : Op O → Bool
  | .releaseButton b => b.isHat
  | _ => false

/-- What a call does to the hat. -/
def onHat (pressTime : ℤ) (op : Op O) (h : Hat) : Hat :=
  match holdsHat pressTime op with
  | some (b, e) => holdHat b e h
  | none => if releasesHat op then releaseHat h else h

theorem onHat_of_hold {time e : ℤ} {b : Button} {op : Op O}
    (hop : holdsHat time op = if b.isHat then some (b, e) else none) (hr : releasesHat op = false) (h : Hat) :
    onHat time op h = if b.isHat then holdHat b e h else h := by
  unfold onHat
  rw [hop, hr]
  split
  · rename_i heq
    split at heq <;> simp_all
  · rename_i heq
    split at heq <;> simp_all

/-- A call of a synchronized method. -/
def synchronized : Op O → Bool
  | .autoRelease _ _ => false
  | _ => true

variable [Protocol P O] [Reliable P O]

/-- Another button leaves the slot of the hat alone. -/
theorem expired_top {b : Button} (h : ¬ b.isHat = true) (f : Button → ℤ) (e : ℤ) :
    Function.update f (getExpireTimeIndex b) e .D_TOP = f .D_TOP := by
  have hn : NonHat b := by simpa [NonHat] using h
  rw [index_nonHat hn, Function.update_of_ne (nonHat_ne_top hn).symm]

theorem releaseButton_hat (b : Button) (s : ControllerService P O) :
    ∃ s', releaseButton b s = .ok () s' ∧
      hatOf s' = if b.isHat then releaseHat (hatOf s) else hatOf s := by
  by_cases h0 : s.buttonExpired (getExpireTimeIndex b) = 0
  · refine ⟨s, releaseButton_idle b s h0, ?_⟩
    split
    · rename_i hb
      rw [index_hat hb] at h0
      simp [releaseHat, hatOf, h0]
    · rfl
  · refine ⟨_, releaseButton_held b s h0, ?_⟩
    by_cases hb : b.isHat
    · rw [index_hat hb] at h0
      simp [releaseHat, hatOf, hb, h0, index_hat hb]
    · simp [hatOf, hb, expired_top hb]

/-- A slot that is taken has a direction, so the direction released is not `null`. -/
theorem checkAndHoldButton_hat (b : Button) (e : ℤ) {s : ControllerService P O}
    (hs : s.buttonExpired .D_TOP ≠ 0 → s.hatDirections ≠ none) :
    ∃ s', checkAndHoldButton b e s = .ok () s' ∧
      hatOf s' = if b.isHat then holdHat b e (hatOf s) else hatOf s := by
  by_cases h0 : s.buttonExpired (getExpireTimeIndex b) = 0
  · refine ⟨_, checkAndHoldButton_first b e s h0, ?_⟩
    by_cases hb : b.isHat
    · rw [index_hat hb] at h0
      simp [holdHat, hatOf, hb, h0, index_hat hb]
    · simp [hatOf, hb, expired_top hb]
  · by_cases hd : b.isHat = true → s.hatDirections = some b
    · refine ⟨_, checkAndHoldButton_again b e s h0 hd, ?_⟩
      by_cases hb : b.isHat
      · rw [index_hat hb] at h0
        simp [holdHat, hatOf, hb, h0, hd hb, index_hat hb]
      · simp [hatOf, hb, expired_top hb]
    · push Not at hd
      obtain ⟨hb, hdir⟩ := hd
      rw [index_hat hb] at h0
      obtain ⟨d, hds⟩ := Option.ne_none_iff_exists'.mp (hs h0)
      have hne : d ≠ b := fun hdb => hdir (by rw [hds, hdb])
      refine ⟨_, checkAndHoldButton_change e s (by rwa [index_hat hb]) hb hds hne, ?_⟩
      simp [holdHat, hatOf, hb, h0, hds, hne, index_hat hb]

variable [Stick O] [DecidableEq O]

omit [DecidableEq O] in
theorem releaseStick_hat (a : StickObject O) (s : ControllerService P O) :
    ∃ s', releaseStick a s = .ok () s' ∧ hatOf s' = hatOf s := by
  by_cases h0 : s.stickExpired (getStick a) = 0
  · exact ⟨s, releaseStick_idle a s h0, rfl⟩
  · exact ⟨_, releaseStick_held a s h0, rfl⟩

theorem checkAndHoldStick_hat (a : StickObject O) (e : ℤ) (s : ControllerService P O) :
    ∃ s', checkAndHoldStick a e s = .ok () s' ∧ hatOf s' = hatOf s := by
  by_cases h : s.stickExpired (getStick a) = 0 ∨ s.stickDirections (getStick a) ≠ a
  · exact ⟨_, checkAndHoldStick_new a e s h, rfl⟩
  · push Not at h
    exact ⟨_, checkAndHoldStick_again a e s h.1 h.2, rfl⟩

/-- A call returns where a slot that is taken has a direction, and changes the hat
as `onHat` says. -/
theorem exec_hat (op : Op O) (hop : synchronized op = true) {s : ControllerService P O}
    (hs : s.buttonExpired .D_TOP ≠ 0 → s.hatDirections ≠ none) :
    ∃ s', op.exec s = .ok () s' ∧ hatOf s' = onHat s.pressTime op (hatOf s) := by
  cases op with
  | pressButton b now =>
    obtain ⟨s', h, hh⟩ := checkAndHoldButton_hat b (addLong now s.pressTime) hs
    exact ⟨s', h, hh.trans (onHat_of_hold rfl rfl _).symm⟩
  | holdButtonFor b duration now =>
    obtain ⟨s', h, hh⟩ := checkAndHoldButton_hat b (addLong now duration) hs
    exact ⟨s', h, hh.trans (onHat_of_hold rfl rfl _).symm⟩
  | holdButton b =>
    obtain ⟨s', h, hh⟩ := checkAndHoldButton_hat b maxLong hs
    exact ⟨s', h, hh.trans (onHat_of_hold rfl rfl _).symm⟩
  | releaseButton b => exact releaseButton_hat b s
  | pressStick a now => exact checkAndHoldStick_hat a _ s
  | holdStickFor a duration now => exact checkAndHoldStick_hat a _ s
  | holdStick a => exact checkAndHoldStick_hat a _ s
  | releaseStick a => exact releaseStick_hat a s
  | autoRelease stickNow buttonNow => cases hop

end Hat

/-! ### `clear`, assignment by assignment -/

/-- The statements of `clear` after its test. -/
inductive Statement
  | protocolClear
  | dropProtocol
  | fillStickExpired
  | fillButtonExpired
  | nullHat
  | centerLeft
  | centerRight
  deriving DecidableEq, Repr

open Statement in
def clearBody : List Statement :=
  [protocolClear, dropProtocol, fillStickExpired, fillButtonExpired, nullHat, centerLeft, centerRight]

section Machine

variable {P O : Type} [Protocol P O]

/-- What a statement does. -/
def Statement.exec : Statement → Java (ControllerService P O) Unit
  | .protocolClear => ControllerService.protocolClear
  | .dropProtocol => ControllerService.dropProtocol
  | .fillStickExpired => ControllerService.fillStickExpired
  | .fillButtonExpired => ControllerService.fillButtonExpired
  | .nullHat => setHatDirection none
  | .centerLeft => setStickDirection .LEFT (.standard .L_CENTER)
  | .centerRight => setStickDirection .RIGHT (.standard .R_CENTER)

/-- `clear` is its statements, one after the other. -/
theorem clear_eq (s : ControllerService P O) :
    ControllerService.clear s = if s.protocol.isSome then forM clearBody Statement.exec s else .ok () s := by
  unfold ControllerService.clear clearBody
  rw [get_bind_run, ite_run]
  simp only [List.forM_cons, List.forM_nil, bind_pure_unit]
  rfl

/-- What a statement leaves of the hat, also when it throws. -/
def Statement.onHat : Statement → Hat → Hat
  | .fillButtonExpired, h => (0, h.2)
  | .nullHat, h => (h.1, none)
  | _, h => h

/-- Only `protocol.clear()` throws. -/
theorem throws_protocolClear {c : Statement} {s s' : ControllerService P O} {e : JavaException}
    (h : c.exec s = .error e s') : c = .protocolClear := by
  cases c with
  | protocolClear => rfl
  | _ => cases h

theorem Statement.exec_hat (c : Statement) (s : ControllerService P O) :
    hatOf (left (c.exec s)) = c.onHat (hatOf s) := by
  cases c with
  | protocolClear =>
    show hatOf (left (ControllerService.protocolClear s)) = hatOf s
    unfold ControllerService.protocolClear
    split
    · rfl
    · exact frame_withProtocol _ (fun _ _ => rfl) s
  | _ => rfl

/-- The controller, and what the threads that have called `clear` have left of
it. -/
structure State (P O : Type) (n : ℕ) where
  service : ControllerService P O
  clears : Fin n → List Statement

def start {n : ℕ} (pressTime : ℤ) : State P O n := ⟨init pressTime, fun _ => []⟩

inductive Action (P O : Type) (n : ℕ)
  /-- a synchronized method, of any thread -/
  | call (op : Op O)
  /-- `clear` is called, and has tested `protocol` -/
  | clear (thread : Fin n)
  /-- the next statement of the thread's `clear` -/
  | advance (thread : Fin n)
  | setProtocol (p : Option P)

variable [Stick O] [DecidableEq O] {n : ℕ}

/-- One step. A statement of `clear` that throws ends it. -/
def step (s : State P O n) : Action P O n → Option (State P O n)
  | .call op => if synchronized op then some { s with service := left (op.exec s.service) } else none
  | .clear thread =>
    if s.clears thread = [] then
      some { s with
        clears := Function.update s.clears thread (if s.service.protocol.isSome then clearBody else []) }
    else none
  | .advance thread =>
    match s.clears thread with
    | [] => none
    | c :: rest =>
      match c.exec s.service with
      | .ok _ service => some ⟨service, Function.update s.clears thread rest⟩
      | .error _ service => some ⟨service, Function.update s.clears thread []⟩
  | .setProtocol p => some { s with service := left (ControllerService.setProtocol p s.service) }

/-- No `clear` is in progress. -/
def Quiet (s : State P O n) : Prop := ∀ t, s.clears t = []

instance : DecidablePred (Quiet (P := P) (O := O) (n := n)) := fun s =>
  inferInstanceAs (Decidable (∀ t, s.clears t = []))

/-- The hat is consistent when no `clear` is in progress, and at all times a slot
that is taken has a direction, so that no call passes `null` to the protocol:
every call returns. -/
structure Consistent (s : State P O n) : Prop where
  hat : Quiet s → (s.service.hatDirections = none ↔ s.service.buttonExpired .D_TOP = 0)
  nonNull : s.service.buttonExpired .D_TOP ≠ 0 → s.service.hatDirections ≠ none
  returns : ∀ op : Op O, synchronized op = true → ∃ service, op.exec s.service = .ok () service

/-- The `clear` has zeroed the slots and not yet put `null` in the direction. -/
def BeforeNull (l : List Statement) : Prop := l.head? = some .nullHat

instance : DecidablePred BeforeNull := fun l => inferInstanceAs (Decidable (l.head? = some _))

/-- No hold of a hat direction falls between the two assignments of a `clear`, or
asks for the expiry zero. -/
def Apart (s : State P O n) : Action P O n → Prop
  | .call op => ∀ h ∈ holdsHat s.service.pressTime op, h.2 ≠ 0 ∧ ∀ t, ¬ BeforeNull (s.clears t)
  | _ => True

instance : DecidableRel (Apart (P := P) (O := O) (n := n)) := fun s a => by
  cases a <;> unfold Apart <;> infer_instance

/-! ### The invariant -/

/-- After the slots have been zeroed comes the direction, and only then. -/
theorem beforeNull_rest {c : Statement} {rest : List Statement} (h : c :: rest <:+ clearBody) :
    BeforeNull rest ↔ c = .fillButtonExpired := by
  simp only [clearBody, List.suffix_cons_iff, List.suffix_nil, List.cons.injEq, reduceCtorEq, or_false] at h
  rcases h with ⟨rfl, rfl⟩ | ⟨rfl, rfl⟩ | ⟨rfl, rfl⟩ | ⟨rfl, rfl⟩ | ⟨rfl, rfl⟩ | ⟨rfl, rfl⟩ | ⟨rfl, rfl⟩
  all_goals decide

/-- While some `clear` has zeroed the slots and not the direction, the slot is
free; otherwise slot and direction agree. -/
structure Inv (s : State P O n) : Prop where
  body : ∀ t, s.clears t <:+ clearBody
  between : ∀ t, BeforeNull (s.clears t) → (hatOf s.service).1 = 0
  agree : (∀ t, ¬ BeforeNull (s.clears t)) → ((hatOf s.service).2 = none ↔ (hatOf s.service).1 = 0)

omit [Protocol P O] [Stick O] [DecidableEq O] in
theorem Inv.nonNull {s : State P O n} (h : Inv s) :
    s.service.buttonExpired .D_TOP ≠ 0 → s.service.hatDirections ≠ none := by
  intro h0 hnone
  have hquiet : ∀ t, ¬ BeforeNull (s.clears t) := fun t ht => h0 (h.between t ht)
  exact h0 ((h.agree hquiet).mp hnone)

omit [Protocol P O] [Stick O] [DecidableEq O] in
/-- The hat as it was, and no `clear` gone past the slots. -/
theorem Inv.same {s s' : State P O n} (h : Inv s) (hh : hatOf s'.service = hatOf s.service)
    (hb : ∀ t, s'.clears t <:+ clearBody)
    (hc : ∀ t, BeforeNull (s'.clears t) ↔ BeforeNull (s.clears t)) : Inv s' := by
  refine ⟨hb, fun t ht => ?_, fun hq => ?_⟩
  · rw [hh]
    exact h.between t ((hc t).mp ht)
  · rw [hh]
    exact h.agree fun t ht => hq t ((hc t).mpr ht)

theorem inv_call [Reliable P O] {s : State P O n} (h : Inv s) (op : Op O) (hop : synchronized op = true)
    (ha : Apart s (.call op)) : Inv { s with service := left (op.exec s.service) } := by
  obtain ⟨t, ht, hhat⟩ := exec_hat op hop h.nonNull
  rw [ht]
  show Inv { s with service := t }
  cases hold : holdsHat s.service.pressTime op with
  | some held =>
    obtain ⟨b, e⟩ := held
    obtain ⟨he, hq⟩ := ha (b, e) hold
    have hm : (hatOf s.service).1 ≠ 0 → merged (hatOf s.service).1 e ≠ 0 := fun h0 => merged_ne_zero h0 he
    refine ⟨h.body, fun t' ht' => absurd ht' (hq t'), fun _ => ?_⟩
    have hag := h.agree hq
    simp only [hhat, onHat, hold, holdHat]
    split
    · simp [he]
    · rename_i h0
      split
      · rename_i hd
        simp [hd, hm h0]
      · simp [he]
  | none =>
    by_cases hr : releasesHat op = true
    · by_cases h0 : (hatOf s.service).1 = 0
      · refine h.same ?_ h.body fun _ => Iff.rfl
        simp [hhat, onHat, hold, releaseHat, h0]
      · have hz : hatOf t = (0, none) := by simp [hhat, onHat, hold, hr, releaseHat, h0]
        refine ⟨h.body, fun _ _ => ?_, fun _ => ?_⟩ <;> simp [hz]
    · refine h.same ?_ h.body fun _ => Iff.rfl
      simp [hhat, onHat, hold, hr]

omit [Protocol P O] [Stick O] [DecidableEq O] in
theorem body_update {s : State P O n} (h : Inv s) (t : Fin n) {l : List Statement} (hl : l <:+ clearBody) :
    ∀ u, Function.update s.clears t l u <:+ clearBody := by
  intro u
  by_cases hu : u = t
  · subst hu; simpa using hl
  · simpa [Function.update_of_ne hu] using h.body u

omit [Protocol P O] [Stick O] [DecidableEq O] in
theorem beforeNull_update {s : State P O n} {t : Fin n} {l : List Statement} (ht : ¬ BeforeNull (s.clears t))
    (hl : ¬ BeforeNull l) : ∀ u, BeforeNull (Function.update s.clears t l u) ↔ BeforeNull (s.clears u) := by
  intro u
  by_cases hu : u = t
  · subst hu; simp [ht, hl]
  · simp [Function.update_of_ne hu]

omit [Protocol P O] [Stick O] [DecidableEq O] in
theorem inv_clear {s : State P O n} (h : Inv s) (t : Fin n) (ht : s.clears t = []) : Inv { s with
    clears := Function.update s.clears t (if s.service.protocol.isSome then clearBody else []) } := by
  have hnew : ∀ c : Bool, (if c then clearBody else []) <:+ clearBody ∧
      ¬ BeforeNull (if c then clearBody else []) := by decide
  refine h.same rfl (body_update h t (hnew _).1) (beforeNull_update ?_ (hnew _).2)
  rw [ht]
  decide

omit [Stick O] [DecidableEq O] in
/-- One statement of one `clear`, which then goes on with the rest or, thrown out
of `protocol.clear()`, ends. -/
theorem inv_advance {s : State P O n} (h : Inv s) {t : Fin n} {c : Statement} {rest l : List Statement}
    (ht : s.clears t = c :: rest) (hl : l = rest ∨ l = [] ∧ c = .protocolClear) :
    Inv ⟨left (c.exec s.service), Function.update s.clears t l⟩ := by
  have hsuf : c :: rest <:+ clearBody := ht ▸ h.body t
  have hbody : l <:+ clearBody := by
    rcases hl with rfl | ⟨rfl, -⟩
    · exact (List.suffix_cons c l).trans hsuf
    · exact List.nil_suffix
  have hhat := c.exec_hat s.service
  by_cases hfill : c = .fillButtonExpired
  · subst hfill
    obtain rfl : l = rest := hl.resolve_right fun h' => nomatch h'.2
    refine ⟨body_update h t hbody, fun _ _ => ?_, fun hq => absurd ?_ (hq t)⟩
    · simp [hhat, Statement.onHat]
    · simpa using (beforeNull_rest hsuf).mpr rfl
  by_cases hnull : c = .nullHat
  · subst hnull
    have h0 : (hatOf s.service).1 = 0 := h.between t (by rw [ht]; rfl)
    refine ⟨body_update h t hbody, fun _ _ => ?_, fun _ => ?_⟩ <;> simp [hhat, Statement.onHat, h0]
  · have hl' : ¬ BeforeNull l := by
      rcases hl with rfl | ⟨rfl, -⟩
      · exact fun hb => hfill ((beforeNull_rest hsuf).mp hb)
      · decide
    refine h.same ?_ (body_update h t hbody) (beforeNull_update ?_ hl')
    · rw [hhat]
      cases c <;> first | rfl | contradiction
    · rw [ht]
      exact fun hb => hnull (Option.some.inj hb)

theorem inv_step [Reliable P O] (s : State P O n) (a : Action P O n) (s' : State P O n) (h : Inv s)
    (ha : Apart s a) (hs : step s a = some s') : Inv s' := by
  cases a with
  | call op =>
    simp only [step] at hs
    split at hs
    · obtain rfl := Option.some.inj hs
      exact inv_call h op ‹_› ha
    · cases hs
  | clear t =>
    simp only [step] at hs
    split at hs
    · obtain rfl := Option.some.inj hs
      exact inv_clear h t ‹_›
    · cases hs
  | advance t =>
    simp only [step] at hs
    split at hs
    · cases hs
    · rename_i c rest ht
      split at hs
      · rename_i service he
        obtain rfl := Option.some.inj hs
        have hi := inv_advance h ht (.inl rfl)
        rwa [he] at hi
      · rename_i e service he
        obtain rfl := Option.some.inj hs
        have hi := inv_advance h ht (.inr ⟨rfl, throws_protocolClear he⟩)
        rwa [he] at hi
  | setProtocol p =>
    obtain rfl := Option.some.inj hs
    exact h.same rfl h.body fun _ => Iff.rfl

/-- Where no hold of a hat direction falls between the two assignments of a
`clear`, or asks for the expiry zero, the hat is consistent in every state
reached. -/
theorem hat_consistent [Reliable P O] {pressTime : ℤ} {s : State P O n}
    (h : Reach step Apart (start pressTime) s) : Consistent s := by
  have h0 : Inv (start pressTime : State P O n) :=
    ⟨fun _ => List.nil_suffix, fun _ ht => (nomatch ht), fun _ => by simp [start, hatOf, init]⟩
  have hi := h.invariant h0 inv_step
  refine ⟨fun hq => hi.agree fun t ht => ?_, hi.nonNull, fun op hop => ?_⟩
  · rw [hq t] at ht
    cases ht
  · obtain ⟨service, hs, -⟩ := exec_hat op hop hi.nonNull
    exact ⟨service, hs⟩

end Machine

/-- Two threads disconnect, one behind the other, while a script presses the hat;
the next device takes another direction. -/
theorem hat_consistent_reconnect : ∃ s : State (Pad Empty) Empty 2, Reach step Apart (start 100) s ∧ Quiet s ∧
    s.service.hatDirections = some .D_BOTTOM ∧ Consistent s := by
  have hr : Reach step Apart (start 100 : State (Pad Empty) Empty 2) _ :=
    reach_of_run [.setProtocol (some .neutral), .call (.pressButton .D_TOP 5), .clear 0, .clear 1, .advance 0,
      .advance 0, .call (.holdButton .D_LEFT), .advance 0, .advance 0, .advance 1, .call (.holdButton .A),
      .advance 0, .advance 0, .advance 0, .setProtocol (some .neutral), .call (.holdButton .D_TOP),
      .call (.pressButton .D_BOTTOM 7)] .start rfl
  exact ⟨_, hr, by decide, rfl, hat_consistent hr⟩

/-- A direction held after the slots have been zeroed: the `clear` over, its slot
is taken and its direction is `null`, and on the next device another direction
fails. -/
theorem hat_lost : ∃ s : State (Pad Empty) Empty 1, Reach step anyStep (start 100) s ∧ Quiet s ∧
    s.service.hatDirections = none ∧ s.service.buttonExpired .D_TOP ≠ 0 ∧
    ∃ service, Op.exec (.holdButton .D_BOTTOM) s.service = .error .nullPointer service := by
  have hr : Reach step anyStep (start 100 : State (Pad Empty) Empty 1) _ :=
    reach_of_run [.setProtocol (some .neutral), .clear 0, .advance 0, .advance 0, .advance 0, .advance 0,
      .call (.holdButton .D_TOP), .advance 0, .advance 0, .advance 0, .setProtocol (some .neutral)] .start rfl
  exact ⟨_, hr, by decide, rfl, by decide, _, rfl⟩

end Disconnect
end PGCon
