/-
# The protocol a script runs on

A click on the run button opens a protocol, attaches it and then starts the
script. `ControllerService.clear` detaches, and everything that stops a script
goes through it; it calls `protocol.clear()` first, which writes to the serial
port and can throw.

* Whatever fails on the way, while a task is current the protocol attached is
  the one its own click opened (`never_detached`).
* When the port of the attached protocol has failed, `clear` throws before it
  detaches, and with it every later `loadProtocol`, whatever port it is for
  (`stuck`). A `loadProtocol` succeeds exactly when what is attached can be
  cleared or, with nothing attached, no expiry is on record, as it is if no hold
  was made then (`reconnects_iff`).

A protocol object is told apart from others by the click that opened it.
-/
import PGCon.MainPanel
import PGCon.WriteFailure

namespace PGCon
namespace Attachment

open Effect Machine ScriptRunner

/-! ### Objects that keep their identity -/

/-- A protocol object, with the number of the click that opened it. -/
structure Opened (P : Type) where
  click : ℕ
  object : P

namespace Opened

variable {P O : Type}

/-- A method of the object. -/
def on (m : Java P Unit) : Java (Opened P) Unit := fun o =>
  match m o.object with
  | .ok _ p => .ok () { o with object := p }
  | .error e p => .error e { o with object := p }

theorem frame_on (m : Java P Unit) : Frame Opened.click (on m) := by
  intro o
  unfold on
  cases m o.object <;> rfl

instance [Protocol P O] : Protocol (Opened P) O where
  hold b := on (Protocol.hold O b)
  release b := on (Protocol.release O b)
  set s := on (Protocol.set s)
  clear := on (Protocol.clear O)

theorem frame_invoke [Protocol P O] (c : Call O) : Frame Opened.click (c.invoke : Java (Opened P) Unit) := by
  cases c <;> exact frame_on _

end Opened

/-! ### What the controller's calls keep of its protocol -/

section Kept

variable {P O : Type} {I : Option P → Prop}

open ControllerService

theorem preserves_withProtocol {m : Java P Unit} (h : Preserves (fun p => I (some p)) m) :
    Preserves (fun s : ControllerService P O => I s.protocol) (withProtocol m) := by
  intro s hs
  unfold withProtocol
  cases hp : s.protocol with
  | none => exact hs
  | some p =>
    have hs' : I (some p) := by
      rw [← hp]
      exact hs
    have hm : I (some (left (m p))) := h p hs'
    simp only
    cases hr : m p with
    | ok _ p' =>
      rw [hr] at hm
      exact hm
    | error e p' =>
      rw [hr] at hm
      exact hm

variable [Protocol P O]

theorem preserves_releaseButton {b : Button}
    (hrelease : Preserves (fun p => I (some p)) ((Call.release (some b) : Call O).invoke : Java P Unit)) :
    Preserves (fun s : ControllerService P O => I s.protocol) (releaseButton b) := by
  refine Preserves.get_bind fun s => Preserves.ite ?_ (Preserves.pure _)
  refine Preserves.bind (Preserves.assign fun _ h => h) fun _ => ?_
  refine Preserves.bind (preserves_withProtocol hrelease) fun _ => ?_
  exact Preserves.ite (Preserves.assign fun _ h => h) (Preserves.pure _)

theorem preserves_checkAndHoldButton {b : Button}
    (hhold : Preserves (fun p => I (some p)) ((Call.hold b : Call O).invoke : Java P Unit))
    (hrelease : ∀ d, Preserves (fun p => I (some p)) ((Call.release d : Call O).invoke : Java P Unit)) (e : ℤ) :
    Preserves (fun s : ControllerService P O => I s.protocol) (checkAndHoldButton b e) := by
  have hset : Preserves (fun s : ControllerService P O => I s.protocol)
      (setButtonExpired (getExpireTimeIndex b) e) := Preserves.assign fun _ h => h
  have hdir : ∀ d, Preserves (fun s : ControllerService P O => I s.protocol) (setHatDirection d) :=
    fun _ => Preserves.assign fun _ h => h
  refine Preserves.get_bind fun s => Preserves.ite ?_ (Preserves.ite (Preserves.ite ?_ ?_) ?_)
  · refine Preserves.bind hset fun _ => Preserves.bind (preserves_withProtocol hhold) fun _ => ?_
    exact Preserves.ite (hdir _) (Preserves.pure _)
  · exact Preserves.ite hset (Preserves.pure _)
  · refine Preserves.bind hset fun _ => Preserves.bind (preserves_withProtocol ?_) fun _ => hdir _
    exact Preserves.bind (hrelease s.hatDirections) fun _ => hhold
  · exact Preserves.ite hset (Preserves.pure _)

variable [Stick O]

theorem preserves_releaseStick {a : StickObject O}
    (hset : Preserves (fun p => I (some p)) ((Call.set (getReleaseAction a)).invoke : Java P Unit)) :
    Preserves (fun s : ControllerService P O => I s.protocol) (releaseStick a) := by
  refine Preserves.get_bind fun s => Preserves.ite ?_ (Preserves.pure _)
  refine Preserves.bind (Preserves.assign fun _ h => h) fun _ => ?_
  refine Preserves.bind (preserves_withProtocol hset) fun _ => ?_
  exact Preserves.assign fun _ h => h

theorem preserves_checkAndHoldStick [DecidableEq O] {a : StickObject O}
    (hcall : Preserves (fun p => I (some p)) ((Call.set a).invoke : Java P Unit)) (e : ℤ) :
    Preserves (fun s : ControllerService P O => I s.protocol) (checkAndHoldStick a e) := by
  have hset : Preserves (fun s : ControllerService P O => I s.protocol) (setStickExpired (getStick a) e) :=
    Preserves.assign fun _ h => h
  have hdir : Preserves (fun s : ControllerService P O => I s.protocol) (setStickDirection (getStick a) a) :=
    Preserves.assign fun _ h => h
  have hnew := Preserves.bind hset fun _ =>
    Preserves.bind (preserves_withProtocol hcall) fun _ => hdir
  refine Preserves.get_bind fun s => Preserves.ite hnew (Preserves.ite (Preserves.ite ?_ hdir) hnew)
  exact Preserves.bind hset fun _ => hdir

/-- What every call of the protocol keeps, every call on the controller keeps. -/
theorem preserves_exec [DecidableEq O]
    (hI : ∀ c : Call O, Preserves (fun p => I (some p)) (c.invoke : Java P Unit)) (op : Op O) :
    Preserves (fun s : ControllerService P O => I s.protocol) op.exec := by
  have hrelease : ∀ d, Preserves (fun p => I (some p)) ((Call.release d : Call O).invoke : Java P Unit) :=
    fun d => hI (.release d)
  cases op with
  | pressButton b now => exact Preserves.get_bind fun s => preserves_checkAndHoldButton (hI (.hold b)) hrelease _
  | holdButtonFor b duration now => exact preserves_checkAndHoldButton (hI (.hold b)) hrelease _
  | holdButton b => exact preserves_checkAndHoldButton (hI (.hold b)) hrelease _
  | releaseButton b => exact preserves_releaseButton (hI (.release (some b)))
  | pressStick a now => exact Preserves.get_bind fun s => preserves_checkAndHoldStick (hI (.set a)) _
  | holdStickFor a duration now => exact preserves_checkAndHoldStick (hI (.set a)) _
  | holdStick a => exact preserves_checkAndHoldStick (hI (.set a)) _
  | releaseStick a => exact preserves_releaseStick (hI (.set _))
  | autoRelease stickNow buttonNow =>
    refine Preserves.bind (Preserves.forM (fun i => ?_) _) fun _ => Preserves.forM (fun b => ?_) _
    · exact Preserves.get_bind fun s => Preserves.ite (preserves_releaseStick (hI (.set _))) (Preserves.pure _)
    · exact Preserves.get_bind fun s =>
        Preserves.ite (preserves_releaseButton (hI (.release (some _)))) (Preserves.pure _)

end Kept

/-! ### `loadProtocol` and `runScript` -/

section Runner

variable {P O : Type}

theorem check_bind (passes : Bool) (f : Unit → Java (ScriptRunner P O) Unit) (r : ScriptRunner P O) :
    (MainPanel.check passes >>= f) r = if passes then f () r else .error .alertError r := by
  cases passes <;> rfl

variable [Protocol P O]

/-- `loadProtocol` that returns has attached the protocol it opened. -/
theorem loadProtocol_of_ok {a : Attempt P} {r r' : ScriptRunner P O} (h : MainPanel.loadProtocol a r = .ok () r') :
    ∃ p, a.opened = .ok p ∧ r'.controllerService.protocol = some p := by
  unfold MainPanel.loadProtocol at h
  rw [bind_run] at h
  split at h
  · rename_i u r₁ _
    cases ho : a.opened with
    | error e =>
      rw [ho] at h
      cases h
    | ok p =>
      refine ⟨p, rfl, ?_⟩
      rw [ho] at h
      cases hc : a.connected with
      | error e =>
        rw [hc] at h
        cases h
      | ok connected =>
        rw [hc] at h
        cases connected with
        | true =>
          obtain rfl : _ = r' := (EStateM.Result.ok.injEq _ _ _ _ ▸ h : _ ∧ _).2
          rfl
        | false =>
          exfalso
          have hd : (MainPanel.discard p >>= fun _ => throw .alertError : Java (ScriptRunner P O) Unit) r₁ =
            .ok () r' := h
          unfold MainPanel.discard at hd
          cases hcl : (Protocol.clear O : Java P Unit) p <;> rw [hcl] at hd <;> cases hd
  · cases h

/-- A task that `runScript` has started runs on the protocol that it opened. -/
theorem protocol_runScript (a : Attempt P) {r : ScriptRunner P O} (h : r.current = none)
    (hs : (left (MainPanel.runScript a r)).current ≠ none) :
    ∃ p, a.opened = .ok p ∧ (left (MainPanel.runScript a r)).controllerService.protocol = some p := by
  unfold MainPanel.runScript at hs ⊢
  rw [check_bind] at hs ⊢
  by_cases hsel : a.selected = true
  swap
  · rw [if_neg hsel] at hs
    exact absurd h hs
  rw [if_pos hsel] at hs ⊢
  have hown := MainPanel.frame_loadProtocol (O := O) a r
  rw [bind_run] at hs ⊢
  cases hl : MainPanel.loadProtocol a r with
  | error e r₁ =>
    rw [hl] at hs hown
    have hcur : r₁.current = r.current := congrArg (fun o => o.2.2) hown
    exact absurd (hcur.trans h) hs
  | ok u r₁ =>
    obtain ⟨p, hp, hatt⟩ := loadProtocol_of_ok hl
    refine ⟨p, hp, ?_⟩
    rw [hl] at hown
    have hcur : r₁.current = none := (congrArg (fun o => o.2.2) hown).trans h
    -- nothing after it touches the controller
    simp only [check_bind]
    split
    · split
      · unfold ScriptRunner.run
        rw [bind_of_ok (stop_idle hcur)]
        cases a.loads <;> exact hatt
      · exact hatt
    · exact hatt

end Runner

/-! ### Events -/

/-- The attempt of click number `n`. -/
def byClick {P : Type} (n : ℕ) (a : Attempt P) : Attempt (Opened P) where
  selected := a.selected
  opened := a.opened.map fun p => ⟨n, p⟩
  connected := a.connected
  found := a.found
  reloads := a.reloads
  loads := a.loads
  isLoop := a.isLoop

/-- The panel, the number of clicks so far, and the click that started each
task. -/
structure State (P O : Type) where
  panel : MainPanel.State (Opened P) O
  clicks : ℕ
  startedBy : ℕ → ℕ

namespace State

variable {P O : Type}

abbrev runner (s : State P O) : ScriptRunner (Opened P) O := s.panel.runner

abbrev service (s : State P O) : ControllerService (Opened P) O := s.panel.runner.controllerService

end State

variable {P O : Type}

def start (pressTime : ℤ) : State P O := ⟨MainPanel.start (.init pressTime), 0, fun _ => 0⟩

inductive Action (P O : Type)
  | click (a : Attempt P)
  | thread (task : ℕ) (m : ScriptTask.Move)
  | deliver
  | drive (op : Op O)
  /-- something happens to the attached protocol's port: it breaks -/
  | port (p : P)

section Step

variable [Protocol P O] [Stick O] [DecidableEq O]

/-- One event or step. A click that submits a task is noted as the one that started
it. -/
def step (s : State P O) : Action P O → Option (State P O)
  | .click a => (MainPanel.step s.panel (.click (byClick s.clicks a))).map fun panel =>
    { panel := panel
      clicks := s.clicks + 1
      startedBy :=
        if s.runner.next < panel.runner.next then Function.update s.startedBy s.runner.next s.clicks
        else s.startedBy }
  | .thread task m => (MainPanel.step s.panel (.thread task m)).map fun panel => { s with panel := panel }
  | .deliver => (MainPanel.step s.panel .deliver).map fun panel => { s with panel := panel }
  | .drive op => (MainPanel.step s.panel (.drive op)).map fun panel => { s with panel := panel }
  | .port p => some { s with panel := { s.panel with runner := { s.runner with controllerService :=
      { s.service with protocol := s.service.protocol.map fun o => { o with object := p } } } } }

/-! ### A task's own protocol -/

/-- The current task has its own click's protocol attached. -/
structure Inv (s : State P O) : Prop where
  lt : ∀ i ∈ s.runner.current, i < s.runner.next
  own : ∀ i ∈ s.runner.current, ∃ o ∈ s.service.protocol, o.click = s.startedBy i

omit [Protocol P O] [Stick O] [DecidableEq O] in
theorem Inv.of_none {s : State P O} (h : s.runner.current = none) : Inv s := by
  constructor <;> rw [h] <;> simp

omit [Protocol P O] [Stick O] [DecidableEq O] in
/-- The tasks and the clicks as they were, and the same object attached. -/
theorem Inv.same {s s' : State P O} (h : Inv s) (hn : s'.runner.next = s.runner.next)
    (hc : s'.runner.current = s.runner.current) (hb : s'.startedBy = s.startedBy)
    (hp : s'.service.protocol.map Opened.click = s.service.protocol.map Opened.click) : Inv s' := by
  refine ⟨?_, fun i hi => ?_⟩
  · rw [hn, hc]
    exact h.lt
  · rw [hc] at hi
    obtain ⟨o, ho, hclick⟩ := h.own i hi
    have hmap : s'.service.protocol.map Opened.click = some (s.startedBy i) := by
      rw [hp, show s.service.protocol = some o from ho, ← hclick]
      rfl
    obtain ⟨o', ho', hclick'⟩ := Option.map_eq_some_iff.mp hmap
    exact ⟨o', ho', by rw [hb, hclick']⟩

/-- A click stops the current task, or starts one, or leaves none. -/
theorem inv_click {s s' : State P O} (a : Attempt P) (hs : step s (.click a) = some s') : Inv s' := by
  obtain rfl := Option.some.inj hs
  cases hc : s.runner.current with
  | some task =>
    refine Inv.of_none ?_
    show (left (MainPanel.run (byClick s.clicks a) s.runner)).current = none
    rw [MainPanel.run_running _ hc, MainPanel.left_stopScript hc, left_stop hc]
  | none =>
    have hrun : MainPanel.run (byClick s.clicks a) s.runner = MainPanel.runScript (byClick s.clicks a) s.runner :=
      MainPanel.run_idle _ hc
    by_cases hidle : (left (MainPanel.run (byClick s.clicks a) s.runner)).current = none
    · exact Inv.of_none hidle
    -- the click has started task `next`, on the protocol it opened
    rcases MainPanel.own_runScript (byClick s.clicks a) hc with hsame | hnew
    · rw [← hrun] at hsame
      have hcur := congrArg (fun o => o.2.2) hsame
      exact absurd (hcur.trans hc) hidle
    rw [← hrun] at hnew
    obtain ⟨-, hnext, hcur⟩ := MainPanel.own_eq_iff.mp hnew
    rw [hrun] at hidle
    obtain ⟨o, ho, hatt⟩ := protocol_runScript (byClick s.clicks a) hc hidle
    rw [← hrun] at hatt
    have hclick : o.click = s.clicks := by
      have hmap : a.opened.map (fun p => (⟨s.clicks, p⟩ : Opened P)) = .ok o := ho
      cases hop : a.opened with
      | error e => rw [hop] at hmap; cases hmap
      | ok p =>
        rw [hop] at hmap
        cases hmap
        rfl
    refine ⟨fun i hi => ?_, fun i hi => ⟨o, hatt, ?_⟩⟩
    · obtain rfl : s.runner.next = i := Option.some.inj (hcur.symm.trans hi)
      show s.runner.next < (left (MainPanel.run (byClick s.clicks a) s.runner)).next
      rw [hnext]
      exact Nat.lt_succ_self _
    · obtain rfl : s.runner.next = i := Option.some.inj (hcur.symm.trans hi)
      have hlt : s.runner.next < (left (MainPanel.run (byClick s.clicks a) s.runner)).next := by
        rw [hnext]
        exact Nat.lt_succ_self _
      rw [hclick]
      show s.clicks = (if s.runner.next < (left (MainPanel.run (byClick s.clicks a) s.runner)).next then
        Function.update s.startedBy s.runner.next s.clicks else s.startedBy) s.runner.next
      rw [if_pos hlt, Function.update_self]

theorem inv_step (s : State P O) (a : Action P O) (s' : State P O) (h : Inv s) (_ : anyStep s a)
    (hs : step s a = some s') : Inv s' := by
  cases a with
  | click a => exact inv_click a hs
  | thread task m =>
    obtain ⟨panel, hp, rfl⟩ := Option.map_eq_some_iff.mp hs
    obtain ⟨t, -, hp⟩ := Option.bind_eq_some_iff.mp hp
    obtain ⟨t', -, rfl⟩ := Option.map_eq_some_iff.mp hp
    exact h.same rfl rfl rfl rfl
  | deliver =>
    obtain ⟨panel, hp, rfl⟩ := Option.map_eq_some_iff.mp hs
    simp only [MainPanel.step] at hp
    split at hp
    · cases hp
    · obtain rfl := Option.some.inj hp
      cases hc : s.runner.current with
      | none =>
        have hstop : left (MainPanel.enableScripts s.runner) = s.runner := by
          rw [show MainPanel.enableScripts s.runner = _ from stop_idle hc]
          rfl
        refine Inv.of_none ?_
        show (left (MainPanel.enableScripts s.runner)).current = none
        rw [hstop, hc]
      | some task =>
        refine Inv.of_none ?_
        show (left (MainPanel.enableScripts s.runner)).current = none
        rw [show left (MainPanel.enableScripts s.runner) = _ from left_stop hc]
  | drive op =>
    obtain rfl := Option.some.inj hs
    refine h.same rfl rfl rfl ?_
    refine preserves_exec (I := fun p => p.map Opened.click = s.service.protocol.map Opened.click)
      (fun c o ho => ?_) op s.service rfl
    exact (congrArg some (Opened.frame_invoke c o)).trans ho
  | port p =>
    obtain rfl := Option.some.inj hs
    refine h.same rfl rfl rfl ?_
    show (s.service.protocol.map _).map Opened.click = _
    rw [Option.map_map]
    rfl

/-- Whatever fails, while a task is current the protocol attached is the one that
the click which started the task opened. -/
theorem never_detached {pressTime : ℤ} {s : State P O} (h : Reach step anyStep (start pressTime) s) {i : ℕ}
    (hi : s.runner.current = some i) :
    ∃ o, s.service.protocol = some o ∧ o.click = s.startedBy i := by
  have hinv : Inv s := h.invariant (Inv.of_none rfl) inv_step
  exact hinv.own i hi

/-! ### Reconnecting -/

/-- No expiry is on record. -/
def Clean (c : ControllerService P O) : Prop := (∀ b, c.buttonExpired b = 0) ∧ ∀ i, c.stickExpired i = 0

/-- `loadProtocol` returns with the protocol `p` attached and no expiry on record. -/
def Reconnects (a : Attempt P) (r : ScriptRunner P O) (p : P) : Prop :=
  ∃ r', MainPanel.loadProtocol a r = .ok () r' ∧ r'.controllerService.protocol = some p ∧
    Clean r'.controllerService

/-- The protocol attached, if there is one, can be cleared. -/
def Clearable (c : ControllerService P O) : Prop :=
  ∀ p ∈ c.protocol, ∃ p', (Protocol.clear O : Java P Unit) p = .ok () p'

/-- Nothing is pressed or held while nothing is attached. -/
def HeldAttached (s : State P O) : Action P O → Prop
  | .drive op => (op.expiry s.service.pressTime).isSome → s.service.protocol.isSome
  | _ => True

instance : DecidableRel (HeldAttached (P := P) (O := O)) := fun s a =>
  match a with
  | .drive op => inferInstanceAs (Decidable
      ((op.expiry s.service.pressTime).isSome → s.service.protocol.isSome))
  | .click _ | .thread _ _ | .deliver | .port _ => .isTrue trivial

/-- With nothing attached, no expiry is on record. -/
def Tidy (c : ControllerService P O) : Prop := c.protocol = none → Clean c

section Tidy

omit [Stick O] [DecidableEq O]

/-- An exception of `protocol.clear()` leaves `clear` before `protocol = null`. -/
theorem clear_throws {c : ControllerService P O} {p p' : P} {e : JavaException} (hp : c.protocol = some p)
    (hcl : (Protocol.clear O : Java P Unit) p = .error e p') :
    ControllerService.clear c = .error e { c with protocol := some p' } := by
  unfold ControllerService.clear
  simp only [get_bind_run, ite_run, hp, Option.isSome_some, if_true]
  rw [bind_run]
  unfold ControllerService.protocolClear ControllerService.withProtocol
  simp only [hp, hcl]

theorem tidy_clear : Preserves (Tidy (P := P) (O := O)) ControllerService.clear := by
  intro c hc
  cases hp : c.protocol with
  | none =>
    rw [ControllerService.clear_detached hp]
    exact hc
  | some p =>
    cases hcl : (Protocol.clear O : Java P Unit) p with
    | ok u p' =>
      rw [ControllerService.clear_attached hp hcl]
      exact fun _ => ⟨fun _ => rfl, fun _ => rfl⟩
    | error e p' =>
      rw [clear_throws hp hcl]
      exact fun h => nomatch h

omit [Protocol P O] in
theorem tidy_onController {m : Java (ControllerService P O) Unit} (h : Preserves Tidy m) :
    Preserves (fun r : ScriptRunner P O => Tidy r.controllerService) (onController m) := by
  intro r hr
  have hm := h r.controllerService hr
  unfold onController
  cases hres : m r.controllerService with
  | ok u c =>
    rw [hres] at hm
    exact hm
  | error e c =>
    rw [hres] at hm
    exact hm

theorem tidy_stop : Preserves (fun r : ScriptRunner P O => Tidy r.controllerService) ScriptRunner.stop := by
  intro r hr
  cases hc : r.current with
  | none =>
    rw [stop_idle hc]
    exact hr
  | some task =>
    rw [left_stop hc]
    exact tidy_clear _ hr

theorem tidy_loadProtocol (a : Attempt P) :
    Preserves (fun r : ScriptRunner P O => Tidy r.controllerService) (MainPanel.loadProtocol a) := by
  have houtside : ∀ {α : Type} (x : Except JavaException α),
      Preserves (fun r : ScriptRunner P O => Tidy r.controllerService) (MainPanel.outside x) := by
    intro α x r hr
    cases x <;> exact hr
  have hdiscard : ∀ p : P, Preserves (fun r : ScriptRunner P O => Tidy r.controllerService) (MainPanel.discard p) := by
    intro p r hr
    unfold MainPanel.discard
    cases (Protocol.clear O : Java P Unit) p <;> exact hr
  refine Preserves.bind (tidy_onController tidy_clear) fun _ => ?_
  refine Preserves.bind (houtside _) fun p => Preserves.bind (houtside _) fun connected => ?_
  refine Preserves.ite (tidy_onController ?_) (Preserves.bind (hdiscard p) fun _ => Preserves.throw _)
  exact Preserves.assign fun c _ h => nomatch h

theorem tidy_run (a : Attempt P) :
    Preserves (fun r : ScriptRunner P O => Tidy r.controllerService) (MainPanel.run a) := by
  have hcheck : ∀ passes, Preserves (fun r : ScriptRunner P O => Tidy r.controllerService)
      (MainPanel.check passes) := by
    intro passes r hr
    cases passes <;> exact hr
  have hload : Preserves (fun r : ScriptRunner P O => Tidy r.controllerService) (ScriptRunner.load a.loads) := by
    intro r hr
    cases a.loads <;> exact hr
  refine Preserves.get_bind fun r => Preserves.ite ?_ (Preserves.bind tidy_stop fun _ => tidy_stop)
  refine Preserves.bind (hcheck _) fun _ => Preserves.bind (tidy_loadProtocol a) fun _ => ?_
  refine Preserves.bind (hcheck _) fun _ => Preserves.bind (hcheck _) fun _ => ?_
  refine Preserves.bind tidy_stop fun _ => Preserves.bind hload fun _ => ?_
  exact Preserves.assign fun _ h => h

end Tidy

/-- With no expiry on record, a call that asks for none does nothing. -/
theorem exec_idle {c : ControllerService P O} (hc : Clean c) {op : Op O} (h : op.expiry c.pressTime = none) :
    op.exec c = .ok () c := by
  have hforM : ∀ {ι : Type} (f : ι → Java (ControllerService P O) Unit), (∀ i, f i c = .ok () c) →
      ∀ is : List ι, forM is f c = .ok () c := by
    intro ι f hf is
    induction is with
    | nil => rfl
    | cons i is ih =>
      rw [List.forM_cons, bind_of_ok (hf i)]
      exact ih
  cases op with
  | releaseButton b => exact releaseButton_idle b c (hc.1 _)
  | releaseStick a => exact releaseStick_idle a c (hc.2 _)
  | autoRelease stickNow buttonNow =>
    have hstick : ∀ i, ControllerService.autoReleaseStick (stickNow i) i c = .ok () c := by
      intro i
      simp [ControllerService.autoReleaseStick, hc.2 i]
    have hbutton : ∀ b, ControllerService.autoReleaseButton (buttonNow b) b c = .ok () c := by
      intro b
      simp [ControllerService.autoReleaseButton, hc.1 b]
    show (_ >>= fun _ => _ : Java (ControllerService P O) Unit) c = _
    rw [bind_of_ok (hforM _ hstick _)]
    exact hforM _ hbutton _
  | _ => cases h

theorem tidy_drive {c : ControllerService P O} (hc : Tidy c) (op : Op O)
    (h : (op.expiry c.pressTime).isSome → c.protocol.isSome) : Tidy (left (op.exec c)) := by
  by_cases hp : c.protocol = none
  · have he : op.expiry c.pressTime = none := by
      by_contra he
      have hsome := h (Option.isSome_iff_ne_none.mpr he)
      rw [hp] at hsome
      cases hsome
    rw [exec_idle (hc hp) he]
    exact hc
  · -- what is attached stays attached
    have hatt := preserves_exec (I := fun p => p ≠ none) (fun (_ : Call O) (p : P) _ => nofun) op c hp
    exact fun hn => absurd hn hatt

theorem tidy_step (s : State P O) (a : Action P O) (s' : State P O) (h : Tidy s.service)
    (ha : HeldAttached s a) (hs : step s a = some s') : Tidy s'.service := by
  cases a with
  | click a =>
    obtain rfl := Option.some.inj hs
    exact tidy_run (byClick s.clicks a) s.runner h
  | thread task m =>
    obtain ⟨panel, hp, rfl⟩ := Option.map_eq_some_iff.mp hs
    obtain ⟨t, -, hp⟩ := Option.bind_eq_some_iff.mp hp
    obtain ⟨t', -, rfl⟩ := Option.map_eq_some_iff.mp hp
    exact h
  | deliver =>
    obtain ⟨panel, hp, rfl⟩ := Option.map_eq_some_iff.mp hs
    simp only [MainPanel.step] at hp
    split at hp
    · cases hp
    · obtain rfl := Option.some.inj hp
      exact tidy_stop s.runner h
  | drive op =>
    obtain rfl := Option.some.inj hs
    exact tidy_drive h op ha
  | port p =>
    obtain rfl := Option.some.inj hs
    intro hn
    exact h (Option.map_eq_none_iff.mp hn)

omit [Stick O] [DecidableEq O] in
/-- `loadProtocol` on a port that opens and answers, once `clear` has returned. -/
theorem loadProtocol_of_clear {a : Attempt P} {r : ScriptRunner P O} {p : P} {c : ControllerService P O}
    (hclear : ControllerService.clear r.controllerService = .ok () c) (ho : a.opened = .ok p)
    (hc : a.connected = .ok true) : MainPanel.loadProtocol a r =
      .ok () { r with controllerService := { c with protocol := some p } } := by
  have hon : onController ControllerService.clear r = .ok () { r with controllerService := c } := by
    unfold onController
    rw [hclear]
  unfold MainPanel.loadProtocol
  rw [bind_of_ok hon, ho, hc]
  rfl

omit [Stick O] [DecidableEq O] in
theorem reconnects_of_clearable {a : Attempt P} {r : ScriptRunner P O} {p : P} (hr : Tidy r.controllerService)
    (ho : a.opened = .ok p) (hc : a.connected = .ok true) (hcl : Clearable r.controllerService) :
    Reconnects a r p := by
  cases hp : r.controllerService.protocol with
  | none => exact ⟨_, loadProtocol_of_clear (ControllerService.clear_detached hp) ho hc, rfl, hr hp⟩
  | some q =>
    obtain ⟨q', hq⟩ := hcl q hp
    refine ⟨_, loadProtocol_of_clear (ControllerService.clear_attached hp hq) ho hc, rfl, ?_⟩
    exact ⟨fun _ => rfl, fun _ => rfl⟩

omit [Stick O] [DecidableEq O] in
/-- With nothing attached, `clear` does nothing. -/
theorem Reconnects.tidy {a : Attempt P} {r : ScriptRunner P O} {p : P} (h : Reconnects a r p) (ho : a.opened = .ok p)
    (hc : a.connected = .ok true) : Tidy r.controllerService := by
  intro hp
  obtain ⟨r', hload, -, hclean⟩ := h
  rw [loadProtocol_of_clear (ControllerService.clear_detached hp) ho hc] at hload
  cases hload
  exact hclean

omit [Stick O] [DecidableEq O] in
theorem Reconnects.clearable {a : Attempt P} {r : ScriptRunner P O} {p : P} (h : Reconnects a r p) :
    Clearable r.controllerService := by
  intro q hq
  obtain ⟨r', hload, -⟩ := h
  cases hcl : (Protocol.clear O : Java P Unit) q with
  | ok u q' => exact ⟨q', rfl⟩
  | error e q' =>
    have hon : onController ControllerService.clear r =
        .error e { r with controllerService := { r.controllerService with protocol := some q' } } := by
      unfold onController
      rw [clear_throws hq hcl]
    unfold MainPanel.loadProtocol at hload
    rw [bind_run, hon] at hload
    cases hload

/-- In every state, `loadProtocol` on a port that opens and answers attaches it, with no expiry on
record, if and only if the protocol attached before can still be cleared or, with nothing attached, no
expiry is on record. That is so in every run that holds nothing while nothing is attached. -/
theorem reconnects_iff (s : State P O) {a : Attempt P} {p : P} (ho : a.opened = .ok p) (hc : a.connected = .ok true) :
    (Reconnects (byClick s.clicks a) s.runner ⟨s.clicks, p⟩ ↔ Tidy s.service ∧ Clearable s.service) ∧
      ∀ pressTime, Reach step HeldAttached (start pressTime) s → Tidy s.service := by
  have ho' : (byClick s.clicks a).opened = .ok ⟨s.clicks, p⟩ := by
    show a.opened.map _ = _
    rw [ho]
    rfl
  refine ⟨⟨fun h => ⟨h.tidy ho' hc, h.clearable⟩, fun h => reconnects_of_clearable h.1 ho' hc h.2⟩, ?_⟩
  exact fun pressTime h => h.invariant (fun _ => ⟨fun _ => rfl, fun _ => rfl⟩) tidy_step

end Step

/-! ### Two runs -/

open WriteFailure in
/-- A click for a looping script, on a port that works. -/
def plugged : Attempt (PGConProtocol (Plug (BitVec 32))) where
  selected := true
  opened := .ok ⟨⟨false, []⟩⟩
  connected := .ok true
  found := true
  reloads := true
  loads := true
  isLoop := true

open WriteFailure

/-- A script is started, stopped, and another one is started. -/
theorem never_detached_again : ∃ s : State (PGConProtocol (Plug (BitVec 32))) Empty,
    Reach step anyStep (start 100) s ∧ s.runner.current = some 1 ∧
      ∃ o, s.service.protocol = some o ∧ o.click = s.startedBy 1 := by
  have hr : Reach step anyStep (start 100 : State (PGConProtocol (Plug (BitVec 32))) Empty) _ :=
    reach_of_run [.click plugged, .click plugged, .click plugged] .start rfl
  exact ⟨_, hr, rfl, never_detached hr rfl⟩

/-- A script holds `A` on a port that works, and is reconnected; but not where `A` was held before any
port was opened. -/
theorem reconnects_iff_plugged :
    (∃ s : State (PGConProtocol (Plug (BitVec 32))) Empty, Reach step HeldAttached (start 100) s ∧
      s.service.buttonExpired .A = maxLong ∧ Reconnects (byClick s.clicks plugged) s.runner ⟨s.clicks, ⟨⟨false, []⟩⟩⟩) ∧
    ∃ s : State (PGConProtocol (Plug (BitVec 32))) Empty, Reach step anyStep (start 100) s ∧
      s.service.buttonExpired .A = maxLong ∧
      ¬ Reconnects (byClick s.clicks plugged) s.runner ⟨s.clicks, ⟨⟨false, []⟩⟩⟩ := by
  have hopened : plugged.opened = .ok ⟨⟨false, []⟩⟩ := rfl
  constructor
  · have hr : Reach step HeldAttached (start 100 : State (PGConProtocol (Plug (BitVec 32))) Empty) _ :=
      reach_of_run [.click plugged, .drive (.holdButton .A)] .start rfl
    refine ⟨_, hr, rfl, (reconnects_iff _ hopened rfl).1.mpr ⟨(reconnects_iff _ hopened rfl).2 100 hr, ?_⟩⟩
    rintro p ⟨⟩
    exact ⟨_, rfl⟩
  · have hr : Reach step anyStep (start 100 : State (PGConProtocol (Plug (BitVec 32))) Empty) _ :=
      reach_of_run [.drive (.holdButton .A)] .start rfl
    refine ⟨_, hr, rfl, fun h => ?_⟩
    have hclean := ((reconnects_iff _ hopened rfl).1.mp h).1 rfl
    exact absurd (hclean.1 .A) (by decide)

/-- The port breaks while a script runs; the script is stopped; no port can be
opened any more. -/
theorem stuck : ¬ ∀ s : State (PGConProtocol (Plug (BitVec 32))) Empty, Reach step anyStep (start 100) s →
    ∀ (a : Attempt (PGConProtocol (Plug (BitVec 32)))) p, a.opened = .ok p → a.connected = .ok true →
      Reconnects (byClick s.clicks a) s.runner ⟨s.clicks, p⟩ := by
  intro h
  have hr : Reach step anyStep (start 100 : State (PGConProtocol (Plug (BitVec 32))) Empty) _ :=
    reach_of_run [.click plugged, .port ⟨⟨true, []⟩⟩, .click plugged] .start rfl
  obtain ⟨r', hload, -⟩ := h _ hr plugged _ rfl rfl
  cases hload

end Attachment
end PGCon
