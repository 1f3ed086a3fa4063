/-
# The run button

`MainPanel.run` starts the selected script, or stops the one that is running. A
task ends with a callback that posts `enableScripts` to the event queue of the
user interface, and `enableScripts` begins with `scriptRunner.stop()`. The event
does not say whose it is.

The thread of the user interface handles one event at a time: a click, or the
first event posted. Between events the threads of the scripts go on, and so do
their calls on the controller.

An event posted by a task that was stopped stops whatever task runs when it is
delivered (`late_callback`). It does no harm exactly when the task that runs
then is the event's own, or none does (`harmless_iff`).
-/
import PGCon.ScriptRunner

namespace PGCon

open Effect Machine ScriptRunner

/-! ### The methods -/

/-- What `runScript` meets on its way: the selections, the protocol that is opened
and its answer to `isConnected`, the script and how its `reload` (in debug mode)
and `load` end. -/
structure Attempt (P : Type) where
  selected : Bool
  opened : Except JavaException P
  connected : Except JavaException Bool
  found : Bool
  reloads : Bool
  loads : Bool
  isLoop : Bool

namespace MainPanel

variable {P O : Type}

/-- A call outside the runner, which answers or throws. -/
def outside {α : Type} : Except JavaException α → Java (ScriptRunner P O) α
  | .ok a => pure a
  | .error e => throw e

/-- A check that throws an `AlertErrorException` when it fails. -/
def check (passes : Bool) : Java (ScriptRunner P O) Unit :=
  if passes then pure () else throw .alertError

variable [Protocol P O]

/-- `protocol.clear()` on a protocol that is not attached. -/
def discard (protocol : P) : Java (ScriptRunner P O) Unit :=
  match (Protocol.clear O : Java P Unit) protocol with
  | .ok _ _ => pure ()
  | .error e _ => throw e

/-- `loadProtocol`. -/
def loadProtocol (a : Attempt P) : Java (ScriptRunner P O) Unit := do
  onController ControllerService.clear
  let protocol ← outside a.opened
  let connected ← outside a.connected
  if connected then
    onController (ControllerService.setProtocol (some protocol))
  else
    discard protocol
    throw .alertError

/-- `runScript`. -/
def runScript (a : Attempt P) : Java (ScriptRunner P O) Unit := do
  check a.selected
  loadProtocol a
  check a.found
  check a.reloads
  ScriptRunner.run a.loads a.isLoop true

/-- `enableScripts`. -/
def enableScripts : Java (ScriptRunner P O) Unit := ScriptRunner.stop

/-- `stopScript`. -/
def stopScript : Java (ScriptRunner P O) Unit := do
  ScriptRunner.stop
  enableScripts

/-- `run`, the handler of the button. -/
def run (a : Attempt P) : Java (ScriptRunner P O) Unit := do
  if !(← get).isRunning then
    runScript a
  else
    stopScript

/-! ### What they do to the runner -/

/-- The runner's own fields: all but the controller. -/
def own (r : ScriptRunner P O) : (ℕ → Option ScriptTask) × ℕ × Option ℕ := (r.tasks, r.next, r.current)

section Frame

omit [Protocol P O]

theorem frame_onController (m : Java (ControllerService P O) Unit) : Frame own (onController m) := by
  intro r
  unfold onController
  cases m r.controllerService <;> rfl

theorem frame_outside {α : Type} (x : Except JavaException α) :
    Frame own (outside x : Java (ScriptRunner P O) α) := by
  intro r
  cases x <;> rfl

theorem frame_check (passes : Bool) : Frame own (check passes : Java (ScriptRunner P O) Unit) := by
  intro r
  cases passes <;> rfl

end Frame

theorem frame_loadProtocol (a : Attempt P) : Frame (own (P := P) (O := O)) (loadProtocol a) := by
  have hdiscard : ∀ p : P, Frame (own (P := P) (O := O)) (discard p) := by
    intro p r
    unfold discard
    cases (Protocol.clear O : Java P Unit) p <;> rfl
  refine Frame.bind (frame_onController _) fun _ => Frame.bind (frame_outside _) fun p => ?_
  refine Frame.bind (frame_outside _) fun connected => Frame.ite (frame_onController _) ?_
  exact Frame.bind (hdiscard p) fun _ => Frame.throw _

/-- `runScript` with no script running: it fails and leaves the tasks as they were,
or it submits a new one. -/
theorem own_runScript (a : Attempt P) {r : ScriptRunner P O} (h : r.current = none) :
    own (left (runScript a r)) = own r ∨ own (left (runScript a r)) =
      (Function.update r.tasks r.next (some (.submitted a.isLoop true)), r.next + 1, some r.next) := by
  unfold runScript
  rcases (frame_check a.selected).bind_cases _ r with he | ⟨_, r₁, h₁, he⟩
  · exact Or.inl he
  rw [he]
  rcases (frame_loadProtocol a).bind_cases _ r₁ with he | ⟨_, r₂, h₂, he⟩
  · exact Or.inl (he.trans h₁)
  rw [he]
  rcases (frame_check a.found).bind_cases _ r₂ with he | ⟨_, r₃, h₃, he⟩
  · exact Or.inl (he.trans (h₂.trans h₁))
  rw [he]
  rcases (frame_check a.reloads).bind_cases _ r₃ with he | ⟨_, r₄, h₄, he⟩
  · exact Or.inl (he.trans (h₃.trans (h₂.trans h₁)))
  rw [he]
  have hown : own r₄ = own r := h₄.trans (h₃.trans (h₂.trans h₁))
  have hcur : r₄.current = none := (congrArg (fun o => o.2.2) hown).trans h
  unfold ScriptRunner.run
  rw [bind_of_ok (stop_idle hcur)]
  cases a.loads with
  | false => exact Or.inl hown
  | true =>
    right
    obtain ⟨htasks, hnext⟩ : r₄.tasks = r.tasks ∧ r₄.next = r.next :=
      ⟨congrArg (fun o => o.1) hown, congrArg (fun o => o.2.1) hown⟩
    show own (left (submit a.isLoop true r₄)) = _
    rw [← htasks, ← hnext]
    rfl

theorem left_stopScript {r : ScriptRunner P O} {task : ℕ} (h : r.current = some task) :
    left (stopScript r) = left (ScriptRunner.stop r) := by
  have hl := left_stop h
  unfold stopScript
  rw [bind_run]
  cases hs : ScriptRunner.stop r with
  | error e r' => rfl
  | ok u r' =>
    rw [hs] at hl
    have hcur : r'.current = none := by rw [show r' = _ from hl]
    show left (ScriptRunner.stop r') = r'
    rw [stop_idle hcur]
    rfl

theorem run_idle (a : Attempt P) {r : ScriptRunner P O} (h : r.current = none) :
    MainPanel.run a r = runScript a r := by
  unfold MainPanel.run
  rw [get_bind_run, isRunning, h]
  rfl

theorem run_running (a : Attempt P) {r : ScriptRunner P O} {task : ℕ} (h : r.current = some task) :
    MainPanel.run a r = stopScript r := by
  unfold MainPanel.run
  rw [get_bind_run, isRunning, h]
  rfl

/-- The current task is stopped, if there is one. -/
def Stops (r r' : ScriptRunner P O) (task : ℕ) : Prop :=
  own r' = (Function.update r.tasks task ((r.tasks task).map fun t => t.stop.cancel), r.next, none)

/-- A new task is submitted. -/
def Starts (r r' : ScriptRunner P O) (isLoop : Bool) : Prop :=
  own r' = (Function.update r.tasks r.next (some (.submitted isLoop true)), r.next + 1, some r.next)

/-- A click: nothing happens to the tasks, or the current one is stopped, or a new
one is submitted when there was none. -/
theorem run_cases (a : Attempt P) (r : ScriptRunner P O) :
    own (left (MainPanel.run a r)) = own r ∨
    (∃ task, r.current = some task ∧ Stops r (left (MainPanel.run a r)) task) ∨
    (r.current = none ∧ Starts r (left (MainPanel.run a r)) a.isLoop) := by
  cases h : r.current with
  | none =>
    rw [run_idle a h]
    exact (own_runScript a h).imp_right fun hs => Or.inr ⟨rfl, hs⟩
  | some task =>
    rw [run_running a h, left_stopScript h, left_stop h]
    exact Or.inr (Or.inl ⟨task, rfl, rfl⟩)

/-! ### Events -/

/-- The runner, the tasks whose `enableScripts` has been posted and not delivered,
the tasks stopped so far, and for each task those stopped before it was
started. -/
structure State (P O : Type) where
  runner : ScriptRunner P O
  queue : List ℕ
  stopped : List ℕ
  before : ℕ → List ℕ

def start (service : ControllerService P O) : State P O := ⟨.init service, [], [], fun _ => []⟩

/-- A click on the button, a step of a task's thread, the delivery of the first
posted event, a call on the controller. -/
inductive Action (P O : Type)
  | click (a : Attempt P)
  | thread (task : ℕ) (m : ScriptTask.Move)
  | deliver
  | drive (op : Op O)

/-- The runner after an event of the user interface. -/
def State.after (s : State P O) (r : ScriptRunner P O) : State P O :=
  let stopped := s.stopped ++ s.runner.current.toList.filter fun task => r.current ≠ some task
  { s with
    runner := r
    stopped := stopped
    before := if s.runner.next < r.next then Function.update s.before s.runner.next stopped else s.before }

/-- The thread runs the callback. -/
def posts (t : ScriptTask) : ScriptTask.Move → Bool
  | .go => t.pc = .callback && t.callback
  | _ => false

variable [Stick O] [DecidableEq O]

/-- One event or step. -/
def step (s : State P O) : Action P O → Option (State P O)
  | .click a => some (s.after (left (MainPanel.run a s.runner)))
  | .thread task m =>
    (s.runner.tasks task).bind fun t => (t.step m).map fun t' =>
      { s with
        runner := { s.runner with tasks := Function.update s.runner.tasks task (some t') }
        queue := if posts t m then s.queue ++ [task] else s.queue }
  | .deliver =>
    match s.queue with
    | [] => none
    | _ :: rest => some { s.after (left (enableScripts s.runner)) with queue := rest }
  | .drive op => some { s with runner :=
      { s.runner with controllerService := left (op.exec s.runner.controllerService) } }

/-- Task `b` is neither stopped nor cancelled, and if it is the current one it stays
so, with its protocol attached. -/
structure Spared (s s' : State P O) (b : ℕ) : Prop where
  task : s'.runner.tasks b = s.runner.tasks b
  current : s.runner.current = some b → s'.runner.current = some b
  protocol : s.runner.current = some b →
    s'.runner.controllerService.protocol = s.runner.controllerService.protocol

/-- The delivery of task `a`'s event spares every task started after `a` was
stopped. -/
def Harmless (s : State P O) : Prop :=
  ∀ a rest s', s.queue = a :: rest → step s .deliver = some s' → ∀ b, a ∈ s.before b → Spared s s' b

/-- The task that is current when an event is delivered is the event's own. -/
def OwnEvent (s : State P O) : Prop :=
  ∀ a rest, s.queue = a :: rest → ∀ b ∈ s.runner.current, b = a

/-! ### Whose event it is -/

/-- The current task is the last one started, every other task has been stopped,
and every task was started after all the earlier ones had been stopped. -/
structure Inv (s : State P O) : Prop where
  fresh : ∀ i, s.runner.next ≤ i → s.runner.tasks i = none
  queue_lt : ∀ i ∈ s.queue, i < s.runner.next
  current : ∀ i ∈ s.runner.current, i + 1 = s.runner.next
  stopped : ∀ i < s.runner.next, s.runner.current ≠ some i → i ∈ s.stopped
  stopped_lt : ∀ i ∈ s.stopped, i < s.runner.next
  before : ∀ b ∈ s.runner.current, ∀ i < b, i ∈ s.before b
  before_lt : ∀ b, ∀ i ∈ s.before b, i < b

section Inv

omit [Protocol P O] [Stick O] [DecidableEq O]

theorem own_eq_iff {r : ScriptRunner P O} {tasks : ℕ → Option ScriptTask} {next : ℕ} {current : Option ℕ} :
    own r = (tasks, next, current) ↔ r.tasks = tasks ∧ r.next = next ∧ r.current = current := by
  simp [own]

theorem Inv.after_same {s : State P O} (h : Inv s) {r : ScriptRunner P O} (hr : own r = own s.runner) :
    Inv (s.after r) := by
  obtain ⟨ht, hn, hc⟩ := own_eq_iff.mp hr
  have hst : (s.after r).stopped = s.stopped := by
    unfold State.after
    cases hcur : s.runner.current <;> simp [hc, hcur]
  have hbe : (s.after r).before = s.before := by simp [State.after, hn]
  have hrun : (s.after r).runner = r := rfl
  refine ⟨?_, ?_, ?_, ?_, ?_, ?_, ?_⟩
  · rw [hrun, hn, ht]; exact h.fresh
  · rw [hrun, hn]; exact h.queue_lt
  · rw [hrun, hn, hc]; exact h.current
  · rw [hrun, hn, hc, hst]; exact h.stopped
  · rw [hrun, hn, hst]; exact h.stopped_lt
  · rw [hrun, hc, hbe]; exact h.before
  · rw [hbe]; exact h.before_lt

theorem Inv.after_stops {s : State P O} (h : Inv s) {r : ScriptRunner P O} {task : ℕ}
    (hcur : s.runner.current = some task) (hr : Stops s.runner r task) : Inv (s.after r) := by
  obtain ⟨ht, hn, hc⟩ := own_eq_iff.mp hr
  have htask : task < s.runner.next := by
    have := h.current task hcur
    omega
  have hst : (s.after r).stopped = s.stopped ++ [task] := by
    unfold State.after
    simp [hc, hcur]
  have hbe : (s.after r).before = s.before := by simp [State.after, hn]
  have hrun : (s.after r).runner = r := rfl
  refine ⟨fun i hi => ?_, ?_, ?_, fun i hi _ => ?_, fun i hi => ?_, ?_, ?_⟩
  · rw [hrun, hn] at hi
    rw [hrun, ht, Function.update_of_ne (by omega)]
    exact h.fresh i hi
  · rw [hrun, hn]; exact h.queue_lt
  · rw [hrun, hc]; simp
  · rw [hrun, hn] at hi
    rw [hst, List.mem_append, List.mem_singleton]
    by_cases hi' : i = task
    · exact Or.inr hi'
    · refine Or.inl (h.stopped i hi fun he => hi' ?_)
      rw [hcur] at he
      exact (Option.some.inj he).symm
  · rw [hst, List.mem_append, List.mem_singleton] at hi
    rw [hrun, hn]
    rcases hi with hi | rfl
    · exact h.stopped_lt i hi
    · exact htask
  · rw [hrun, hc]; simp
  · rw [hbe]; exact h.before_lt

theorem Inv.after_starts {s : State P O} (h : Inv s) {r : ScriptRunner P O} {isLoop : Bool}
    (hcur : s.runner.current = none) (hr : Starts s.runner r isLoop) : Inv (s.after r) := by
  obtain ⟨ht, hn, hc⟩ := own_eq_iff.mp hr
  have hst : (s.after r).stopped = s.stopped := by simp [State.after, hcur]
  have hbe : (s.after r).before = Function.update s.before s.runner.next s.stopped := by
    simp [State.after, hcur, hn]
  have hrun : (s.after r).runner = r := rfl
  -- nothing runs, so every task so far has been stopped
  have hall : ∀ i < s.runner.next, i ∈ s.stopped := fun i hi => h.stopped i hi (by simp [hcur])
  refine ⟨fun i hi => ?_, fun i hi => ?_, fun i hi => ?_, fun i hi hne => ?_, fun i hi => ?_,
    fun b hb i hi => ?_, fun b i hi => ?_⟩
  · rw [hrun, hn] at hi
    rw [hrun, ht, Function.update_of_ne (by omega)]
    exact h.fresh i (by omega)
  · have := h.queue_lt i hi
    rw [hrun, hn]
    omega
  · rw [hrun, hc] at hi
    obtain rfl : s.runner.next = i := Option.some.inj hi
    rw [hrun, hn]
  · rw [hrun] at hi hne
    rw [hn] at hi
    rw [hc] at hne
    rw [hst]
    refine hall i ?_
    have : i ≠ s.runner.next := fun he => hne (by rw [he])
    omega
  · rw [hst] at hi
    have := h.stopped_lt i hi
    rw [hrun, hn]
    omega
  · rw [hrun, hc] at hb
    obtain rfl : s.runner.next = b := Option.some.inj hb
    rw [hbe, Function.update_self]
    exact hall i hi
  · rw [hbe] at hi
    by_cases hb : b = s.runner.next
    · subst hb
      rw [Function.update_self] at hi
      exact h.stopped_lt i hi
    · rw [Function.update_of_ne hb] at hi
      exact h.before_lt b i hi

end Inv

theorem inv_step (s : State P O) (a : Action P O) (s' : State P O) (h : Inv s) (_ : anyStep s a)
    (hs : step s a = some s') : Inv s' := by
  cases a with
  | click a =>
    obtain rfl := Option.some.inj hs
    rcases run_cases a s.runner with hr | ⟨task, hc, hr⟩ | ⟨hc, hr⟩
    · exact h.after_same hr
    · exact h.after_stops hc hr
    · exact h.after_starts hc hr
  | thread i m =>
    obtain ⟨t, ht, hs⟩ := Option.bind_eq_some_iff.mp hs
    obtain ⟨t', -, rfl⟩ := Option.map_eq_some_iff.mp hs
    have hlt : i < s.runner.next := by
      by_contra hge
      rw [h.fresh i (not_lt.mp hge)] at ht
      cases ht
    refine ⟨fun j hj => ?_, fun j hj => ?_, h.current, h.stopped, h.stopped_lt, h.before, h.before_lt⟩
    · have hj' : s.runner.next ≤ j := hj
      show Function.update s.runner.tasks i (some t') j = none
      rw [Function.update_of_ne (by omega)]
      exact h.fresh j hj
    · have hj' : j ∈ (if posts t m then s.queue ++ [i] else s.queue) := hj
      split at hj'
      · rw [List.mem_append, List.mem_singleton] at hj'
        rcases hj' with hj' | rfl
        · exact h.queue_lt j hj'
        · exact hlt
      · exact h.queue_lt j hj'
  | deliver =>
    simp only [step] at hs
    split at hs
    · cases hs
    · rename_i a rest hq
      obtain rfl := Option.some.inj hs
      have hinv : Inv (s.after (left (enableScripts s.runner))) := by
        cases hc : s.runner.current with
        | none =>
          refine h.after_same ?_
          rw [show enableScripts s.runner = _ from stop_idle hc]
          rfl
        | some task =>
          refine h.after_stops hc ?_
          rw [show left (enableScripts s.runner) = _ from left_stop hc]
          rfl
      refine ⟨hinv.fresh, fun i hi => hinv.queue_lt i ?_, hinv.current, hinv.stopped, hinv.stopped_lt,
        hinv.before, hinv.before_lt⟩
      show i ∈ s.queue
      rw [hq]
      exact List.mem_cons_of_mem _ hi
  | drive op =>
    obtain rfl := Option.some.inj hs
    exact ⟨h.fresh, h.queue_lt, h.current, h.stopped, h.stopped_lt, h.before, h.before_lt⟩

theorem inv_reach {service : ControllerService P O} {s : State P O}
    (h : Reach step anyStep (start service) s) : Inv s := by
  refine h.invariant ⟨fun _ _ => rfl, ?_, ?_, ?_, ?_, ?_, ?_⟩ inv_step
  all_goals simp [start, init]

/-- In every state reached, the delivery of an event does no harm to the tasks
started after its own was stopped if and only if the task that is current then,
if there is one, is the event's own. -/
theorem harmless_iff {service : ControllerService P O} {s : State P O}
    (h : Reach step anyStep (start service) s) : Harmless s ↔ OwnEvent s := by
  have hinv := inv_reach h
  constructor
  · intro hh a rest hq b hb
    by_contra hne
    have ha : a < s.runner.next := hinv.queue_lt a (by rw [hq]; simp)
    have hb' := hinv.current b hb
    have hab : a ∈ s.before b := hinv.before b hb a (by omega)
    have hs : step s .deliver = some { s.after (left (enableScripts s.runner)) with queue := rest } := by
      simp only [step, hq]
    have hcur := (hh a rest _ hq hs b hab).current hb
    have hnone : (left (enableScripts s.runner)).current = none := by
      rw [show left (enableScripts s.runner) = _ from left_stop hb]
    rw [show (left (enableScripts s.runner)).current = some b from hcur] at hnone
    cases hnone
  · intro ho a rest s' hq hs b hab
    have hlt := hinv.before_lt b a hab
    have hs' : s'.runner = left (enableScripts s.runner) := by
      simp only [step, hq, Option.some.injEq] at hs
      rw [← hs]
      rfl
    cases hc : s.runner.current with
    | none =>
      have hrun : s'.runner = s.runner := by
        rw [hs', show enableScripts s.runner = _ from stop_idle hc]
        rfl
      exact ⟨by rw [hrun], by rw [hrun]; exact id, by rw [hrun]; exact fun _ => rfl⟩
    | some c =>
      obtain rfl : c = a := ho a rest hq c hc
      have hne : s.runner.current ≠ some b := by
        rw [hc]
        intro he
        have := Option.some.inj he
        omega
      refine ⟨?_, fun hb => absurd hb hne, fun hb => absurd hb hne⟩
      rw [hs', show left (enableScripts s.runner) = _ from left_stop hc]
      exact Function.update_of_ne (by omega) _ _

/-- A click on which nothing fails, for a looping script. -/
def ready : Attempt (Pad Empty) where
  selected := true
  opened := .ok Pad.neutral
  connected := .ok true
  found := true
  reloads := true
  loads := true
  isLoop := true

/-- A script ends by itself and its event waits to be delivered. -/
theorem harmless_iff_ended : ∃ s : State (Pad Empty) Empty, Reach step anyStep (start (.init 100)) s ∧
    s.queue = [0] ∧ s.runner.current = some 0 ∧ (Harmless s ↔ OwnEvent s) := by
  have hr : Reach step anyStep (start (.init 100) : State (Pad Empty) Empty) _ :=
    reach_of_run [.click ready, .thread 0 .go, .thread 0 .go, .thread 0 .go, .thread 0 .go,
      .thread 0 (.ends .threw), .thread 0 (.ends .returned), .thread 0 .go] .start rfl
  exact ⟨_, hr, rfl, rfl, harmless_iff hr⟩

/-- Task 0 is stopped while it executes; it unwinds and posts its event; task 1 is
started; the event of task 0 is delivered and stops task 1. -/
theorem late_callback : ¬ ∀ s : State (Pad Empty) Empty,
    Reach step anyStep (start (.init 100)) s → Harmless s := by
  intro h
  have hr : Reach step anyStep (start (.init 100) : State (Pad Empty) Empty) _ :=
    reach_of_run [.click ready, .thread 0 .go, .thread 0 .go, .thread 0 .go, .thread 0 .go, .click ready,
      .thread 0 (.ends .returned), .thread 0 .go, .thread 0 (.ends .returned), .thread 0 .go,
      .click ready] .start rfl
  have hspared := h _ hr 0 [] _ rfl rfl 1 (by decide)
  have hcur : none = some 1 := hspared.current rfl
  cases hcur

end MainPanel
end PGCon
