/-
# Running and stopping scripts

`ScriptRunner` keeps the task it has submitted last. `run` stops it, loads the
new script and submits a task for it; `stop` clears the task's flag, forgets the
task, cancels its future and clears the controller. Neither waits for a thread.

The methods hold a monitor, so at most one caller is inside, but the threads of
the pool go on between its statements. The machine below runs one caller's
statements and the threads' steps (`ScriptTask.step`) in any order; the methods
themselves are the uninterrupted execution of the same statements (`stop_eq`,
`run_eq`).
-/
import PGCon.Machine
import PGCon.Controller
import PGCon.ScriptTask

namespace PGCon

open Effect Machine

/-- `ScriptRunner`: the tasks submitted so far, by number, which one is
`currentScriptTask` (with its future in `currentScriptListenable`), and the
controller. -/
structure ScriptRunner (P O : Type) where
  tasks : ℕ → Option ScriptTask
  next : ℕ
  current : Option ℕ
  controllerService : ControllerService P O

namespace ScriptRunner

variable {P O : Type}

/-- Before any script has run. -/
def init (service : ControllerService P O) : ScriptRunner P O := ⟨fun _ => none, 0, none, service⟩

/-- `isRunning`. -/
def isRunning (r : ScriptRunner P O) : Bool := r.current.isSome

/-- A change of one task. -/
def onTask (i : ℕ) (f : ScriptTask → ScriptTask) : Java (ScriptRunner P O) Unit :=
  modify fun r => { r with tasks := Function.update r.tasks i ((r.tasks i).map f) }

/-- A call on the controller. -/
def onController (m : Java (ControllerService P O) Unit) : Java (ScriptRunner P O) Unit := fun r =>
  match m r.controllerService with
  | .ok _ service => .ok () { r with controllerService := service }
  | .error e service => .error e { r with controllerService := service }

/-- `script.load()`, which returns or throws. -/
def load (returns : Bool) : Java (ScriptRunner P O) Unit :=
  if returns then pure () else throw .alertError

/-- `currentScriptTask = new ScriptTask(script, callback)` and its submission. -/
def submit (isLoop callback : Bool) : Java (ScriptRunner P O) Unit :=
  modify fun r => { r with
    tasks := Function.update r.tasks r.next (some (.submitted isLoop callback))
    next := r.next + 1
    current := some r.next }

variable [Protocol P O]

/-- `stop`. -/
def stop : Java (ScriptRunner P O) Unit := do
  match (← get).current with
  | none => pure ()
  | some task =>
    onTask task ScriptTask.stop
    modify fun r => { r with current := none }
    onTask task ScriptTask.cancel
    onController ControllerService.clear

/-- `run`, for a script whose `load` returns or throws. -/
def run (loads isLoop callback : Bool) : Java (ScriptRunner P O) Unit := do
  stop
  load loads
  submit isLoop callback

theorem stop_idle {r : ScriptRunner P O} (h : r.current = none) : stop r = .ok () r := by
  unfold stop
  rw [get_bind_run, h]
  rfl

/-- Whether the controller can be cleared or not, the task is stopped, cancelled
and forgotten. -/
theorem left_stop {r : ScriptRunner P O} {task : ℕ} (h : r.current = some task) :
    left (stop r) = { r with
      tasks := Function.update r.tasks task ((r.tasks task).map fun t => t.stop.cancel)
      current := none
      controllerService := left (ControllerService.clear r.controllerService) } := by
  have hc : ∀ (m : Java (ControllerService P O) Unit) (r : ScriptRunner P O),
      left (onController m r) = { r with controllerService := left (m r.controllerService) } := by
    intro m r
    unfold onController
    cases m r.controllerService <;> rfl
  unfold stop
  rw [get_bind_run, h]
  show left (onController ControllerService.clear _) = _
  rw [hc]
  simp [Function.comp_def]

/-! ### Statement by statement -/

/-- The statements of the two methods, about a task where they name one. -/
inductive Statement
  | stopTask (task : ℕ)
  | dropTask
  | cancel (task : ℕ)
  | clear (task : ℕ)
  | load (returns : Bool)
  | submit (isLoop callback : Bool)
  deriving DecidableEq, Repr

def Statement.isSubmit : Statement → Bool
  | .submit _ _ => true
  | _ => false

/-- What a statement does. -/
def Statement.exec : Statement → Java (ScriptRunner P O) Unit
  | .stopTask task => onTask task ScriptTask.stop
  | .dropTask => modify fun r => { r with current := none }
  | .cancel task => onTask task ScriptTask.cancel
  | .clear _ => onController ControllerService.clear
  | .load returns => ScriptRunner.load returns
  | .submit isLoop callback => ScriptRunner.submit isLoop callback

/-- The statements of `stop`. -/
def stopBody : Option ℕ → List Statement
  | none => []
  | some task => [.stopTask task, .dropTask, .cancel task, .clear task]

/-- The statements of `run`. -/
def runBody (current : Option ℕ) (loads isLoop callback : Bool) : List Statement :=
  stopBody current ++ [.load loads, .submit isLoop callback]

theorem stop_eq (r : ScriptRunner P O) : stop r = forM (stopBody r.current) Statement.exec r := by
  unfold stop
  rw [get_bind_run]
  cases r.current with
  | none => rfl
  | some task =>
    simp only [stopBody, List.forM_cons, List.forM_nil, bind_pure_unit]
    rfl

theorem run_eq (loads isLoop callback : Bool) (r : ScriptRunner P O) :
    run loads isLoop callback r = forM (runBody r.current loads isLoop callback) Statement.exec r := by
  unfold run runBody
  rw [List.forM_append, bind_run, bind_run, stop_eq]
  simp only [List.forM_cons, List.forM_nil, bind_pure_unit]
  rfl

/-- What a statement does to the runner's own fields, also when it throws. -/
def Statement.effect (st : Statement) (r : ScriptRunner P O) : ScriptRunner P O :=
  match st with
  | .stopTask task => { r with tasks := Function.update r.tasks task ((r.tasks task).map ScriptTask.stop) }
  | .dropTask => { r with current := none }
  | .cancel task => { r with tasks := Function.update r.tasks task ((r.tasks task).map ScriptTask.cancel) }
  | .clear _ | .load _ => r
  | .submit isLoop callback => { r with
    tasks := Function.update r.tasks r.next (some (.submitted isLoop callback))
    next := r.next + 1
    current := some r.next }

theorem exec_effect (st : Statement) (r : ScriptRunner P O) :
    ∃ service, left (st.exec r) = { st.effect r with controllerService := service } := by
  cases st with
  | clear task =>
    refine ⟨left (ControllerService.clear r.controllerService), ?_⟩
    unfold Statement.exec onController
    simp only
    cases ControllerService.clear r.controllerService <;> rfl
  | load returns => cases returns <;> exact ⟨_, rfl⟩
  | _ => exact ⟨_, rfl⟩

end ScriptRunner

/-! ### One caller and the threads -/

namespace Interleaved

open ScriptRunner

variable {P O : Type}

/-- The runner, and what the caller inside the monitor still has to execute; for
each task how often it had begun `execute` when `ScriptTask.stop` was called on
it, and when the `ScriptRunner.stop` that did so returned. -/
structure State (P O : Type) where
  runner : ScriptRunner P O
  caller : List Statement
  stopped : ℕ → Option ℕ
  returned : ℕ → Option ℕ

def start (service : ControllerService P O) : State P O := ⟨.init service, [], fun _ => none, fun _ => none⟩

/-- Calls, statements of the caller, steps of the threads, and whatever scripts,
daemon and devices do to the controller meanwhile. -/
inductive Action (P O : Type)
  | run (loads isLoop callback : Bool)
  | stop
  | caller
  | thread (task : ℕ) (m : ScriptTask.Move)
  | controller (service : ControllerService P O)

namespace State

/-- The executions a task has begun. -/
def executions (s : State P O) (task : ℕ) : Option ℕ := (s.runner.tasks task).map ScriptTask.executions

/-- What is noted when a statement has been executed. -/
def note (s : State P O) : Statement → State P O
  | .stopTask task =>
    { s with stopped := Function.update s.stopped task ((s.stopped task).or (s.executions task)) }
  | .clear task => { s with returned := Function.update s.returned task (s.executions task) }
  | _ => s

end State

variable [Protocol P O]

/-- The next statement of the caller. An exception ends the call. -/
def callerStep (s : State P O) : Option (State P O) :=
  match s.caller with
  | [] => none
  | st :: rest =>
    match st.exec s.runner with
    | .ok _ runner => some (State.note { s with runner := runner, caller := rest } st)
    | .error _ runner => some { s with runner := runner, caller := [] }

/-- One step. -/
def step (s : State P O) : Action P O → Option (State P O)
  | .run loads isLoop callback =>
    if s.caller = [] then some { s with caller := runBody s.runner.current loads isLoop callback } else none
  | .stop => if s.caller = [] then some { s with caller := stopBody s.runner.current } else none
  | .caller => callerStep s
  | .thread task m =>
    ((s.runner.tasks task).bind fun t => t.step m).map fun t =>
      { s with runner := { s.runner with tasks := Function.update s.runner.tasks task (some t) } }
  | .controller service => some { s with runner := { s.runner with controllerService := service } }

/-- The caller executes its next statement: it returns and the rest is left, or it
throws. -/
theorem callerStep_cases {s s' : State P O} (h : callerStep s = some s') :
    ∃ st rest service, s.caller = st :: rest ∧
      (s' = State.note
        { s with runner := { st.effect s.runner with controllerService := service }, caller := rest } st ∨
      s' = { s with runner := { st.effect s.runner with controllerService := service }, caller := [] }) := by
  unfold callerStep at h
  split at h
  · cases h
  · rename_i st rest hc
    obtain ⟨service, he⟩ := exec_effect st s.runner
    refine ⟨st, rest, service, hc, ?_⟩
    rw [← he]
    split at h
    · rename_i hr
      rw [hr]
      exact Or.inl (Option.some.inj h).symm
    · rename_i hr
      rw [hr]
      exact Or.inr (Option.some.inj h).symm

omit [Protocol P O] in
theorem note_runner (s : State P O) (st : Statement) : (s.note st).runner = s.runner := by
  cases st <;> rfl

end Interleaved

end PGCon
