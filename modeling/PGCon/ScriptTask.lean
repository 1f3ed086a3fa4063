/-
# A script's thread

`ScriptTask.run`, as the thread of the pool that executes it goes through it:
`running.set(isLoop)`, then the loop of `reset`, `execute` and the two tests,
and in the end `destroy` and the callback. Every read and write of something
another thread can see is a step of its own.

What the script's own code does is up to the script: `execute`, a reset runnable
and `destroy` end in any way an `Outcome` allows, and the interrupt flag of the
thread can be consumed or raised inside them (a `sleep` that throws
`InterruptedException` consumes it, and a script may swallow the exception).
-/
import Mathlib

namespace PGCon

/-- `Runnable` objects, told apart by identity. -/
abbrev Runnable := ℕ

/-- How a piece of a script's code ends. `InterruptScriptException` extends
`ResetScriptException` and is caught first. -/
inductive Outcome
  | returned
  | resetScript (runnable : Option Runnable)
  | interruptScript
  | threw
  deriving DecidableEq, Repr

/-- Where the thread stands. -/
inductive PC
  /-- in the executor's queue -/
  | submitted
  /-- about to `running.set(isLoop)` -/
  | enter
  /-- about to look at `reset` -/
  | reset
  /-- inside `reset.run()` -/
  | resetting (runnable : Runnable)
  /-- about to call `script.execute()` -/
  | execute
  /-- between entering and leaving `script.execute()` -/
  | executing
  /-- about to read `running` -/
  | testRunning
  /-- `running` was read true: about to call `Thread.interrupted()` -/
  | testInterrupted
  /-- in the `finally` block, inside `script.destroy()` -/
  | destroy
  /-- about to run the callback -/
  | callback
  | done
  /-- cancelled before it was started: the thread never enters `run` -/
  | cancelled
  deriving DecidableEq, Repr

namespace PC

/-- The thread is in code of the script. -/
def inScript : PC → Bool
  | .resetting _ | .executing | .destroy => true
  | _ => false

/-- The task may still call `execute`, or is in it. -/
def inLoop : PC → Bool
  | .destroy | .callback | .done | .cancelled => false
  | _ => true

/-- The executions still to come once `running` is false for good. -/
def pending : PC → ℕ
  | .submitted | .enter | .reset | .resetting _ | .execute | .testInterrupted => 1
  | _ => 0

theorem pending_le (pc : PC) : pc.pending ≤ 1 := by
  cases pc <;> simp [pending]

end PC

/-- What a task has done. -/
inductive Event
  | reset (runnable : Runnable)
  | execute
  | destroy
  | callback
  deriving DecidableEq, Repr

/-- `ScriptTask`, with the thread it runs in and its history. -/
structure ScriptTask where
  /-- `script.getInfo().isLoop()` -/
  isLoop : Bool
  /-- `callback != null` -/
  callback : Bool
  running : Bool
  reset : Option Runnable
  pc : PC
  /-- the interrupt flag of the thread -/
  interrupted : Bool
  trace : List Event
  deriving DecidableEq, Repr

namespace ScriptTask

/-- After the constructor, handed to the executor. -/
def submitted (isLoop callback : Bool) : ScriptTask where
  isLoop := isLoop
  callback := callback
  running := false
  reset := none
  pc := .submitted
  interrupted := false
  trace := []

/-- `stop`. -/
def stop (t : ScriptTask) : ScriptTask := { t with running := false }

/-- `cancel(true)` on the future of the task: a task that has not started never
will, a running one is interrupted. -/
def cancel (t : ScriptTask) : ScriptTask :=
  match t.pc with
  | .submitted => { t with pc := .cancelled }
  | .done | .cancelled => t
  | _ => { t with interrupted := true }

/-- A step of the thread: the statement it stands at, the end of the script's
code it is in, or a change of the interrupt flag by that code. -/
inductive Move
  | go
  | ends (o : Outcome)
  | interrupt (flag : Bool)
  deriving DecidableEq, Repr

/-- `reset()` or `execute()` ends: it returns and the thread goes on as in `next`,
or its exception is caught or passed on. -/
def leave (t next : ScriptTask) : Outcome → ScriptTask
  | .returned => next
  | .resetScript r => { t with reset := r, pc := .testRunning }
  | .interruptScript | .threw => { t with pc := .destroy }

/-- One step of `run`. -/
def step (t : ScriptTask) : Move → Option ScriptTask
  | .go =>
    match t.pc with
    | .submitted => some { t with pc := .enter }
    | .enter => some { t with running := t.isLoop, pc := .reset }
    | .reset =>
      match t.reset with
      | none => some { t with pc := .execute }
      | some r => some { t with pc := .resetting r, trace := t.trace ++ [.reset r] }
    | .execute => some { t with pc := .executing, trace := t.trace ++ [.execute] }
    | .testRunning => some { t with pc := if t.running then .testInterrupted else .destroy }
    | .testInterrupted =>
      some { t with pc := if t.interrupted then .destroy else .reset, interrupted := false }
    | .callback =>
      some { t with pc := .done, trace := if t.callback then t.trace ++ [.callback] else t.trace }
    | _ => none
  | .ends o =>
    match t.pc with
    | .resetting _ => some (t.leave { t with reset := none, pc := .execute } o)
    | .executing => some (t.leave { t with pc := .testRunning } o)
    | .destroy =>
      -- an exception of `destroy` leaves the `finally` block before the callback
      some { t with pc := if o = .returned then .callback else .done, trace := t.trace ++ [.destroy] }
    | _ => none
  | .interrupt flag => if t.pc.inScript then some { t with interrupted := flag } else none

/-- The number of times `execute` has begun. -/
def executions (t : ScriptTask) : ℕ := t.trace.count .execute

/-! ### What a step does -/

/-- The steps, by where the thread stands. -/
inductive Steps (t : ScriptTask) : ScriptTask → Prop
  | start (h : t.pc = .submitted) : Steps t { t with pc := .enter }
  | setRunning (h : t.pc = .enter) : Steps t { t with running := t.isLoop, pc := .reset }
  | noReset (h : t.pc = .reset) (hr : t.reset = none) : Steps t { t with pc := .execute }
  | runReset (h : t.pc = .reset) (r : Runnable) (hr : t.reset = some r) :
    Steps t { t with pc := .resetting r, trace := t.trace ++ [.reset r] }
  | resetEnds (r : Runnable) (h : t.pc = .resetting r) (o : Outcome) :
    Steps t (t.leave { t with reset := none, pc := .execute } o)
  | begin (h : t.pc = .execute) : Steps t { t with pc := .executing, trace := t.trace ++ [.execute] }
  | executeEnds (h : t.pc = .executing) (o : Outcome) : Steps t (t.leave { t with pc := .testRunning } o)
  | testRunning (h : t.pc = .testRunning) :
    Steps t { t with pc := if t.running then .testInterrupted else .destroy }
  | testInterrupted (h : t.pc = .testInterrupted) :
    Steps t { t with pc := if t.interrupted then .destroy else .reset, interrupted := false }
  | destroyEnds (h : t.pc = .destroy) (o : Outcome) : Steps t
    { t with pc := if o = .returned then .callback else .done, trace := t.trace ++ [.destroy] }
  | callback (h : t.pc = .callback) : Steps t
    { t with pc := .done, trace := if t.callback then t.trace ++ [.callback] else t.trace }
  | interrupt (h : t.pc.inScript = true) (flag : Bool) : Steps t { t with interrupted := flag }

theorem steps_of_step {t t' : ScriptTask} {m : Move} (h : t.step m = some t') : Steps t t' := by
  cases m with
  | go =>
    cases hpc : t.pc with
    | reset =>
      simp only [step, hpc] at h
      split at h
      · rename_i hr
        exact Option.some.inj h ▸ .noReset hpc hr
      · rename_i r hr
        exact Option.some.inj h ▸ .runReset hpc r hr
    | submitted => simp only [step, hpc, Option.some.injEq] at h; exact h ▸ .start hpc
    | enter => simp only [step, hpc, Option.some.injEq] at h; exact h ▸ .setRunning hpc
    | execute => simp only [step, hpc, Option.some.injEq] at h; exact h ▸ .begin hpc
    | testRunning => simp only [step, hpc, Option.some.injEq] at h; exact h ▸ .testRunning hpc
    | testInterrupted => simp only [step, hpc, Option.some.injEq] at h; exact h ▸ .testInterrupted hpc
    | callback => simp only [step, hpc, Option.some.injEq] at h; exact h ▸ .callback hpc
    | _ => simp [step, hpc] at h
  | ends o =>
    cases hpc : t.pc with
    | resetting r => simp only [step, hpc, Option.some.injEq] at h; exact h ▸ .resetEnds r hpc o
    | executing => simp only [step, hpc, Option.some.injEq] at h; exact h ▸ .executeEnds hpc o
    | destroy => simp only [step, hpc, Option.some.injEq] at h; exact h ▸ .destroyEnds hpc o
    | _ => simp [step, hpc] at h
  | interrupt flag =>
    simp only [step] at h
    split at h
    · rename_i hpc
      exact Option.some.inj h ▸ .interrupt hpc flag
    · cases h

/-- A task that has left its loop never comes back to it. -/
theorem Steps.inLoop {t t' : ScriptTask} (h : Steps t t') (hl : t'.pc.inLoop = true) :
    t.pc.inLoop = true := by
  cases h with
  | destroyEnds h o => cases o <;> simp [PC.inLoop] at hl
  | callback h => simp [PC.inLoop] at hl
  | interrupt h flag => exact hl
  | _ => simp [PC.inLoop, *]

theorem cancel_inLoop {t : ScriptTask} (h : t.cancel.pc.inLoop = true) : t.pc.inLoop = true := by
  unfold cancel at h
  split at h <;> first | exact h | cases h

/-! ### How often `execute` begins -/

/-- Executions are never taken back; with `running` false it stays false, and the
executions begun and those still to come do not grow. -/
structure Calms (t t' : ScriptTask) : Prop where
  mono : t.executions ≤ t'.executions
  running : t.running = false → t'.running = false
  bound : t.running = false → t'.executions + t'.pc.pending ≤ t.executions + t.pc.pending

theorem Calms.refl (t : ScriptTask) : Calms t t := ⟨le_rfl, id, fun _ => le_rfl⟩

theorem calms_stop (t : ScriptTask) : Calms t t.stop := ⟨le_rfl, fun _ => rfl, fun _ => le_rfl⟩

theorem calms_cancel (t : ScriptTask) : Calms t t.cancel := by
  unfold cancel
  split
  · exact ⟨le_rfl, id, fun _ => Nat.add_le_add_left (Nat.zero_le _) _⟩
  · exact ⟨le_rfl, id, fun _ => le_rfl⟩
  · exact ⟨le_rfl, id, fun _ => le_rfl⟩
  · exact ⟨le_rfl, id, fun _ => le_rfl⟩

/-- A step calms the task, unless it is the one that sets `running` to true. -/
theorem Steps.calms {t t' : ScriptTask} (h : Steps t t') (he : t.pc = .enter → t.isLoop = false) :
    Calms t t' := by
  cases h with
  | setRunning h => exact ⟨le_rfl, fun _ => he h, fun _ => by simp [executions, PC.pending, h]⟩
  | begin h =>
    refine ⟨by simp [executions], id, fun _ => ?_⟩
    simp [executions, PC.pending, h]
  | resetEnds r h o =>
    cases o <;> exact ⟨le_rfl, id, fun _ => by simp [leave, executions, PC.pending, h]⟩
  | executeEnds h o =>
    cases o <;> exact ⟨le_rfl, id, fun _ => by simp [leave, executions, PC.pending, h]⟩
  | testRunning h => exact ⟨le_rfl, id, fun hr => by simp [executions, PC.pending, h, hr]⟩
  | testInterrupted h =>
    refine ⟨le_rfl, id, fun _ => ?_⟩
    cases t.interrupted <;> simp [executions, PC.pending, h]
  | destroyEnds h o =>
    refine ⟨by simp [executions], id, fun _ => ?_⟩
    cases o <;> simp [executions, PC.pending, h]
  | callback h =>
    cases hc : t.callback <;>
      exact ⟨by simp [executions], id, fun _ => by simp [executions, PC.pending, h]⟩
  | interrupt h flag => exact ⟨le_rfl, id, fun _ => le_rfl⟩
  | _ => exact ⟨by simp [executions], id, fun _ => by simp [executions, PC.pending, *]⟩

end ScriptTask

end PGCon
