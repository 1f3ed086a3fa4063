/-
# Scripts called by scripts

`PGConScriptEngineV1.script` looks a script up by the name of its class and runs a
`ScriptTask` for it on the thread of the caller. What the caller learns is whether
`run` returns or throws, and `run` throws only what it does not catch: a reset the
sub-script asks for and an `InterruptScriptException` are caught. A looping script
would go on with the reset; for one that does not loop the round is over, and
`script` returns as if nothing had happened (`returns_iff_succeeded`).
-/
import PGCon.ExactlyOnce
import PGCon.ScriptRegistry

namespace PGCon
namespace SubScript

open Machine ScriptTask ExactlyOnce ScriptRegistry

/-- A call of `ScriptTask.run`. -/
structure Call where
  state : ExactlyOnce.State
  /-- How the pieces of script code ended, `destroy` included. -/
  ends : List Outcome
  /-- An exception is on its way out of `run`. -/
  throwing : Bool
  deriving DecidableEq, Repr

/-- The end of a piece of script code, if the step is one. -/
def outcome? : Action → Option Outcome
  | .thread (.ends o) => some o
  | _ => none

/-- Whether the end of a piece of script code makes `run` throw: of `execute` and the
reset runnables only what is not caught does, of `destroy` everything. -/
def escapes (pc : PC) (o : Outcome) : Bool := if pc = .destroy then o ≠ .returned else o = .threw

def step (c : Call) (a : Action) : Option Call :=
  (ExactlyOnce.step c.state a).map fun s => {
    state := s
    ends := c.ends ++ (outcome? a).toList
    throwing := c.throwing || ((outcome? a).map (escapes c.state.task.pc)).getD false }

/-- `new ScriptTask(script).run()`, about to begin. -/
def start (isLoop : Bool) : Call := ⟨ExactlyOnce.start isLoop false, [], false⟩

/-- `script(String)`, up to the call of `run`; `isLoop` is `getInfo().isLoop()` of the
script in a cache. -/
def script (manager : ScriptManager) (isLoop : ℕ → Bool) (scriptName : String) : Except JavaException Call :=
  match manager.getScriptByName scriptName with
  | none => .error .interruptScript
  | some scriptCache => .ok (start (isLoop scriptCache))

/-- The last `execute` completed normally, and every runnable that was asked for has
been run. -/
def Succeeded (c : Call) : Prop :=
  (∃ pre post : List Mark, c.state.history = pre ++ [.did .execute, .ended .returned] ++ post ∧
    .did .execute ∉ post) ∧
  ∀ r, .ended (.resetScript (some r)) ∈ c.state.history → .did (.reset r) ∈ c.state.history

/-! ### A script that does not loop -/

/-- The history of one round, up to the end of `execute`. -/
def round (o : Outcome) : List Mark := [.submitted, .did .execute, .ended o]

/-- Where the thread stands, in a script that does not loop: there is one round, in
which no runnable is pending. -/
def Once (c : Call) : Prop :=
  c.state.task.isLoop = false ∧ c.state.task.callback = false ∧ c.state.task.running = false ∧
  match c.state.task.pc with
  | .submitted | .enter | .reset | .execute =>
    c.state.task.reset = none ∧ c.state.history = [.submitted] ∧ c.ends = [] ∧ c.throwing = false
  | .executing => c.state.history = [.submitted, .did .execute] ∧ c.ends = [] ∧ c.throwing = false
  | .testRunning => ∃ o, o ≠ .threw ∧ c.state.history = round o ∧ c.ends = [o] ∧ c.throwing = false
  | .destroy => ∃ o, c.state.history = round o ∧ c.ends = [o] ∧ c.throwing = decide (o = .threw)
  | .callback => ∃ o, c.state.history = round o ++ [.did .destroy] ∧ c.ends = [o, .returned] ∧
      c.throwing = decide (o = .threw)
  | .done => ∃ o d, c.state.history = round o ++ [.did .destroy] ∧ c.ends = [o, d] ∧
      c.throwing = decide (o = .threw ∨ d ≠ .returned)
  | .resetting _ | .testInterrupted | .cancelled => False

theorem once_start : Once (start false) := ⟨rfl, rfl, rfl, rfl, rfl, rfl, rfl⟩

/-- The thread goes on outside the script's code. -/
theorem once_go {c : Call} {t : ScriptTask} (h : Once c) (ht : c.state.task.step .go = some t) :
    Once { c with state := ⟨t, c.state.history ++ (mark c.state.task .go).toList⟩ } := by
  obtain ⟨⟨task, history⟩, ends, throwing⟩ := c
  obtain ⟨hloop, hcallback, hrunning, hpc'⟩ := h
  dsimp only at *
  have hout := outside_of_go ht
  cases steps_of_step ht with
  | start hpc =>
    simp only [hpc] at hpc'
    exact ⟨hloop, hcallback, hrunning, by simpa [mark, hpc] using hpc'⟩
  | setRunning hpc =>
    simp only [hpc] at hpc'
    exact ⟨hloop, hcallback, hloop, by simpa [mark, hpc] using hpc'⟩
  | noReset hpc hr =>
    simp only [hpc] at hpc'
    exact ⟨hloop, hcallback, hrunning, by simpa [mark, hpc, hr] using hpc'⟩
  | runReset hpc r hr =>
    simp only [hpc] at hpc'
    rw [hpc'.1] at hr
    cases hr
  | begin hpc =>
    simp only [hpc] at hpc'
    obtain ⟨-, rfl, he, hth⟩ := hpc'
    exact ⟨hloop, hcallback, hrunning, by simp [mark, hpc], he, hth⟩
  | testRunning hpc =>
    simp only [hpc] at hpc'
    obtain ⟨o, ho, hh, he, hth⟩ := hpc'
    refine ⟨hloop, hcallback, hrunning, ?_⟩
    simp only [hrunning, Bool.false_eq_true, ↓reduceIte]
    exact ⟨o, by simpa [mark, hpc] using hh, he, by simp [hth, ho]⟩
  | testInterrupted hpc =>
    simp only [hpc] at hpc'
  | callback hpc =>
    simp only [hpc] at hpc'
    obtain ⟨o, hh, he, hth⟩ := hpc'
    exact ⟨hloop, hcallback, hrunning, o, .returned, by simpa [mark, hpc, hcallback] using hh, he, by simp [hth]⟩
  | resetEnds r hpc o => simp [hpc, PC.inScript] at hout
  | executeEnds hpc o => simp [hpc, PC.inScript] at hout
  | destroyEnds hpc o => simp [hpc, PC.inScript] at hout
  | interrupt hpc flag => simp [hpc] at hout

/-- `execute` ends: whatever is caught ends the round. -/
theorem once_leave {task : ScriptTask} (o : Outcome) (hloop : task.isLoop = false) (hcallback : task.callback = false)
    (hrunning : task.running = false) :
    Once ⟨⟨task.leave { task with pc := .testRunning } o, round o⟩, [o], decide (o = .threw)⟩ := by
  cases o with
  | returned => exact ⟨hloop, hcallback, hrunning, .returned, by simp, rfl, rfl, rfl⟩
  | resetScript r => exact ⟨hloop, hcallback, hrunning, .resetScript r, by simp, rfl, rfl, by simp⟩
  | interruptScript => exact ⟨hloop, hcallback, hrunning, .interruptScript, rfl, rfl, rfl⟩
  | threw => exact ⟨hloop, hcallback, hrunning, .threw, rfl, rfl, rfl⟩

/-- The script's code ends. -/
theorem once_ends {c : Call} {t : ScriptTask} {o : Outcome} (h : Once c)
    (ht : c.state.task.step (.ends o) = some t) :
    Once ⟨⟨t, c.state.history ++ (mark c.state.task (.ends o)).toList⟩, c.ends ++ [o],
      c.throwing || escapes c.state.task.pc o⟩ := by
  obtain ⟨⟨task, history⟩, ends, throwing⟩ := c
  obtain ⟨hloop, hcallback, hrunning, hpc'⟩ := h
  dsimp only at *
  cases hpc : task.pc with
  | executing =>
    simp only [hpc] at hpc'
    obtain ⟨rfl, rfl, rfl⟩ := hpc'
    simp only [ScriptTask.step, hpc, Option.some.injEq] at ht
    subst ht
    simpa [mark, hpc, escapes, round] using once_leave o hloop hcallback hrunning
  | destroy =>
    simp only [hpc] at hpc'
    obtain ⟨e, rfl, rfl, rfl⟩ := hpc'
    simp only [ScriptTask.step, hpc, Option.some.injEq] at ht
    subst ht
    refine ⟨hloop, hcallback, hrunning, ?_⟩
    by_cases ho : o = .returned
    · subst ho
      simp only [↓reduceIte]
      exact ⟨e, by simp [mark, hpc], rfl, by simp [escapes]⟩
    · simp only [ho, ↓reduceIte]
      exact ⟨e, o, by simp [mark, hpc], rfl, by simp [escapes, ho]⟩
  | resetting r => simp only [hpc] at hpc'
  | _ => simp [ScriptTask.step, hpc] at ht

theorem once_of_eq {c : Call} {t : ScriptTask} (h : Once c) (hpc : t.pc = c.state.task.pc)
    (hl : t.isLoop = c.state.task.isLoop) (hc : t.callback = c.state.task.callback) (hr : t.reset = c.state.task.reset)
    (hrun : t.running = false) : Once { c with state := ⟨t, c.state.history⟩ } := by
  unfold Once at h ⊢
  dsimp only
  rw [hpc, hl, hc, hr]
  exact ⟨h.1, h.2.1, hrun, h.2.2.2⟩

theorem once_step (c : Call) (a : Action) (c' : Call) (h : Once c) (_ : anyStep c a)
    (hs : step c a = some c') : Once c' := by
  obtain ⟨s, he, rfl⟩ := Option.map_eq_some_iff.mp hs
  rcases a with m | _ | _
  · obtain ⟨t, ht, rfl⟩ := Option.map_eq_some_iff.mp he
    cases m with
    | go => simpa [outcome?] using once_go h ht
    | ends o => simpa [outcome?] using once_ends h ht
    | interrupt flag =>
      simp only [ScriptTask.step, Option.ite_none_right_eq_some, Option.some.injEq] at ht
      obtain ⟨-, rfl⟩ := ht
      have hq := once_of_eq (t := { c.state.task with interrupted := flag }) h rfl rfl rfl rfl h.2.2.1
      simpa [outcome?, mark] using hq
  · cases he
    have hq := once_of_eq (t := c.state.task.stop) h rfl rfl rfl rfl rfl
    simpa [outcome?] using hq
  · cases he
    have hq := once_of_eq (t := { c.state.task with interrupted := true }) h rfl rfl rfl rfl h.2.2.1
    simpa [outcome?] using hq

/-- The sub-script succeeded if and only if its one `execute` returned. -/
theorem succeeded_iff {c : Call} {o : Outcome} (h : c.state.history = round o ++ [.did .destroy]) :
    Succeeded c ↔ o = .returned := by
  unfold Succeeded
  rw [h]
  constructor
  · rintro ⟨⟨pre, post, heq, -⟩, -⟩
    have hmem : Mark.ended .returned ∈ round o ++ [.did .destroy] := by
      rw [heq]
      simp
    simpa [round, eq_comm] using hmem
  · rintro rfl
    exact ⟨⟨[.submitted], [.did .destroy], rfl, by simp⟩, by simp [round]⟩

/-- When a script that does not loop is called by its name, with any outcome of its
`execute` and of its `destroy`: "if `script` returns normally, the sub-script
succeeded" holds if and only if `execute` raised neither a reset nor an interrupt, or
`destroy` threw. -/
theorem returns_iff_succeeded (manager : ScriptManager) (isLoop : ℕ → Bool) (scriptName : String)
    {scriptCache : ℕ} {c₀ c : Call} (hfound : manager.getScriptByName scriptName = some scriptCache)
    (hloop : isLoop scriptCache = false) (hcall : script manager isLoop scriptName = .ok c₀)
    (h : Reach step anyStep c₀ c) (hdone : c.state.task.pc = .done) :
    ∃ o d, c.ends = [o, d] ∧
      ((c.throwing = false → Succeeded c) ↔ o = .returned ∨ o = .threw ∨ d ≠ .returned) := by
  have hstart : c₀ = start false := by
    simp only [script, hfound, hloop, Except.ok.injEq] at hcall
    exact hcall.symm
  subst hstart
  obtain ⟨-, -, -, hpc⟩ := h.invariant once_start once_step
  rw [hdone] at hpc
  obtain ⟨o, d, hh, he, hth⟩ := hpc
  refine ⟨o, d, he, ?_⟩
  rw [succeeded_iff hh, hth, decide_eq_false_iff_not]
  tauto

/-- The registry with one script. -/
def registered : ScriptManager := ⟨fun _ => some 0, fun _ => none, fun _ => none⟩

/-- One round in which `execute` ends like this and `destroy` returns. -/
def roundWith (o : Outcome) : List Action :=
  [.thread .go, .thread .go, .thread .go, .thread .go, .thread (.ends o), .thread .go, .thread (.ends .returned),
    .thread .go]

/-- After it, with what `execute` asked for. -/
def returned (o : Outcome) (reset : Option Runnable) : Call where
  state := {
    task := {
      isLoop := false, callback := false, running := false, reset := reset, pc := .done, interrupted := false,
      trace := [.execute, .destroy] }
    history := round o ++ [.did .destroy] }
  ends := [o, .returned]
  throwing := false

theorem returns_iff_succeeded_once : ∃ o d, (returned .returned none).ends = [o, d] ∧
    (((returned .returned none).throwing = false → Succeeded (returned .returned none)) ↔
      o = .returned ∨ o = .threw ∨ d ≠ .returned) := by
  have hr : run step anyStep (start false) (roundWith .returned) = some (returned .returned none) := by
    decide +kernel
  exact returns_iff_succeeded registered (fun _ => false) "PlusOneDayCHS" rfl rfl rfl (reach_of_run _ .start hr) rfl

/-- The sub-script asks for runnable 3. It is not run, and `script` returns. -/
theorem swallowed : ¬ ∀ c : Call, Reach step anyStep (start false) c → c.state.task.pc = .done →
    c.throwing = false → Succeeded c := by
  intro h
  have hr : run step anyStep (start false) (roundWith (.resetScript (some 3))) =
      some (returned (.resetScript (some 3)) (some 3)) := by decide +kernel
  have hs := h _ (reach_of_run _ .start hr) rfl rfl
  rw [succeeded_iff rfl] at hs
  cases hs

end SubScript
end PGCon
