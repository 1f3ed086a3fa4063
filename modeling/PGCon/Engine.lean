/-
# The script engines

What `PGConScriptEngineV1` and `PGConScriptEngineV2` give a script: buttons, `sleep`,
detections, the polling loop `until`, and tasks handed to the executor whose `Future`
is joined later.

A script's code runs against an `Env`: what each detection finds, what each reading
of the clock says, and which of its operations throw. A script may poll for ever, so
a run is looked at up to a horizon, a number of operations; code that is not at its
end by then is `pending`. To return is to return at every horizon large enough, and
to run for ever is to be pending at every horizon.
-/
import PGCon.Effect
import PGCon.Action
import PGCon.ScriptTask

namespace PGCon
namespace Engine

/-- What a script's code throws. -/
inductive Thrown
  | resetScript (runnable : Option Runnable)
  /-- `InterruptScriptException`, a subclass of `ResetScriptException` -/
  | interruptScript
  /-- `ExecutionException`: what `Future.get` throws for a task that threw -/
  | execution (cause : Thrown)
  | other
  deriving DecidableEq, Repr

/-- How `ScriptTask.run` sees an exception: an `ExecutionException` is one of the others. -/
def Thrown.outcome : Thrown → Outcome
  | .resetScript runnable => .resetScript runnable
  | .interruptScript => .interruptScript
  | .execution _ | .other => .threw

/-- `catch (ResetScriptException e)` takes it. -/
def Thrown.isReset : Thrown → Bool
  | .resetScript _ | .interruptScript => true
  | .execution _ | .other => false

/-- Why code is not at its normal end. -/
inductive Stop
  | threw (e : Thrown)
  | pending
  deriving DecidableEq, Repr

/-- What a script does that can be seen from outside. -/
inductive Deed
  | press (action : Button)
  | hold (action : Button)
  | release (action : Button)
  | sleep (millis : ℤ)
  deriving DecidableEq, Repr

/-- What a run meets. -/
structure Env where
  /-- the similarity the `n`-th image comparison finds -/
  similarity : ℕ → ℚ
  /-- the text the `n`-th OCR finds -/
  text : ℕ → String
  /-- the `n`-th answer of `System.currentTimeMillis()` -/
  clock : ℕ → ℤ
  /-- what the `n`-th operation throws -/
  fault : ℕ → Option Thrown
  /-- `Character.digit(c, 10)` -/
  digit : Char → Option ℕ

/-- How far a run is. -/
structure World where
  operations : ℕ
  images : ℕ
  texts : ℕ
  clocks : ℕ
  deeds : List Deed
  deriving DecidableEq, Repr

def World.start : World := ⟨0, 0, 0, 0, []⟩

/-- A method of a script. -/
abbrev Method (α : Type) := EStateM Stop World α

/-- `a - b` for `long`s. -/
def subLong (a b : ℤ) : ℤ := (a - b).bmod (2 ^ 64)

section

variable (env : Env) (horizon : ℕ)

/-! ### Operations -/

/-- One operation on the console: it throws if the environment says so. -/
def operation : Method Unit := do
  let w ← get
  if w.operations < horizon then
    modify fun w => { w with operations := w.operations + 1 }
    match env.fault w.operations with
    | none => pure ()
    | some e => throw (.threw e)
  else throw .pending

def perform (deed : Deed) : Method Unit := do
  operation env horizon
  modify fun w => { w with deeds := w.deeds ++ [deed] }

def sleep (millis : ℤ) : Method Unit := perform env horizon (.sleep millis)

def currentTimeMillis : Method ℤ := do
  let w ← get
  modify fun w => { w with clocks := w.clocks + 1 }
  return env.clock w.clocks

/-- `ImageCompare.Result`: the similarity, and the parameter looked for. -/
structure ImageResult (P : Type) where
  similarity : ℚ
  param : P
  deriving DecidableEq, Repr

/-- `detect(ImageCompare.Param)`. -/
def detectImage {P : Type} (param : P) : Method (ImageResult P) := do
  operation env horizon
  let w ← get
  modify fun w => { w with images := w.images + 1 }
  return ⟨env.similarity w.images, param⟩

/-- `detect(OCR.Param)`: the text of the result. Which area is read does not matter to
the engine, the texts are whatever the environment says. -/
def detectText : Method String := do
  operation env horizon
  let w ← get
  modify fun w => { w with texts := w.texts + 1 }
  return env.text w.texts

/-- Statements that press buttons and sleep, one after the other. -/
def performAll (deeds : List Deed) : Method Unit := forM deeds (perform env horizon)

/-! ### Tasks of the executor -/

/-- `executorService.submit(callable)`: the `Future` keeps what the task returned or threw. -/
def async {R : Type} (task : Method R) : Method (Except Thrown R) := fun w =>
  match task w with
  | .ok r w' => .ok (.ok r) w'
  | .error (.threw e) w' => .ok (.error e) w'
  | .error .pending w' => .error .pending w'

/-- `Future.get()`. -/
def join {R : Type} : Except Thrown R → Method R
  | .ok r => pure r
  | .error e => throw (.threw (.execution e))

/-- `detect(ImageCompare.Param...)`: all comparisons are submitted, then joined in order. -/
def detectAll {P : Type} (params : List P) : Method (List (ImageResult P)) := do
  let detectList ← params.mapM fun param => async (detectImage env horizon param)
  detectList.mapM join

/-- `ResultList.getMax()`: the first of the largest, `null` for no results. -/
def getMax {P : Type} : List (ImageResult P) → Option (ImageResult P)
  | [] => none
  | r :: rs => some (rs.foldl (fun max result => if max.similarity < result.similarity then result else max) r)

/-! ### The polling loop -/

/-- The test of the loop's body: with a limit set the clock is read, and a poll that
takes too long resets the script. -/
def checkTime (maxMillis : Option ℤ) (reset : Option Runnable) (start : ℤ) : Method Unit :=
  match maxMillis with
  | none => pure ()
  | some max => do
    let now ← currentTimeMillis env
    if max < subLong now start then throw (.threw (.resetScript reset))

variable {D C : Type} (supplier : Method D) (checker : D → C → Method (Bool × C)) (action : Method Unit)
  (maxMillis : Option ℤ) (reset : Option Runnable)

/-- `while (!checker.apply(d))`, with what the checker has captured; at most `fuel` checks. -/
def untilLoop (start : ℤ) : ℕ → D → C → Method (D × C)
  | 0, _, _ => throw .pending
  | fuel + 1, d, captured => do
    let (checked, captured) ← checker d captured
    if checked then return (d, captured)
    else
      checkTime env maxMillis reset start
      action
      let d ← supplier
      untilLoop start fuel d captured

/-- `until(supplier, checker, action, maxMillis, reset)`; a `null` action is `pure ()`.
Every supplier of a script performs an operation, so `horizon + 1` checks are as many as
there can be. -/
def untilChecked (captured : C) : Method (D × C) := do
  let d ← supplier
  let start ← currentTimeMillis env
  untilLoop env supplier checker action maxMillis reset start (horizon + 1) d captured

/-- `until` with a checker that captures nothing. -/
def poll (checker : D → Method Bool) : Method D := do
  let (d, _) ← untilChecked env horizon supplier (fun d captured => do return (← checker d, captured)) action maxMillis
    reset ()
  return d

end

/-! ### Running an operation -/

section

variable {env : Env} {horizon : ℕ}

theorem operation_run (w : World) : operation env horizon w =
    if w.operations < horizon then
      match env.fault w.operations with
      | none => .ok () { w with operations := w.operations + 1 }
      | some e => .error (.threw e) { w with operations := w.operations + 1 }
    else .error .pending w := by
  rw [operation, Effect.get_bind_run, Effect.ite_run]
  split
  · rw [Effect.modify_bind_run]
    cases env.fault w.operations <;> rfl
  · rfl

theorem operation_of_lt {w : World} (hfault : ∀ n, env.fault n = none) (h : w.operations < horizon) :
    operation env horizon w = .ok () { w with operations := w.operations + 1 } := by
  rw [operation_run, if_pos h, hfault]

theorem operation_of_le {w : World} (h : horizon ≤ w.operations) :
    operation env horizon w = .error .pending w := by
  rw [operation_run, if_neg (not_lt.mpr h)]

theorem perform_of_lt {w : World} (hfault : ∀ n, env.fault n = none) (h : w.operations < horizon) (deed : Deed) :
    perform env horizon deed w =
      .ok () { w with operations := w.operations + 1, deeds := w.deeds ++ [deed] } := by
  rw [perform, Effect.bind_of_ok (operation_of_lt hfault h)]
  rfl

theorem perform_of_le {w : World} (h : horizon ≤ w.operations) (deed : Deed) :
    perform env horizon deed w = .error .pending w := by
  rw [perform, Effect.bind_run, operation_of_le h]

theorem performAll_of_le (hfault : ∀ n, env.fault n = none) : ∀ (deeds : List Deed) (w : World),
    w.operations + deeds.length ≤ horizon → performAll env horizon deeds w =
      .ok () { w with operations := w.operations + deeds.length, deeds := w.deeds ++ deeds }
  | [], w, _ => by simp [performAll]
  | deed :: deeds, w, h => by
    rw [List.length_cons] at h
    have hrest := performAll_of_le hfault deeds
      { w with operations := w.operations + 1, deeds := w.deeds ++ [deed] } (by dsimp only; omega)
    rw [performAll, List.forM_cons, Effect.bind_of_ok (perform_of_lt hfault (by omega) deed)]
    refine hrest.trans ?_
    simp only [List.length_cons, List.append_assoc, List.singleton_append, Nat.add_assoc, Nat.add_comm 1]

theorem detectImage_of_lt {P : Type} {w : World} (hfault : ∀ n, env.fault n = none) (h : w.operations < horizon)
    (param : P) : detectImage env horizon param w =
      .ok ⟨env.similarity w.images, param⟩ { w with operations := w.operations + 1, images := w.images + 1 } := by
  rw [detectImage, Effect.bind_of_ok (operation_of_lt hfault h)]
  rfl

theorem detectText_of_lt {w : World} (hfault : ∀ n, env.fault n = none) (h : w.operations < horizon) :
    detectText env horizon w =
      .ok (env.text w.texts) { w with operations := w.operations + 1, texts := w.texts + 1 } := by
  rw [detectText, Effect.bind_of_ok (operation_of_lt hfault h)]
  rfl

theorem detectText_of_le {w : World} (h : horizon ≤ w.operations) :
    detectText env horizon w = .error .pending w := by
  rw [detectText, Effect.bind_run, operation_of_le h]

/-- A poll returns what its loop does. -/
theorem poll_of_ok {D : Type} {supplier : Method D} {checker : D → Method Bool} {action : Method Unit}
    {maxMillis : Option ℤ} {reset : Option Runnable} {w w₁ w' : World} {d : D} {r : D × Unit}
    (hsupplier : supplier w = .ok d w₁)
    (hloop : untilLoop env supplier (fun d captured => do return (← checker d, captured)) action maxMillis reset
      (env.clock w₁.clocks) (horizon + 1) d () { w₁ with clocks := w₁.clocks + 1 } = .ok r w') :
    poll env horizon supplier action maxMillis reset checker w = .ok r.1 w' := by
  have hunt : untilChecked env horizon supplier (fun d captured => do return (← checker d, captured)) action
      maxMillis reset () w = .ok r w' := by
    rw [untilChecked, Effect.bind_of_ok hsupplier]
    exact hloop
  rw [poll, Effect.bind_of_ok hunt]
  rfl

/-! ### What the engine can throw -/

open Effect

variable {P : Stop → Prop}

theorem throws_operation (hpending : P .pending) (hfault : ∀ n e, env.fault n = some e → P (.threw e)) :
    Throws P (operation env horizon) := by
  intro w e w' he
  rw [operation_run] at he
  split at he
  · cases hf : env.fault w.operations with
    | none =>
      rw [hf] at he
      cases he
    | some e' =>
      rw [hf] at he
      cases he
      exact hfault _ e' hf
  · cases he
    exact hpending

section

variable (hop : Throws P (operation env horizon))
include hop

theorem throws_performAll (deeds : List Deed) : Throws P (performAll env horizon deeds) :=
  Throws.forM (fun _ => Throws.bind hop fun _ => Throws.assign _) deeds

theorem throws_detectImage {Q : Type} (param : Q) : Throws P (detectImage env horizon param) :=
  Throws.bind hop fun _ => Throws.get_bind fun _ => Throws.bind (Throws.assign _) fun _ => Throws.pure _

end

theorem throws_checkTime {maxMillis : Option ℤ} {reset : Option Runnable}
    (hreset : maxMillis ≠ none → P (.threw (.resetScript reset))) (start : ℤ) :
    Throws P (checkTime env maxMillis reset start) := by
  cases maxMillis with
  | none => exact Throws.pure _
  | some max =>
    refine Throws.bind (Throws.get_bind fun _ => Throws.bind (Throws.assign _) fun _ => Throws.pure _) fun now => ?_
    exact Throws.ite (Throws.throw (hreset (by simp))) (Throws.pure _)

theorem throws_untilLoop {D C : Type} {supplier : Method D} {checker : D → C → Method (Bool × C)}
    {action : Method Unit} {maxMillis : Option ℤ} {reset : Option Runnable} (hpending : P .pending)
    (hreset : maxMillis ≠ none → P (.threw (.resetScript reset))) (hsupplier : Throws P supplier)
    (hchecker : ∀ d c, Throws P (checker d c)) (haction : Throws P action) (start : ℤ) :
    ∀ fuel d c, Throws P (untilLoop env supplier checker action maxMillis reset start fuel d c)
  | 0, _, _ => Throws.throw hpending
  | fuel + 1, d, c => by
    refine Throws.bind (hchecker d c) fun r => Throws.ite (Throws.pure _) ?_
    refine Throws.bind (throws_checkTime hreset start) fun _ => Throws.bind haction fun _ => ?_
    exact Throws.bind hsupplier fun d' =>
      throws_untilLoop hpending hreset hsupplier hchecker haction start fuel d' r.2

theorem throws_poll {D : Type} {supplier : Method D} {checker : D → Method Bool}
    {action : Method Unit} {maxMillis : Option ℤ} {reset : Option Runnable} (hpending : P .pending)
    (hreset : maxMillis ≠ none → P (.threw (.resetScript reset))) (hsupplier : Throws P supplier)
    (hchecker : ∀ d, Throws P (checker d)) (haction : Throws P action) :
    Throws P (poll env horizon supplier action maxMillis reset checker) := by
  refine Throws.bind (Throws.bind hsupplier fun d => Throws.bind ?_ fun start => ?_) fun _ => Throws.pure _
  · exact Throws.get_bind fun _ => Throws.bind (Throws.assign _) fun _ => Throws.pure _
  · exact throws_untilLoop hpending hreset hsupplier
      (fun d c => Throws.bind (hchecker d) fun _ => Throws.pure _) haction start _ d ()

/-! ### What grows along a run -/

/-- What an operation, a reading and a deed keep. -/
structure Grows (I : World → Prop) : Prop where
  operations : ∀ w, I w → I { w with operations := w.operations + 1 }
  images : ∀ w, I w → I { w with images := w.images + 1 }
  texts : ∀ w, I w → I { w with texts := w.texts + 1 }
  clocks : ∀ w, I w → I { w with clocks := w.clocks + 1 }
  deeds : ∀ w deed, I w → I { w with deeds := w.deeds ++ [deed] }

namespace Grows

variable {I : World → Prop} (hI : Grows I)
include hI

theorem operation : Preserves I (operation env horizon) := by
  intro w hw
  rw [operation_run]
  split
  · cases env.fault w.operations <;> exact hI.operations w hw
  · exact hw

theorem perform (deed : Deed) : Preserves I (perform env horizon deed) :=
  Preserves.bind hI.operation fun _ => Preserves.assign fun w => hI.deeds w deed

theorem performAll (deeds : List Deed) : Preserves I (performAll env horizon deeds) :=
  Preserves.forM hI.perform deeds

theorem detectImage {Q : Type} (param : Q) : Preserves I (detectImage env horizon param) :=
  Preserves.bind hI.operation fun _ => Preserves.get_bind fun _ =>
    Preserves.bind (Preserves.assign hI.images) fun _ => Preserves.pure _

theorem detectText : Preserves I (detectText env horizon) :=
  Preserves.bind hI.operation fun _ => Preserves.get_bind fun _ =>
    Preserves.bind (Preserves.assign hI.texts) fun _ => Preserves.pure _

theorem currentTimeMillis : Preserves I (currentTimeMillis env) :=
  Preserves.get_bind fun _ => Preserves.bind (Preserves.assign hI.clocks) fun _ => Preserves.pure _

omit hI in
theorem async {R : Type} {task : Method R} (h : Preserves I task) : Preserves I (async task) := by
  intro w hw
  have htask := h w hw
  unfold Engine.async
  cases hr : task w with
  | ok r w' =>
    rw [hr] at htask
    exact htask
  | error e w' =>
    rw [hr] at htask
    cases e <;> exact htask

omit hI in
theorem join {R : Type} (result : Except Thrown R) : Preserves I (join result) := by
  cases result with
  | ok r => exact Preserves.pure r
  | error e => exact Preserves.throw _

theorem detectAll {Q : Type} (params : List Q) : Preserves I (detectAll env horizon params) :=
  Preserves.bind (Preserves.mapM (fun param => Grows.async (hI.detectImage param)) params) fun results =>
    Preserves.mapM Grows.join results

theorem checkTime (maxMillis : Option ℤ) (reset : Option Runnable) (start : ℤ) :
    Preserves I (checkTime env maxMillis reset start) := by
  cases maxMillis with
  | none => exact Preserves.pure _
  | some max => exact Preserves.bind hI.currentTimeMillis fun _ =>
      Preserves.ite (Preserves.throw _) (Preserves.pure _)

variable {D C : Type} {supplier : Method D} {action : Method Unit} {maxMillis : Option ℤ} {reset : Option Runnable}

theorem untilLoop {checker : D → C → Method (Bool × C)} (hsupplier : Preserves I supplier)
    (hchecker : ∀ d c, Preserves I (checker d c)) (haction : Preserves I action) (start : ℤ) :
    ∀ fuel d c, Preserves I (untilLoop env supplier checker action maxMillis reset start fuel d c)
  | 0, _, _ => Preserves.throw _
  | fuel + 1, d, c => by
    refine Preserves.bind (hchecker d c) fun r => Preserves.ite (Preserves.pure _) ?_
    refine Preserves.bind (hI.checkTime maxMillis reset start) fun _ => Preserves.bind haction fun _ => ?_
    exact Preserves.bind hsupplier fun d' => untilLoop hsupplier hchecker haction start fuel d' r.2

theorem untilChecked {checker : D → C → Method (Bool × C)} (hsupplier : Preserves I supplier)
    (hchecker : ∀ d c, Preserves I (checker d c)) (haction : Preserves I action) (captured : C) :
    Preserves I (untilChecked env horizon supplier checker action maxMillis reset captured) :=
  Preserves.bind hsupplier fun d => Preserves.bind hI.currentTimeMillis fun start =>
    hI.untilLoop hsupplier hchecker haction start _ d captured

theorem poll {checker : D → Method Bool} (hsupplier : Preserves I supplier)
    (hchecker : ∀ d, Preserves I (checker d)) (haction : Preserves I action) :
    Preserves I (poll env horizon supplier action maxMillis reset checker) :=
  Preserves.bind (hI.untilChecked hsupplier (fun d _ => Preserves.bind (hchecker d) fun _ => Preserves.pure _)
    haction ()) fun _ => Preserves.pure _

end Grows

/-- Operations are never taken back. -/
theorem grows_operations (n : ℕ) : Grows (n ≤ ·.operations) :=
  ⟨fun _ h => Nat.le_succ_of_le h, fun _ h => h, fun _ h => h, fun _ h => h, fun _ _ h => h⟩

/-- Nor are deeds. -/
theorem grows_count (deed : Deed) (n : ℕ) : Grows (n ≤ ·.deeds.count deed) :=
  ⟨fun _ h => h, fun _ h => h, fun _ h => h, fun _ h => h, fun w d h => by
    rw [List.count_append]
    exact Nat.le_add_right_of_le h⟩

end

end Engine
end PGCon
