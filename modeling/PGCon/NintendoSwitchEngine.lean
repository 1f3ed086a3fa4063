/-
# The Switch engine

`NintendoSwitchEngineV2`: starting, closing and restarting the game, and the way back
to the main menu.

`restartGame` closes the game and then calls itself, where `startGame` must have been
meant. No call of it ever comes to an end (`restartGame_never_ends`), and a script
whose reset runnable it is never gets to its next `execute`.
-/
import PGCon.Engine
import PGCon.Machine

namespace PGCon
namespace Engine

open Effect Machine

/-- The images `NintendoSwitchEngineV2` and its sub-script look for. -/
inductive Param
  | MAIN_MENU
  | START_GAME_DATA_BACKUP_CHS | START_GAME_DATA_BACKUP_ENG
  | START_GAME_SELECT_USER_CHS | START_GAME_SELECT_USER_ENG
  | SETTING_MENU
  | DATE_CHANGE_MENU_CHS | DATE_CHANGE_MENU_ENG
  | ENABLE_TIME_SYNC_CHS | ENABLE_TIME_SYNC_ENG
  | DATE_SETTING_MENU_CHS | DATE_SETTING_MENU_ENG
  deriving DecidableEq, Repr

/-- `NINTENDO_SWITCH_ENGINE_V_2_SCORE_THRESHOLD`: the value of the `float` `0.7f`. -/
def scoreThreshold : ℚ := 11744051 / 16777216

/-- `result.getSimilarity() > NINTENDO_SWITCH_ENGINE_V_2_SCORE_THRESHOLD`. -/
def isFound (result : ImageResult Param) : Bool := decide (scoreThreshold < result.similarity)

/-- `resultList.getMax()`, dereferenced. -/
def maxOf (results : List (ImageResult Param)) : Method (ImageResult Param) :=
  match getMax results with
  | none => throw (.threw .other)
  | some result => pure result

section

variable (env : Env) (horizon : ℕ)

/-- `goToMainMenu`: `HOME` until the main menu is there, without a limit. -/
def goToMainMenu : Method Unit := do
  let _ ← poll env horizon (detectImage env horizon Param.MAIN_MENU)
    (performAll env horizon [.press .HOME, .sleep 2000]) none none fun result => pure (isFound result)

def closeGame : Method Unit := do
  goToMainMenu env horizon
  performAll env horizon [.press .X, .sleep 300, .press .A, .sleep 5000]

def checkSelectUser : Method Unit := do
  let detect ← detectAll env horizon [Param.START_GAME_SELECT_USER_ENG, .START_GAME_SELECT_USER_CHS]
  let max ← maxOf detect
  if isFound max then performAll env horizon [.press .A, .sleep 1000]

def checkDataBackUp : Method Unit := do
  let detect ← detectAll env horizon [Param.START_GAME_DATA_BACKUP_ENG, .START_GAME_DATA_BACKUP_CHS]
  let max ← maxOf detect
  if isFound max then performAll env horizon [.press .D_RIGHT, .sleep 150, .press .A, .sleep 1000]

def startGame : Method Unit := do
  performAll env horizon [.press .A, .sleep 1000]
  checkSelectUser env horizon
  performAll env horizon [.sleep 1000]
  checkDataBackUp env horizon

/-- `restartGame`, to a depth of `fuel` calls. -/
def restartGameTo : ℕ → Method Unit
  | 0 => throw .pending
  | fuel + 1 => do
    closeGame env horizon
    restartGameTo fuel

/-- `restartGame`: each call performs operations before the next, so there are no more
calls than the horizon has operations. -/
def restartGame : Method Unit := restartGameTo env horizon (horizon + 1)

end

/-! ### No operation is taken back -/

section

variable {env : Env} {horizon : ℕ} {I : World → Prop} (hI : Grows I)
include hI

omit hI in
theorem preserves_maxOf (results : List (ImageResult Param)) : Preserves I (maxOf results) := by
  unfold maxOf
  split
  · exact Preserves.throw _
  · exact Preserves.pure _

theorem preserves_goToMainMenu : Preserves I (goToMainMenu env horizon) :=
  Preserves.bind (hI.poll (hI.detectImage _) (fun _ => Preserves.pure _) (hI.performAll _)) fun _ => Preserves.pure _

theorem preserves_closeGame : Preserves I (closeGame env horizon) :=
  Preserves.bind (preserves_goToMainMenu hI) fun _ => hI.performAll _

theorem preserves_startGame : Preserves I (startGame env horizon) := by
  have hcheck : ∀ (params : List Param) (deeds : List Deed), Preserves I (do
      let detect ← detectAll env horizon params
      let max ← maxOf detect
      if isFound max then performAll env horizon deeds) := fun params deeds =>
    Preserves.bind (hI.detectAll params) fun _ => Preserves.bind (preserves_maxOf _) fun _ =>
      Preserves.ite (hI.performAll deeds) (Preserves.pure _)
  exact Preserves.bind (hI.performAll _) fun _ => Preserves.bind (hcheck _ _) fun _ =>
    Preserves.bind (hI.performAll _) fun _ => hcheck _ _

end

/-! ### Restarting never ends -/

section

variable {env : Env} {horizon : ℕ}

/-- `closeGame` throws nothing of its own. -/
theorem throws_closeGame {P : Stop → Prop} (hpending : P .pending) (hop : Throws P (operation env horizon)) :
    Throws P (closeGame env horizon) := by
  have hmenu : Throws P (goToMainMenu env horizon) :=
    Throws.bind (throws_poll hpending (fun h => absurd rfl h) (throws_detectImage hop _) (fun _ => Throws.pure _)
      (throws_performAll hop _)) fun _ => Throws.pure _
  exact Throws.bind hmenu fun _ => throws_performAll hop _

/-- No depth of calls returns, and what they throw the operations threw. -/
theorem restartGameTo_error {P : Stop → Prop} (hpending : P .pending) (hop : Throws P (operation env horizon)) :
    ∀ (fuel : ℕ) (w : World), ∃ e w', restartGameTo env horizon fuel w = .error e w' ∧ P e
  | 0, w => ⟨.pending, w, rfl, hpending⟩
  | fuel + 1, w => by
    rw [restartGameTo, bind_run]
    cases hclose : closeGame env horizon w with
    | ok a w' => exact restartGameTo_error hpending hop fuel w'
    | error e w' => exact ⟨e, w', rfl, throws_closeGame hpending hop w e w' hclose⟩

theorem restartGame_pending (hfault : ∀ n, env.fault n = none) (horizon : ℕ) (w : World) :
    ∃ w', restartGame env horizon w = .error .pending w' := by
  have hop : Throws (· = .pending) (operation env horizon) := throws_operation rfl fun n e he => by
    rw [hfault] at he
    cases he
  obtain ⟨e, w', h, rfl⟩ := restartGameTo_error (P := (· = .pending)) rfl hop (horizon + 1) w
  exact ⟨w', h⟩

/-! ### It closes the game again and again -/

/-- The games closed so far: `closeGame` is what presses `X`. -/
def closings (w : World) : ℕ := w.deeds.count (.press .X)

/-- The loop of `goToMainMenu` in `w`, the `n`-th comparison just made and the menu `d`
comparisons away. Where it ends does not depend on the horizon. -/
theorem menuLoop_run (hfault : ∀ n, env.fault n = none) (start : ℤ) :
    ∀ (d n : ℕ) (w : World), scoreThreshold < env.similarity (n + d) → w.images = n + 1 →
      ∃ r w', closings w' = closings w ∧ ∀ horizon fuel, w.operations + 3 * d ≤ horizon → d < fuel →
        untilLoop env (detectImage env horizon Param.MAIN_MENU)
          (fun result captured => do return (← pure (isFound result), captured))
          (performAll env horizon [.press .HOME, .sleep 2000]) none none start fuel
          ⟨env.similarity n, .MAIN_MENU⟩ () w = .ok r w' := by
  intro d
  induction d with
  | zero =>
    intro n w hmenu _
    refine ⟨(⟨env.similarity n, .MAIN_MENU⟩, ()), w, rfl, fun horizon fuel _ hfuel => ?_⟩
    obtain ⟨fuel, rfl⟩ := Nat.exists_eq_add_one.mpr hfuel
    have hfound : isFound ⟨env.similarity n, .MAIN_MENU⟩ = true := decide_eq_true hmenu
    simp only [untilLoop, pure_bind, hfound, ↓reduceIte, pure_run]
  | succ d ih =>
    intro n w hmenu himages
    by_cases hnow : scoreThreshold < env.similarity n
    · refine ⟨(⟨env.similarity n, .MAIN_MENU⟩, ()), w, rfl, fun horizon fuel _ hfuel => ?_⟩
      obtain ⟨fuel, rfl⟩ := Nat.exists_eq_add_one.mpr (Nat.zero_lt_of_lt hfuel)
      have hfound : isFound ⟨env.similarity n, .MAIN_MENU⟩ = true := decide_eq_true hnow
      simp only [untilLoop, pure_bind, hfound, ↓reduceIte, pure_run]
    · -- one more round: `HOME`, a sleep, and the next comparison
      obtain ⟨r, w', hclosings, hrun⟩ := ih (n + 1)
        { w with operations := w.operations + 2 + 1, images := w.images + 1,
                 deeds := w.deeds ++ [.press .HOME, .sleep 2000] }
        (by rwa [Nat.add_assoc, Nat.add_comm 1 d]) (by rw [himages])
      refine ⟨r, w', ?_, fun horizon fuel hhorizon hfuel => ?_⟩
      · rw [hclosings, closings, List.count_append]
        rfl
      · obtain ⟨fuel, rfl⟩ := Nat.exists_eq_add_one.mpr (Nat.zero_lt_of_lt hfuel)
        have hfound : isFound ⟨env.similarity n, .MAIN_MENU⟩ = false := decide_eq_false hnow
        simp only [untilLoop, pure_bind, hfound, Bool.false_eq_true, ↓reduceIte, checkTime]
        rw [bind_of_ok (performAll_of_le hfault _ w (by simp only [List.length_cons, List.length_nil]; omega))]
        rw [bind_of_ok (detectImage_of_lt hfault (by simp only [List.length_cons, List.length_nil]; omega) _)]
        have hnext := hrun horizon fuel (by dsimp only; omega) (by omega)
        rw [← himages] at hnext
        exact hnext

/-- With the menu coming up, `closeGame` returns, the same way at every horizon large
enough, and has closed the game once. -/
theorem closeGame_returns (hfault : ∀ n, env.fault n = none) {w : World} {d : ℕ}
    (hmenu : scoreThreshold < env.similarity (w.images + d)) :
    ∃ (w' : World) (enough : ℕ), closings w' = closings w + 1 ∧
      ∀ horizon, enough ≤ horizon → closeGame env horizon w = .ok () w' := by
  obtain ⟨r, w', hclosings, hrun⟩ := menuLoop_run hfault (env.clock w.clocks) d w.images
    { w with operations := w.operations + 1, images := w.images + 1, clocks := w.clocks + 1 } hmenu rfl
  refine ⟨{ w' with operations := w'.operations + 4,
                    deeds := w'.deeds ++ [.press .X, .sleep 300, .press .A, .sleep 5000] },
    w.operations + 1 + 3 * d + d + w'.operations + 4, ?_, fun horizon hle => ?_⟩
  · have hw : closings w' = closings w := hclosings
    rw [← hw, closings, closings, List.count_append]
    rfl
  · have hgo : goToMainMenu env horizon w = .ok () w' := by
      have hloop := hrun horizon (horizon + 1) (by dsimp only; omega) (by omega)
      have hdetect := detectImage_of_lt (w := w) hfault (by omega : w.operations < horizon) Param.MAIN_MENU
      rw [goToMainMenu, bind_of_ok (poll_of_ok hdetect hloop)]
      rfl
    rw [closeGame, bind_of_ok hgo]
    exact performAll_of_le hfault _ w' (by simp only [List.length_cons, List.length_nil]; omega)

/-- Closings are never taken back. -/
theorem closings_le_left (n fuel : ℕ) : Preserves (n ≤ closings ·) (restartGameTo env horizon fuel) := by
  have hgrows : Grows (n ≤ closings ·) := grows_count _ n
  induction fuel with
  | zero => exact Preserves.throw _
  | succ fuel ih => exact Preserves.bind (preserves_closeGame hgrows) fun _ => ih

/-- With the main menu always coming up again, a restart closes the game as often as one
likes, and is still not done. -/
theorem restartGame_closes (hfault : ∀ n, env.fault n = none)
    (hmenu : ∀ n, ∃ d, scoreThreshold < env.similarity (n + d)) (n : ℕ) :
    ∀ w : World, ∃ enough : ℕ, ∀ horizon fuel, enough ≤ horizon → n ≤ fuel →
      closings w + n ≤ closings (left (restartGameTo env horizon fuel w)) := by
  induction n with
  | zero => exact fun w => ⟨0, fun horizon fuel _ _ => closings_le_left (closings w) fuel w le_rfl⟩
  | succ n ih =>
    intro w
    obtain ⟨d, hd⟩ := hmenu w.images
    obtain ⟨w', enough, hone, hclose⟩ := closeGame_returns hfault hd
    obtain ⟨enough', hrest⟩ := ih w'
    refine ⟨enough + enough', fun horizon fuel hle hfuel => ?_⟩
    obtain ⟨fuel, rfl⟩ := Nat.exists_eq_add_one.mpr (Nat.zero_lt_of_lt hfuel)
    have hmore := hrest horizon fuel (by omega) (by omega)
    rw [restartGameTo, bind_of_ok (hclose horizon (by omega))]
    omega

end

/-! ### The script that asked for it -/

/-- How a method that starts in `w` can end, at whatever horizon. -/
def CanEnd (method : ℕ → Method Unit) (w : World) (o : Outcome) : Prop :=
  ∃ horizon w', (o = .returned ∧ method horizon w = .ok () w') ∨
    ∃ e, o = e.outcome ∧ method horizon w = .error (.threw e) w'

/-- The steps of a task whose runnable `r` is `method`, started in `w`. -/
def running (method : ℕ → Method Unit) (w : World) (r : Runnable) (t : ScriptTask) (m : ScriptTask.Move) : Prop :=
  ∀ o, m = .ends o → t.pc = .resetting r → CanEnd method w o

/-- The thread is inside `r`, and has done nothing else. -/
def Inside (r : Runnable) (trace : List Event) (t : ScriptTask) : Prop := t.pc = .resetting r ∧ t.trace = trace

/-- A thread inside a runnable that does not end stays there. -/
theorem stays_resetting {method : ℕ → Method Unit} {w : World} {r : Runnable} (hend : ∀ o, ¬ CanEnd method w o)
    {t t' : ScriptTask} (hpc : t.pc = .resetting r)
    (h : Reach ScriptTask.step (running method w r) t t') : Inside r t.trace t' := by
  have hstart : Inside r t.trace t := ⟨hpc, rfl⟩
  refine h.invariant hstart ?_
  rintro s m s' ⟨hs, htrace⟩ hok hstep
  cases m with
  | go => simp [ScriptTask.step, hs] at hstep
  | ends o => exact absurd (hok o rfl hs) (hend o)
  | interrupt flag =>
    simp only [ScriptTask.step, Option.ite_none_right_eq_some, Option.some.injEq] at hstep
    obtain ⟨-, rfl⟩ := hstep
    exact ⟨hs, htrace⟩

/-- Whatever the detections find, `restartGame` does not end, and a looping script whose
reset it is never begins its next `execute`. -/
theorem restartGame_never_ends (env : Env) (hfault : ∀ n, env.fault n = none) (w : World) :
    (∀ horizon, ∃ w', restartGame env horizon w = .error .pending w') ∧
      ∀ (r : Runnable) (t t' : ScriptTask), t.isLoop = true → t.pc = .resetting r →
        Reach ScriptTask.step (running (restartGame env) w r) t t' →
        t'.pc = .resetting r ∧ t'.executions = t.executions := by
  have hend : ∀ o, ¬ CanEnd (restartGame env) w o := by
    rintro o ⟨horizon, w', ⟨-, h⟩ | ⟨e, -, h⟩⟩ <;>
    · obtain ⟨w'', hp⟩ := restartGame_pending hfault horizon w
      rw [hp] at h
      cases h
  refine ⟨fun horizon => restartGame_pending hfault horizon w, fun r t t' _ hpc h => ?_⟩
  obtain ⟨hpc', htrace⟩ := stays_resetting hend hpc h
  exact ⟨hpc', by rw [ScriptTask.executions, htrace, ScriptTask.executions]⟩

/-- The main menu is there at every look. -/
def menuShown : Env where
  similarity := fun _ => 1
  text := fun _ => ""
  clock := fun n => n
  fault := fun _ => none
  digit := fun _ => none

theorem restartGame_never_ends_shown : ∃ w', restartGame menuShown 12 World.start = .error .pending w' :=
  (restartGame_never_ends menuShown (fun _ => rfl) World.start).1 12

/-- The menu is there and every detection returns, and still `restartGame` does not. -/
theorem restartGame_not_ended : ¬ ∀ (env : Env) (w : World), (∀ n, env.fault n = none) →
    (∀ n, ∃ d, scoreThreshold < env.similarity (n + d)) →
    ∃ horizon w', restartGame env horizon w = .ok () w' := by
  intro h
  have hone : scoreThreshold < 1 := by norm_num [scoreThreshold]
  obtain ⟨horizon, w', hret⟩ := h menuShown World.start (fun _ => rfl) fun _ => ⟨0, hone⟩
  have hfault : ∀ n, menuShown.fault n = none := fun _ => rfl
  obtain ⟨w'', hpending⟩ := restartGame_pending hfault horizon World.start
  rw [hpending] at hret
  cases hret

end Engine
end PGCon
