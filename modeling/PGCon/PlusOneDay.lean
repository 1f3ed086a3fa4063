/-
# Setting the date forward

`PlusOneDaySubScript`, the sub-script of `NintendoSwitchEngineV2` that sets the date of
the console one day on. `execute` is one attempt, and a `catch` that resets and calls
`execute` again.

The `catch` is for `ResetScriptException`. The date is read by three tasks of the
executor, and what a task throws comes out of `Future.get` inside an
`ExecutionException`, which the `catch` lets pass. An `InterruptScriptException`, on the
other hand, is a `ResetScriptException`, and the `catch` takes it. `classified_iff` says
which failures are treated as they should be.
-/
import PGCon.AccurateReading
import PGCon.NintendoSwitchEngine

namespace PGCon
namespace Engine

open Effect

/-! ### Dates -/

def isLeapYear (year : ℤ) : Bool := year % 4 = 0 ∧ (year % 100 ≠ 0 ∨ year % 400 = 0)

def lengthOfMonth (year month : ℤ) : ℤ :=
  if month = 2 then (if isLeapYear year then 29 else 28)
  else if month = 4 ∨ month = 6 ∨ month = 9 ∨ month = 11 then 30 else 31

/-- What `LocalDate` accepts. -/
def IsDate (year month day : ℤ) : Prop :=
  -999999999 ≤ year ∧ year ≤ 999999999 ∧ 1 ≤ month ∧ month ≤ 12 ∧ 1 ≤ day ∧ day ≤ lengthOfMonth year month

instance (year month day : ℤ) : Decidable (IsDate year month day) :=
  inferInstanceAs (Decidable (_ ∧ _ ∧ _ ∧ _ ∧ _ ∧ _))

structure LocalDate where
  year : ℤ
  month : ℤ
  day : ℤ
  valid : IsDate year month day

/-- `LocalDate.of`; `none` is a `DateTimeException`. -/
def LocalDate.of (year month day : ℤ) : Option LocalDate :=
  if h : IsDate year month day then some ⟨year, month, day, h⟩ else none

/-- `plusDays(1)`. -/
def LocalDate.plusOneDay (date : LocalDate) : Option LocalDate :=
  if date.day < lengthOfMonth date.year date.month then LocalDate.of date.year date.month (date.day + 1)
  else if date.month < 12 then LocalDate.of date.year (date.month + 1) 1
  else LocalDate.of (date.year + 1) 1 1

/-- `Long.intValue()`. -/
def intValue (n : ℤ) : ℤ := n.bmod (2 ^ 32)

/-- An object that must not be `null`, or a call that must not throw. -/
def deref {α : Type} : Option α → Method α
  | none => throw (.threw .other)
  | some a => pure a

namespace PlusOneDaySubScript

/-! ### The script -/

/-- `this::reset`. -/
def resetRunnable : Runnable := 0

def checkDateTimes : ℤ := 3
def checkDelay : ℤ := 150
def checkTimeOut : ℤ := 2000

section

variable (env : Env) (horizon : ℕ)

def reset : Method Unit := performAll env horizon [.press .HOME, .sleep 1000, .press .HOME, .sleep 1000]

def init : Method Unit := performAll env horizon [.press .HOME, .sleep 1000]

/-- A poll for one of several images, with the time limit of this script. -/
def pollAny (params : List Param) (action : List Deed) : Method (List (ImageResult Param)) :=
  poll env horizon (detectAll env horizon params) (performAll env horizon action) (some checkTimeOut)
    (some resetRunnable) fun resultList => do
      let max ← maxOf resultList
      return isFound max

def toDateMenu : Method Unit := do
  performAll env horizon [.sleep 150, .press .D_BOTTOM, .sleep 150, .press .D_RIGHT, .sleep 150, .press .D_RIGHT,
    .sleep 150, .press .D_RIGHT, .sleep 150, .press .D_RIGHT, .sleep 150, .press .D_RIGHT, .sleep 150, .press .A,
    .sleep 700]
  let _ ← poll env horizon (detectImage env horizon Param.SETTING_MENU)
    (performAll env horizon [.sleep checkDelay]) (some checkTimeOut) (some resetRunnable)
    fun result => pure (isFound result)
  performAll env horizon [.hold .D_BOTTOM, .sleep 1500, .release .D_BOTTOM, .sleep 150, .press .D_RIGHT, .sleep 150,
    .hold .D_BOTTOM, .sleep 700, .release .D_BOTTOM, .sleep 150, .press .A, .sleep 500]
  let _ ← pollAny env horizon [.DATE_CHANGE_MENU_CHS, .DATE_CHANGE_MENU_ENG] [.sleep checkDelay]

def checkIfDateIsSyncByInternet : Method Unit := do
  let _ ← pollAny env horizon [.ENABLE_TIME_SYNC_CHS, .ENABLE_TIME_SYNC_ENG] [.press .A, .sleep 500]

def toDateSetting : Method Unit :=
  performAll env horizon [.press .D_BOTTOM, .sleep 150, .press .D_BOTTOM, .sleep 250, .press .A, .sleep 150]

/-- A part of the date, read until three readings agree. -/
def readNumber : Method (Option ℤ) :=
  detectAccurateNumber env horizon checkDateTimes (some checkTimeOut) (some resetRunnable)

/-- The date shown: three tasks, submitted together and joined in order. -/
def readDate : Method LocalDate := do
  let yearF ← async (readNumber env horizon)
  let monthF ← async (readNumber env horizon)
  let dayF ← async (readNumber env horizon)
  let year ← join yearF
  let month ← join monthF
  let day ← join dayF
  deref (LocalDate.of (intValue (← deref year)) (intValue (← deref month)) (intValue (← deref day)))

/-- One `D_TOP` if the part of the date changes. -/
def bump (current next : ℤ) : Method Unit :=
  if current ≠ next then performAll env horizon [.press .D_TOP, .sleep 300] else pure ()

/-- `D_TOP` until the day shown is the next one. -/
def bumpDay (current next : ℤ) : Method Unit :=
  if current ≠ next then do
    let _ ← poll env horizon (readNumber env horizon)
      (performAll env horizon [.press .D_TOP, .sleep checkDelay, .sleep checkDelay]) (some 120000)
      (some resetRunnable) fun result => do
        let day ← deref result
        return decide (day = next)
  else pure ()

/-- `press(A); sleep(150);`, some times over. -/
def confirm (times : ℕ) : Method Unit :=
  performAll env horizon (List.replicate times [.press .A, .sleep 150]).flatten

/-- Month, day and year, in the order of the English menu. -/
def plusOneDayENG : Method Unit := do
  let currentDay ← readDate env horizon
  let nextDay ← deref currentDay.plusOneDay
  bump env horizon currentDay.month nextDay.month
  confirm env horizon 1
  bumpDay env horizon currentDay.day nextDay.day
  confirm env horizon 1
  bump env horizon currentDay.year nextDay.year
  confirm env horizon 5

/-- Year, month and day, in the order of the Chinese menu. -/
def plusOneDayCHS : Method Unit := do
  let currentDay ← readDate env horizon
  let nextDay ← deref currentDay.plusOneDay
  bump env horizon currentDay.year nextDay.year
  confirm env horizon 1
  bump env horizon currentDay.month nextDay.month
  confirm env horizon 1
  bumpDay env horizon currentDay.day nextDay.day
  confirm env horizon 4

def plusOneDay : Method Unit := do
  let resultList ← pollAny env horizon [.DATE_SETTING_MENU_CHS, .DATE_SETTING_MENU_ENG] [.sleep checkDelay]
  let result ← maxOf resultList
  if result.param = .DATE_SETTING_MENU_CHS then plusOneDayCHS env horizon
  else if result.param = .DATE_SETTING_MENU_ENG then plusOneDayENG env horizon
  else pure ()

def backToGame : Method Unit := do
  performAll env horizon [.press .HOME, .sleep 1000]
  startGame env horizon

/-- The `try` block of `execute`. -/
def attempt : Method Unit := do
  init env horizon
  goToMainMenu env horizon
  toDateMenu env horizon
  checkIfDateIsSyncByInternet env horizon
  toDateSetting env horizon
  plusOneDay env horizon
  backToGame env horizon

/-- `try … catch (ResetScriptException e)`. -/
def catchReset (body handler : Method Unit) : Method Unit := fun w =>
  match body w with
  | .error (.threw e) w' => if e.isReset then handler w' else .error (.threw e) w'
  | result => result

/-- `execute`, to a depth of `fuel` calls. -/
def executeTo : ℕ → Method Unit
  | 0 => throw .pending
  | fuel + 1 => catchReset (attempt env horizon) do
    reset env horizon
    executeTo fuel

/-- `execute`: every retry presses `HOME` first, so there are no more calls than the
horizon has operations. -/
def execute : Method Unit := executeTo env horizon (horizon + 1)

/-- What the `catch` block does. -/
def retry : Method Unit := do
  reset env horizon
  execute env horizon

end

/-! ### No operation is taken back -/

section

variable {env : Env} {horizon : ℕ} {I : World → Prop} (hI : Grows I)
include hI

theorem preserves_pollAny (params : List Param) (action : List Deed) :
    Preserves I (pollAny env horizon params action) :=
  hI.poll (hI.detectAll params) (fun _ => Preserves.bind (preserves_maxOf _) fun _ => Preserves.pure _)
    (hI.performAll action)

theorem preserves_toDateMenu : Preserves I (toDateMenu env horizon) :=
  Preserves.bind (hI.performAll _) fun _ =>
    Preserves.bind (hI.poll (hI.detectImage _) (fun _ => Preserves.pure _) (hI.performAll _)) fun _ =>
      Preserves.bind (hI.performAll _) fun _ =>
        Preserves.bind (preserves_pollAny hI _ _) fun _ => Preserves.pure _

omit hI in
theorem preserves_deref {α : Type} (a : Option α) : Preserves I (deref a) := by
  cases a with
  | none => exact Preserves.throw _
  | some a => exact Preserves.pure a

omit hI in
theorem preserves_vote {K : Type} [DecidableEq K] (key : String → Option K) (count : ℤ) (input : String)
    (countMap : K → Option ℤ) : Preserves I (vote key count input countMap) := by
  unfold vote
  split
  · exact Preserves.pure _
  · exact Preserves.pure _

theorem preserves_readNumber : Preserves I (readNumber env horizon) :=
  Preserves.bind (Preserves.bind (hI.untilChecked hI.detectText (preserves_vote _ _) (hI.perform _) _)
    fun _ => Preserves.pure _) fun _ => Preserves.pure _

theorem preserves_readDate : Preserves I (readDate env horizon) := by
  have hread : Preserves I (async (readNumber env horizon)) := Grows.async (preserves_readNumber hI)
  refine Preserves.bind hread fun yearF => Preserves.bind hread fun monthF => Preserves.bind hread fun dayF => ?_
  refine Preserves.bind (Grows.join _) fun year => Preserves.bind (Grows.join _) fun month =>
    Preserves.bind (Grows.join _) fun day => ?_
  exact Preserves.bind (preserves_deref _) fun _ => Preserves.bind (preserves_deref _) fun _ =>
    Preserves.bind (preserves_deref _) fun _ => preserves_deref _

theorem preserves_bump (current next : ℤ) : Preserves I (bump env horizon current next) :=
  Preserves.ite (hI.performAll _) (Preserves.pure _)

theorem preserves_bumpDay (current next : ℤ) : Preserves I (bumpDay env horizon current next) := by
  refine Preserves.ite (Preserves.bind ?_ fun _ => Preserves.pure _) (Preserves.pure _)
  exact hI.poll (preserves_readNumber hI)
    (fun _ => Preserves.bind (preserves_deref _) fun _ => Preserves.pure _) (hI.performAll _)

theorem preserves_plusOneDay : Preserves I (plusOneDay env horizon) := by
  have hconfirm : ∀ times, Preserves I (confirm env horizon times) := fun _ => hI.performAll _
  have hdate : ∀ rest : LocalDate → LocalDate → Method Unit, (∀ c n, Preserves I (rest c n)) →
      Preserves I (do
        let currentDay ← readDate env horizon
        let nextDay ← deref currentDay.plusOneDay
        rest currentDay nextDay) := fun rest hrest =>
    Preserves.bind (preserves_readDate hI) fun c => Preserves.bind (preserves_deref _) fun n => hrest c n
  refine Preserves.bind (preserves_pollAny hI _ _) fun resultList => Preserves.bind (preserves_maxOf _) fun result => ?_
  refine Preserves.ite (hdate _ fun c n => ?_) (Preserves.ite (hdate _ fun c n => ?_) (Preserves.pure _))
  · exact Preserves.bind (preserves_bump hI _ _) fun _ => Preserves.bind (hconfirm 1) fun _ =>
      Preserves.bind (preserves_bump hI _ _) fun _ => Preserves.bind (hconfirm 1) fun _ =>
        Preserves.bind (preserves_bumpDay hI _ _) fun _ => hconfirm 4
  · exact Preserves.bind (preserves_bump hI _ _) fun _ => Preserves.bind (hconfirm 1) fun _ =>
      Preserves.bind (preserves_bumpDay hI _ _) fun _ => Preserves.bind (hconfirm 1) fun _ =>
        Preserves.bind (preserves_bump hI _ _) fun _ => hconfirm 5

theorem preserves_attempt : Preserves I (attempt env horizon) :=
  Preserves.bind (hI.performAll _) fun _ => Preserves.bind (preserves_goToMainMenu hI) fun _ =>
    Preserves.bind (preserves_toDateMenu hI) fun _ =>
      Preserves.bind (Preserves.bind (preserves_pollAny hI _ _) fun _ => Preserves.pure _) fun _ =>
        Preserves.bind (hI.performAll _) fun _ => Preserves.bind (preserves_plusOneDay hI) fun _ =>
          Preserves.bind (hI.performAll _) fun _ => preserves_startGame hI

theorem preserves_executeTo (fuel : ℕ) : Preserves I (executeTo env horizon fuel) := by
  induction fuel with
  | zero => exact Preserves.throw _
  | succ fuel ih =>
    intro w hw
    have hbody : I (left (attempt env horizon w)) := preserves_attempt hI w hw
    have hretry : Preserves I (do reset env horizon; executeTo env horizon fuel) :=
      Preserves.bind (hI.performAll _) fun _ => ih
    rw [executeTo, catchReset]
    cases hr : attempt env horizon w with
    | ok a w' =>
      rw [hr] at hbody
      exact hbody
    | error e w' =>
      rw [hr] at hbody
      cases e with
      | pending => exact hbody
      | threw e =>
        dsimp only
        split
        · exact hretry w' hbody
        · exact hbody

end

/-! ### The recursion of `execute` -/

section

variable {env : Env} {horizon : ℕ}

/-- `reset` is not done at the horizon, or has performed an operation. -/
theorem reset_bind_cases (env : Env) (horizon : ℕ) {rest : Method Unit}
    (hrest : ∀ n, Preserves (n ≤ ·.operations) rest) (w : World) :
    (do reset env horizon; rest) w = .error .pending w ∨
      w.operations < horizon ∧ w.operations + 1 ≤ (left ((do reset env horizon; rest) w)).operations := by
  by_cases h : w.operations < horizon
  · refine Or.inr ⟨h, ?_⟩
    have hgrows := grows_operations (w.operations + 1)
    have hop : w.operations + 1 ≤ (left (operation env horizon w)).operations := by
      rw [operation_run, if_pos h]
      cases env.fault w.operations <;> exact le_rfl
    have hperform : w.operations + 1 ≤ (left (perform env horizon (.press .HOME) w)).operations :=
      Preserves.left_bind (fun _ => Preserves.assign fun w => hgrows.deeds w _) hop
    have hreset : w.operations + 1 ≤ (left (reset env horizon w)).operations :=
      Preserves.left_bind (fun _ => Preserves.forM hgrows.perform _) hperform
    exact Preserves.left_bind (fun _ => hrest _) hreset
  · refine Or.inl ?_
    have hpress : perform env horizon (.press .HOME) w = .error .pending w := perform_of_le (not_lt.mp h) _
    rw [bind_run, reset, performAll, List.forM_cons, bind_run, hpress]

/-- A `reset` that returns has performed an operation. -/
theorem reset_advances {w w' : World} {a : Unit} (h : reset env horizon w = .ok a w') :
    w.operations < horizon ∧ w.operations + 1 ≤ w'.operations := by
  have hcases := reset_bind_cases env horizon (fun _ => Preserves.pure ()) w
  rw [bind_pure_unit, h] at hcases
  rcases hcases with hpending | hmore
  · cases hpending
  · exact hmore

theorem attempt_operations {w w' : World} {e : Stop} (h : attempt env horizon w = .error e w') :
    w.operations ≤ w'.operations := by
  have hbody : w.operations ≤ (left (attempt env horizon w)).operations :=
    preserves_attempt (grows_operations w.operations) w le_rfl
  rw [h] at hbody
  exact hbody

/-- A depth that the horizon cannot reach is as good as any other. -/
theorem executeTo_eq : ∀ (fuel fuel' : ℕ) (w : World), horizon - w.operations < fuel →
    horizon - w.operations < fuel' → executeTo env horizon fuel w = executeTo env horizon fuel' w
  | 0, _, _, h, _ => absurd h (Nat.not_lt_zero _)
  | _ + 1, 0, _, _, h => absurd h (Nat.not_lt_zero _)
  | fuel + 1, fuel' + 1, w, h, h' => by
    simp only [executeTo, catchReset]
    cases hr : attempt env horizon w with
    | ok a w' => rfl
    | error e w₁ =>
      cases e with
      | pending => rfl
      | threw e =>
        dsimp only
        split
        · rw [bind_run, bind_run]
          cases hs : reset env horizon w₁ with
          | error e' w₂ => rfl
          | ok a w₂ =>
            have hle := attempt_operations hr
            have hmore := reset_advances hs
            exact executeTo_eq fuel fuel' w₂ (by omega) (by omega)
        · rfl

/-- `execute` is an attempt, and after a reset `execute` again. -/
theorem execute_eq (w : World) :
    execute env horizon w = catchReset (attempt env horizon) (retry env horizon) w := by
  rw [execute, executeTo, catchReset, catchReset]
  cases hr : attempt env horizon w with
  | ok a w' => rfl
  | error e w₁ =>
    cases e with
    | pending => rfl
    | threw e =>
      dsimp only
      split
      · rw [retry, bind_run, bind_run]
        cases hs : reset env horizon w₁ with
        | error e' w₂ => rfl
        | ok a w₂ =>
          have hmore := reset_advances hs
          exact executeTo_eq horizon (horizon + 1) w₂ (by omega) (by omega)
      · rfl

/-- What the `catch` makes of a failed attempt. -/
theorem execute_of_threw {w w' : World} {e : Thrown} (h : attempt env horizon w = .error (.threw e) w') :
    execute env horizon w = if e.isReset then retry env horizon w' else .error (.threw e) w' := by
  rw [execute_eq, catchReset, h]

/-- To try again is not to fail on the spot. -/
theorem retry_ne (e : Thrown) (w : World) : retry env horizon w ≠ .error (.threw e) w := by
  intro h
  have hrest : ∀ n, Preserves (n ≤ ·.operations) (execute env horizon) := fun n =>
    preserves_executeTo (grows_operations n) _
  rcases reset_bind_cases env horizon hrest w with hpending | ⟨-, hmore⟩
  · rw [retry, hpending] at h
    cases h
  · rw [← retry, h] at hmore
    exact absurd hmore (Nat.not_succ_le_self _)

end

/-! ### Which failures are treated as they should be -/

section

variable (env : Env) (horizon : ℕ)

/-- What went wrong in the first place. -/
def cause : Thrown → Thrown
  | .execution e => cause e
  | e => e

/-- An attempt failed with `e` in `w'`: a detection timeout leads to `reset` and a new
attempt, an `InterruptScriptException` leaves `execute` without one. -/
def Classified (w : World) (e : Thrown) (w' : World) : Prop :=
  (∀ runnable, cause e = .resetScript runnable → execute env horizon w = retry env horizon w') ∧
    (cause e = .interruptScript → execute env horizon w = .error (.threw e) w')

/-- A failed attempt is treated as it should be if and only if it is no timeout of a
joined task and no `InterruptScriptException` on the script's own thread. -/
theorem classified_iff {w w' : World} {e : Thrown} (h : attempt env horizon w = .error (.threw e) w') :
    Classified env horizon w e w' ↔
      (∀ runnable, cause e = .resetScript runnable → e = .resetScript runnable) ∧ e ≠ .interruptScript := by
  have hexec := execute_of_threw h
  unfold Classified
  cases e with
  | resetScript r =>
    have hcause : cause (.resetScript r) = .resetScript r := rfl
    simp only [Thrown.isReset, ↓reduceIte] at hexec
    simp [hcause, hexec]
  | interruptScript =>
    have hcause : cause .interruptScript = .interruptScript := rfl
    simp only [Thrown.isReset, ↓reduceIte] at hexec
    simp [hcause, hexec, retry_ne]
  | execution c =>
    have hcause : cause (.execution c) = cause c := rfl
    simp only [Thrown.isReset, Bool.false_eq_true, ↓reduceIte] at hexec
    simp [hcause, hexec, (retry_ne (.execution c) w').symm]
  | other =>
    have hcause : cause .other = .other := rfl
    simp [hcause]

/-- Every image is found, no text can be read, and the clock runs fast. -/
def unreadable : Env where
  similarity := fun _ => 1
  text := fun _ => ""
  clock := fun n => 3000 * n
  fault := fun _ => none
  digit := fun _ => none

/-- The menu of the settings never shows up. -/
def noSettings : Env := { unreadable with similarity := fun n => if n = 0 then 1 else 0 }

/-- The poll for that menu times out on the script's own thread, and `execute` tries again. -/
theorem classified_iff_timeout : ∃ w', attempt noSettings 100 World.start =
      .error (.threw (.resetScript (some resetRunnable))) w' ∧
    Classified noSettings 100 World.start (.resetScript (some resetRunnable)) w' := by
  have hanswer : answer (attempt noSettings 100 World.start) = .error (.threw (.resetScript (some resetRunnable))) := by
    decide +kernel
  cases hr : attempt noSettings 100 World.start with
  | ok a w' =>
    rw [hr] at hanswer
    cases hanswer
  | error e w' =>
    rw [hr] at hanswer
    cases hanswer
    exact ⟨w', rfl, (classified_iff noSettings 100 hr).mpr ⟨fun _ h => h, nofun⟩⟩

/-- The three readings of the date time out, and the timeout leaves `execute`. -/
theorem timeout_escapes : ¬ ∀ (env : Env) (horizon : ℕ) (w w' : World) (e : Thrown),
    attempt env horizon w = .error (.threw e) w' → Classified env horizon w e w' := by
  intro h
  have hanswer : answer (attempt unreadable 100 World.start) =
      .error (.threw (.execution (.resetScript (some resetRunnable)))) := by
    decide +kernel
  cases hr : attempt unreadable 100 World.start with
  | ok a w' =>
    rw [hr] at hanswer
    cases hanswer
  | error e w' =>
    rw [hr] at hanswer
    cases hanswer
    have hretry := (h _ _ _ _ _ hr).1 _ rfl
    rw [execute_of_threw hr] at hretry
    exact retry_ne _ _ hretry.symm

end

end PlusOneDaySubScript
end Engine
end PGCon
