/-
# A turn of the daemon

What `autoRelease` does as a whole, with one reading of the clock for each test:
it returns, the controls whose expiry is set and not in the future are released,
on the protocol as well as in the arrays, and everything else stays as it was
(`autoRelease_spec`). The two loops are folds of one turn (`passStick`,
`passButton`), and a fold that clears what is due touches each slot once.

Which calls reach the protocol is read off a protocol that writes them down.
-/
import PGCon.Requests
import PGCon.Bookkeeping

namespace PGCon
namespace DueRelease

open Effect ControllerService Requests

/-! ### A protocol whose calls are written down -/

/-- A protocol, and the calls made on it. -/
structure Logged (P O : Type) where
  inner : P
  calls : List (Call O)

namespace Logged

variable {P O : Type} [Protocol P O]

def call (c : Call O) : Java (Logged P O) Unit := fun l =>
  match (c.invoke : Java P Unit) l.inner with
  | .ok _ p => .ok () ⟨p, l.calls ++ [c]⟩
  | .error e p => .error e ⟨p, l.calls ++ [c]⟩

def clear : Java (Logged P O) Unit := fun l =>
  match (Protocol.clear O : Java P Unit) l.inner with
  | .ok _ p => .ok () ⟨p, l.calls⟩
  | .error e p => .error e ⟨p, l.calls⟩

instance : Protocol (Logged P O) O where
  hold b := call (.hold b)
  release b := call (.release b)
  set a := call (.set a)
  clear := clear

theorem call_of_ok {c : Call O} {p p' : P} (h : (c.invoke : Java P Unit) p = .ok () p') (calls : List (Call O)) :
    call c ⟨p, calls⟩ = .ok () ⟨p', calls ++ [c]⟩ := by
  unfold call
  rw [h]

instance [Reliable P O] : Reliable (Logged P O) O where
  hold b l := ⟨Reliable.hold O b l.inner, l.calls ++ [.hold b]⟩
  release b l := ⟨Reliable.release O b l.inner, l.calls ++ [.release (some b)]⟩
  set a l := ⟨Reliable.set a l.inner, l.calls ++ [.set a]⟩
  hold_eq b l := call_of_ok (Reliable.hold_eq b l.inner) l.calls
  release_eq b l := call_of_ok (Reliable.release_eq b l.inner) l.calls
  set_eq a l := call_of_ok (c := .set a) (Reliable.set_eq a l.inner) l.calls

end Logged

/-! ### The daemon's turn, at once -/

section AutoRelease

variable {P O : Type} [Protocol P O] [Reliable P O]

/-- The slots of the hat directions other than `D_TOP` are not used. -/
def HatShared (c : ControllerService P O) : Prop := ∀ b : Button, b.isHat = true → b ≠ .D_TOP → c.buttonExpired b = 0

/-- One turn of the second loop. -/
def passButton (now : Button → ℤ) (c : ControllerService P O) (b : Button) : ControllerService P O :=
  if Due (now b) (c.buttonExpired b) then { c with
    buttonExpired := Function.update c.buttonExpired b 0
    protocol := c.protocol.map (Reliable.release O b)
    hatDirections := if b.isHat then none else c.hatDirections }
  else c

theorem passButton_of_due {now : Button → ℤ} {c : ControllerService P O} {b : Button}
    (h : Due (now b) (c.buttonExpired b)) : passButton now c b = { c with
      buttonExpired := Function.update c.buttonExpired b 0
      protocol := c.protocol.map (Reliable.release O b)
      hatDirections := if b.isHat then none else c.hatDirections } := if_pos h

theorem passButton_of_not_due {now : Button → ℤ} {c : ControllerService P O} {b : Button}
    (h : ¬ Due (now b) (c.buttonExpired b)) : passButton now c b = c := if_neg h

omit [Protocol P O] [Reliable P O] in
/-- A button whose slot holds an expiry has a slot of its own, or is `D_TOP`. -/
theorem HatShared.index {c : ControllerService P O} (hc : HatShared c) {b : Button} (h : c.buttonExpired b ≠ 0) :
    getExpireTimeIndex b = b := by
  unfold getExpireTimeIndex
  split
  · rename_i hb
    by_contra hne
    exact h (hc b hb fun he => hne he.symm)
  · rfl

theorem autoReleaseButton_eq {c : ControllerService P O} (hc : HatShared c) (now : Button → ℤ) (b : Button) :
    autoReleaseButton (now b) b c = .ok () (passButton now c b) := by
  by_cases hdue : Due (now b) (c.buttonExpired b)
  · have hheld := releaseButton_held b c (by rw [hc.index hdue.1]; exact hdue.1)
    rw [hc.index hdue.1] at hheld
    rw [passButton_of_due hdue, ← hheld, autoReleaseButton, get_bind_run, ite_run]
    exact if_pos hdue
  · rw [passButton_of_not_due hdue, autoReleaseButton, get_bind_run, ite_run]
    exact if_neg hdue

theorem buttonExpired_passButton (now : Button → ℤ) (c : ControllerService P O) (a b : Button) :
    (passButton now c a).buttonExpired b =
      if b = a ∧ Due (now b) (c.buttonExpired b) then 0 else c.buttonExpired b := by
  rw [← ite_update c.buttonExpired fun _ => 0]
  unfold passButton
  split <;> rfl

theorem HatShared.passButton {c : ControllerService P O} (hc : HatShared c) (now : Button → ℤ) (a : Button) :
    HatShared (passButton now c a) := by
  intro b hb hne
  rw [buttonExpired_passButton, hc b hb hne]
  exact ite_self 0

theorem forM_autoReleaseButton (now : Button → ℤ) (l : List Button) {c : ControllerService P O}
    (hc : HatShared c) :
    (l.forM fun b => autoReleaseButton (now b) b) c = .ok () (l.foldl (DueRelease.passButton now) c) := by
  induction l generalizing c with
  | nil => rfl
  | cons b l ih => exact (bind_of_ok (autoReleaseButton_eq hc now b)).trans (ih (hc.passButton now b))

theorem hatDirections_passButton {c : ControllerService P O} (hc : HatShared c) (now : Button → ℤ) (a : Button) :
    (passButton now c a).hatDirections =
      if .D_TOP = a ∧ Due (now .D_TOP) (c.buttonExpired .D_TOP) then none else c.hatDirections := by
  by_cases ha : .D_TOP = a
  · subst ha
    by_cases hdue : Due (now .D_TOP) (c.buttonExpired .D_TOP)
    · rw [passButton_of_due hdue]
      exact (if_pos ⟨rfl, hdue⟩).symm
    · rw [passButton_of_not_due hdue, if_neg fun h => hdue h.2]
  · refine Eq.trans ?_ (if_neg fun h => ha h.1).symm
    by_cases hdue : Due (now a) (c.buttonExpired a)
    · have hhat : ¬ a.isHat = true := fun hat => hdue.1 (hc a hat fun he => ha he.symm)
      rw [passButton_of_due hdue]
      exact if_neg hhat
    · rw [passButton_of_not_due hdue]

/-- The second loop, slot by slot. -/
theorem buttonExpired_passed (now : Button → ℤ) (l : List Button) (c : ControllerService P O) (b : Button) :
    (l.foldl (passButton now) c).buttonExpired b =
      if b ∈ l ∧ Due (now b) (c.buttonExpired b) then 0 else c.buttonExpired b :=
  foldl_due (I := fun _ => True) (d := ControllerService.buttonExpired) (y := fun _ => 0) (fun _ _ h => h)
    (fun c _ => buttonExpired_passButton now c) (fun c _ => buttonExpired_passButton now c) l trivial b

theorem hatDirections_passed (now : Button → ℤ) (l : List Button) {c : ControllerService P O} (hc : HatShared c) :
    (l.foldl (passButton now) c).hatDirections =
      if .D_TOP ∈ l ∧ Due (now .D_TOP) (c.buttonExpired .D_TOP) then none else c.hatDirections := by
  -- the direction belongs to the slot of `D_TOP`
  have hd : ∀ c : ControllerService P O, HatShared c → ∀ a b : Button,
      (if b = .D_TOP then (passButton now c a).hatDirections else none) =
        if b = a ∧ Due (now b) (c.buttonExpired b) then none else if b = .D_TOP then c.hatDirections else none := by
    intro c hc a b
    by_cases hb : b = .D_TOP
    · subst hb
      rw [if_pos rfl, if_pos rfl]
      exact hatDirections_passButton hc now a
    · rw [if_neg hb, if_neg hb, ite_self]
  exact foldl_due (d := fun c b => if b = .D_TOP then c.hatDirections else none) (y := fun _ => none)
    (fun _ a h => h.passButton now a) (fun c _ => buttonExpired_passButton now c) hd l hc .D_TOP

/-- What either loop leaves alone. -/
theorem sticks_passed (now : Button → ℤ) (l : List Button) (c : ControllerService P O) :
    (l.foldl (passButton now) c).pressTime = c.pressTime ∧ (l.foldl (passButton now) c).stickExpired = c.stickExpired ∧
      (l.foldl (passButton now) c).stickDirections = c.stickDirections := by
  induction l generalizing c with
  | nil => exact ⟨rfl, rfl, rfl⟩
  | cons a l ih =>
    have hpass : (passButton now c a).pressTime = c.pressTime ∧ (passButton now c a).stickExpired = c.stickExpired ∧
        (passButton now c a).stickDirections = c.stickDirections := by
      unfold passButton
      split <;> exact ⟨rfl, rfl, rfl⟩
    obtain ⟨h₁, h₂, h₃⟩ := ih (passButton now c a)
    exact ⟨h₁.trans hpass.1, h₂.trans hpass.2.1, h₃.trans hpass.2.2⟩

/-- One turn of the first loop. -/
def passStick (now : Sticks → ℤ) (c : ControllerService P O) (i : Sticks) : ControllerService P O :=
  if Due (now i) (c.stickExpired i) then { c with
    stickExpired := Function.update c.stickExpired i 0
    protocol := c.protocol.map (Reliable.set (StickObject.center (O := O) i))
    stickDirections := Function.update c.stickDirections i (.center i) }
  else c

theorem passStick_of_due {now : Sticks → ℤ} {c : ControllerService P O} {i : Sticks}
    (h : Due (now i) (c.stickExpired i)) : passStick now c i = { c with
      stickExpired := Function.update c.stickExpired i 0
      protocol := c.protocol.map (Reliable.set (StickObject.center (O := O) i))
      stickDirections := Function.update c.stickDirections i (.center i) } := if_pos h

theorem passStick_of_not_due {now : Sticks → ℤ} {c : ControllerService P O} {i : Sticks}
    (h : ¬ Due (now i) (c.stickExpired i)) : passStick now c i = c := if_neg h

theorem stickExpired_passStick (now : Sticks → ℤ) (c : ControllerService P O) (a i : Sticks) :
    (passStick now c a).stickExpired i =
      if i = a ∧ Due (now i) (c.stickExpired i) then 0 else c.stickExpired i := by
  rw [← ite_update c.stickExpired fun _ => 0]
  unfold passStick
  split <;> rfl

theorem stickDirections_passStick (now : Sticks → ℤ) (c : ControllerService P O) (a i : Sticks) :
    (passStick now c a).stickDirections i =
      if i = a ∧ Due (now i) (c.stickExpired i) then .center i else c.stickDirections i := by
  rw [← ite_update c.stickDirections StickObject.center]
  unfold passStick
  split <;> rfl

/-- The first loop, slot by slot. -/
theorem stickExpired_passed (now : Sticks → ℤ) (l : List Sticks) (c : ControllerService P O) (i : Sticks) :
    (l.foldl (passStick now) c).stickExpired i =
      if i ∈ l ∧ Due (now i) (c.stickExpired i) then 0 else c.stickExpired i :=
  foldl_due (I := fun _ => True) (d := ControllerService.stickExpired) (y := fun _ => 0) (fun _ _ h => h)
    (fun c _ => stickExpired_passStick now c) (fun c _ => stickExpired_passStick now c) l trivial i

theorem stickDirections_passed (now : Sticks → ℤ) (l : List Sticks) (c : ControllerService P O) (i : Sticks) :
    (l.foldl (passStick now) c).stickDirections i =
      if i ∈ l ∧ Due (now i) (c.stickExpired i) then .center i else c.stickDirections i :=
  foldl_due (I := fun _ => True) (d := ControllerService.stickDirections) (y := StickObject.center) (fun _ _ h => h)
    (fun c _ => stickExpired_passStick now c) (fun c _ => stickDirections_passStick now c) l trivial i

/-- What the first loop leaves alone. -/
theorem buttons_passed (now : Sticks → ℤ) (l : List Sticks) (c : ControllerService P O) :
    (l.foldl (passStick now) c).pressTime = c.pressTime ∧ (l.foldl (passStick now) c).buttonExpired = c.buttonExpired ∧
      (l.foldl (passStick now) c).hatDirections = c.hatDirections := by
  induction l generalizing c with
  | nil => exact ⟨rfl, rfl, rfl⟩
  | cons a l ih =>
    have hpass : (passStick now c a).pressTime = c.pressTime ∧ (passStick now c a).buttonExpired = c.buttonExpired ∧
        (passStick now c a).hatDirections = c.hatDirections := by
      unfold passStick
      split <;> exact ⟨rfl, rfl, rfl⟩
    obtain ⟨h₁, h₂, h₃⟩ := ih (passStick now c a)
    exact ⟨h₁.trans hpass.1, h₂.trans hpass.2.1, h₃.trans hpass.2.2⟩

variable [Stick O]

theorem autoReleaseStick_eq (now : Sticks → ℤ) (c : ControllerService P O) (i : Sticks) :
    autoReleaseStick (now i) i c = .ok () (passStick now c i) := by
  by_cases hdue : Due (now i) (c.stickExpired i)
  · have hheld := releaseStick_held (StickObject.center i) c
      (by rw [StickObject.getStick_center]; exact hdue.1)
    rw [StickObject.getStick_center] at hheld
    rw [passStick_of_due hdue, ← hheld, autoReleaseStick, get_bind_run, ite_run]
    exact if_pos hdue
  · rw [passStick_of_not_due hdue, autoReleaseStick, get_bind_run, ite_run]
    exact if_neg hdue

theorem forM_autoReleaseStick (now : Sticks → ℤ) (l : List Sticks) (c : ControllerService P O) :
    (l.forM fun i => autoReleaseStick (now i) i) c = .ok () (l.foldl (passStick now) c) := by
  induction l generalizing c with
  | nil => rfl
  | cons i l ih => exact (bind_of_ok (autoReleaseStick_eq now c i)).trans (ih _)

/-- `autoRelease` returns, with the turns of the two loops taken. -/
theorem autoRelease_eq (stickNow : Sticks → ℤ) (buttonNow : Button → ℤ) {c : ControllerService P O}
    (hc : HatShared c) : autoRelease stickNow buttonNow c =
      .ok () (NintendoSwitchStandardButton.values.foldl (passButton buttonNow)
        ([Sticks.LEFT, .RIGHT].foldl (passStick stickNow) c)) := by
  have hshared : HatShared ([Sticks.LEFT, .RIGHT].foldl (passStick stickNow) c) := by
    intro b hb hne
    rw [(buttons_passed stickNow _ c).2.1]
    exact hc b hb hne
  exact (bind_of_ok (forM_autoReleaseStick stickNow _ c)).trans (forM_autoReleaseButton buttonNow _ hshared)

end AutoRelease

/-! ### What the daemon releases -/

section Spec

variable {P O : Type}

/-- The calls that release the controls that are due. -/
def dueCalls (stickNow : Sticks → ℤ) (buttonNow : Button → ℤ) (c : ControllerService P O) : List (Call O) :=
  ([Sticks.LEFT, .RIGHT].filter fun i => Due (stickNow i) (c.stickExpired i)).map (fun i => .set (.center i)) ++
    (NintendoSwitchStandardButton.values.filter fun b => Due (buttonNow b) (c.buttonExpired b)).map
      fun b => .release (some b)

/-- The controls that are due are released, and all others left as they are. -/
structure ReleasesDue (stickNow : Sticks → ℤ) (buttonNow : Button → ℤ) (c c' : ControllerService (Logged P O) O) :
    Prop where
  pressTime : c'.pressTime = c.pressTime
  buttonExpired : ∀ b, c'.buttonExpired b =
    if Due (buttonNow b) (c.buttonExpired b) then 0 else c.buttonExpired b
  hatDirections : c'.hatDirections =
    if Due (buttonNow .D_TOP) (c.buttonExpired .D_TOP) then none else c.hatDirections
  stickExpired : ∀ i, c'.stickExpired i = if Due (stickNow i) (c.stickExpired i) then 0 else c.stickExpired i
  stickDirections : ∀ i, c'.stickDirections i =
    if Due (stickNow i) (c.stickExpired i) then .center i else c.stickDirections i
  calls : c'.protocol.map Logged.calls = (c.protocol.map Logged.calls).map (· ++ dueCalls stickNow buttonNow c)

variable [Protocol P O] [Reliable P O]

theorem calls_passButton (now : Button → ℤ) (c : ControllerService (Logged P O) O) (a : Button) :
    (passButton now c a).protocol.map Logged.calls =
      if Due (now a) (c.buttonExpired a) then (c.protocol.map Logged.calls).map (· ++ [.release (some a)])
      else c.protocol.map Logged.calls := by
  by_cases hdue : Due (now a) (c.buttonExpired a)
  · rw [passButton_of_due hdue, if_pos hdue, Option.map_map, Option.map_map]
    rfl
  · rw [passButton_of_not_due hdue, if_neg hdue]

theorem calls_passStick (now : Sticks → ℤ) (c : ControllerService (Logged P O) O) (a : Sticks) :
    (passStick now c a).protocol.map Logged.calls =
      if Due (now a) (c.stickExpired a) then (c.protocol.map Logged.calls).map (· ++ [.set (.center a)])
      else c.protocol.map Logged.calls := by
  by_cases hdue : Due (now a) (c.stickExpired a)
  · rw [passStick_of_due hdue, if_pos hdue, Option.map_map, Option.map_map]
    rfl
  · rw [passStick_of_not_due hdue, if_neg hdue]

theorem calls_passedButtons (now : Button → ℤ) {l : List Button} (hl : l.Nodup)
    (c : ControllerService (Logged P O) O) : (l.foldl (passButton now) c).protocol.map Logged.calls =
      (c.protocol.map Logged.calls).map
        (· ++ (l.filter fun b => Due (now b) (c.buttonExpired b)).map fun b => .release (some b)) :=
  foldl_due_log (I := fun _ => True) (p := fun c : ControllerService (Logged P O) O => c.protocol.map Logged.calls)
    (fun _ _ h => h) (fun c _ => buttonExpired_passButton now c) (fun c _ => calls_passButton now c) hl trivial

theorem calls_passedSticks (now : Sticks → ℤ) {l : List Sticks} (hl : l.Nodup)
    (c : ControllerService (Logged P O) O) : (l.foldl (passStick now) c).protocol.map Logged.calls =
      (c.protocol.map Logged.calls).map
        (· ++ (l.filter fun i => Due (now i) (c.stickExpired i)).map fun i => .set (.center i)) :=
  foldl_due_log (I := fun _ => True) (p := fun c : ControllerService (Logged P O) O => c.protocol.map Logged.calls)
    (fun _ _ h => h) (fun c _ => stickExpired_passStick now c) (fun c _ => calls_passStick now c) hl trivial

theorem autoRelease_spec [Stick O] (stickNow : Sticks → ℤ) (buttonNow : Button → ℤ)
    {c : ControllerService (Logged P O) O} (hc : HatShared c) :
    ∃ c', autoRelease stickNow buttonNow c = .ok () c' ∧ ReleasesDue stickNow buttonNow c c' := by
  have hshared : HatShared ([Sticks.LEFT, .RIGHT].foldl (passStick stickNow) c) := by
    intro b hb hne
    rw [(buttons_passed stickNow _ c).2.1]
    exact hc b hb hne
  have hstick : ∀ i : Sticks, i ∈ [Sticks.LEFT, .RIGHT] := by decide
  obtain ⟨hp, he, hh⟩ := buttons_passed stickNow [Sticks.LEFT, .RIGHT] c
  obtain ⟨hp', hs', hd'⟩ := sticks_passed buttonNow NintendoSwitchStandardButton.values
    ([Sticks.LEFT, .RIGHT].foldl (passStick stickNow) c)
  refine ⟨_, autoRelease_eq stickNow buttonNow hc, hp'.trans hp, fun b => ?_, ?_, fun i => ?_, fun i => ?_, ?_⟩
  · rw [buttonExpired_passed, he]
    simp only [NintendoSwitchStandardButton.mem_values, true_and]
  · rw [hatDirections_passed buttonNow _ hshared, he, hh]
    simp only [NintendoSwitchStandardButton.mem_values, true_and]
  · rw [hs', stickExpired_passed]
    simp only [hstick, true_and]
  · rw [hd', stickDirections_passed]
    simp only [hstick, true_and]
  · rw [calls_passedButtons buttonNow (by decide), calls_passedSticks stickNow (by decide), he, Option.map_map]
    congr 1
    funext log
    exact List.append_assoc _ _ _

end Spec

end DueRelease
end PGCon
