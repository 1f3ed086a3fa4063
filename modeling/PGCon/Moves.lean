/-
# Moves

The engine of the Monster Hunter scripts puts the controls together to moves: walk and run for a
time in a direction, turn the camera, jump with a wire bug. A move holds a control, sleeps and
releases it, or presses it and leaves the release to the daemon. Moves follow each other while the
daemon of `PGCon/AutoRelease.lean` is at work, and a move can meet what an earlier one has pressed.

A hold without a limit is only as good as its release. In a list of moves every such hold has one
behind it (`Balanced`), and along every run whatever is held past the time of a press still has its
release to come (`Inv`). So when the script has returned, the daemon has the rest, and one turn of it
leaves the report as it was at first.

A direction in degrees is a stick of the engine's own. It has its bytes for EasyCon and the centre
for PGCon, so the same script moves the stick with the one and not with the other (`Centred`).

The bytes come from a computation in `double`s. The values of the library's functions and the rounding
of a result are a parameter (`JavaMath`), and what is used of them is that they are close to the
functions of the reals (`Accurate`): the cosine of 90 degrees is not zero there, and the byte is 127.
-/
import PGCon.Agreement
import PGCon.Attached
import PGCon.Attachment
import PGCon.AutoRelease
import PGCon.ColorDifference
import PGCon.DueRelease

namespace PGCon
namespace Moves

open Effect Machine Attached ControllerService AutoRelease DueRelease Requests
open ColorDifferenceUtil (toRadians)

/-! ### The engine -/

/-- A button or a stick. -/
inductive Target (O : Type)
  | button (b : Button)
  | stick (a : StickObject O)

/-- What is done to it. -/
inductive Deed
  | press
  | hold
  | release
  deriving DecidableEq, Repr

/-- A call of `press`, `hold` or `release`, or of `sleep`. -/
inductive Order (O : Type)
  | call (deed : Deed) (target : Target O)
  | sleep (millis : ℤ)

/-- The functions of `java.lang.Math` and the rounding of a sum or product, on finite `double`s. -/
structure JavaMath where
  sin : ℚ → ℚ
  cos : ℚ → ℚ
  toRadians : ℚ → ℚ
  /-- the `double` that stands for a result -/
  round : ℚ → ℚ

/-- The cast of a `double` to an `int`, within its range. -/
def truncate (x : ℚ) : ℤ := if 0 ≤ x then ⌊x⌋ else ⌈x⌉

/-- A coordinate `i` after `i += 127 * -value`, cast to a byte. -/
def coordinate (math : JavaMath) (i : ℤ) (value : ℚ) : BitVec 8 :=
  BitVec.ofInt 8 (truncate (math.round (i + math.round (127 * -value))))

/-- `new MonsterHunterRiseDirectionStick(degrees)`, the object `ref`. -/
def newDirection (math : JavaMath) (ref : ℕ) (degrees : ℚ) : MonsterHunterRiseDirectionStick where
  ref := ref
  x := coordinate math 128 (math.sin (math.toRadians (-degrees)))
  y := coordinate math 128 (math.cos (math.toRadians (-degrees)))

/-- How close is close enough. -/
def tolerance : ℚ := 1 / 2 ^ 40

theorem exists_near (v : ℝ) : ∃ q : ℚ, |(q : ℝ) - v| ≤ tolerance := by
  have hpos : (0 : ℝ) < tolerance := by norm_num [tolerance]
  obtain ⟨q, hq⟩ := exists_rat_near v hpos
  exact ⟨q, (abs_sub_comm _ _).trans_le hq.le⟩

noncomputable def near (v : ℝ) : ℚ := (exists_near v).choose

theorem near_spec (v : ℝ) : |(near v : ℝ) - v| ≤ 1 / 2 ^ 40 := by
  have hnear : |(near v : ℝ) - v| ≤ tolerance := (exists_near v).choose_spec
  simpa [tolerance] using hnear

/-- `Math.toRadians(-90)`. -/
def minusRight : ℚ := -(884279719003555 / 2 ^ 49)

/-- Java's values at 90 degrees, where the angle is a little less than a right one; elsewhere
rationals that are close. -/
noncomputable def right : JavaMath where
  sin x := if x = minusRight then -1 else near (Real.sin x)
  cos x := if x = minusRight then 6123233995736766 / 10 ^ 32 else near (Real.cos x)
  toRadians x := if x = -90 then minusRight else near (toRadians x)
  round := id

section Orders

variable {O : Type}

abbrev pressButton (b : Button) : Order O := .call .press (.button b)
abbrev holdButton (b : Button) : Order O := .call .hold (.button b)
abbrev releaseButton (b : Button) : Order O := .call .release (.button b)
abbrev pressStick (a : StickObject O) : Order O := .call .press (.stick a)
abbrev holdStick (a : StickObject O) : Order O := .call .hold (.stick a)
abbrev releaseStick (a : StickObject O) : Order O := .call .release (.stick a)

/-- `walk(int, Stick)`. -/
def walk (millis : ℤ) (stick : StickObject O) : List (Order O) := [holdStick stick, .sleep millis, releaseStick stick]

/-- `run(int, Stick)`. -/
def run (millis : ℤ) (stick : StickObject O) : List (Order O) :=
  [holdButton .R] ++ walk millis stick ++ [releaseButton .R]

def resetCamera : List (Order O) := [.sleep 150, pressButton .L, .sleep 350]

/-- `wireBugJump()`. -/
def wireBugJump : List (Order O) := [holdButton .ZL, pressButton .X, .sleep 350, releaseButton .ZL]

def wireBugDash : List (Order O) := [holdButton .ZL, pressButton .A, .sleep 350, releaseButton .ZL]

end Orders

/-- The moves, with their arguments. -/
inductive Move
  /-- `run(int, double)` -/
  | runToward (millis : ℤ) (degree : ℚ)
  | walkStick (millis : ℤ) (stick : StickObject MonsterHunterRiseDirectionStick)
  /-- `walk(int, double)` -/
  | walkToward (millis : ℤ) (degree : ℚ)
  | runStick (millis : ℤ) (stick : StickObject MonsterHunterRiseDirectionStick)
  /-- `run(int)` -/
  | runAhead (millis : ℤ)
  /-- `walk(int)` -/
  | walkAhead (millis : ℤ)
  | turn (degrees : ℚ)
  | resetCamera
  /-- `wireBugJump(int)` -/
  | wireBugJumpDash (dashDelay : ℤ)
  | wireBugJump
  /-- `wireBugJump(int, Stick)` -/
  | wireBugJumpTo (dashDelay : ℤ) (direction : StickObject MonsterHunterRiseDirectionStick)
  | wireBugDash

/-- What a move does; `ref` is for the stick it makes, if it makes one. -/
def Move.orders (math : JavaMath) (ref : ℕ) : Move → List (Order MonsterHunterRiseDirectionStick)
  | .runToward millis degree => run millis (.other (newDirection math ref degree))
  | .walkStick millis stick => walk millis stick
  | .walkToward millis degree => walk millis (.other (newDirection math ref degree))
  | .runStick millis stick => run millis stick
  | .runAhead millis => run millis (.standard .L_TOP)
  | .walkAhead millis => walk millis (.standard .L_TOP)
  | .turn degrees => [.sleep 150, pressStick (.other (newDirection math ref degrees))] ++ Moves.resetCamera
  | .resetCamera => Moves.resetCamera
  | .wireBugJumpDash dashDelay => Moves.wireBugJump ++ [.sleep dashDelay, pressButton .B]
  | .wireBugJump => Moves.wireBugJump
  | .wireBugJumpTo dashDelay direction => Moves.wireBugJump ++
      [pressStick direction, .sleep dashDelay, pressButton .B, .sleep 150, releaseStick direction]
  | .wireBugDash => Moves.wireBugDash

/-- A script that makes the moves one after the other. -/
def orders (math : JavaMath) (moves : List Move) : List (Order MonsterHunterRiseDirectionStick) :=
  moves.zipIdx.flatMap fun move => move.1.orders math move.2

/-! ### Runs -/

section Run

variable {P O : Type}

/-- The call on the controller, at the time `now`. -/
def op (now : ℤ) : Deed → Target O → Op O
  | .press, .button b => .pressButton b now
  | .press, .stick a => .pressStick a now
  | .hold, .button b => .holdButton b
  | .hold, .stick a => .holdStick a
  | .release, .button b => .releaseButton b
  | .release, .stick a => .releaseStick a

/-- The script's thread beside the daemon: what is left to do, until when it sleeps, whether an
exception has ended it, and when it made its last call. -/
structure State (P O : Type) where
  threads : AutoRelease.State P O
  rest : List (Order O)
  wake : ℕ
  stopped : Bool
  last : ℕ

inductive Action
  | next
  /-- the script is stopped while it sleeps -/
  | interrupt
  | daemon
  | tick (ms : ℕ)
  deriving DecidableEq, Repr

variable [Stick O] [DecidableEq O] [Protocol P O]

def returns (o : Op O) (service : ControllerService P O) : Bool :=
  match o.exec service with
  | .ok _ _ => true
  | .error _ _ => false

/-- The script's next order. `Thread.sleep` throws for a negative time. -/
def next (s : State P O) : Option (State P O) :=
  match s.rest with
  | [] => none
  | .sleep millis :: rest =>
    if millis < 0 then some { s with stopped := true }
    else some { s with rest := rest, wake := s.threads.now + millis.toNat }
  | .call deed target :: rest =>
    (AutoRelease.step s.threads (.call (op s.threads.now deed target))).map fun threads =>
      { s with
        threads := threads
        rest := rest
        stopped := !returns (op s.threads.now deed target) s.threads.service
        last := s.threads.now }

def step (s : State P O) : Action → Option (State P O)
  | .next => if s.stopped || s.threads.now < s.wake then none else next s
  | .interrupt => if s.threads.now < s.wake then some { s with stopped := true } else none
  | .daemon => (AutoRelease.step s.threads .daemon).map fun threads => { s with threads := threads }
  | .tick ms => (AutoRelease.step s.threads (.tick ms)).map fun threads => { s with threads := threads }

/-- The script starts, with the protocol attached. -/
def start (pressTime : ℤ) (p : P) (now : ℕ) (rest : List (Order O)) : State P O :=
  ⟨AutoRelease.start pressTime (some p) now, rest, now, false, now⟩

/-- The clock has room for one more press. -/
def timely (pressTime : ℤ) (s : State P O) (_ : Action) : Prop := s.threads.now + pressTime < 2 ^ 63

end Run

/-! ### Holds and their releases -/

section Balance

variable {O : Type} [Stick O]

/-- The control a call is about: the hat directions share one, and the directions of a stick. -/
def slot : Target O → Control
  | .button b => .button (getExpireTimeIndex b)
  | .stick a => .stick (getStick a)

/-- Some order releases the control. -/
def Releases (rest : List (Order O)) (c : Control) : Prop := ∃ t, Order.call .release t ∈ rest ∧ slot t = c

/-- Every hold without a limit has a release behind it. -/
def Balanced : List (Order O) → Prop
  | [] => True
  | .call deed t :: rest => (deed = .hold → Releases rest (slot t)) ∧ Balanced rest
  | .sleep _ :: rest => Balanced rest

theorem Releases.mono {rest rest' : List (Order O)} {c : Control} (h : Releases rest c)
    (hsub : ∀ o ∈ rest, o ∈ rest') : Releases rest' c := by
  obtain ⟨t, ht, hc⟩ := h
  exact ⟨t, hsub _ ht, hc⟩

theorem Balanced.append {l l' : List (Order O)} (h : Balanced l) (h' : Balanced l') : Balanced (l ++ l') := by
  induction l with
  | nil => exact h'
  | cons order l ih =>
    cases order with
    | call deed t =>
      refine ⟨fun hd => (h.1 hd).mono fun o ho => List.mem_append_left l' ho, ih h.2⟩
    | sleep millis => exact ih h

theorem balanced_walk (millis : ℤ) (stick : StickObject O) : Balanced (walk millis stick) := by
  simp [walk, Balanced, Releases]

theorem balanced_run (millis : ℤ) (stick : StickObject O) : Balanced (run millis stick) := by
  simp [run, walk, Balanced, Releases, slot]

theorem balanced_wireBugJump : Balanced (wireBugJump : List (Order O)) := by
  simp [wireBugJump, Balanced, Releases]

end Balance

theorem Move.balanced (math : JavaMath) (move : Move) (ref : ℕ) : Balanced (move.orders math ref) := by
  cases move with
  | runToward millis degree => exact balanced_run millis _
  | walkStick millis stick => exact balanced_walk millis stick
  | walkToward millis degree => exact balanced_walk millis _
  | runStick millis stick => exact balanced_run millis stick
  | runAhead millis => exact balanced_run millis _
  | walkAhead millis => exact balanced_walk millis _
  | turn degrees => simp [Move.orders, Moves.resetCamera, Balanced]
  | resetCamera => simp [Move.orders, Moves.resetCamera, Balanced]
  | wireBugJumpDash dashDelay => exact balanced_wireBugJump.append (by simp [Balanced])
  | wireBugJump => exact balanced_wireBugJump
  | wireBugJumpTo dashDelay direction => exact balanced_wireBugJump.append (by simp [Balanced])
  | wireBugDash => simp [Move.orders, Moves.wireBugDash, Balanced, Releases]

theorem balanced_orders (math : JavaMath) (moves : List Move) : Balanced (orders math moves) := by
  have hall : ∀ l : List (Move × ℕ), Balanced (l.flatMap fun move => move.1.orders math move.2) := by
    intro l
    induction l with
    | nil => trivial
    | cons move l ih => exact (move.1.balanced math move.2).append ih
  exact hall moves.zipIdx

/-! ### What a call does to the expiries -/

section Expiries

variable {P O : Type} [Protocol P O]

theorem buttonExpired_hold (b : Button) (e : ℤ) (s : ControllerService P O) (i : Button) :
    (left (checkAndHoldButton b e s)).buttonExpired i = s.buttonExpired i ∨
      getExpireTimeIndex b = i ∧ (left (checkAndHoldButton b e s)).buttonExpired i = e := by
  have hset : (left (setButtonExpired (getExpireTimeIndex b) e s)).buttonExpired i = s.buttonExpired i ∨
      getExpireTimeIndex b = i ∧ (left (setButtonExpired (getExpireTimeIndex b) e s)).buttonExpired i = e := by
    by_cases hi : getExpireTimeIndex b = i
    · right
      exact ⟨hi, by rw [← hi]; exact Function.update_self _ _ _⟩
    · left
      exact Function.update_of_ne (Ne.symm hi) _ _
  have hhat : ∀ d, Frame (fun s : ControllerService P O => s.buttonExpired i) (setHatDirection d) :=
    fun _ => Frame.assign fun _ => rfl
  have hcalls : ∀ m : Java P Unit, Frame (fun s : ControllerService P O => s.buttonExpired i) (withProtocol m) :=
    fun m => frame_withProtocol m fun _ _ => rfl
  -- every branch assigns the expiry first, if it does at all
  have hfirst : ∀ m : Java (ControllerService P O) Unit, Frame (fun s => s.buttonExpired i) m →
      (left ((setButtonExpired (getExpireTimeIndex b) e >>= fun _ => m) s)).buttonExpired i =
        (left (setButtonExpired (getExpireTimeIndex b) e s)).buttonExpired i :=
    fun m hm => left_bind_of_frame (π := fun s : ControllerService P O => s.buttonExpired i) _ (fun _ => hm) s
  unfold checkAndHoldButton
  simp only [get_bind_run, ite_run]
  split
  · rw [hfirst _ (Frame.bind (hcalls _) fun _ => Frame.ite (hhat _) (Frame.pure _))]
    exact hset
  · split
    · split
      · split
        · exact hset
        · exact .inl rfl
      · rw [hfirst _ (Frame.bind (hcalls _) fun _ => hhat _)]
        exact hset
    · split
      · exact hset
      · exact .inl rfl

theorem stickExpired_holdButton (b : Button) (e : ℤ) :
    Frame (fun s : ControllerService P O => s.stickExpired) (checkAndHoldButton b e) := by
  have hset : Frame (fun s : ControllerService P O => s.stickExpired) (setButtonExpired (getExpireTimeIndex b) e) :=
    Frame.assign fun _ => rfl
  have hhat : ∀ d, Frame (fun s : ControllerService P O => s.stickExpired) (setHatDirection d) :=
    fun _ => Frame.assign fun _ => rfl
  have hcalls : ∀ m : Java P Unit, Frame (fun s : ControllerService P O => s.stickExpired) (withProtocol m) :=
    fun m => frame_withProtocol m fun _ _ => rfl
  refine Frame.get_bind fun s => Frame.ite ?_ (Frame.ite (Frame.ite ?_ ?_) ?_)
  · exact Frame.bind hset fun _ => Frame.bind (hcalls _) fun _ => Frame.ite (hhat _) (Frame.pure _)
  · exact Frame.ite hset (Frame.pure _)
  · exact Frame.bind hset fun _ => Frame.bind (hcalls _) fun _ => hhat _
  · exact Frame.ite hset (Frame.pure _)

theorem stickExpired_releaseButton (b : Button) :
    Frame (fun s : ControllerService P O => s.stickExpired) (ControllerService.releaseButton b) := by
  refine Frame.get_bind fun s => Frame.ite ?_ (Frame.pure _)
  refine Frame.bind (Frame.assign fun _ => rfl) fun _ => ?_
  exact Frame.bind (frame_withProtocol _ fun _ _ => rfl) fun _ => Frame.ite (Frame.assign fun _ => rfl) (Frame.pure _)

variable [Stick O]

theorem stickExpired_releaseStick (a : StickObject O) (s : ControllerService P O) :
    (left (ControllerService.releaseStick a s)).stickExpired = Function.update s.stickExpired (getStick a) 0 := by
  have hdir : Frame (fun s : ControllerService P O => s.stickExpired)
      (setStickDirection (getStick a) (getReleaseAction a)) := Frame.assign fun _ => rfl
  unfold ControllerService.releaseStick
  simp only [get_bind_run, ite_run]
  split
  · exact left_bind_of_frame (π := fun s : ControllerService P O => s.stickExpired) _
      (fun _ => Frame.bind (frame_withProtocol _ fun _ _ => rfl) fun _ => hdir) s
  · rename_i h
    push Not at h
    exact (Function.update_eq_self_iff.mpr h.symm).symm

variable [DecidableEq O]

theorem stickExpired_hold (a : StickObject O) (e : ℤ) (s : ControllerService P O) (i : Sticks) :
    (left (checkAndHoldStick a e s)).stickExpired i = s.stickExpired i ∨
      getStick a = i ∧ (left (checkAndHoldStick a e s)).stickExpired i = e := by
  have hset : (left (setStickExpired (getStick a) e s)).stickExpired i = s.stickExpired i ∨
      getStick a = i ∧ (left (setStickExpired (getStick a) e s)).stickExpired i = e := by
    by_cases hi : getStick a = i
    · right
      exact ⟨hi, by rw [← hi]; exact Function.update_self _ _ _⟩
    · left
      exact Function.update_of_ne (Ne.symm hi) _ _
  have hdir : Frame (fun s : ControllerService P O => s.stickExpired i) (setStickDirection (getStick a) a) :=
    Frame.assign fun _ => rfl
  have hnew : Frame (fun s : ControllerService P O => s.stickExpired i)
      (withProtocol (Protocol.set a) >>= fun _ => setStickDirection (getStick a) a) :=
    Frame.bind (frame_withProtocol _ fun _ _ => rfl) fun _ => hdir
  have hfirst : ∀ m : Java (ControllerService P O) Unit, Frame (fun s => s.stickExpired i) m →
      (left ((setStickExpired (getStick a) e >>= fun _ => m) s)).stickExpired i =
        (left (setStickExpired (getStick a) e s)).stickExpired i :=
    fun m hm => left_bind_of_frame (π := fun s : ControllerService P O => s.stickExpired i) _ (fun _ => hm) s
  unfold checkAndHoldStick
  simp only [get_bind_run, ite_run]
  split
  · rw [hfirst _ hnew]
    exact hset
  · split
    · split
      · rw [hfirst _ hdir]
        exact hset
      · exact .inl (hdir s)
    · rw [hfirst _ hnew]
      exact hset

/-- The time a control expires. -/
def expiry (service : ControllerService P O) : Control → ℤ
  | .stick i => service.stickExpired i
  | .button b => service.buttonExpired b

/-- The expiry a call asks for. -/
def limit (now pressTime : ℤ) : Deed → ℤ
  | .press => addLong now pressTime
  | .hold => maxLong
  | .release => 0

/-- A call leaves every control as it was, or gives its own the expiry it asks for. -/
theorem expiry_op (now : ℤ) (deed : Deed) (t : Target O) (s : ControllerService P O) (c : Control) :
    expiry (left ((op now deed t).exec s)) c = expiry s c ∨
      slot t = c ∧ expiry (left ((op now deed t).exec s)) c = limit now s.pressTime deed := by
  cases t with
  | button b =>
    have hsticks : ∀ i, expiry (left ((op now deed (.button b)).exec s)) (.stick i) = expiry s (.stick i) := by
      intro i
      cases deed with
      | press => exact congrFun (stickExpired_holdButton b _ s) i
      | hold => exact congrFun (stickExpired_holdButton b _ s) i
      | release => exact congrFun (stickExpired_releaseButton b s) i
    cases c with
    | stick i => exact .inl (hsticks i)
    | button i =>
      cases deed with
      | press => exact (buttonExpired_hold b _ s i).imp_right fun h => ⟨congrArg _ h.1, h.2⟩
      | hold => exact (buttonExpired_hold b _ s i).imp_right fun h => ⟨congrArg _ h.1, h.2⟩
      | release =>
        have hrelease := congrFun (buttonExpired_releaseButton b s) i
        by_cases hi : i = getExpireTimeIndex b
        · right
          subst hi
          exact ⟨rfl, hrelease.trans (Function.update_self _ _ _)⟩
        · left
          exact hrelease.trans (Function.update_of_ne hi _ _)
  | stick a =>
    have hbuttons : ∀ b, expiry (left ((op now deed (.stick a)).exec s)) (.button b) = expiry s (.button b) := by
      intro b
      cases deed with
      | press => exact congrFun (buttonExpired_checkAndHoldStick a _ s) b
      | hold => exact congrFun (buttonExpired_checkAndHoldStick a _ s) b
      | release => exact congrFun (buttonExpired_releaseStick a s) b
    cases c with
    | button b => exact .inl (hbuttons b)
    | stick i =>
      cases deed with
      | press => exact (stickExpired_hold a _ s i).imp_right fun h => ⟨congrArg _ h.1, h.2⟩
      | hold => exact (stickExpired_hold a _ s i).imp_right fun h => ⟨congrArg _ h.1, h.2⟩
      | release =>
        have hrelease := congrFun (stickExpired_releaseStick a s) i
        by_cases hi : i = getStick a
        · right
          subst hi
          exact ⟨rfl, hrelease.trans (Function.update_self _ _ _)⟩
        · left
          exact hrelease.trans (Function.update_of_ne hi _ _)

/-- No call uses the slot of a hat direction other than `D_TOP`. -/
theorem shared_op (now : ℤ) (deed : Deed) (t : Target O) {s : ControllerService P O} (h : HatShared s) :
    HatShared (left ((op now deed t).exec s)) := by
  intro b hb hne
  rcases expiry_op now deed t s (.button b) with hold | ⟨hslot, -⟩
  · exact Eq.trans hold (h b hb hne)
  · cases t with
    | button b' =>
      have hindex : getExpireTimeIndex b' = b := Control.button.inj hslot
      by_cases hhat : b'.isHat = true
      · exact absurd (hindex.symm.trans (index_hat hhat)) hne
      · have hnon : NonHat b' := by simpa [NonHat] using hhat
        rw [index_nonHat hnon] at hindex
        exact absurd (hindex ▸ hb) hhat
    | stick a => cases hslot

/-- A release takes the expiry of its control away. -/
theorem expiry_release (now : ℤ) (t : Target O) (s : ControllerService P O) :
    expiry (left ((op now .release t).exec s)) (slot t) = 0 := by
  cases t with
  | button b => exact (congrFun (buttonExpired_releaseButton b s) _).trans (Function.update_self _ _ _)
  | stick a => exact (congrFun (stickExpired_releaseStick a s) _).trans (Function.update_self _ _ _)

end Expiries

/-! ### What a run keeps -/

section Invariant

variable {P O : Type} [Stick O] [DecidableEq O] [Protocol P O] {pressTime : ℤ} {s s' : State P O}

/-- What expires later than a press made just now would is still to be released by the script. -/
structure Inv (pressTime : ℤ) (s : State P O) : Prop where
  balanced : Balanced s.rest
  expires : ∀ c, expiry s.threads.service c ≤ s.last + pressTime ∨ Releases s.rest c
  last_le : s.last ≤ s.threads.now
  shared : HatShared s.threads.service

/-- A call of the script: it is the one the release of its control was waited for, or that control
is released later or expires by itself. -/
theorem Inv.call (h : Inv pressTime s) {deed : Deed} {t : Target O} {rest : List (Order O)} (hpress : 0 ≤ pressTime)
    (hpt : s.threads.service.pressTime = pressTime) (htime : (s.threads.now : ℤ) + pressTime < 2 ^ 63)
    (hrest : s.rest = .call deed t :: rest) (c : Control) :
    expiry (left ((op s.threads.now deed t).exec s.threads.service)) c ≤ s.threads.now + pressTime ∨
      Releases rest c := by
  have hbal := h.balanced
  have hlast := h.last_le
  rw [hrest] at hbal
  rcases expiry_op s.threads.now deed t s.threads.service c with hold | ⟨hslot, hnew⟩
  · rcases h.expires c with hle | ⟨t', ht', hc⟩
    · left
      rw [hold]
      omega
    · rw [hrest, List.mem_cons] at ht'
      rcases ht' with heq | hmem
      · -- the release itself
        obtain ⟨rfl, rfl⟩ : Deed.release = deed ∧ t' = t := by simpa using heq
        left
        rw [← hc, expiry_release]
        omega
      · exact .inr ⟨t', hmem, hc⟩
  · cases deed with
    | press =>
      left
      rw [hnew, limit, hpt, addLong, Int.bmod_eq_of_le] <;> omega
    | hold => exact .inr (hslot ▸ hbal.1 rfl)
    | release =>
      left
      rw [hnew, limit]
      omega

omit [Stick O] [DecidableEq O] [Protocol P O] in
theorem now_noteRelease (threads : AutoRelease.State P O) (b : Button) : (threads.noteRelease b).now = threads.now := by
  unfold AutoRelease.State.noteRelease
  split
  · rfl
  · rfl

omit [Stick O] [DecidableEq O] [Protocol P O] in
theorem now_noteControl (threads : AutoRelease.State P O) (c : Control) :
    (threads.noteControl c).now = threads.now := by
  cases c with
  | stick i => rfl
  | button b => exact now_noteRelease threads b

omit [Stick O] [DecidableEq O] [Protocol P O] in
theorem now_note (now : ℤ) (deed : Deed) (t : Target O) (threads : AutoRelease.State P O) :
    (threads.note (op now deed t)).now = threads.now := by
  cases t with
  | button b =>
    cases deed with
    | press => rfl
    | hold => rfl
    | release => exact now_noteRelease threads b
  | stick a => cases deed <;> rfl

/-- The daemon makes no call, or releases a control. -/
theorem daemon_cases {threads threads' : AutoRelease.State P O}
    (hs : AutoRelease.step threads .daemon = some threads') :
    threads'.now = threads.now ∧ (threads'.service = threads.service ∨
      ∃ t, threads'.service = left ((op 0 .release t).exec threads.service)) := by
  have hs' : daemonStep threads = some threads' := hs
  unfold daemonStep at hs'
  split at hs'
  · obtain rfl := Option.some.inj hs'
    exact ⟨rfl, .inl rfl⟩
  · rename_i c todo _
    split at hs'
    · cases c with
      | stick i =>
        obtain rfl := Option.some.inj hs'
        exact ⟨rfl, .inl rfl⟩
      | button b =>
        obtain rfl := Option.some.inj hs'
        exact ⟨rfl, .inl rfl⟩
    · obtain rfl := Option.some.inj hs'
      exact ⟨rfl, .inl rfl⟩
  · rename_i c todo _
    have hcall : ∃ t : Target O, AutoRelease.release threads c = (op 0 .release t).exec threads.service := by
      cases c with
      | stick i => exact ⟨.stick (StickObject.center i), rfl⟩
      | button b => exact ⟨.button b, rfl⟩
    obtain ⟨t, ht⟩ := hcall
    split at hs'
    · rename_i hr
      obtain rfl := Option.some.inj hs'
      exact ⟨now_noteControl threads c, .inr ⟨t, by rw [← ht, hr]; rfl⟩⟩
    · rename_i hr
      obtain rfl := Option.some.inj hs'
      exact ⟨now_noteControl threads c, .inr ⟨t, by rw [← ht, hr]; rfl⟩⟩
  · cases hs'

/-- What a step does: an order of the script is carried out, or the script is stopped, or the daemon
or the clock moves on. -/
theorem step_cases {a : Action} (hs : step s a = some s') :
    (∃ deed t rest, s.rest = .call deed t :: rest ∧ s'.rest = rest ∧ s'.last = s.threads.now ∧
      s'.threads.now = s.threads.now ∧
      s'.threads.service = left ((op s.threads.now deed t).exec s.threads.service)) ∨
    ((s'.rest = s.rest ∨ ∃ millis, s.rest = .sleep millis :: s'.rest) ∧ s'.last = s.last ∧
      s.threads.now ≤ s'.threads.now ∧ (s'.threads.service = s.threads.service ∨
        ∃ t, s'.threads.service = left ((op 0 .release t).exec s.threads.service))) := by
  cases a with
  | next =>
    simp only [step] at hs
    split at hs
    · cases hs
    · unfold next at hs
      split at hs
      · cases hs
      · rename_i millis rest hrest
        right
        split at hs
        · obtain rfl := Option.some.inj hs
          exact ⟨.inl rfl, rfl, le_rfl, .inl rfl⟩
        · obtain rfl := Option.some.inj hs
          exact ⟨.inr ⟨millis, hrest⟩, rfl, le_rfl, .inl rfl⟩
      · rename_i deed t rest hrest
        left
        obtain ⟨threads, hthreads, rfl⟩ := Option.map_eq_some_iff.mp hs
        simp only [AutoRelease.step] at hthreads
        split at hthreads
        · obtain rfl := Option.some.inj hthreads
          exact ⟨deed, t, rest, hrest, rfl, rfl, now_note _ deed t s.threads, rfl⟩
        · cases hthreads
  | interrupt =>
    simp only [step] at hs
    split at hs
    · obtain rfl := Option.some.inj hs
      exact .inr ⟨.inl rfl, rfl, le_rfl, .inl rfl⟩
    · cases hs
  | daemon =>
    obtain ⟨threads, hthreads, rfl⟩ := Option.map_eq_some_iff.mp hs
    obtain ⟨hnow, hservice⟩ := daemon_cases hthreads
    exact .inr ⟨.inl rfl, rfl, hnow.ge, hservice⟩
  | tick ms =>
    obtain rfl := Option.some.inj hs
    exact .inr ⟨.inl rfl, rfl, Nat.le_add_right _ _, .inl rfl⟩

theorem inv_step {a : Action} (h : Inv pressTime s) (hpress : 0 ≤ pressTime)
    (hpt : s.threads.service.pressTime = pressTime) (ht : timely pressTime s a) (hs : step s a = some s') :
    Inv pressTime s' := by
  obtain ⟨deed, t, rest, hrest, hrest', hlast', hnow', hservice⟩ | ⟨hrest', hlast', hnow', hservice⟩ := step_cases hs
  · have hbal := h.balanced
    rw [hrest] at hbal
    refine ⟨hrest' ▸ hbal.2, fun c => ?_, by omega, hservice ▸ shared_op _ deed t h.shared⟩
    rw [hservice, hrest', hlast']
    exact h.call hpress hpt ht hrest c
  · have hreleases : ∀ c, Releases s.rest c → Releases s'.rest c := by
      rintro c ⟨t, hmem, hc⟩
      rcases hrest' with hrest' | ⟨millis, hsleep⟩
      · exact ⟨t, hrest' ▸ hmem, hc⟩
      · rw [hsleep, List.mem_cons] at hmem
        exact ⟨t, hmem.resolve_left nofun, hc⟩
    have hexpires : ∀ c, expiry s'.threads.service c ≤ max (expiry s.threads.service c) 0 := by
      intro c
      rcases hservice with hsame | ⟨t, hcall⟩
      · rw [hsame]
        exact le_max_left _ _
      · rw [hcall]
        rcases expiry_op 0 .release t s.threads.service c with hold | ⟨-, hnew⟩
        · rw [hold]
          exact le_max_left _ _
        · rw [hnew]
          exact le_max_right _ _
    refine ⟨?_, fun c => (h.expires c).imp (fun hle => ?_) (hreleases c), ?_, ?_⟩
    · rcases hrest' with hrest' | ⟨millis, hsleep⟩
      · exact hrest' ▸ h.balanced
      · have hbal := h.balanced
        rw [hsleep] at hbal
        exact hbal
    · have hmax := hexpires c
      rw [hlast']
      omega
    · have hlast := h.last_le
      omega
    · rcases hservice with hsame | ⟨t, hcall⟩
      · rw [hsame]
        exact h.shared
      · rw [hcall]
        exact shared_op 0 .release t h.shared

end Invariant

/-! ### The calls of both threads are a script -/

section Told

variable {P O : Type} [Stick O] [DecidableEq O] [Protocol P O] {R : P → Pad O → Prop} {p : P} {pressTime : ℤ}
  {service : ControllerService P O}

/-- The controller is what some calls, one after the other, have made of a new one. -/
def Told (pressTime : ℤ) (p : P) (service : ControllerService P O) : Prop :=
  ∃ calls, NonZero pressTime calls ∧ script calls (attached pressTime p) = .ok () service

theorem script_append (calls : List (Op O)) (o : Op O) (c : ControllerService P O)
    (h : script calls c = .ok () service) : script (calls ++ [o]) c = o.exec service := by
  have hforM : (script (calls ++ [o]) : Java (ControllerService P O) Unit) =
      script calls >>= fun _ => script [o] := List.forM_append
  have hone : (script [o] : Java (ControllerService P O) Unit) service = o.exec service := by
    have hrun : (script [o] : Java (ControllerService P O) Unit) = o.exec >>= fun _ => Pure.pure () := rfl
    rw [hrun, bind_run]
    cases o.exec service <;> rfl
  rw [hforM, bind_of_ok h, hone]

/-- One more call returns. -/
theorem Told.call (h : Told pressTime p service)
    (hR : ∀ c : Call O, Sim R (c.invoke : Java P Unit) (c.invoke : Java (Pad O) Unit)) (hp : R p Pad.neutral)
    {o : Op O} (ho : o.expiry pressTime ≠ some 0) :
    ∃ service', o.exec service = .ok () service' ∧ Told pressTime p service' := by
  obtain ⟨calls, hz, hscript⟩ := h
  have hz' : NonZero pressTime (calls ++ [o]) := by
    intro o' ho'
    rcases List.mem_append.mp ho' with hmem | hmem
    · exact hz o' hmem
    · rwa [List.mem_singleton.mp hmem]
  obtain ⟨s, -, -, -, hs, -⟩ := script_related hR hp hz'
  have hexec := script_append calls o _ hscript
  exact ⟨s, hexec.symm.trans hs, calls ++ [o], hz', hs⟩

/-- The same calls on a pad give a controller that it is related to. -/
theorem Told.related (h : Told pressTime p service)
    (hR : ∀ c : Call O, Sim R (c.invoke : Java P Unit) (c.invoke : Java (Pad O) Unit)) (hp : R p Pad.neutral) :
    ∃ t p' pad, Related R service t ∧ Mirror pressTime true t ∧ service.protocol = some p' ∧
      t.protocol = some pad ∧ R p' pad := by
  obtain ⟨calls, hz, hscript⟩ := h
  obtain ⟨s, t, p', pad, hs, hrel, hm, hp', hpad, hread⟩ := script_related hR hp hz
  obtain rfl : s = service := by
    rw [hs] at hscript
    cases hscript
    rfl
  exact ⟨t, p', pad, hrel, hm, hp', hpad, hread⟩

theorem Told.pressTime_eq (h : Told pressTime p service)
    (hR : ∀ c : Call O, Sim R (c.invoke : Java P Unit) (c.invoke : Java (Pad O) Unit)) (hp : R p Pad.neutral) :
    service.pressTime = pressTime := by
  obtain ⟨t, -, -, hrel, hm, -⟩ := h.related hR hp
  rw [hrel.pressTime, hm.pressTime_eq]

omit [Stick O] [DecidableEq O] in
theorem op_expiry (hpress : 0 < pressTime) {now : ℕ} (htime : (now : ℤ) + pressTime < 2 ^ 63) (deed : Deed)
    (t : Target O) : (op now deed t).expiry pressTime ≠ some 0 := by
  have hadd : addLong now pressTime ≠ 0 := by
    rw [addLong, Int.bmod_eq_of_le] <;> omega
  have hmax : maxLong ≠ 0 := by decide
  cases t <;> cases deed <;> simp [op, Op.expiry, hadd, hmax]

/-- Along every run. -/
theorem inv_of_reach (hR : ∀ c : Call O, Sim R (c.invoke : Java P Unit) (c.invoke : Java (Pad O) Unit))
    (hp : R p Pad.neutral) (hpress : 0 < pressTime) {now : ℕ} {rest : List (Order O)} (hrest : Balanced rest)
    {s : State P O} (h : Reach step (timely pressTime) (start pressTime p now rest) s) :
    Inv pressTime s ∧ Told pressTime p s.threads.service := by
  induction h with
  | start =>
    refine ⟨⟨hrest, fun c => .inl ?_, le_rfl, fun _ _ _ => rfl⟩, [], nofun, rfl⟩
    have hzero : expiry (start pressTime p now rest).threads.service c = 0 := by
      cases c <;> rfl
    rw [hzero, start]
    dsimp only
    omega
  | @step s s' a _ ht hs ih =>
    obtain ⟨hinv, htold⟩ := ih
    refine ⟨inv_step hinv hpress.le (htold.pressTime_eq hR hp) ht hs, ?_⟩
    have hcall : ∀ o : Op O, o.expiry pressTime ≠ some 0 → Told pressTime p (left (o.exec s.threads.service)) := by
      intro o ho
      obtain ⟨service', hexec, htold'⟩ := htold.call hR hp ho
      rw [hexec]
      exact htold'
    obtain ⟨deed, t, -, -, -, -, -, hservice⟩ | ⟨-, -, -, hservice | ⟨t, hservice⟩⟩ := step_cases hs
    · rw [hservice]
      exact hcall _ (op_expiry hpress ht deed t)
    · rw [hservice]
      exact htold
    · rw [hservice]
      refine hcall _ ?_
      cases t <;> simp [op, Op.expiry]

end Told

/-! ### The daemon's turn after the script -/

section After

variable {O : Type} [Stick O] [DecidableEq O] {pressTime : ℤ}

/-- A turn of the daemon when everything is due: nothing is held any more. -/
theorem autoRelease_all {t : ControllerService (Pad O) O} (hm : Mirror pressTime true t) (hshared : HatShared t)
    {now : ℤ} (hdue : ∀ c, expiry t c ≤ now) :
    ∃ t', autoRelease (fun _ => now) (fun _ => now) t = .ok () t' ∧ Mirror pressTime true t' ∧
      ∀ c, expiry t' c = 0 := by
  obtain ⟨t', hrun, hm', -⟩ := keeps_autoRelease (fun _ => now) (fun _ => now) t hm
  refine ⟨t', hrun, hm', fun c => ?_⟩
  rw [autoRelease_eq _ _ hshared] at hrun
  obtain rfl : _ = t' := by
    cases hrun
    rfl
  have hzero : ∀ e : ℤ, e ≤ now → (if Due now e then 0 else e) = 0 := by
    intro e he
    split
    · rfl
    · rename_i hnot
      by_contra hne
      exact hnot ⟨hne, he⟩
  cases c with
  | stick i =>
    have hi : i ∈ [Sticks.LEFT, .RIGHT] := by cases i <;> decide
    rw [expiry, (sticks_passed _ _ _).2.1, stickExpired_passed]
    simp only [hi, true_and]
    exact hzero _ (hdue (.stick i))
  | button b =>
    rw [expiry, buttonExpired_passed, (buttons_passed _ _ _).2.1]
    simp only [NintendoSwitchStandardButton.mem_values, true_and]
    exact hzero _ (hdue (.button b))

variable {P : Type} [Protocol P O] {R : P → Pad O → Prop} {p : P}

/-- When the script has returned and a press made last has expired, a turn of the daemon leaves the
protocol read as a pad of a controller that holds nothing. -/
theorem let_go (hR : ∀ c : Call O, Sim R (c.invoke : Java P Unit) (c.invoke : Java (Pad O) Unit))
    (hp : R p Pad.neutral) (hpress : 0 < pressTime) {now : ℕ} {rest : List (Order O)} (hrest : Balanced rest)
    {s : State P O} (h : Reach step (timely pressTime) (start pressTime p now rest) s) (hdone : s.rest = [])
    (hlate : s.last + pressTime ≤ s.threads.now) :
    ∃ c t p' pad, autoRelease (fun _ => (s.threads.now : ℤ)) (fun _ => (s.threads.now : ℤ)) s.threads.service =
        .ok () c ∧ Related R c t ∧ Mirror pressTime true t ∧ (∀ control, expiry t control = 0) ∧
      c.protocol = some p' ∧ t.protocol = some pad ∧ R p' pad := by
  obtain ⟨hinv, htold⟩ := inv_of_reach hR hp hpress hrest h
  obtain ⟨t, -, -, hrel, hm, -⟩ := htold.related hR hp
  have hsame : ∀ control, expiry t control = expiry s.threads.service control := by
    intro control
    cases control with
    | stick i => exact congrFun hrel.stickExpired.symm i
    | button b => exact congrFun hrel.buttonExpired.symm b
  have hdue : ∀ control, expiry t control ≤ s.threads.now := by
    intro control
    rcases hinv.expires control with hle | ⟨t', ht', -⟩
    · rw [hsame]
      omega
    · rw [hdone] at ht'
      cases ht'
  have hshared : HatShared t := fun b hb hne => (hsame (.button b)).trans (hinv.shared b hb hne)
  obtain ⟨t', hrun, hm', hzero⟩ := autoRelease_all hm hshared hdue
  have hsim := Related.exec hR (.autoRelease (fun _ => (s.threads.now : ℤ)) fun _ => (s.threads.now : ℤ)) _ _ hrel
  have hrun' : (Op.autoRelease (fun _ => (s.threads.now : ℤ)) fun _ => (s.threads.now : ℤ)).exec t = .ok () t' := hrun
  rw [hrun'] at hsim
  obtain ⟨pad, hpad⟩ := Option.isSome_iff_exists.mp hm'.attached_eq
  generalize hc : (Op.autoRelease (fun _ => (s.threads.now : ℤ)) fun _ => (s.threads.now : ℤ)).exec
    s.threads.service = x at hsim
  cases hsim with
  | ok _ hrel' =>
    rename_i c
    have hprotocol := hrel'.protocol
    rw [hpad] at hprotocol
    cases hcp : c.protocol with
    | none =>
      rw [hcp] at hprotocol
      cases hprotocol
    | some p' =>
      rw [hcp] at hprotocol
      cases hprotocol with
      | some hread => exact ⟨c, t', p', pad, hc, hrel', hm', hzero, hcp, hpad, hread⟩

end After

/-- No button is held: the word of the buttons is zero. -/
theorem button_zero {O : Type} {t : ControllerService (Pad O) O} {pressTime : ℤ}
    (hm : Mirror pressTime true t) {pad : Pad O} (hpad : t.protocol = some pad)
    (hzero : ∀ control, expiry t control = 0) {x : BitVec 16}
    (hx : Word.Flags NintendoSwitchStandardButton.mask NonHat pad.held x) : x = 0#16 := by
  refine BitVec.eq_of_getLsbD_eq fun i _ => ?_
  rw [BitVec.getLsbD_zero]
  by_contra hbit
  obtain ⟨b, hb, hheld, -⟩ := (hx i).mp (by simpa using hbit)
  exact (hm.held pad hpad b hb).mp hheld (hzero (.button b))

/-- The report of a controller that holds nothing. -/
theorem report_default {O : Type} [Stick O] {t : ControllerService (Pad O) O} {pressTime : ℤ}
    (hm : Mirror pressTime true t) {pad : Pad O} (hpad : t.protocol = some pad)
    (hzero : ∀ control, expiry t control = 0) {r : Report} (hr : EasyConProtocolV147.Shows r pad) :
    r = EasyConProtocolV147.getDefault := by
  have hword : (r.get 0).toNat * 256 + (r.get 1).toNat = 0 := by
    rw [← Agreement.word_toNat, button_zero hm hpad hzero hr.buttons]
    rfl
  have h0 : r.get 0 = 0#8 := BitVec.eq_of_toNat_eq (by rw [BitVec.toNat_ofNat]; omega)
  have h1 : r.get 1 = 0#8 := BitVec.eq_of_toNat_eq (by rw [BitVec.toNat_ofNat]; omega)
  obtain ⟨-, h2⟩ := (reportExact_of_mirror hm hpad hr).hat_center (hzero (.button .D_TOP))
  have hleft := hm.stick_center .LEFT (hzero (.stick .LEFT))
  have hright := hm.stick_center .RIGHT (hzero (.stick .RIGHT))
  obtain ⟨h3, h4⟩ := (reportExact_of_mirror hm hpad hr).left_stick
  obtain ⟨h5, h6⟩ := (reportExact_of_mirror hm hpad hr).right_stick
  rw [hleft] at h3 h4
  rw [hright] at h5 h6
  refine Vector.ext fun i hi => ?_
  interval_cases i
  · exact h0
  · exact h1
  · exact h2
  · exact h3
  · exact h4
  · exact h5
  · exact h6

/-- Whatever moves a script makes and however the daemon's steps fall between them: when the script
has returned and a press made last has expired, one turn of the daemon leaves the report, or the
firmware's buttons and hat, as they were at first. -/
theorem moves_let_go {pressTime : ℤ} (hpress : 0 < pressTime) (math : JavaMath) (moves : List Move) (now : ℕ) :
    (∀ s : State (EasyConProtocolV147 (Line Report)) MonsterHunterRiseDirectionStick,
      Reach step (timely pressTime) (start pressTime newEasyCon now (orders math moves)) s → s.rest = [] →
      s.last + pressTime ≤ s.threads.now →
        ∃ c p, autoRelease (fun _ => (s.threads.now : ℤ)) (fun _ => (s.threads.now : ℤ)) s.threads.service = .ok () c ∧
          c.protocol = some p ∧ p.currentBytes = EasyConProtocolV147.getDefault) ∧
    ∀ s : State (PGConProtocol PGConSerialPort) MonsterHunterRiseDirectionStick,
      Reach step (timely pressTime) (start pressTime ⟨⟨[]⟩⟩ now (orders math moves)) s → s.rest = [] →
      s.last + pressTime ≤ s.threads.now →
        ∃ c p, autoRelease (fun _ => (s.threads.now : ℤ)) (fun _ => (s.threads.now : ℤ)) s.threads.service = .ok () c ∧
          c.protocol = some p ∧ (PGConProtocol.device p).virtual_controller.Button = 0 ∧
          (PGConProtocol.device p).virtual_controller.HAT = Firmware.HAT_CENTER := by
  constructor
  · intro s h hdone hlate
    have hstart : EasyConProtocolV147.Reads newEasyCon (Pad.neutral : Pad MonsterHunterRiseDirectionStick) :=
      EasyConProtocolV147.shows_default
    obtain ⟨c, t, p, pad, hrun, -, hm, hzero, hp, hpad, hread⟩ :=
      let_go EasyConProtocolV147.easyCon_call hstart hpress (balanced_orders math moves) h hdone hlate
    exact ⟨c, p, hrun, hp, report_default hm hpad hzero hread⟩
  · intro s h hdone hlate
    have hstart : PGConProtocol.Reads ⟨⟨[]⟩⟩ (Pad.neutral : Pad MonsterHunterRiseDirectionStick) :=
      PGConProtocol.shows_init
    obtain ⟨c, t, p, pad, hrun, -, hm, hzero, hp, hpad, hread⟩ :=
      let_go (PGConProtocol.pgCon_call axisCommands_direction) hstart hpress (balanced_orders math moves) h hdone hlate
    have hread' : PGConProtocol.Shows (PGConProtocol.device p).virtual_controller pad := hread
    refine ⟨c, p, hrun, hp, button_zero hm hpad hzero hread'.buttons, ?_⟩
    have hnull := hm.hat_null.mpr (hzero (.button .D_TOP))
    rw [hread'.hat, hm.hat pad hpad, hnull]
    rfl

/-- A walk to the right and a jump, the daemon at its first test when the walk begins; with either
protocol. -/
theorem moves_let_go_walk :
    (∃ s : State (EasyConProtocolV147 (Line Report)) MonsterHunterRiseDirectionStick,
      s.threads.service.buttonExpired .X ≠ 0 ∧
        ∃ c p, autoRelease (fun _ => (s.threads.now : ℤ)) (fun _ => (s.threads.now : ℤ)) s.threads.service = .ok () c ∧
          c.protocol = some p ∧ p.currentBytes = EasyConProtocolV147.getDefault) ∧
    ∃ s : State (PGConProtocol PGConSerialPort) MonsterHunterRiseDirectionStick,
      s.threads.service.buttonExpired .X ≠ 0 ∧
        ∃ c p, autoRelease (fun _ => (s.threads.now : ℤ)) (fun _ => (s.threads.now : ℤ)) s.threads.service = .ok () c ∧
          c.protocol = some p ∧ (PGConProtocol.device p).virtual_controller.Button = 0 ∧
          (PGConProtocol.device p).virtual_controller.HAT = Firmware.HAT_CENTER := by
  have htime : ∀ (now : ℕ), now ≤ 1000 → (now : ℤ) + 100 < 2 ^ 63 := by
    intro now hnow
    omega
  have hgone := moves_let_go (show (0 : ℤ) < 100 by decide) right [.walkToward 5 90, .wireBugJump] 0
  constructor
  · obtain ⟨s, hreach, hdone, hlate, hheld⟩ : ∃ s : State (EasyConProtocolV147 (Line Report))
        MonsterHunterRiseDirectionStick,
        Reach step (timely 100) (start 100 newEasyCon 0 (orders right [.walkToward 5 90, .wireBugJump])) s ∧
          s.rest = [] ∧ (s.last : ℤ) + 100 ≤ s.threads.now ∧ s.threads.service.buttonExpired .X ≠ 0 := by
      refine ⟨_, .step (.tick 100) (.step .next (.step (.tick 350) (.step .next (.step .next (.step .next
        (.step .next (.step (.tick 5) (.step .next (.step .daemon (.step .next .start ?_ rfl) ?_ rfl) ?_ rfl) ?_ rfl)
          ?_ rfl) ?_ rfl) ?_ rfl) ?_ rfl) ?_ rfl) ?_ rfl) ?_ rfl, rfl, by decide, by decide⟩
      all_goals exact htime _ (by decide)
    exact ⟨s, hheld, hgone.1 s hreach hdone hlate⟩
  · obtain ⟨s, hreach, hdone, hlate, hheld⟩ : ∃ s : State (PGConProtocol PGConSerialPort)
        MonsterHunterRiseDirectionStick,
        Reach step (timely 100) (start 100 ⟨⟨[]⟩⟩ 0 (orders right [.walkToward 5 90, .wireBugJump])) s ∧
          s.rest = [] ∧ (s.last : ℤ) + 100 ≤ s.threads.now ∧ s.threads.service.buttonExpired .X ≠ 0 := by
      refine ⟨_, .step (.tick 100) (.step .next (.step (.tick 350) (.step .next (.step .next (.step .next
        (.step .next (.step (.tick 5) (.step .next (.step .daemon (.step .next .start ?_ rfl) ?_ rfl) ?_ rfl) ?_ rfl)
          ?_ rfl) ?_ rfl) ?_ rfl) ?_ rfl) ?_ rfl) ?_ rfl) ?_ rfl, rfl, by decide, by decide⟩
      all_goals exact htime _ (by decide)
    exact ⟨s, hheld, hgone.2 s hreach hdone hlate⟩

/-! ### Directions -/

/-- Every function is within `ε` of that of the reals, the angle and the results in the range of a
direction. -/
structure JavaMath.Accurate (math : JavaMath) (ε : ℝ) : Prop where
  sin : ∀ x, |(math.sin x : ℝ) - Real.sin x| ≤ ε
  cos : ∀ x, |(math.cos x : ℝ) - Real.cos x| ≤ ε
  toRadians : ∀ x, |x| ≤ 360 → |(math.toRadians x : ℝ) - ColorDifferenceUtil.toRadians x| ≤ ε
  round : ∀ x, |x| ≤ 256 → |(math.round x : ℝ) - x| ≤ ε

/-- The byte of a number is the number, up to the truncation. -/
theorem byte_near {v : ℚ} (h0 : 0 ≤ v) (h1 : v < 256) : |((BitVec.ofInt 8 (truncate v)).toNat : ℝ) - v| < 1 := by
  have hfloor : 0 ≤ ⌊v⌋ := Int.floor_nonneg.mpr h0
  have hlt : ⌊v⌋ < 256 := Int.floor_lt.mpr (by exact_mod_cast h1)
  have hbyte : ((BitVec.ofInt 8 (truncate v)).toNat : ℤ) = ⌊v⌋ := by
    rw [truncate, if_pos h0, BitVec.toNat_ofInt]
    omega
  have hrat : ((BitVec.ofInt 8 (truncate v)).toNat : ℚ) = ⌊v⌋ := by exact_mod_cast hbyte
  have hnear : |((BitVec.ofInt 8 (truncate v)).toNat : ℚ) - v| < 1 := by
    rw [hrat, abs_lt]
    constructor
    · linarith [Int.sub_one_lt_floor v]
    · linarith [Int.floor_le v]
  exact_mod_cast hnear

section Accuracy

variable {math : JavaMath} {ε : ℝ}

/-- A coordinate made from a value near `r`. -/
theorem coordinate_near (h : math.Accurate ε) (hε : ε ≤ 1 / 512) {value : ℚ} {r : ℝ} (hr : |r| ≤ 1)
    (hvalue : |(value : ℝ) - r| ≤ 2 * ε) :
    |((coordinate math 128 value).toNat : ℝ) - (128 - 127 * r)| < 1 + 256 * ε := by
  obtain ⟨hlow, hhigh⟩ := abs_le.mp hvalue
  obtain ⟨hr0, hr1⟩ := abs_le.mp hr
  -- the product, the sum and their rounded values stay in the range where rounding is accurate
  have hp : |127 * -value| ≤ 256 := by
    have hreal : |127 * -(value : ℝ)| ≤ 256 := abs_le.mpr ⟨by linarith, by linarith⟩
    exact_mod_cast hreal
  have hproduct := h.round _ hp
  set p := math.round (127 * -value)
  push_cast at hproduct
  obtain ⟨hp0, hp1⟩ := abs_le.mp hproduct
  have hq : |(128 : ℤ) + p| ≤ 256 := by
    have hreal : |(128 : ℝ) + p| ≤ 256 := abs_le.mpr ⟨by linarith, by linarith⟩
    exact_mod_cast hreal
  have hsum := h.round _ hq
  have hbyte : coordinate math 128 value = BitVec.ofInt 8 (truncate (math.round ((128 : ℤ) + p))) := rfl
  rw [hbyte]
  set q := math.round ((128 : ℤ) + p)
  push_cast at hsum
  obtain ⟨hq0, hq1⟩ := abs_le.mp hsum
  have h0 : 0 ≤ q := by
    have hreal : (0 : ℝ) ≤ q := by linarith
    exact_mod_cast hreal
  have h1 : q < 256 := by
    have hreal : (q : ℝ) < 256 := by linarith
    exact_mod_cast hreal
  obtain ⟨hb0, hb1⟩ := abs_lt.mp (byte_near h0 h1)
  exact abs_lt.mpr ⟨by linarith, by linarith⟩

theorem newDirection_near (h : math.Accurate ε) (hε : ε ≤ 1 / 512) (ref : ℕ) {degrees : ℚ} (hd : |degrees| ≤ 360) :
    |((newDirection math ref degrees).x.toNat : ℝ) - (128 + 127 * Real.sin (toRadians degrees))| < 1 + 256 * ε ∧
      |((newDirection math ref degrees).y.toNat : ℝ) - (128 - 127 * Real.cos (toRadians degrees))| < 1 + 256 * ε := by
  have hneg : toRadians ((-degrees : ℚ) : ℝ) = -toRadians degrees := by
    rw [Rat.cast_neg]
    exact neg_mul _ _
  have hangle := h.toRadians (-degrees) (by rwa [abs_neg])
  rw [hneg] at hangle
  set a := math.toRadians (-degrees)
  constructor
  · have hsin : |(math.sin a : ℝ) - -Real.sin (toRadians degrees)| ≤ 2 * ε := by
      rw [← Real.sin_neg]
      calc |(math.sin a : ℝ) - Real.sin (-toRadians degrees)|
          ≤ |(math.sin a : ℝ) - Real.sin a| + |Real.sin a - Real.sin (-toRadians degrees)| := abs_sub_le _ _ _
        _ ≤ ε + ε := add_le_add (h.sin a) ((Real.abs_sin_sub_sin_le _ _).trans hangle)
        _ = 2 * ε := by ring
    have hbound : |-Real.sin (toRadians degrees)| ≤ 1 := by
      rw [abs_neg]
      exact Real.abs_sin_le_one _
    have hx := coordinate_near h hε hbound hsin
    rwa [mul_neg, sub_neg_eq_add] at hx
  · have hcos : |(math.cos a : ℝ) - Real.cos (toRadians degrees)| ≤ 2 * ε := by
      rw [← Real.cos_neg]
      calc |(math.cos a : ℝ) - Real.cos (-toRadians degrees)|
          ≤ |(math.cos a : ℝ) - Real.cos a| + |Real.cos a - Real.cos (-toRadians degrees)| := abs_sub_le _ _ _
        _ ≤ ε + ε := add_le_add (h.cos a) ((Real.abs_cos_sub_cos_le _ _).trans hangle)
        _ = 2 * ε := by ring
    exact coordinate_near h hε (Real.abs_cos_le_one _) hcos

/-- No direction is the centre. -/
theorem newDirection_off (h : math.Accurate ε) (hε : ε ≤ 1 / 512) (ref : ℕ) {degrees : ℚ} (hd : |degrees| ≤ 360) :
    ¬((newDirection math ref degrees).x = 128#8 ∧ (newDirection math ref degrees).y = 128#8) := by
  rintro ⟨hx, hy⟩
  obtain ⟨hnearX, hnearY⟩ := newDirection_near h hε ref hd
  rw [hx, abs_lt] at hnearX
  rw [hy, abs_lt] at hnearY
  have hbyte : ((128#8).toNat : ℝ) = 128 := by norm_num
  rw [hbyte] at hnearX hnearY
  have hone := Real.sin_sq_add_cos_sq (toRadians degrees)
  nlinarith [hnearX.1, hnearX.2, hnearY.1, hnearY.2]

end Accuracy

/-! ### The sticks of the firmware -/

section Firmware

open Firmware PGConProtocol

/-- Both sticks are in the middle. -/
structure Centred (vc : VirtualController) : Prop where
  lx : vc.LX = STICK_CENTER
  ly : vc.LY = STICK_CENTER
  rx : vc.RX = STICK_CENTER
  ry : vc.RY = STICK_CENTER

/-- The stick is released, or held in a direction that PGCon does not know. -/
def Silent (a : StickObject MonsterHunterRiseDirectionStick) : Prop :=
  a = .center (getStick a) ∨ ∃ o, a = .other o

/-- The commands that centre an axis. -/
def centers : List NintendoSwitchBaseStick := [.LX_CENTER, .LY_CENTER, .RX_CENTER, .RY_CENTER]

/-- Such a stick sends two of them. -/
theorem Silent.axes {a : StickObject MonsterHunterRiseDirectionStick} (h : Silent a) :
    ∃ ax ay : NintendoSwitchBaseStick, bytes (.set a) = [ax.commandPGCon, ay.commandPGCon] ∧ ax ∈ centers ∧
      ay ∈ centers := by
  rcases h with hcenter | ⟨o, rfl⟩
  · rw [hcenter]
    cases getStick a with
    | LEFT => exact ⟨.LX_CENTER, .LY_CENTER, rfl, by decide, by decide⟩
    | RIGHT => exact ⟨.RX_CENTER, .RY_CENTER, rfl, by decide, by decide⟩
  · exact ⟨.LX_CENTER, .LY_CENTER, rfl, by decide, by decide⟩

theorem Centred.axis {fw : Device} (h : Centred fw.virtual_controller) {a : NintendoSwitchBaseStick}
    (ha : a ∈ centers) : Centred (executeCommand a.commandPGCon.toNat fw).2.virtual_controller := by
  rw [executeCommand_axis]
  simp only [centers, List.mem_cons, List.not_mem_nil, or_false] at ha
  rcases ha with rfl | rfl | rfl | rfl
  · exact { h with lx := rfl }
  · exact { h with ly := rfl }
  · exact { h with rx := rfl }
  · -- the firmware takes the right stick's vertical command for the left stick's
    exact { h with ly := rfl }

/-- A call of a button, or of such a stick, moves no stick. -/
theorem centred_call (c : Call MonsterHunterRiseDirectionStick) (hc : ∀ a, c = .set a → Silent a) :
    Preserves (fun p : PGConProtocol PGConSerialPort => Centred (device p).virtual_controller)
      (c.invoke : Java (PGConProtocol PGConSerialPort) Unit) := by
  intro p h
  by_cases hnull : c = .release none
  · subst hnull
    exact h
  rw [invoke_run c hnull]
  change Centred (device ⟨⟨p.serialPort.written ++ bytes c⟩⟩).virtual_controller
  rw [device_written]
  cases c with
  | hold b =>
    by_cases hb : b.isHat = true
    · change Centred (executeCommand b.holdCommandPGCon.toNat (device p)).2.virtual_controller
      rw [executeCommand_hat hb]
      exact { h with }
    · have hn : NonHat b := by simpa [NonHat] using hb
      change Centred (executeCommand b.holdCommandPGCon.toNat (device p)).2.virtual_controller
      rw [executeCommand_hold hn]
      exact { h with }
  | release b =>
    cases b with
    | none => exact absurd rfl hnull
    | some b =>
      change Centred (executeCommand b.releaseCommandPGCon.toNat (device p)).2.virtual_controller
      by_cases hb : b.isHat = true
      · rw [executeCommand_center hb]
        exact { h with }
      · have hn : NonHat b := by simpa [NonHat] using hb
        rw [executeCommand_release hn]
        exact { h with }
  | set a =>
    obtain ⟨ax, ay, hbytes, hax, hay⟩ := (hc a rfl).axes
    rw [hbytes]
    exact (h.axis hax).axis hay

/-- The protocol is attached and the firmware's sticks are in the middle. -/
def Middle (p : Option (PGConProtocol PGConSerialPort)) : Prop :=
  ∃ q, p = some q ∧ Centred (device q).virtual_controller

theorem middle_call {c : Call MonsterHunterRiseDirectionStick} (hc : ∀ a, c = .set a → Silent a) :
    Preserves (fun p => Middle (some p)) (c.invoke : Java (PGConProtocol PGConSerialPort) Unit) := by
  rintro p ⟨q, hq, h⟩
  obtain rfl := Option.some.inj hq
  exact ⟨_, rfl, centred_call c hc p h⟩

/-- A button, or a stick as above. -/
def Target.Silent : Target MonsterHunterRiseDirectionStick → Prop
  | .button _ => True
  | .stick a => Moves.Silent a

theorem silent_center (a : StickObject MonsterHunterRiseDirectionStick) : Silent (getReleaseAction a) := by
  rw [releaseAction_eq]
  cases getStick a with
  | LEFT => exact .inl rfl
  | RIGHT => exact .inl rfl

/-- A release centres whatever stick it is for, so it need not be asked which. -/
theorem middle_op (now : ℤ) {deed : Deed} {t : Target MonsterHunterRiseDirectionStick}
    (ht : deed = .release ∨ t.Silent) :
    Preserves (fun c : ControllerService (PGConProtocol PGConSerialPort) _ => Middle c.protocol)
      (op now deed t).exec := by
  have hrelease : ∀ d, Preserves (fun p => Middle (some p)) ((Call.release d : Call
      MonsterHunterRiseDirectionStick).invoke : Java (PGConProtocol PGConSerialPort) Unit) := fun _ => middle_call nofun
  cases t with
  | button b =>
    have hhold : Preserves (fun p => Middle (some p)) ((Call.hold b : Call
        MonsterHunterRiseDirectionStick).invoke : Java (PGConProtocol PGConSerialPort) Unit) := middle_call nofun
    cases deed with
    | press => exact Preserves.get_bind fun c => Attachment.preserves_checkAndHoldButton hhold hrelease _
    | hold => exact Attachment.preserves_checkAndHoldButton hhold hrelease _
    | release => exact Attachment.preserves_releaseButton (hrelease (some b))
  | stick a =>
    have hset : ∀ {a'}, Silent a' → Preserves (fun p => Middle (some p)) ((Call.set a').invoke : Java
        (PGConProtocol PGConSerialPort) Unit) := by
      intro a' ha'
      refine middle_call fun a'' heq => ?_
      cases heq
      exact ha'
    cases deed with
    | press => exact Preserves.get_bind fun c => Attachment.preserves_checkAndHoldStick (hset (ht.resolve_left nofun)) _
    | hold => exact Attachment.preserves_checkAndHoldStick (hset (ht.resolve_left nofun)) _
    | release => exact Attachment.preserves_releaseStick (hset (silent_center a))

/-- Along every run of a script that uses no other sticks. -/
theorem middle_of_reach {pressTime : ℤ} {now : ℕ} {rest : List (Order MonsterHunterRiseDirectionStick)}
    (hrest : ∀ deed t, .call deed t ∈ rest → t.Silent)
    {s : State (PGConProtocol PGConSerialPort) MonsterHunterRiseDirectionStick}
    (h : Reach step (timely pressTime) (start pressTime ⟨⟨[]⟩⟩ now rest) s) :
    (∀ deed t, .call deed t ∈ s.rest → t.Silent) ∧ Middle s.threads.service.protocol := by
  induction h with
  | start => exact ⟨hrest, _, rfl, rfl, rfl, rfl, rfl⟩
  | @step s s' a _ _ hs ih =>
    obtain ⟨hsilent, hmiddle⟩ := ih
    obtain ⟨deed, t, rest, hcall, hrest', -, -, hservice⟩ | ⟨hrest', -, -, hservice⟩ := step_cases hs
    · rw [hcall] at hsilent
      rw [hrest', hservice]
      exact ⟨fun deed' t' hmem => hsilent deed' t' (List.mem_cons_of_mem _ hmem),
        middle_op _ (.inr (hsilent deed t List.mem_cons_self)) _ hmiddle⟩
    · refine ⟨fun deed t hmem => hsilent deed t ?_, ?_⟩
      · rcases hrest' with hsame | ⟨millis, hsleep⟩
        · rwa [← hsame]
        · rw [hsleep]
          exact List.mem_cons_of_mem _ hmem
      · rcases hservice with hsame | ⟨t, hrelease⟩
        · rwa [hsame]
        · rw [hrelease]
          exact middle_op 0 (.inl rfl) _ hmiddle

/-- The move uses no stick but directions that the engine makes. -/
def Move.ByDegrees : Move → Prop
  | .walkStick _ stick | .runStick _ stick | .wireBugJumpTo _ stick => ∃ o, stick = .other o
  | .runAhead _ | .walkAhead _ => False
  | .runToward _ _ | .walkToward _ _ | .turn _ | .resetCamera | .wireBugJumpDash _ | .wireBugJump | .wireBugDash => True

theorem Move.ByDegrees.silent {math : JavaMath} {move : Move} (h : move.ByDegrees) (ref : ℕ) {deed : Deed}
    {t : Target MonsterHunterRiseDirectionStick} (ht : .call deed t ∈ move.orders math ref) : t.Silent := by
  cases t with
  | button b => trivial
  | stick a =>
    refine .inr ?_
    cases move with
    | walkStick _ _ | runStick _ _ | wireBugJumpTo _ _ =>
      obtain ⟨o, rfl⟩ := h
      grind [Move.orders, run, walk, Moves.wireBugJump]
    | runAhead _ | walkAhead _ => exact h.elim
    | runToward _ _ | walkToward _ _ | turn _ => grind [Move.orders, run, walk, Moves.resetCamera]
    | resetCamera | wireBugJumpDash _ | wireBugJump | wireBugDash =>
      simp [Move.orders, Moves.resetCamera, Moves.wireBugJump, Moves.wireBugDash] at ht

theorem silent_orders {math : JavaMath} {moves : List Move} (h : ∀ move ∈ moves, move.ByDegrees) (deed : Deed)
    (t : Target MonsterHunterRiseDirectionStick) (ht : .call deed t ∈ orders math moves) : t.Silent := by
  obtain ⟨⟨move, ref⟩, hmem, hcall⟩ := List.mem_flatMap.mp ht
  exact (h move (List.fst_mem_of_mem_zipIdx hmem)).silent ref hcall

end Firmware

/-- A direction that the controller has for its left stick is in the EasyCon report, up to the
truncation and the error of the `double`s, and never the centre. The firmware of PGCon gets the
centre for it: along a script that gives its directions in degrees its sticks never move. -/
theorem direction_shown {pressTime : ℤ} (hpress : 0 < pressTime) {math : JavaMath} {ε : ℝ} (hmath : math.Accurate ε)
    (hε : ε ≤ 1 / 512) (moves : List Move) (now : ℕ) :
    (∀ s : State (EasyConProtocolV147 (Line Report)) MonsterHunterRiseDirectionStick,
      Reach step (timely pressTime) (start pressTime newEasyCon now (orders math moves)) s →
      ∀ ref degrees, |degrees| ≤ 360 →
      s.threads.service.stickDirections .LEFT = .other (newDirection math ref degrees) →
        ∃ p, s.threads.service.protocol = some p ∧
          |((p.currentBytes.get 3).toNat : ℝ) - (128 + 127 * Real.sin (toRadians degrees))| < 1 + 256 * ε ∧
          |((p.currentBytes.get 4).toNat : ℝ) - (128 - 127 * Real.cos (toRadians degrees))| < 1 + 256 * ε ∧
          ¬(p.currentBytes.get 3 = 128#8 ∧ p.currentBytes.get 4 = 128#8)) ∧
    ((∀ move ∈ moves, move.ByDegrees) →
      ∀ s : State (PGConProtocol PGConSerialPort) MonsterHunterRiseDirectionStick,
      Reach step (timely pressTime) (start pressTime ⟨⟨[]⟩⟩ now (orders math moves)) s →
        ∃ p, s.threads.service.protocol = some p ∧ Centred (PGConProtocol.device p).virtual_controller) := by
  constructor
  · intro s h ref degrees hd hdirection
    have hstart : EasyConProtocolV147.Reads newEasyCon (Pad.neutral : Pad MonsterHunterRiseDirectionStick) :=
      EasyConProtocolV147.shows_default
    obtain ⟨-, htold⟩ := inv_of_reach EasyConProtocolV147.easyCon_call hstart hpress (balanced_orders math moves) h
    obtain ⟨t, p, pad, hrel, hm, hp, hpad, hread⟩ := htold.related EasyConProtocolV147.easyCon_call hstart
    obtain ⟨hx, hy⟩ := ((reportExact_of_mirror hm hpad hread).of_related hrel).left_stick
    rw [hdirection] at hx hy
    have hx' : p.currentBytes.get 3 = (newDirection math ref degrees).x := hx
    have hy' : p.currentBytes.get 4 = (newDirection math ref degrees).y := hy
    obtain ⟨hnearX, hnearY⟩ := newDirection_near hmath hε ref hd
    refine ⟨p, hp, ?_⟩
    rw [hx', hy']
    exact ⟨hnearX, hnearY, newDirection_off hmath hε ref hd⟩
  · intro hmoves s h
    exact (middle_of_reach (silent_orders hmoves) h).2

theorem minusRight_near : |(minusRight : ℝ) - -(Real.pi / 2)| ≤ 1 / 2 ^ 51 := by
  have hlow := Real.pi_gt_d20
  have hhigh := Real.pi_lt_d20
  rw [minusRight, abs_le]
  push_cast
  constructor
  · norm_num at hlow hhigh ⊢
    linarith
  · norm_num at hlow hhigh ⊢
    linarith

theorem right_accurate : right.Accurate (1 / 2 ^ 40) where
  sin x := by
    by_cases hx : x = minusRight
    · have hsin := (Real.abs_sin_sub_sin_le (minusRight : ℝ) (-(Real.pi / 2))).trans minusRight_near
      rw [Real.sin_neg, Real.sin_pi_div_two, abs_sub_comm] at hsin
      rw [hx]
      simp only [right, if_true, Rat.cast_neg, Rat.cast_one]
      exact hsin.trans (by norm_num)
    · simp only [right, if_neg hx]
      exact near_spec (Real.sin x)
  cos x := by
    by_cases hx : x = minusRight
    · have hcos := (Real.abs_cos_sub_cos_le (minusRight : ℝ) (-(Real.pi / 2))).trans minusRight_near
      rw [Real.cos_neg, Real.cos_pi_div_two, sub_zero, abs_le] at hcos
      rw [hx]
      simp only [right, if_true]
      push_cast
      rw [abs_le]
      constructor
      · norm_num at hcos ⊢
        linarith
      · norm_num at hcos ⊢
        linarith
    · simp only [right, if_neg hx]
      exact near_spec (Real.cos x)
  toRadians x _ := by
    by_cases hx : x = -90
    · have hangle : toRadians ((-90 : ℚ) : ℝ) = -(Real.pi / 2) := by
        rw [toRadians]
        push_cast
        ring
      rw [hx, hangle]
      simp only [right, if_true]
      exact minusRight_near.trans (by norm_num)
    · simp only [right, if_neg hx]
      exact near_spec (toRadians x)
  round x _ := by
    simp only [right, id_eq, sub_self, abs_zero]
    positivity

/-- On the way to the right, with either protocol. The stick is one step off the middle line. -/
theorem direction_shown_right :
    ((newDirection right 0 90).x = 255#8 ∧ (newDirection right 0 90).y = 127#8) ∧
    (∃ s : State (EasyConProtocolV147 (Line Report)) MonsterHunterRiseDirectionStick,
      s.threads.service.stickDirections .LEFT = .other (newDirection right 0 90) ∧
        ∃ p, s.threads.service.protocol = some p ∧
          |((p.currentBytes.get 3).toNat : ℝ) - (128 + 127 * Real.sin (toRadians (90 : ℚ)))| < 1 + 256 * (1 / 2 ^ 40) ∧
          |((p.currentBytes.get 4).toNat : ℝ) - (128 - 127 * Real.cos (toRadians (90 : ℚ)))| < 1 + 256 * (1 / 2 ^ 40) ∧
          ¬(p.currentBytes.get 3 = 128#8 ∧ p.currentBytes.get 4 = 128#8)) ∧
    ∃ s : State (PGConProtocol PGConSerialPort) MonsterHunterRiseDirectionStick,
      s.threads.service.stickDirections .LEFT = .other (newDirection right 0 90) ∧
        ∃ p, s.threads.service.protocol = some p ∧ Centred (PGConProtocol.device p).virtual_controller := by
  have htime : ((0 : ℕ) : ℤ) + 100 < 2 ^ 63 := by decide
  have hε : (1 / 2 ^ 40 : ℝ) ≤ 1 / 512 := by norm_num
  have hshown := direction_shown (show (0 : ℤ) < 100 by decide) right_accurate hε [.walkToward 5 90] 0
  refine ⟨⟨?_, ?_⟩, ?_, ?_⟩
  · simp only [newDirection, coordinate, right, if_true, id]
    decide +kernel
  · simp only [newDirection, coordinate, right, if_true, id]
    decide +kernel
  · obtain ⟨s, hreach, hdirection⟩ : ∃ s : State (EasyConProtocolV147 (Line Report)) MonsterHunterRiseDirectionStick,
        Reach step (timely 100) (start 100 newEasyCon 0 (orders right [.walkToward 5 90])) s ∧
          s.threads.service.stickDirections .LEFT = .other (newDirection right 0 90) :=
      ⟨_, .step .next .start htime rfl, rfl⟩
    exact ⟨s, hdirection, hshown.1 s hreach 0 90 (by norm_num) hdirection⟩
  · obtain ⟨s, hreach, hdirection⟩ : ∃ s : State (PGConProtocol PGConSerialPort) MonsterHunterRiseDirectionStick,
        Reach step (timely 100) (start 100 ⟨⟨[]⟩⟩ 0 (orders right [.walkToward 5 90])) s ∧
          s.threads.service.stickDirections .LEFT = .other (newDirection right 0 90) :=
      ⟨_, .step .next .start htime rfl, rfl⟩
    refine ⟨s, hdirection, hshown.2 ?_ s hreach⟩
    intro move hmove
    rw [List.mem_singleton.mp hmove]
    trivial

end Moves
end PGCon
