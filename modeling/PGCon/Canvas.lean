/-
# The canvas

`DisplayService` draws over the screen what `draw` was given: under every key the
drawable of the last event, until it expires. Events change a map and notify the
thread `RENDER_CANVAS`, which waits on the map. For a drawable that expires `draw`
also schedules a notification for a little later; it does so after its block, so a
turn of the thread can come in between.

Every canvas painted has, key by key, the drawable of the last event that has not
expired, the texts over all others: that expired entries are dropped from the map
cannot be seen. When no notification is scheduled and none is about to be, nothing
that expires is painted again. But a notification is heard only by a thread in its
block. The thread is outside between two turns, and `notifyAll` is lost then: an
event stays unpainted, and what has expired stays on the screen, until the next one.

The clock never goes back.
-/
import PGCon.Controller
import PGCon.Monitor
import PGCon.Puts

namespace PGCon
namespace Canvas

open Machine Monitor

/-- `NOTIFY_CANVAS_DELAY`. -/
def NOTIFY_CANVAS_DELAY : ℤ := 200

/-- A drawable: what it paints, whether it is a `Text`, and the fields of `BaseDrawable`. -/
structure Drawable (I : Type) where
  picture : I
  isText : Bool
  expireTime : ℤ
  duration : ℤ
  deriving DecidableEq, Repr

variable {I : Type}

namespace Drawable

/-- `BaseDrawable(int duration)` at the clock reading `now`. -/
def lasting (picture : I) (isText : Bool) (duration now : ℤ) : Drawable I :=
  ⟨picture, isText, addLong now duration, duration⟩

/-- `BaseDrawable()`. -/
def permanent (picture : I) (isText : Bool) : Drawable I := ⟨picture, isText, maxLong, -1⟩

/-- `isExpired` at the clock reading `now`. -/
def isExpired (d : Drawable I) (now : ℤ) : Bool := decide (d.expireTime < now)

end Drawable

/-- `DrawEvent`; references that can be `null` are `Option`s. -/
structure DrawEvent (I : Type) where
  key : Option String
  drawable : Option (Drawable I)
  deriving DecidableEq, Repr

/-! ### The map, and a turn of the thread -/

abbrev Entry (I : Type) := String × Drawable I

/-- `canvasDrawables`, and the events so far. -/
structure Board (I : Type) where
  canvasDrawables : List (Entry I)
  events : List (String × Option (Drawable I))
  deriving DecidableEq, Repr

inductive Change (I : Type)
  | draw (key : String) (drawable : Option (Drawable I))
  | notify
  deriving DecidableEq, Repr

/-- What a turn meets: whether there is a canvas and the screen is frozen, the order the
map is visited in, and the clock at each entry. -/
structure Visit (I : Type) where
  hasCanvas : Bool
  frozen : Bool
  order : List (Entry I)
  now : String → ℤ

/-- A canvas handed over: the drawables in the order they were painted, and what the turn
met. -/
structure Painted (I : Type) where
  drawables : List (Drawable I)
  now : String → ℤ
  events : List (String × Option (Drawable I))

namespace Board

/-- `canvasDrawables.put` and `remove`. -/
def put (key : String) (drawable : Option (Drawable I)) (entries : List (Entry I)) : List (Entry I) :=
  match drawable with
  | none => entries.filter (·.1 ≠ key)
  | some d => entries.filter (·.1 ≠ key) ++ [(key, d)]

def change : Change I → Board I → Board I
  | .draw key drawable, b => ⟨put key drawable b.canvasDrawables, b.events ++ [(key, drawable)]⟩
  | .notify, b => b

/-- `Boolean.compare(o1 instanceof Text, o2 instanceof Text) <= 0`. -/
def textLast (a b : Drawable I) : Bool := !a.isText || b.isText

theorem textLast_trans (a b c : Drawable I) : textLast a b = true → textLast b c = true → textLast a c = true := by
  unfold textLast
  cases a.isText <;> cases b.isText <;> simp

theorem textLast_total (a b : Drawable I) : (textLast a b || textLast b a) = true := by
  unfold textLast
  cases a.isText <;> cases b.isText <;> rfl

/-- The part of `renderCanvas` after `wait`. -/
def render [DecidableEq I] (v : Visit I) (b : Board I) : Option (Option (Painted I) × Board I) :=
  if v.order.Perm b.canvasDrawables then
    if v.hasCanvas ∧ ¬ v.frozen then
      let kept := v.order.filter fun e => !e.2.isExpired (v.now e.1)
      some (some ⟨(kept.map Prod.snd).mergeSort textLast, v.now, b.events⟩, ⟨kept, b.events⟩)
    else some (none, b)
  else none

end Board

/-- The object the thread waits on. -/
def board (I : Type) [DecidableEq I] : Object (Board I) (Change I) (Visit I) (Option (Painted I)) where
  change := Board.change
  leave := Board.render

/-! ### The service -/

structure State (I : Type) where
  monitor : Monitor.State Unit (Board I) (Option (Painted I))
  clock : ℤ
  /-- the drawables for which `draw` is about to call `notifyCanvasLater` -/
  pending : List (Drawable I)
  /-- when the notifications scheduled are due -/
  timers : List ℤ

def State.init (clock : ℤ) : State I := ⟨Monitor.State.init ⟨[], []⟩, clock, [], []⟩

inductive Action (I : Type)
  | tick (millis : ℕ)
  /-- `draw`, up to the end of its block -/
  | draw (event : DrawEvent I)
  /-- `draw` goes on: `notifyCanvasLater` -/
  | notifyCanvasLater (drawable : Drawable I)
  /-- a notification scheduled is made -/
  | fire (due : ℤ)
  | enter
  | spurious
  /-- the thread goes on after `wait` and takes `elapsed` milliseconds; the clock is read
  `lag` after its start, at each entry -/
  | turn (hasCanvas frozen : Bool) (order : List (Entry I)) (lag : String → ℕ) (elapsed : ℕ)

variable [DecidableEq I]

omit [DecidableEq I] in
/-- Whether a notification is to be scheduled for what was drawn. -/
def awaited (drawable : Option (Drawable I)) : List (Drawable I) := drawable.toList.filter fun d => 0 < d.duration

/-- A step of the monitor alone. -/
def State.within (s : State I) (a : Monitor.Action Unit (Change I) (Visit I)) : Option (State I) :=
  (Monitor.step (board I) s.monitor a).map fun m => { s with monitor := m }

def step (s : State I) : Action I → Option (State I)
  | .tick millis => some { s with clock := s.clock + millis }
  | .draw event =>
    match event.key with
    | none => some s
    | some key =>
      if key = "" then some s
      else (s.within (.change (.draw key event.drawable))).map fun s' =>
        { s' with pending := s'.pending ++ awaited event.drawable }
  | .notifyCanvasLater d =>
    if d ∈ s.pending then
      some { s with
        pending := s.pending.erase d
        timers := s.timers ++ [s.clock + (d.duration + NOTIFY_CANVAS_DELAY)] }
    else none
  | .fire due =>
    if due ∈ s.timers ∧ due ≤ s.clock then
      (s.within (.change .notify)).map fun s' => { s' with timers := s'.timers.erase due }
    else none
  | .enter => s.within (.enter ())
  | .spurious => s.within (.spurious ())
  | .turn hasCanvas frozen order lag elapsed =>
    let now key := s.clock + (min (lag key) elapsed : ℕ)
    (s.within (.leave () ⟨hasCanvas, frozen, order, now⟩)).map fun s' => { s' with clock := s.clock + elapsed }

omit [DecidableEq I] in
/-- A drawable was made before it is drawn. -/
def timely (s : State I) : Action I → Prop
  | .draw event => ∀ d ∈ event.drawable, 0 < d.duration → d.expireTime ≤ s.clock + d.duration
  | _ => True

omit [DecidableEq I] in
theorem lasting_timely (picture : I) (isText : Bool) {duration now clock : ℤ} (h : now ≤ clock)
    (hnow : -2 ^ 63 ≤ now) (hd : 0 < duration) :
    (Drawable.lasting picture isText duration now).expireTime ≤ clock + duration := by
  have hle : addLong now duration ≤ now + duration := by
    unfold addLong
    rw [Int.bmod_eq_emod]
    split <;> omega
  exact hle.trans (by omega)

/-! ### What the map holds -/

/-- The drawable of the last event of each key. -/
def latest (events : List (String × Option (Drawable I))) (key : String) : Option (Drawable I) :=
  (Puts.written events key).join

/-- What a canvas should have under a key. -/
def wanted (events : List (String × Option (Drawable I))) (now : String → ℤ) (key : String) :
    Option (Drawable I) := (latest events key).filter fun d => !d.isExpired (now key)

/-- The canvas has what it should, and the texts last. -/
structure Exact (painted : Painted I) : Prop where
  entries : ∃ entries : List (Entry I), (entries.map Prod.fst).Nodup ∧
    painted.drawables.Perm (entries.map Prod.snd) ∧
    ∀ key d, (key, d) ∈ entries ↔ wanted painted.events painted.now key = some d
  texts : painted.drawables.Pairwise fun a b => a.isText = true → b.isText = true

/-- The map has the drawable of each key's last event, but for some that expired before
`clock`. -/
structure Holds (b : Board I) (clock : ℤ) : Prop where
  keys : (b.canvasDrawables.map Prod.fst).Nodup
  sound : ∀ key d, (key, d) ∈ b.canvasDrawables → latest b.events key = some d
  complete : ∀ key d, latest b.events key = some d → (key, d) ∈ b.canvasDrawables ∨ d.expireTime < clock

section Holds

omit [DecidableEq I]

variable {b : Board I} {clock : ℤ}

theorem latest_snoc (events : List (String × Option (Drawable I))) (key : String) (drawable : Option (Drawable I)) :
    latest (events ++ [(key, drawable)]) = Function.update (latest events) key drawable := by
  funext k
  rw [latest, Puts.written_snoc, Puts.put]
  rcases eq_or_ne k key with rfl | hk
  · rw [Function.update_self, Function.update_self]
    rfl
  · rw [Function.update_of_ne hk, Function.update_of_ne hk]
    rfl

theorem Holds.mono (h : Holds b clock) {later : ℤ} (hle : clock ≤ later) : Holds b later :=
  ⟨h.keys, h.sound, fun key d hd => (h.complete key d hd).imp_right fun he => he.trans_le hle⟩

theorem Holds.draw (h : Holds b clock) (key : String) (drawable : Option (Drawable I)) :
    Holds (Board.change (.draw key drawable) b) clock := by
  have hrest : ∀ k d, (k, d) ∈ b.canvasDrawables.filter (·.1 ≠ key) ↔ (k, d) ∈ b.canvasDrawables ∧ k ≠ key := by
    simp
  have hkeys : ((b.canvasDrawables.filter (·.1 ≠ key)).map Prod.fst).Nodup := h.keys.sublist
    ((List.filter_sublist).map Prod.fst)
  have hnot : key ∉ (b.canvasDrawables.filter (·.1 ≠ key)).map Prod.fst := by simp
  have hmem : ∀ k d, (k, d) ∈ Board.put key drawable b.canvasDrawables ↔
      (k, d) ∈ b.canvasDrawables ∧ k ≠ key ∨ k = key ∧ drawable = some d := by
    intro k d
    cases drawable with
    | none => simp [Board.put]
    | some d' =>
      rw [Board.put, List.mem_append, hrest, List.mem_singleton, Prod.mk.injEq, Option.some.injEq, @eq_comm _ d]
  refine ⟨?_, fun k d hd => ?_, fun k d hd => ?_⟩ <;> dsimp only [Board.change] at *
  · cases drawable with
    | none => exact hkeys
    | some d =>
      rw [Board.put, List.map_append]
      exact List.nodup_append.mpr ⟨hkeys, List.nodup_singleton _, by
        rintro k hk _ (_ | ⟨_, ⟨⟩⟩) rfl
        exact hnot hk⟩
  · rw [latest_snoc]
    rcases (hmem k d).mp hd with ⟨hbefore, hk⟩ | ⟨rfl, hnew⟩
    · rw [Function.update_of_ne hk]
      exact h.sound k d hbefore
    · rw [Function.update_self, hnew]
  · rw [latest_snoc] at hd
    by_cases hk : k = key
    · subst hk
      rw [Function.update_self] at hd
      exact Or.inl ((hmem k d).mpr (Or.inr ⟨rfl, hd⟩))
    · rw [Function.update_of_ne hk] at hd
      exact (h.complete k d hd).imp_left fun hd => (hmem k d).mpr (Or.inl ⟨hd, hk⟩)

/-- What a turn keeps of the map is what should be painted. -/
theorem Holds.mem_kept (h : Holds b clock) {v : Visit I} (hperm : v.order.Perm b.canvasDrawables)
    (hnow : ∀ key, clock ≤ v.now key) (key : String) (d : Drawable I) :
    (key, d) ∈ v.order.filter (fun e => !e.2.isExpired (v.now e.1)) ↔ wanted b.events v.now key = some d := by
  rw [List.mem_filter, hperm.mem_iff, wanted, Option.filter_eq_some_iff]
  refine and_congr_left fun hd => ⟨h.sound key d, fun hlatest => ?_⟩
  have hnot : ¬ d.expireTime < v.now key := by simpa [Drawable.isExpired] using hd
  exact (h.complete key d hlatest).resolve_right fun he => hnot (he.trans_le (hnow key))

/-- A turn. -/
theorem Holds.render [DecidableEq I] (h : Holds b clock) {v : Visit I} {later : ℤ}
    (hnow : ∀ key, clock ≤ v.now key ∧ v.now key ≤ later) {result : Option (Painted I)} {b' : Board I}
    (hr : Board.render v b = some (result, b')) :
    Holds b' later ∧ b'.events = b.events ∧ ∀ painted ∈ result, Exact painted := by
  unfold Board.render at hr
  split at hr
  · rename_i hperm
    split at hr
    · have hmem := h.mem_kept hperm fun key => (hnow key).1
      simp only [Option.some.injEq, Prod.mk.injEq] at hr
      obtain ⟨rfl, rfl⟩ := hr
      have hkeys : ((v.order.filter fun e => !e.2.isExpired (v.now e.1)).map Prod.fst).Nodup :=
        (((hperm.map Prod.fst).nodup_iff).mpr h.keys).sublist (List.filter_sublist.map Prod.fst)
      refine ⟨⟨hkeys, fun key d hd => ?_, fun key d hd => ?_⟩, rfl, ?_⟩
      · exact h.sound key d (hperm.mem_iff.mp (List.mem_filter.mp hd).1)
      · -- an entry that goes has expired by its reading of the clock
        by_cases he : d.expireTime < v.now key
        · exact Or.inr (he.trans_le (hnow key).2)
        · refine Or.inl ((hmem key d).mpr ?_)
          rw [wanted, hd]
          simp [Drawable.isExpired, he]
      · rintro painted ⟨⟩
        refine ⟨⟨_, hkeys, List.mergeSort_perm _ _, hmem⟩, ?_⟩
        refine (List.pairwise_mergeSort Board.textLast_trans Board.textLast_total _).imp fun hab ha => ?_
        simpa [Board.textLast, ha] using hab
    · cases hr
      exact ⟨h.mono ((hnow "").1.trans (hnow "").2), rfl, by simp⟩
  · cases hr

end Holds

/-! ### Every run -/

/-- The drawable has expired, or a notification comes after that: it is scheduled, or
about to be. -/
def Covered (s : State I) (d : Drawable I) : Prop :=
  d.expireTime < s.clock ∨ (∃ due ∈ s.timers, d.expireTime < due) ∨
    d ∈ s.pending ∧ d.expireTime ≤ s.clock + d.duration

/-- What the service keeps: the map is as it should be, every canvas was, and what will
expire has a notification coming after that. -/
structure Inv (s : State I) : Prop where
  holds : Holds s.monitor.object s.clock
  painted : ∀ turn ∈ s.monitor.turns, ∀ painted ∈ turn.result, Exact painted
  timers : ∀ key d, (key, some d) ∈ s.monitor.object.events → 0 < d.duration → Covered s d

omit [DecidableEq I] in
theorem inv_init (clock : ℤ) : Inv (State.init clock : State I) :=
  ⟨⟨by simp [State.init, Monitor.State.init], by simp [State.init, Monitor.State.init],
    by simp [State.init, Monitor.State.init, latest, Puts.written]⟩, by simp [State.init, Monitor.State.init],
    by simp [State.init, Monitor.State.init]⟩

variable {s s' : State I}

/-- The thread comes in or is woken: the map stays as it is. -/
theorem within_object {a : Monitor.Action Unit (Change I) (Visit I)} (ha : a = .enter () ∨ a = .spurious ())
    (hs : s.within a = some s') : s'.monitor.object = s.monitor.object ∧ s'.monitor.turns = s.monitor.turns ∧
      s'.clock = s.clock ∧ s'.pending = s.pending ∧ s'.timers = s.timers := by
  obtain ⟨m, hm, rfl⟩ := Option.map_eq_some_iff.mp hs
  rcases ha with rfl | rfl
  · simp only [Monitor.step, Option.ite_none_right_eq_some, Option.some.injEq] at hm
    obtain ⟨-, rfl⟩ := hm
    exact ⟨rfl, rfl, rfl, rfl, rfl⟩
  · simp only [Monitor.step, Option.ite_none_right_eq_some, Option.some.injEq] at hm
    obtain ⟨-, rfl⟩ := hm
    exact ⟨rfl, rfl, rfl, rfl, rfl⟩

/-- The map is changed and the thread notified. -/
theorem within_change {c : Change I} (hs : s.within (.change c) = some s') :
    s'.monitor.object = Board.change c s.monitor.object ∧ s'.monitor.turns = s.monitor.turns ∧
      s'.clock = s.clock ∧ s'.pending = s.pending ∧ s'.timers = s.timers := by
  obtain ⟨m, hm, rfl⟩ := Option.map_eq_some_iff.mp hs
  obtain rfl := Option.some.inj hm
  exact ⟨rfl, rfl, rfl, rfl, rfl⟩

theorem within_change_phase {c : Change I} (hs : s.within (.change c) = some s') :
    s'.monitor.phase () = (s.monitor.phase ()).notify := by
  obtain ⟨m, hm, rfl⟩ := Option.map_eq_some_iff.mp hs
  obtain rfl := Option.some.inj hm
  rfl

omit [DecidableEq I] in
theorem Inv.of_eq (h : Inv s) (hobject : s'.monitor.object = s.monitor.object)
    (hturns : s'.monitor.turns = s.monitor.turns) (hclock : s'.clock = s.clock) (hpending : s'.pending = s.pending)
    (htimers : s'.timers = s.timers) : Inv s' := by
  obtain ⟨hholds, hpainted, htime⟩ := h
  refine ⟨by rwa [hobject, hclock], by rwa [hturns], fun key d hd hpos => ?_⟩
  have hcovered := htime key d (hobject ▸ hd) hpos
  rwa [Covered, hclock, hpending, htimers]

omit [DecidableEq I] in
/-- As time goes by. -/
theorem Covered.mono {d : Drawable I} (h : Covered s d) (hclock : s.clock ≤ s'.clock) (htimers : s.timers ⊆ s'.timers)
    (hpending : s.pending ⊆ s'.pending) : Covered s' d := by
  rcases h with he | ⟨due, hdue, hlt⟩ | ⟨hmem, hle⟩
  · exact .inl (he.trans_le hclock)
  · exact .inr (.inl ⟨due, htimers hdue, hlt⟩)
  · exact .inr (.inr ⟨hpending hmem, by omega⟩)

theorem Inv.draw (h : Inv s) {event : DrawEvent I} (ht : timely s (.draw event))
    (hs : step s (.draw event) = some s') : Inv s' := by
  obtain ⟨key, drawable⟩ := event
  cases key with
  | none =>
    cases hs
    exact h
  | some key =>
    simp only [step] at hs
    split at hs
    · cases hs
      exact h
    · obtain ⟨t, hwithin, rfl⟩ := Option.map_eq_some_iff.mp hs
      obtain ⟨hobject, hturns, hclock, hpending, htimers⟩ := within_change hwithin
      refine ⟨?_, ?_, fun k d hd hpos => ?_⟩ <;> dsimp only at *
      · rw [hobject, hclock]
        exact h.holds.draw key drawable
      · rw [hturns]
        exact h.painted
      · rw [hobject] at hd
        rcases List.mem_append.mp hd with hd | hd
        · refine (h.timers k d hd hpos).mono hclock.ge (htimers ▸ List.Subset.refl _) ?_
          rw [← hpending]
          exact List.subset_append_left _ _
        · obtain ⟨rfl, rfl⟩ : k = key ∧ some d = drawable := by simpa using hd
          refine .inr (.inr ⟨List.mem_append_right _ (by simp [awaited, hpos]), ?_⟩)
          dsimp only
          rw [hclock]
          exact ht d rfl hpos

/-- The notification is scheduled for a time after the drawable's. -/
theorem Inv.notifyCanvasLater (h : Inv s) {d : Drawable I} (hs : step s (.notifyCanvasLater d) = some s') : Inv s' := by
  simp only [step, Option.ite_none_right_eq_some, Option.some.injEq] at hs
  obtain ⟨hd, rfl⟩ := hs
  refine ⟨h.holds, h.painted, fun key d' hmem hpos => ?_⟩
  rcases h.timers key d' hmem hpos with he | ⟨due, hdue, hlt⟩ | ⟨hpending, hle⟩
  · exact .inl he
  · exact .inr (.inl ⟨due, List.mem_append_left _ hdue, hlt⟩)
  · by_cases heq : d' = d
    · subst heq
      refine .inr (.inl ⟨_, List.mem_append_right _ (List.mem_singleton_self _), ?_⟩)
      simp only [NOTIFY_CANVAS_DELAY]
      omega
    · exact .inr (.inr ⟨(List.mem_erase_of_ne heq).mpr hpending, hle⟩)

/-- A notification scheduled is made when it is due: what it was for has expired. -/
theorem Inv.fire (h : Inv s) {due : ℤ} (hs : step s (.fire due) = some s') : Inv s' := by
  simp only [step, Option.ite_none_right_eq_some, Option.map_eq_some_iff] at hs
  obtain ⟨⟨-, hdue⟩, t, ht, rfl⟩ := hs
  obtain ⟨hobject, hturns, hclock, hpending, htimers⟩ := within_change ht
  refine ⟨?_, ?_, fun key d hd hpos => ?_⟩ <;> dsimp only at *
  · rw [hobject, hclock]
    exact h.holds
  · rw [hturns]
    exact h.painted
  · rw [hobject] at hd
    rw [Covered]
    dsimp only
    rw [hclock, hpending, htimers]
    rcases h.timers key d hd hpos with he | ⟨other, hother, hlt⟩ | hlater
    · exact .inl he
    · by_cases heq : other = due
      · exact .inl (hlt.trans_le (heq ▸ hdue))
      · exact .inr (.inl ⟨other, (List.mem_erase_of_ne heq).mpr hother, hlt⟩)
    · exact .inr (.inr hlater)

theorem Inv.turn (h : Inv s) {hasCanvas frozen : Bool} {order : List (Entry I)} {lag : String → ℕ} {elapsed : ℕ}
    (hs : step s (.turn hasCanvas frozen order lag elapsed) = some s') : Inv s' := by
  simp only [step, State.within, Monitor.step, Option.map_map, Option.map_eq_some_iff,
    Option.ite_none_right_eq_some] at hs
  obtain ⟨m, ⟨-, ⟨result, b⟩, hr, rfl⟩, rfl⟩ := hs
  have hnow : ∀ key, s.clock ≤ s.clock + (min (lag key) elapsed : ℕ) ∧
      s.clock + (min (lag key) elapsed : ℕ) ≤ s.clock + elapsed := fun key => by omega
  obtain ⟨hholds, hevents, hexact⟩ := h.holds.render hnow hr
  refine ⟨hholds, fun turn hturn => ?_, fun key d hd hpos => ?_⟩
  · rcases List.mem_append.mp hturn with hturn | hturn
    · exact h.painted turn hturn
    · rw [List.mem_singleton.mp hturn]
      exact hexact
  · refine (h.timers key d (hevents ▸ hd) hpos).mono ?_ (List.Subset.refl _) (List.Subset.refl _)
    dsimp only [Function.comp]
    omega

theorem inv_step {a : Action I} (h : Inv s) (ht : timely s a) (hs : step s a = some s') : Inv s' := by
  cases a with
  | tick millis =>
    obtain rfl := Option.some.inj hs
    have hle : s.clock ≤ s.clock + millis := by omega
    exact ⟨h.holds.mono hle, h.painted,
      fun key d hd hpos => (h.timers key d hd hpos).mono hle (List.Subset.refl _) (List.Subset.refl _)⟩
  | draw event => exact h.draw ht hs
  | notifyCanvasLater d => exact h.notifyCanvasLater hs
  | fire due => exact h.fire hs
  | enter =>
    obtain ⟨hobject, hturns, hclock, hpending, htimers⟩ := within_object (Or.inl rfl) hs
    exact h.of_eq hobject hturns hclock hpending htimers
  | spurious =>
    obtain ⟨hobject, hturns, hclock, hpending, htimers⟩ := within_object (Or.inr rfl) hs
    exact h.of_eq hobject hturns hclock hpending htimers
  | turn hasCanvas frozen order lag elapsed => exact h.turn hs

theorem inv_of_reach {clock : ℤ} (h : Reach step timely (State.init clock) s) : Inv s :=
  h.invariant (inv_init clock) fun _ _ _ hi ht hs => inv_step hi ht hs

/-- Every canvas painted has the drawable of each key's last event that has not expired,
and the texts last. -/
theorem canvas_exact {clock : ℤ} (h : Reach step timely (State.init clock) s) :
    ∀ turn ∈ s.monitor.turns, ∀ painted ∈ turn.result, Exact painted :=
  (inv_of_reach h).painted

/-- A text and a rectangle of 3000 milliseconds each: the rectangle is painted first. -/
theorem canvas_exact_mouse : ∃ s : State ℕ, (∃ turn ∈ s.monitor.turns, ∃ painted ∈ turn.result,
      painted.drawables = [Drawable.lasting 1 false 3000 7, .lasting 2 true 3000 7]) ∧
    ∀ turn ∈ s.monitor.turns, ∀ painted ∈ turn.result, Exact painted := by
  have hlasting : ∀ (isText : Bool) (picture : ℕ), ∀ d ∈ some (Drawable.lasting picture isText 3000 7),
      0 < d.duration → d.expireTime ≤ 7 + d.duration := by
    rintro isText picture d ⟨⟩ -
    exact lasting_timely picture isText le_rfl (by decide) (by decide)
  refine ⟨_, ?_, canvas_exact (.step (.turn true false
    [("TEXT", .lasting 2 true 3000 7), ("RECT", .lasting 1 false 3000 7)] (fun _ => 0) 1)
    (.step (.draw ⟨some "RECT", some (.lasting 1 false 3000 7)⟩)
    (.step (.draw ⟨some "TEXT", some (.lasting 2 true 3000 7)⟩)
    (.step .enter (.start : Reach step timely (State.init 7 : State ℕ) _) trivial rfl) (hlasting true 2) rfl)
    (hlasting false 1) rfl) trivial rfl)⟩
  refine ⟨_, List.mem_singleton_self _, _, rfl, ?_⟩
  show List.mergeSort [Drawable.lasting 2 true 3000 7, .lasting 1 false 3000 7] Board.textLast = _
  simp [List.mergeSort, Board.textLast, Drawable.lasting]

omit [DecidableEq I] in
/-- The drawable of a key's last event was in that event. -/
theorem mem_of_latest {key : String} {d : Drawable I} {events : List (String × Option (Drawable I))} :
    latest events key = some d → (key, some d) ∈ events :=
  fun h => Puts.mem_of_written (Option.join_eq_some_iff.mp h)

theorem render_painted {v : Visit I} {b b' : Board I} {result : Option (Painted I)}
    (hr : Board.render v b = some (result, b')) :
    ∀ painted ∈ result, painted.events = b.events ∧ painted.now = v.now := by
  simp only [Board.render, Option.ite_none_right_eq_some] at hr
  obtain ⟨-, hr⟩ := hr
  split at hr
  · obtain ⟨rfl, -⟩ := Prod.mk.inj (Option.some.inj hr)
    rintro painted ⟨⟩
    exact ⟨rfl, rfl⟩
  · obtain ⟨rfl, -⟩ := Prod.mk.inj (Option.some.inj hr)
    simp

/-- With nothing scheduled, and nothing about to be, a turn paints nothing that expires. -/
theorem turn_untimed (hinv : Inv s) (htimers : s.timers = []) (hpending : s.pending = []) {hasCanvas frozen : Bool}
    {order : List (Entry I)} {lag : String → ℕ} {elapsed : ℕ}
    (hs : step s (.turn hasCanvas frozen order lag elapsed) = some s') :
    ∃ turn, s'.monitor.turns = s.monitor.turns ++ [turn] ∧
      ∀ painted ∈ turn.result, ∀ d ∈ painted.drawables, d.duration ≤ 0 := by
  have hexact := (hinv.turn hs).painted
  simp only [step, State.within, Monitor.step, Option.map_map, Option.map_eq_some_iff,
    Option.ite_none_right_eq_some] at hs
  obtain ⟨m, ⟨-, ⟨result, b⟩, hr, rfl⟩, rfl⟩ := hs
  refine ⟨_, rfl, fun painted hp d hd => ?_⟩
  obtain ⟨⟨entries, -, hperm, hentries⟩, -⟩ :=
    hexact _ (List.mem_append_right _ (List.mem_singleton_self _)) painted hp
  obtain ⟨hevents, hnow⟩ := render_painted hr painted hp
  obtain ⟨⟨key, d'⟩, hmem, rfl⟩ := List.mem_map.mp (hperm.mem_iff.mp hd)
  have hwanted := (hentries key d').mp hmem
  rw [wanted, Option.filter_eq_some_iff, hevents, hnow] at hwanted
  by_contra hpos
  rcases hinv.timers key d' (mem_of_latest hwanted.1) (not_le.mp hpos) with he | ⟨due, hdue, -⟩ | ⟨hlater, -⟩
  · have hkept := hwanted.2
    simp only [Drawable.isExpired, Bool.not_eq_true', decide_eq_false_iff_not] at hkept
    omega
  · simp [htimers] at hdue
  · simp [hpending] at hlater

omit [DecidableEq I] in
/-- Nothing that expires is drawn. -/
def untimed (_ : State I) : Action I → Prop
  | .draw event => ∀ d ∈ event.drawable, d.duration ≤ 0
  | _ => True

omit [DecidableEq I] in
theorem timely_of_untimed {a : Action I} (h : untimed s a) : timely s a := by
  cases a with
  | draw event =>
    intro d hd hpos
    exact absurd hpos (not_lt.mpr (h d hd))
  | _ => trivial

/-- Since `s₀` nothing has been scheduled, and nothing that expires has been painted. -/
structure Gone (s₀ s : State I) : Prop where
  inv : Inv s
  timers : s.timers = []
  pending : s.pending = []
  turns : ∃ new, s.monitor.turns = s₀.monitor.turns ++ new ∧
    ∀ turn ∈ new, ∀ painted ∈ turn.result, ∀ d ∈ painted.drawables, d.duration ≤ 0

theorem gone_step {s₀ : State I} {a : Action I} (h : Gone s₀ s) (ha : untimed s a) (hs : step s a = some s') :
    Gone s₀ s' := by
  have hinv := inv_step h.inv (timely_of_untimed ha) hs
  cases a with
  | tick millis =>
    obtain rfl := Option.some.inj hs
    exact ⟨hinv, h.timers, h.pending, h.turns⟩
  | draw event =>
    obtain ⟨key, drawable⟩ := event
    cases key with
    | none =>
      cases hs
      exact h
    | some key =>
      simp only [step] at hs
      split at hs
      · cases hs
        exact h
      · obtain ⟨t, hwithin, rfl⟩ := Option.map_eq_some_iff.mp hs
        obtain ⟨-, hturns, -, hpending, htimers⟩ := within_change hwithin
        have hnone : awaited drawable = [] := by
          refine List.filter_eq_nil_iff.mpr fun d hd => ?_
          simpa using ha d (by simpa using hd)
        refine ⟨hinv, htimers.trans h.timers, ?_, ?_⟩
        · dsimp only
          rw [hpending, h.pending, hnone]
          rfl
        · dsimp only
          rw [hturns]
          exact h.turns
  | notifyCanvasLater d => simp [step, h.pending] at hs
  | fire due => simp [step, h.timers] at hs
  | enter =>
    obtain ⟨-, hturns, -, hpending, htimers⟩ := within_object (Or.inl rfl) hs
    exact ⟨hinv, htimers.trans h.timers, hpending.trans h.pending, hturns ▸ h.turns⟩
  | spurious =>
    obtain ⟨-, hturns, -, hpending, htimers⟩ := within_object (Or.inr rfl) hs
    exact ⟨hinv, htimers.trans h.timers, hpending.trans h.pending, hturns ▸ h.turns⟩
  | turn hasCanvas frozen order lag elapsed =>
    obtain ⟨turn, hturn, hplain⟩ := turn_untimed h.inv h.timers h.pending hs
    obtain ⟨new, hnew, hall⟩ := h.turns
    have hrest : s'.timers = s.timers ∧ s'.pending = s.pending := by
      simp only [step, State.within, Monitor.step, Option.map_map, Option.map_eq_some_iff,
        Option.ite_none_right_eq_some] at hs
      obtain ⟨m, -, rfl⟩ := hs
      exact ⟨rfl, rfl⟩
    refine ⟨hinv, hrest.1.trans h.timers, hrest.2.trans h.pending, new ++ [turn], ?_, ?_⟩
    · rw [hturn, hnew, List.append_assoc]
    · intro turn' hmem
      rcases List.mem_append.mp hmem with hmem | hmem
      · exact hall turn' hmem
      · rw [List.mem_singleton.mp hmem]
        exact hplain

/-! ### A notification while the thread is outside -/

omit [DecidableEq I] in
/-- No event, no notification, and `wait` does not return by itself. -/
def quiet (_ : State I) : Action I → Prop
  | .draw _ | .fire _ | .spurious => False
  | _ => True

theorem unheard_quiet {s₀ : Monitor.State Unit (Board I) (Option (Painted I))} {a : Action I}
    (h : Unheard () s₀ s.monitor) (ha : quiet s a) (hs : step s a = some s') : Unheard () s₀ s'.monitor := by
  cases a with
  | tick millis =>
    obtain rfl := Option.some.inj hs
    exact h
  | enter =>
    obtain ⟨m, hm, rfl⟩ := Option.map_eq_some_iff.mp hs
    exact unheard_step h (by trivial) hm
  | turn hasCanvas frozen order lag elapsed =>
    obtain ⟨t, ht, rfl⟩ := Option.map_eq_some_iff.mp hs
    obtain ⟨m, hm, rfl⟩ := Option.map_eq_some_iff.mp ht
    exact unheard_step h (by trivial) hm
  | notifyCanvasLater d =>
    simp only [step, Option.ite_none_right_eq_some, Option.some.injEq] at hs
    obtain ⟨-, rfl⟩ := hs
    exact h
  | draw event => exact ha.elim
  | fire due => exact ha.elim
  | spurious => exact ha.elim

omit [DecidableEq I] in
theorem unheard_turns {s₀ t : Monitor.State Unit (Board I) (Option (Painted I))} (h : Unheard () s₀ t) :
    t.turns = s₀.turns := by simpa using h.turns

/-- The thread was notified: it can go on at once. -/
theorem turn_of_notified (hphase : s.monitor.phase () = .notified) : ∃ t, Reach step quiet s t ∧
    ∃ turn ∈ t.monitor.turns.drop s.monitor.turns.length, ∃ painted ∈ turn.result,
      painted.events = s.monitor.object.events := by
  obtain ⟨t, ht, painted, hturns, hevents⟩ : ∃ t, step s (.turn true false s.monitor.object.canvasDrawables
      (fun _ => 0) 0) = some t ∧ ∃ painted : Painted I, t.monitor.turns = s.monitor.turns ++
        [⟨(), s.monitor.entered (), s.monitor.notifications, some painted⟩] ∧
        painted.events = s.monitor.object.events := by
    simp [step, State.within, Monitor.step, hphase, board, Board.render]
  refine ⟨t, .step _ .start (by trivial) ht, ?_⟩
  rw [hturns, List.drop_left]
  exact ⟨_, List.mem_singleton_self _, painted, rfl, hevents⟩

/-- After `notifyAll`: the thread paints before the next notification if and only if it was
in its block. -/
theorem heard_iff {phase : Phase} (hphase : s.monitor.phase () = phase.notify) :
    (∃ t, Reach step quiet s t ∧ ∃ turn ∈ t.monitor.turns.drop s.monitor.turns.length, ∃ painted ∈ turn.result,
      painted.events = s.monitor.object.events) ↔ phase ≠ .outside := by
  refine ⟨?_, fun hblock => ?_⟩
  · rintro ⟨u, hreach, turn, hturn, -⟩ hout
    have hheard : s.monitor.phase () ≠ .notified := by
      rw [hphase, hout]
      decide
    have hunheard : Unheard () s.monitor u.monitor :=
      hreach.invariant ⟨hheard, rfl⟩ fun _ _ _ h ha hs => unheard_quiet h ha hs
    rw [unheard_turns hunheard, List.drop_length] at hturn
    cases hturn
  · refine turn_of_notified ?_
    rw [hphase]
    cases phase with
    | outside => exact absurd rfl hblock
    | waiting => rfl
    | notified => rfl

/-- An event can be painted before the next notification only if the thread was in its
block when it came. -/
theorem painted_iff {event : DrawEvent I} {key : String} (hkey : event.key = some key) (hne : key ≠ "")
    (hs : step s (.draw event) = some s') :
    (∃ t, Reach step quiet s' t ∧ ∃ turn ∈ t.monitor.turns.drop s'.monitor.turns.length,
      ∃ painted ∈ turn.result, painted.events = s.monitor.object.events ++ [(key, event.drawable)]) ↔
      s.monitor.phase () ≠ .outside := by
  simp only [step, hkey, hne, if_false, Option.map_eq_some_iff] at hs
  obtain ⟨t, ht, rfl⟩ := hs
  have hevents : t.monitor.object.events = s.monitor.object.events ++ [(key, event.drawable)] := by
    rw [(within_change ht).1]
    rfl
  have hphase := within_change_phase ht
  rw [← hevents]
  exact heard_iff (s := { t with pending := t.pending ++ awaited event.drawable }) hphase

/-- A cleared key, with the thread in its block and before it came in. -/
theorem painted_iff_cleared : ∃ s s' t t' : State ℕ, step s (.draw ⟨some "TEXT", none⟩) = some s' ∧
    step t (.draw ⟨some "TEXT", none⟩) = some t' ∧
    (∃ u, Reach step quiet s' u ∧ ∃ turn ∈ u.monitor.turns.drop s'.monitor.turns.length,
      ∃ painted ∈ turn.result, painted.events = s.monitor.object.events ++ [("TEXT", none)]) ∧
    ¬ ∃ u, Reach step quiet t' u ∧ ∃ turn ∈ u.monitor.turns.drop t'.monitor.turns.length,
      ∃ painted ∈ turn.result, painted.events = t.monitor.object.events ++ [("TEXT", none)] := by
  obtain ⟨s, s', -, hs, hphase⟩ : ∃ s s' : State ℕ, step (State.init 7) .enter = some s ∧
      step s (.draw ⟨some "TEXT", none⟩) = some s' ∧ s.monitor.phase () = .waiting := ⟨_, _, rfl, rfl, rfl⟩
  have hne : "TEXT" ≠ "" := by decide
  obtain ⟨t', ht⟩ : ∃ t', step (State.init 7 : State ℕ) (.draw ⟨some "TEXT", none⟩) = some t' := ⟨_, rfl⟩
  refine ⟨s, s', State.init 7, t', hs, ht, (painted_iff rfl hne hs).mpr ?_, fun h => (painted_iff rfl hne ht).mp h rfl⟩
  rw [hphase]
  decide

end Canvas
end PGCon
