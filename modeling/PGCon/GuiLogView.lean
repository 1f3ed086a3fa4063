/-
# The log view

Log records go through two buffers. `GuiLog` is a queue of at most 10000 records; a
record offered while it is full is refused. `GuiLogView` drains it once a tick into its
list of items and then takes from the head of the list what is over 10000. The ticks are
those of a `Timeline`, which runs while the view has a parent and is not paused.

The list forgets the oldest records, but the queue refuses the newest. As long as at most
10000 records are offered from one tick to the next, the queue refuses none and the items
are the newest records (`logItems_after`); after a longer gap they are the first records
of that gap (`logItems_late`).
-/
import PGCon.Machine

namespace PGCon
namespace GuiLogView

open Machine

/-! ### The timeline -/

/-- `Animation.Status`. -/
inductive Status
  | stopped
  | paused
  | running
  deriving DecidableEq, Repr

/-- The timeline `logTransfer`, the property `paused`, and the parent, one of the nodes
or `null`. -/
structure Timeline where
  status : Status
  isPaused : Bool
  parent : Option ℕ
  deriving DecidableEq, Repr

namespace Timeline

def start : Timeline := ⟨.stopped, false, none⟩

def play (t : Timeline) : Timeline := { t with status := .running }

def pause (t : Timeline) : Timeline := if t.status = .running then { t with status := .paused } else t

/-- `paused` gets a value; its listener hears of a change. -/
def setPaused (t : Timeline) (newValue : Bool) : Timeline :=
  if newValue = t.isPaused then t
  else
    let t := { t with isPaused := newValue }
    let t := if newValue = true ∧ t.status = .running then t.pause else t
    if newValue = false ∧ t.status = .paused ∧ t.parent ≠ none then t.play else t

/-- The view gets another parent, or none. -/
def setParent (t : Timeline) (newValue : Option ℕ) : Timeline :=
  if newValue = t.parent then t
  else
    let t := { t with parent := newValue }
    if newValue = none then t.pause
    else if t.isPaused = false then t.play
    else t

end Timeline

/-- What can happen, but for `clearLogs`. -/
inductive Event
  | offer
  | tick
  | setPaused (newValue : Bool)
  | setParent (newValue : Option ℕ)
  deriving DecidableEq, Repr

/-- The timeline ticks only while it runs. -/
def Timeline.step (t : Timeline) : Event → Option Timeline
  | .offer => some t
  | .tick => if t.status = .running then some t else none
  | .setPaused newValue => some (t.setPaused newValue)
  | .setParent newValue => some (t.setParent newValue)

/-- The events can happen in this order. -/
def Possible (events : List Event) : Prop := ∃ t, run Timeline.step anyStep Timeline.start events = some t

/-! ### The records -/

def MAX_LOG_ENTRIES : ℕ := 10000
def MAX_ENTRIES : ℕ := 10000

/-- `GuiLog.offer`: `LinkedBlockingDeque.offer` refuses a record when the deque is full. -/
def GuiLog.offer {Record : Type} (log : List Record) (record : Record) : List Record :=
  if log.length < MAX_LOG_ENTRIES then log ++ [record] else log

variable {Record : Type}

/-- The queue and the items, and how many records have been offered. -/
structure Logs (Record : Type) where
  offered : ℕ
  log : List Record
  logItems : List Record

def Logs.start : Logs Record := ⟨0, [], []⟩

/-- `drainTo(logItems)`, and the head of the list removed. -/
def Logs.tick (l : Logs Record) : Logs Record :=
  let logItems := l.logItems ++ l.log
  { l with
    log := []
    logItems := if logItems.length > MAX_ENTRIES then logItems.drop (logItems.length - MAX_ENTRIES) else logItems }

section

variable (record : ℕ → Record)

/-- `record n` is the record offered after `n` others. -/
def Logs.step (l : Logs Record) : Event → Logs Record
  | .offer => { l with offered := l.offered + 1, log := GuiLog.offer l.log (record l.offered) }
  | .tick => l.tick
  | .setPaused _ => l
  | .setParent _ => l

/-- The view with its timeline. -/
structure View (Record : Type) where
  timeline : Timeline
  logs : Logs Record

def start : View Record := ⟨.start, .start⟩

def step (v : View Record) (e : Event) : Option (View Record) :=
  (v.timeline.step e).map fun t => ⟨t, v.logs.step record e⟩

/-- The items are the newest of the records offered, in order. -/
def Newest (l : Logs Record) : Prop := l.logItems = ((List.range l.offered).map record).rtake MAX_ENTRIES

/-- They are so after every tick of the run. -/
def NewestAfterTicks (events : List Event) : Prop :=
  ∀ before after, events = before ++ .tick :: after →
    ∀ v, run (step record) anyStep start (before ++ [.tick]) = some v → Newest record v.logs

end

/-- How many records were offered since the last tick. -/
def gap (events : List Event) : ℕ :=
  events.foldl (fun n e => match e with
    | .offer => n + 1
    | .tick => 0
    | _ => n) 0

/-- Before every tick no more records were offered than the queue takes. -/
def InTime (events : List Event) : Prop :=
  ∀ before after, events = before ++ .tick :: after → gap before ≤ MAX_LOG_ENTRIES

/-! ### The last entries of a list -/

section Last

variable {α : Type*} {n : ℕ}

theorem rtake_append_rtake (l m : List α) : (l.rtake n ++ m).rtake n = (l ++ m).rtake n := by
  simp only [List.rtake_eq_reverse_take_reverse, List.reverse_append, List.reverse_reverse, List.take_append,
    List.take_take]
  rw [Nat.min_eq_left (Nat.sub_le _ _)]

theorem rtake_append_of_length (l : List α) {m : List α} (h : m.length = n) : (l ++ m).rtake n = m := by
  rw [List.rtake, List.length_append, h, Nat.add_sub_cancel, List.drop_left]

/-- The items after a tick. -/
theorem logItems_tick (l : Logs Record) : l.tick.logItems = (l.logItems ++ l.log).rtake MAX_ENTRIES := by
  unfold Logs.tick List.rtake
  dsimp only
  split
  · rfl
  · rename_i hle
    rw [Nat.sub_eq_zero_of_le (not_lt.mp hle), List.drop_zero]

end Last

/-! ### Along a run -/

theorem gap_append (events : List Event) (e : Event) : gap (events ++ [e]) = match e with
    | .offer => gap events + 1
    | .tick => 0
    | _ => gap events := by
  rw [gap, List.foldl_append]
  rfl

theorem gap_le_count (events : List Event) : gap events ≤ events.count .offer := by
  induction events using List.reverseRecOn with
  | nil => exact le_rfl
  | append_singleton events e ih =>
    rw [gap_append, List.count_append]
    cases e with
    | offer => exact Nat.add_le_add_right ih 1
    | tick => exact Nat.zero_le _
    | setPaused newValue => exact ih
    | setParent newValue => exact ih

theorem InTime.of_append {events : List Event} {e : Event} (h : InTime (events ++ [e])) : InTime events := by
  rintro before after rfl
  exact h before (after ++ [e]) (by simp)

section

variable (record : ℕ → Record)

/-- The queue and the items after these events. -/
def after (events : List Event) : Logs Record := events.foldl (Logs.step record) .start

theorem after_append (events : List Event) (e : Event) :
    after record (events ++ [e]) = (after record events).step record e := by
  rw [after, List.foldl_append]
  rfl

/-- The view runs when its timeline does. -/
theorem run_eq (events : List Event) : run (step record) anyStep start events =
    (run Timeline.step anyStep Timeline.start events).map fun t => ⟨t, after record events⟩ := by
  induction events using List.reverseRecOn with
  | nil => rfl
  | append_singleton events e ih =>
    rw [run_append, run_append, ih, after_append, Option.map_bind, Option.bind_map]
    congr 1
    funext t
    simp [run, anyStep, step]

theorem offered_after (events : List Event) : (after record events).offered = events.count .offer := by
  induction events using List.reverseRecOn with
  | nil => rfl
  | append_singleton events e ih =>
    rw [after_append, List.count_append, ← ih]
    cases e <;> rfl

/-- The queue has the first records since the last tick. -/
theorem log_after (events : List Event) : (after record events).log =
    (List.range' (events.count .offer - gap events) (min (gap events) MAX_LOG_ENTRIES)).map record := by
  induction events using List.reverseRecOn with
  | nil => rfl
  | append_singleton events e ih =>
    rw [after_append, gap_append, List.count_append]
    cases e with
    | offer =>
      have hlen : (after record events).log.length = min (gap events) MAX_LOG_ENTRIES := by
        rw [ih, List.length_map, List.length_range']
      have hfirst : events.count .offer + [Event.offer].count .offer - (gap events + 1) =
          events.count .offer - gap events := Nat.add_sub_add_right ..
      simp only [Logs.step, GuiLog.offer, hlen, hfirst, offered_after]
      split
      · rename_i hlt
        have hin : min (gap events) MAX_LOG_ENTRIES = gap events := by omega
        have hin' : min (gap events + 1) MAX_LOG_ENTRIES = gap events + 1 := by omega
        rw [ih, hin, hin', List.range'_concat, List.map_append, one_mul, Nat.sub_add_cancel (gap_le_count events)]
        rfl
      · rename_i hge
        have hfull : min (gap events) MAX_LOG_ENTRIES = min (gap events + 1) MAX_LOG_ENTRIES := by omega
        rw [ih, hfull]
    | tick => rfl
    | setPaused newValue => exact ih
    | setParent newValue => exact ih

/-- With the gaps in time the items are the newest of what was offered up to the last
tick. -/
theorem logItems_after {events : List Event} (h : InTime events) : (after record events).logItems =
    ((List.range (events.count .offer - gap events)).map record).rtake MAX_ENTRIES := by
  induction events using List.reverseRecOn with
  | nil => simp [after, Logs.start, gap]
  | append_singleton events e ih =>
    have hitems := ih h.of_append
    rw [after_append, gap_append, List.count_append]
    cases e with
    | offer =>
      have hfirst : events.count .offer + [Event.offer].count .offer - (gap events + 1) =
          events.count .offer - gap events := Nat.add_sub_add_right ..
      rw [hfirst]
      exact hitems
    | tick =>
      have hgap : min (gap events) MAX_LOG_ENTRIES = gap events := Nat.min_eq_left (h events [] rfl)
      -- What was offered up to the last tick, and what was offered since.
      have hall : List.range (events.count .offer) = List.range (events.count .offer - gap events) ++
          List.range' (events.count .offer - gap events) (gap events) := by
        have happ := List.range'_append_1 (s := 0) (m := events.count .offer - gap events) (n := gap events)
        rw [Nat.zero_add, Nat.sub_add_cancel (gap_le_count events)] at happ
        rw [List.range_eq_range', List.range_eq_range', happ]
      calc (after record events).tick.logItems
          = ((after record events).logItems ++ (after record events).log).rtake MAX_ENTRIES := logItems_tick _
        _ = ((List.range (events.count .offer)).map record).rtake MAX_ENTRIES := by
          rw [hitems, log_after, hgap, rtake_append_rtake, ← List.map_append, ← hall]
    | setPaused newValue => exact hitems
    | setParent newValue => exact hitems

theorem newest_tick {events : List Event} (h : InTime (events ++ [.tick])) :
    Newest record (after record (events ++ [.tick])) := by
  have hitems := logItems_after record h
  rw [gap_append, Nat.sub_zero] at hitems
  rw [Newest, hitems, offered_after]

/-- A tick after a longer gap drains a full queue, and that is all it leaves in the
items. -/
theorem logItems_late {events : List Event} (h : MAX_LOG_ENTRIES < gap events) :
    (after record (events ++ [.tick])).logItems =
      (List.range' (events.count .offer - gap events) MAX_LOG_ENTRIES).map record := by
  have hlog := log_after record events
  rw [Nat.min_eq_right h.le] at hlog
  have hlen : (after record events).log.length = MAX_ENTRIES := by
    rw [hlog, List.length_map, List.length_range', MAX_LOG_ENTRIES, MAX_ENTRIES]
  calc (after record (events ++ [.tick])).logItems
      = (after record events).tick.logItems := by rw [after_append, Logs.step]
    _ = (after record events).log := by rw [logItems_tick, rtake_append_of_length _ hlen]
    _ = _ := hlog

/-- The last of the items is then the last record the queue took, where the law has the
last one offered. -/
theorem last_of_newest {events : List Event} (h : MAX_LOG_ENTRIES < gap events)
    (hnew : Newest record (after record (events ++ [.tick]))) :
    record (events.count .offer - gap events + MAX_LOG_ENTRIES - 1) = record (events.count .offer - 1) := by
  have hcount := gap_le_count events
  have hpos : 0 < MAX_LOG_ENTRIES := by decide
  have hlast := congrArg List.getLast? (hnew.symm.trans (logItems_late record h))
  have hoffered : (after record (events ++ [.tick])).offered = events.count .offer := by
    rw [offered_after, List.count_append]
    rfl
  have hkept : ¬ events.count .offer ≤ events.count .offer - MAX_ENTRIES := by
    rw [MAX_ENTRIES]
    omega
  rw [hoffered, List.rtake, List.getLast?_drop, List.getLast?_map, List.getLast?_map, List.getLast?_range,
    List.getLast?_range', List.length_map, List.length_range, if_neg hkept, if_neg (by omega),
    if_neg hpos.ne'] at hlast
  exact (Option.some.inj hlast).symm

end

/-! ### The law -/

theorem Possible.of_append {before after : List Event} (h : Possible (before ++ after)) : Possible before := by
  obtain ⟨t, ht⟩ := h
  rw [run_append] at ht
  obtain ⟨t', ht', -⟩ := Option.bind_eq_some_iff.mp ht
  exact ⟨t', ht'⟩

/-- After every tick of a run the items are the newest records, whatever the records
are, when and only when no tick comes after more records than the queue takes. -/
theorem newestAfterTicks_iff {Record : Type} [Nontrivial Record] {events : List Event} (h : Possible events) :
    (∀ record : ℕ → Record, NewestAfterTicks record events) ↔ InTime events := by
  constructor
  · rintro hnew before rest rfl
    by_contra hgap
    obtain ⟨a, b, hab⟩ := exists_pair_ne Record
    -- Only the last record offered before that tick is `a`.
    let record : ℕ → Record := fun n => if n = before.count .offer - 1 then a else b
    have hposs : Possible ((before ++ [.tick]) ++ rest) := by simpa using h
    obtain ⟨t, ht⟩ := hposs.of_append
    have hlaw := hnew record before rest rfl ⟨t, after record (before ++ [.tick])⟩ (by rw [run_eq, ht]; rfl)
    have hlast := last_of_newest record (not_le.mp hgap) hlaw
    have hcount := gap_le_count before
    have hpos : 0 < MAX_LOG_ENTRIES := by decide
    simp only [record, if_pos rfl] at hlast
    rw [if_neg (by omega)] at hlast
    exact hab hlast.symm
  · rintro hin record before rest rfl v hv
    rw [run_eq] at hv
    obtain ⟨t, -, rfl⟩ := Option.map_eq_some_iff.mp hv
    refine newest_tick record ?_
    rintro before' after' heq
    exact hin before' (after' ++ rest) (by simpa using congrArg (· ++ rest) heq)

theorem newestAfterTicks_iff_ticking :
    Possible [.setParent (some 0), .offer, .tick, .setPaused true, .offer, .setPaused false, .tick] ∧
      ((∀ record : ℕ → String, NewestAfterTicks record
        [.setParent (some 0), .offer, .tick, .setPaused true, .offer, .setPaused false, .tick]) ↔
      InTime [.setParent (some 0), .offer, .tick, .setPaused true, .offer, .setPaused false, .tick]) :=
  ⟨⟨_, rfl⟩, newestAfterTicks_iff ⟨_, rfl⟩⟩

/-- The view gets a parent, and this many records are offered. -/
def offers (n : ℕ) : List Event := .setParent (some 0) :: List.replicate n .offer

theorem run_offers (n : ℕ) : run Timeline.step anyStep Timeline.start (offers n) = some ⟨.running, false, some 0⟩ := by
  induction n with
  | zero => rfl
  | succ n ih =>
    rw [offers, List.replicate_succ', ← List.cons_append, run_append]
    exact congrArg (Option.bind · _) ih

theorem gap_offers (n : ℕ) : gap (offers n) = n := by
  induction n with
  | zero => rfl
  | succ n ih =>
    rw [offers, List.replicate_succ', ← List.cons_append, gap_append]
    exact congrArg (· + 1) ih

theorem count_offers (n : ℕ) : (offers n).count .offer = n := by
  rw [offers, List.count_cons_of_ne (by decide), List.count_replicate_self]

/-- One record more than the queue takes: after the tick the oldest is still there and
the newest is lost. -/
theorem newest_lost : ∃ v, run (step id) anyStep start (offers (MAX_LOG_ENTRIES + 1) ++ [.tick]) = some v ∧
    v.logs.offered = MAX_LOG_ENTRIES + 1 ∧ v.logs.logItems = List.range MAX_LOG_ENTRIES ∧ ¬ Newest id v.logs := by
  have hgap := gap_offers (MAX_LOG_ENTRIES + 1)
  have hcount := count_offers (MAX_LOG_ENTRIES + 1)
  have hlate : MAX_LOG_ENTRIES < gap (offers (MAX_LOG_ENTRIES + 1)) := by
    rw [hgap]
    exact Nat.lt_succ_self _
  refine ⟨⟨⟨.running, false, some 0⟩, after id (offers (MAX_LOG_ENTRIES + 1) ++ [.tick])⟩, ?_, ?_, ?_, ?_⟩
  · rw [run_eq, run_append, run_offers]
    rfl
  · rw [offered_after, List.count_append, hcount]
    rfl
  · rw [logItems_late id hlate, hgap, hcount, Nat.sub_self, List.map_id, List.range_eq_range']
  · intro hnew
    dsimp only at hnew
    have hlast := last_of_newest id hlate hnew
    rw [hgap, hcount, Nat.sub_self] at hlast
    exact absurd hlast (by decide)

end GuiLogView
end PGCon
