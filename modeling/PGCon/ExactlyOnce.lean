/-
# Exactly once

What `ScriptTask.run` does over its whole life, whatever the script does and
whenever `stop` arrives: the loop runs `execute` and the reset runnables, then
`destroy` is called, then the callback, and nothing comes after it. A `stop` that
comes before `running.set(isLoop)` is overwritten by it, and a looping task then
need not end.

A task is followed with its history, which notes what the task does and how each
`execute` and each reset runnable ended. Two consecutive entries of a history are
related by `Follows`, the control flow of `run` as a relation; everything else is
read off a chain of `Follows`.
-/
import PGCon.Machine
import PGCon.ScriptTask

namespace PGCon
namespace ExactlyOnce

open Machine ScriptTask

/-- An entry of a task's history. -/
inductive Mark
  /-- the task is handed to the executor -/
  | submitted
  | did (e : Event)
  /-- `execute` or a reset runnable ended this way -/
  | ended (o : Outcome)
  deriving DecidableEq, Repr

/-- What a round of the loop begins with, by the field `reset`. -/
def first : Option Runnable → Event
  | none => .execute
  | some r => .reset r

/-- The entry a step of the thread leaves. -/
def mark (t : ScriptTask) : Move → Option Mark
  | .go =>
    match t.pc with
    | .reset => t.reset.map fun r => .did (.reset r)
    | .execute => some (.did .execute)
    | .callback => if t.callback then some (.did .callback) else none
    | _ => none
  | .ends o => some (if t.pc = .destroy then .did .destroy else .ended o)
  | .interrupt _ => none

/-- A task and its history. -/
structure State where
  task : ScriptTask
  history : List Mark
  deriving DecidableEq, Repr

/-- A step of the task's thread; another thread that calls `stop` or interrupts
the task's thread. -/
inductive Action
  | thread (m : Move)
  | stop
  | interrupt
  deriving DecidableEq, Repr

def step (s : State) : Action → Option State
  | .thread m => (s.task.step m).map fun t => ⟨t, s.history ++ (mark s.task m).toList⟩
  | .stop => some { s with task := s.task.stop }
  | .interrupt => some { s with task := { s.task with interrupted := true } }

def start (isLoop callback : Bool) : State := ⟨.submitted isLoop callback, [.submitted]⟩

/-- `destroy` returns normally. -/
def Normal (s : State) : Action → Prop
  | .thread (.ends o) => s.task.pc = .destroy → o = .returned
  | _ => True

instance : DecidableRel Normal := fun s a =>
  match a with
  | .thread (.ends o) => inferInstanceAs (Decidable (s.task.pc = .destroy → o = .returned))
  | .thread .go | .thread (.interrupt _) | .stop | .interrupt => .isTrue trivial

/-! ### The control flow -/

/-- What can come right after what. -/
inductive Follows : Mark → Mark → Prop
  | enter : Follows .submitted (.did .execute)
  | executed (o : Outcome) : Follows (.did .execute) (.ended o)
  | ran (r : Runnable) (o : Outcome) : Follows (.did (.reset r)) (.ended o)
  | again : Follows (.ended .returned) (.did .execute)
  | rerun (r : Runnable) : Follows (.ended (.resetScript (some r))) (.did (.reset r))
  | restart : Follows (.ended (.resetScript none)) (.did .execute)
  | destroy (o : Outcome) : Follows (.ended o) (.did .destroy)
  | callback : Follows (.did .destroy) (.did .callback)

theorem Follows.reset : ∀ r : Option Runnable, Follows (.ended (.resetScript r)) (.did (first r))
  | none => .restart
  | some r => .rerun r

/-- Where the thread stands, against the last entry. Inside the loop the field
`reset` is the one the last entry calls for. -/
def Stands (t : ScriptTask) (last : Mark) : Prop :=
  match t.pc with
  | .submitted | .enter => last = .submitted ∧ t.reset = none
  | .reset => Follows last (.did (first t.reset))
  | .resetting r => last = .did (.reset r)
  | .execute => Follows last (.did .execute) ∧ t.reset = none
  | .executing => last = .did .execute ∧ t.reset = none
  | .testRunning | .testInterrupted =>
    Follows last (.did (first t.reset)) ∧ ∃ o, last = .ended o
  | .destroy => ∃ o, last = .ended o
  | .callback => last = .did .destroy
  | .done => last = if t.callback then .did .callback else .did .destroy
  | .cancelled => False

/-- The end of a piece of the loop's code, whether it returned or not. -/
theorem stands_leave {t next : ScriptTask} {o : Outcome}
    (hn : o = .returned → Stands next (.ended o)) : Stands (t.leave next o) (.ended o) := by
  cases o with
  | returned => exact hn rfl
  | resetScript r => exact ⟨.reset r, _, rfl⟩
  | interruptScript => exact ⟨_, rfl⟩
  | threw => exact ⟨_, rfl⟩

/-- The script's code only ends by `ends`. -/
theorem outside_of_go {t t' : ScriptTask} (h : t.step .go = some t') : t.pc.inScript = false := by
  cases hp : t.pc <;> simp [ScriptTask.step, PC.inScript, hp] at h ⊢

/-- The thread goes on outside the script's code: it leaves no entry and stands
as before, or one that may follow the last one. -/
theorem stands_go {t t' : ScriptTask} {last : Mark} (h : t.step .go = some t') (hl : Stands t last) :
    (mark t .go = none ∧ Stands t' last) ∨ ∃ x, mark t .go = some x ∧ Follows last x ∧ Stands t' x := by
  have hout := outside_of_go h
  cases steps_of_step h with
  | start hpc =>
    simp only [Stands, hpc] at hl
    exact .inl ⟨by simp [mark, hpc], hl⟩
  | setRunning hpc =>
    simp only [Stands, hpc] at hl
    obtain ⟨rfl, hr⟩ := hl
    have hf : Follows .submitted (.did (first t.reset)) := hr ▸ .enter
    exact .inl ⟨by simp [mark, hpc], hf⟩
  | noReset hpc hr =>
    simp only [Stands, hpc, hr] at hl
    exact .inl ⟨by simp [mark, hpc, hr], hl, hr⟩
  | runReset hpc r hr =>
    simp only [Stands, hpc, hr] at hl
    exact .inr ⟨.did (.reset r), by simp [mark, hpc, hr], hl, rfl⟩
  | begin hpc =>
    simp only [Stands, hpc] at hl
    exact .inr ⟨.did .execute, by simp [mark, hpc], hl.1, rfl, hl.2⟩
  | testRunning hpc =>
    simp only [Stands, hpc] at hl
    refine .inl ⟨by simp [mark, hpc], ?_⟩
    cases t.running with
    | false => exact hl.2
    | true => exact hl
  | testInterrupted hpc =>
    simp only [Stands, hpc] at hl
    refine .inl ⟨by simp [mark, hpc], ?_⟩
    cases t.interrupted with
    | false => exact hl.1
    | true => exact hl.2
  | callback hpc =>
    simp only [Stands, hpc] at hl
    subst hl
    cases hc : t.callback with
    | false => exact .inl ⟨by simp [mark, hpc, hc], by simp [Stands]⟩
    | true => exact .inr ⟨.did .callback, by simp [mark, hpc, hc], .callback, by simp [Stands]⟩
  | resetEnds r hpc o => simp [hpc, PC.inScript] at hout
  | executeEnds hpc o => simp [hpc, PC.inScript] at hout
  | destroyEnds hpc o => simp [hpc, PC.inScript] at hout
  | interrupt hpc flag => simp [hpc] at hout

/-- The script's code ends. -/
theorem stands_ends {t t' : ScriptTask} {last : Mark} {o : Outcome} (h : t.step (.ends o) = some t')
    (ho : t.pc = .destroy → o = .returned) (hl : Stands t last) :
    ∃ x, mark t (.ends o) = some x ∧ Follows last x ∧ Stands t' x := by
  cases hpc : t.pc with
  | resetting r =>
    simp only [ScriptTask.step, hpc, Option.some.injEq] at h
    simp only [Stands, hpc] at hl
    subst h hl
    refine ⟨.ended o, by simp [mark, hpc], .ran r o, stands_leave ?_⟩
    rintro rfl
    exact ⟨.again, rfl⟩
  | executing =>
    simp only [ScriptTask.step, hpc, Option.some.injEq] at h
    simp only [Stands, hpc] at hl
    obtain ⟨rfl, hr⟩ := hl
    subst h
    refine ⟨.ended o, by simp [mark, hpc], .executed o, stands_leave ?_⟩
    rintro rfl
    have hf : Follows (.ended .returned) (.did (first t.reset)) := hr ▸ .again
    exact ⟨hf, _, rfl⟩
  | destroy =>
    simp only [ScriptTask.step, hpc, ho hpc, ↓reduceIte, Option.some.injEq] at h
    simp only [Stands, hpc] at hl
    obtain ⟨o', rfl⟩ := hl
    subst h
    exact ⟨.did .destroy, by simp [mark, hpc], .destroy o', rfl⟩
  | _ => simp [ScriptTask.step, hpc] at h

/-- Only the thread's own steps move it. -/
theorem stands_of_eq {t t' : ScriptTask} {last : Mark} (hl : Stands t last) (hpc : t'.pc = t.pc)
    (hr : t'.reset = t.reset) (hc : t'.callback = t.callback) : Stands t' last := by
  unfold Stands at hl ⊢
  rw [hpc, hr, hc]
  exact hl

/-! ### Over a whole run -/

/-- The history is a chain of the control flow, and the thread stands where the
last entry says. -/
structure Inv (s : State) : Prop where
  chain : s.history.IsChain Follows
  head : s.history.head? = some .submitted
  stands : ∃ last ∈ s.history.getLast?, Stands s.task last

theorem inv_start (isLoop callback : Bool) : Inv (start isLoop callback) where
  chain := .singleton _
  head := rfl
  stands := ⟨.submitted, rfl, rfl, rfl⟩

/-- A step that leaves no entry. -/
theorem Inv.quiet {s : State} (hs : Inv s) {t : ScriptTask}
    (ht : ∀ last, Stands s.task last → Stands t last) : Inv { s with task := t } := by
  obtain ⟨last, hlast, hl⟩ := hs.stands
  exact ⟨hs.chain, hs.head, last, hlast, ht last hl⟩

/-- A step that leaves an entry. -/
theorem Inv.snoc {s : State} (hs : Inv s) {t : ScriptTask} {x : Mark}
    (hf : ∀ last ∈ s.history.getLast?, Follows last x) (hx : Stands t x) :
    Inv ⟨t, s.history ++ [x]⟩ where
  chain := by
    refine List.isChain_append.mpr ⟨hs.chain, .singleton _, fun last hlast y hy => ?_⟩
    cases hy
    exact hf last hlast
  head := by
    have hne : s.history ≠ [] := by
      intro he
      have hh := hs.head
      rw [he] at hh
      cases hh
    rw [List.head?_append_of_ne_nil _ hne]
    exact hs.head
  stands := ⟨x, by simp, hx⟩

theorem inv_step {s s' : State} {a : Action} (hs : Inv s) (hn : Normal s a) (h : step s a = some s') :
    Inv s' := by
  obtain ⟨last, hlast, hl⟩ := hs.stands
  -- the last entry is the one the thread stands at
  have hone : ∀ y ∈ s.history.getLast?, y = last := fun y hy => by
    rw [Option.mem_def] at hy hlast
    exact Option.some.inj (hy.symm.trans hlast)
  rcases a with m | _ | _
  · obtain ⟨t, ht, rfl⟩ := Option.map_eq_some_iff.mp h
    cases m with
    | go =>
      rcases stands_go ht hl with ⟨hm, ht'⟩ | ⟨x, hm, hf, ht'⟩
      · rw [hm, Option.toList_none, List.append_nil]
        exact ⟨hs.chain, hs.head, last, hlast, ht'⟩
      · rw [hm]
        exact hs.snoc (fun y hy => hone y hy ▸ hf) ht'
    | ends o =>
      obtain ⟨x, hm, hf, ht'⟩ := stands_ends ht hn hl
      rw [hm]
      exact hs.snoc (fun y hy => hone y hy ▸ hf) ht'
    | interrupt flag =>
      simp only [ScriptTask.step, Option.ite_none_right_eq_some, Option.some.injEq] at ht
      obtain ⟨-, rfl⟩ := ht
      rw [show mark s.task (.interrupt flag) = none from rfl, Option.toList_none, List.append_nil]
      exact hs.quiet fun _ hl => stands_of_eq hl rfl rfl rfl
  · cases h
    exact hs.quiet fun _ hl => stands_of_eq hl rfl rfl rfl
  · cases h
    exact hs.quiet fun _ hl => stands_of_eq hl rfl rfl rfl

/-! ### The history and the trace -/

/-- The event an entry is about. -/
def Mark.event? : Mark → Option Event
  | .did e => some e
  | .submitted | .ended _ => none

theorem trace_leave (t next : ScriptTask) (o : Outcome) (h : next.trace = t.trace) :
    (t.leave next o).trace = t.trace := by
  cases o with
  | returned => exact h
  | resetScript r => rfl
  | interruptScript => rfl
  | threw => rfl

/-- A step adds to the trace the event its entry is about. -/
theorem trace_step {t t' : ScriptTask} {m : Move} (h : t.step m = some t') :
    t'.trace = t.trace ++ (mark t m).toList.filterMap Mark.event? := by
  cases m with
  | go =>
    have hout := outside_of_go h
    cases steps_of_step h with
    | resetEnds r hpc o => simp [hpc, PC.inScript] at hout
    | executeEnds hpc o => simp [hpc, PC.inScript] at hout
    | destroyEnds hpc o => simp [hpc, PC.inScript] at hout
    | interrupt hpc flag => simp [hpc] at hout
    | callback hpc => cases hc : t.callback <;> simp [mark, hpc, hc, Mark.event?]
    | _ => simp [mark, Mark.event?, *]
  | ends o =>
    cases hpc : t.pc with
    | resetting r =>
      simp only [ScriptTask.step, hpc, Option.some.injEq] at h
      rw [← h, trace_leave]
      · simp [mark, hpc, Mark.event?]
      · rfl
    | executing =>
      simp only [ScriptTask.step, hpc, Option.some.injEq] at h
      rw [← h, trace_leave]
      · simp [mark, hpc, Mark.event?]
      · rfl
    | destroy =>
      simp only [ScriptTask.step, hpc, Option.some.injEq] at h
      simp [← h, mark, hpc, Mark.event?]
    | _ => simp [ScriptTask.step, hpc] at h
  | interrupt flag =>
    simp only [ScriptTask.step, Option.ite_none_right_eq_some, Option.some.injEq] at h
    simp [← h.2, mark]

/-- The events of the history are the trace of the task. -/
def Agrees (s : State) : Prop := s.history.filterMap Mark.event? = s.task.trace

theorem agrees_step {s s' : State} {a : Action} (hs : Agrees s) (h : step s a = some s') : Agrees s' := by
  rcases a with m | _ | _
  · obtain ⟨t, ht, rfl⟩ := Option.map_eq_some_iff.mp h
    show (s.history ++ _).filterMap Mark.event? = t.trace
    rw [List.filterMap_append, hs, trace_step ht]
  · cases h
    exact hs
  · cases h
    exact hs

theorem agrees {ok : State → Action → Prop} {isLoop callback : Bool} {s : State}
    (h : Reach step ok (start isLoop callback) s) : Agrees s :=
  h.invariant rfl fun _ _ _ hs _ => agrees_step hs

/-! ### Reading a history -/

/-- The entries a task ends with. -/
def closing (t : ScriptTask) : List Mark :=
  match t.pc with
  | .callback => [.did .destroy]
  | .done => .did .destroy :: if t.callback then [.did .callback] else []
  | _ => []

/-- Not `destroy`, and not the callback. -/
def Mark.InLoop (x : Mark) : Prop := x ≠ .did .destroy ∧ x ≠ .did .callback

theorem first_inLoop : ∀ r : Option Runnable, (Mark.did (first r)).InLoop
  | none => ⟨by simp [first], by simp [first]⟩
  | some _ => ⟨by simp [first], by simp [first]⟩

theorem Follows.inLoop {x y : Mark} (h : Follows x y) (hy : y ≠ .did .callback) : x.InLoop := by
  cases h with
  | callback => exact absurd rfl hy
  | _ => exact ⟨by simp, by simp⟩

/-- What comes before an entry other than the callback belongs to the loop. -/
theorem inLoop_before {l : List Mark} : ∀ {x : Mark}, (l ++ [x]).IsChain Follows →
    x ≠ .did .callback → ∀ y ∈ l, y.InLoop := by
  -- from the back: the entry before `x` belongs to the loop, so it is not the callback either
  induction l using List.reverseRecOn with
  | nil =>
    intro x _ _ y hy
    cases hy
  | append_singleton l z ih =>
    intro x h hx y hy
    obtain ⟨hl, -, hzx⟩ := List.isChain_append.mp h
    have hz : z.InLoop := (hzx z (by simp) x rfl).inLoop hx
    rcases List.mem_append.mp hy with hy | hy
    · exact ih hl hz.2 y hy
    · exact List.mem_singleton.mp hy ▸ hz

/-- An entry of the loop at the end: nothing but the loop so far. -/
theorem inLoop_all {l : List Mark} {x : Mark} (h : (l ++ [x]).IsChain Follows) (hx : x.InLoop) :
    ∀ y ∈ l ++ [x], y.InLoop := by
  intro y hy
  rcases List.mem_append.mp hy with hy | hy
  · exact inLoop_before h hx.2 y hy
  · exact List.mem_singleton.mp hy ▸ hx

/-- Before `destroy` returns the last entry belongs to the loop. -/
theorem stands_inLoop {t : ScriptTask} {last : Mark} (h : Stands t last) (hc : t.pc ≠ .callback)
    (hd : t.pc ≠ .done) : last.InLoop := by
  unfold Stands at h
  split at h
  · exact h.1 ▸ ⟨by simp, by simp⟩
  · exact h.1 ▸ ⟨by simp, by simp⟩
  · exact h.inLoop (first_inLoop _).2
  · exact h ▸ ⟨by simp, by simp⟩
  · exact h.1.inLoop (by simp)
  · exact h.1 ▸ ⟨by simp, by simp⟩
  · exact h.1.inLoop (first_inLoop _).2
  · exact h.1.inLoop (first_inLoop _).2
  · obtain ⟨o, rfl⟩ := h
    exact ⟨by simp, by simp⟩
  · exact absurd ‹_› hc
  · exact absurd ‹_› hd
  · cases h

/-- `destroy`, then the callback, after everything else. -/
theorem Inv.closing {s : State} (hs : Inv s) :
    ∃ before, s.history = before ++ closing s.task ∧ ∀ x ∈ before, x.InLoop := by
  obtain ⟨last, hlast, hl⟩ := hs.stands
  obtain ⟨l, hh⟩ := List.getLast?_eq_some_iff.mp hlast
  have hc := hs.chain
  rw [hh] at hc
  cases hpc : s.task.pc with
  | callback =>
    simp only [Stands, hpc] at hl
    subst hl
    exact ⟨l, by simp [hh, ExactlyOnce.closing, hpc], inLoop_before hc (by simp)⟩
  | done =>
    simp only [Stands, hpc] at hl
    cases hcb : s.task.callback with
    | false =>
      simp only [hcb, Bool.false_eq_true, ↓reduceIte] at hl
      subst hl
      exact ⟨l, by simp [hh, ExactlyOnce.closing, hpc, hcb], inLoop_before hc (by simp)⟩
    | true =>
      simp only [hcb, ↓reduceIte] at hl
      subst hl
      rcases List.eq_nil_or_concat l with rfl | ⟨l', z, rfl⟩
      · have hhead := hs.head
        rw [hh] at hhead
        cases hhead
      · rw [List.concat_eq_append] at hh hc
        obtain ⟨hl', -, hz⟩ := List.isChain_append.mp hc
        cases hz z (by simp) _ rfl
        exact ⟨l', by simp [hh, ExactlyOnce.closing, hpc, hcb], inLoop_before hl' (by simp)⟩
  | _ =>
    have hi : last.InLoop := stands_inLoop hl (by simp [hpc]) (by simp [hpc])
    exact ⟨l ++ [last], by simp [hh, ExactlyOnce.closing, hpc], inLoop_all hc hi⟩

/-- Right after a reset was asked for: the runnable it carries, or `destroy`. -/
theorem follows_reset {r : Option Runnable} {y : Mark} (h : Follows (.ended (.resetScript r)) y) :
    y = .did .destroy ∨ y = .did (first r) := by
  cases h with
  | rerun r => exact .inr rfl
  | restart => exact .inr rfl
  | destroy o => exact .inl rfl

/-- Right before a runnable: the exception that carried it. -/
theorem before_reset {x : Mark} {r : Runnable} (h : Follows x (.did (.reset r))) :
    x = .ended (.resetScript (some r)) := by
  cases h
  rfl

/-- After `InterruptScriptException` and whatever `run` does not catch there is
nothing but `destroy` and the callback. -/
theorem after_exception {o : Outcome} {post : List Mark} (ho : o = .interruptScript ∨ o = .threw)
    (h : (Mark.ended o :: post).IsChain Follows) : post <+: [.did .destroy, .did .callback] := by
  cases post with
  | nil => exact List.nil_prefix
  | cons y post =>
    obtain ⟨hy, h⟩ := List.isChain_cons_cons.mp h
    have hd : y = .did .destroy := by
      rcases ho with rfl | rfl
      · cases hy
        rfl
      · cases hy
        rfl
    subst hd
    cases post with
    | nil => exact ⟨[.did .callback], rfl⟩
    | cons z post =>
      obtain ⟨hz, h⟩ := List.isChain_cons_cons.mp h
      cases hz
      cases post with
      | nil => exact List.prefix_rfl
      | cons w post => cases (List.isChain_cons_cons.mp h).1

/-! ### The end of a run -/

/-- The thread's next step, if the script's code ends as `o` says; `destroy`
returns. -/
def next (t : ScriptTask) (o : Outcome) : Move :=
  match t.pc with
  | .resetting _ | .executing => .ends o
  | .destroy => .ends .returned
  | _ => .go

/-- The thread's own steps, one for each outcome. -/
def proceed (s : State) (os : List Outcome) : State :=
  os.foldl (fun s o => (step s (.thread (next s.task o))).getD s) s

/-- A step of the thread through `run`; what the script does with the interrupt
flag is none. -/
def Action.own : Action → Bool
  | .thread .go | .thread (.ends _) => true
  | .thread (.interrupt _) | .stop | .interrupt => false

/-- However the script's code ends and whatever the other threads do, the thread
takes at most `n` more steps, and it has a next one until it is done. -/
def EndsWithin (n : ℕ) (s : State) : Prop :=
  ∀ as s', run step Normal s as = some s' → as.countP Action.own ≤ n ∧
    (s'.task.pc ≠ .done → ∀ o, (step s' (.thread (next s'.task o))).isSome)

/-- `running` is false for good, or the loop is left. -/
def Leaving (t : ScriptTask) : Prop :=
  match t.pc with
  | .submitted | .enter => t.isLoop = false
  | .cancelled => False
  | .destroy | .callback | .done => True
  | _ => t.running = false

/-- The steps before `run` returns, for a task that is leaving. -/
def rank : PC → ℕ
  | .done | .cancelled => 0
  | .callback => 1
  | .destroy => 2
  | .testRunning => 3
  | .executing => 4
  | .execute => 5
  | .resetting _ => 6
  | .reset => 7
  | .testInterrupted => 8
  | .enter => 9
  | .submitted => 10

theorem rank_le (pc : PC) : rank pc ≤ 10 := by
  cases pc <;> simp [rank]

/-- The loop's code ends, in a task that is leaving. -/
theorem leaving_leave {t next : ScriptTask} (o : Outcome) (hr : t.running = false)
    (hn : Leaving next ∧ 3 ≤ rank next.pc) :
    Leaving (t.leave next o) ∧ rank (t.leave next o).pc ≤ rank next.pc := by
  cases o with
  | returned => exact ⟨hn.1, le_rfl⟩
  | resetScript r => exact ⟨hr, hn.2⟩
  | interruptScript => exact ⟨trivial, (Nat.le_succ 2).trans hn.2⟩
  | threw => exact ⟨trivial, (Nat.le_succ 2).trans hn.2⟩

/-- A task that is leaving goes on leaving; a step of its own brings it nearer to
the end, and the interrupt flag does not matter. -/
theorem leaving_steps {t t' : ScriptTask} (h : Leaving t) (hs : Steps t t') :
    Leaving t' ∧ (rank t'.pc < rank t.pc ∨ t'.pc = t.pc ∧ t.pc.inScript = true) := by
  unfold Leaving at h
  cases hs with
  | start hpc =>
    simp only [hpc] at h
    exact ⟨h, .inl (by simp [rank, hpc])⟩
  | setRunning hpc =>
    simp only [hpc] at h
    exact ⟨h, .inl (by simp [rank, hpc])⟩
  | noReset hpc hr =>
    simp only [hpc] at h
    exact ⟨h, .inl (by simp [rank, hpc])⟩
  | runReset hpc r hr =>
    simp only [hpc] at h
    exact ⟨h, .inl (by simp [rank, hpc])⟩
  | resetEnds r hpc o =>
    simp only [hpc] at h
    obtain ⟨hl, hr⟩ := leaving_leave o h
      (show Leaving { t with reset := none, pc := .execute } ∧ _ from ⟨h, by simp [rank]⟩)
    exact ⟨hl, .inl (by rw [hpc]; exact Nat.lt_succ_of_le hr)⟩
  | begin hpc =>
    simp only [hpc] at h
    exact ⟨h, .inl (by simp [rank, hpc])⟩
  | executeEnds hpc o =>
    simp only [hpc] at h
    obtain ⟨hl, hr⟩ := leaving_leave o h
      (show Leaving { t with pc := .testRunning } ∧ _ from ⟨h, by simp [rank]⟩)
    exact ⟨hl, .inl (by rw [hpc]; exact Nat.lt_succ_of_le hr)⟩
  | testRunning hpc =>
    simp only [hpc] at h
    simp only [h, Bool.false_eq_true, ↓reduceIte]
    exact ⟨trivial, .inl (by simp [rank, hpc])⟩
  | testInterrupted hpc =>
    simp only [hpc] at h
    cases t.interrupted with
    | false => exact ⟨h, .inl (by simp [rank, hpc])⟩
    | true => exact ⟨trivial, .inl (by simp [rank, hpc])⟩
  | destroyEnds hpc o =>
    by_cases ho : o = .returned
    · simp only [if_pos ho]
      exact ⟨trivial, .inl (by simp [rank, hpc])⟩
    · simp only [if_neg ho]
      exact ⟨trivial, .inl (by simp [rank, hpc])⟩
  | callback hpc => exact ⟨trivial, .inl (by simp [rank, hpc])⟩
  | interrupt hin flag => exact ⟨h, .inr ⟨rfl, hin⟩⟩

/-- Only the script's code is left by `ends`, and only the code around it by `go`,
so a step that stays is none of the thread's own. -/
theorem rank_own {t t' : ScriptTask} {m : Move} (h : Leaving t) (hs : t.step m = some t') :
    Leaving t' ∧ rank t'.pc + (if (Action.thread m).own then 1 else 0) ≤ rank t.pc := by
  obtain ⟨hl, hlt | ⟨hpc, hin⟩⟩ := leaving_steps h (steps_of_step hs)
  · refine ⟨hl, ?_⟩
    split <;> omega
  · refine ⟨hl, ?_⟩
    cases m with
    | go => simp [outside_of_go hs] at hin
    | ends o =>
      -- the end of the script's code moves the thread
      exfalso
      revert hpc
      cases hp : t.pc <;> simp only [ScriptTask.step, hp, Option.some.injEq, reduceCtorEq] at hs
      all_goals subst hs
      all_goals cases o <;> simp [leave]
    | interrupt flag => simp [Action.own, hpc]

/-- After `stop` the task is leaving, unless `running.set(true)` is still to come. -/
theorem leaving_stop {t : ScriptTask} (hc : t.pc ≠ .cancelled)
    (h : ¬(t.isLoop = true ∧ (t.pc = .submitted ∨ t.pc = .enter))) : Leaving t.stop := by
  unfold Leaving
  cases hpc : t.pc <;> simp_all [ScriptTask.stop]

theorem leaving_step {s s' : State} {a : Action} (h : Leaving s.task) (hs : step s a = some s') :
    Leaving s'.task ∧ rank s'.task.pc + (if a.own then 1 else 0) ≤ rank s.task.pc := by
  rcases a with m | _ | _
  · obtain ⟨t, ht, rfl⟩ := Option.map_eq_some_iff.mp hs
    exact rank_own h ht
  · cases hs
    refine ⟨leaving_stop ?_ ?_, by simp [Action.own, ScriptTask.stop]⟩
    · intro hpc
      simp [Leaving, hpc] at h
    · rintro ⟨hloop, hpc | hpc⟩
      · simp [Leaving, hpc, hloop] at h
      · simp [Leaving, hpc, hloop] at h
  · cases hs
    exact ⟨h, by simp [Action.own]⟩

/-- The thread of a task that was not cancelled has a next step until it is done. -/
theorem next_isSome {s : State} {last : Mark} (hl : Stands s.task last) (hd : s.task.pc ≠ .done) (o : Outcome) :
    (step s (.thread (next s.task o))).isSome := by
  unfold Stands at hl
  cases hpc : s.task.pc with
  | done => exact absurd hpc hd
  | cancelled => simp [hpc] at hl
  | reset => cases hr : s.task.reset <;> simp [step, next, ScriptTask.step, hpc, hr]
  | _ => simp [step, next, ScriptTask.step, hpc]

/-- A task that is leaving is soon done. -/
theorem endsWithin_of_leaving {s : State} (hs : Inv s) (h : Leaving s.task) : EndsWithin 10 s := by
  intro as s' hr
  have hstep : ∀ s a s', Inv s ∧ Leaving s.task → Normal s a → step s a = some s' →
      (Inv s' ∧ Leaving s'.task) ∧ rank s'.task.pc + (if a.own then 1 else 0) ≤ rank s.task.pc := by
    rintro s a s' ⟨hi, hl⟩ hn ha
    obtain ⟨hl', hle⟩ := leaving_step hl ha
    exact ⟨⟨inv_step hi hn ha, hl'⟩, hle⟩
  obtain ⟨⟨hinv, -⟩, hle⟩ := countP_le_of_run _ (fun s => rank s.task.pc) Action.own hstep as ⟨hs, h⟩ hr
  refine ⟨by have := rank_le s.task.pc; omega, fun hd o => ?_⟩
  obtain ⟨last, -, hl⟩ := hinv.stands
  exact next_isSome hl hd o

/-! ### A stop that is lost -/

/-- The task begins a round of its loop, with `running` true. -/
structure Looping (t : ScriptTask) : Prop where
  pc : t.pc = .reset
  reset : t.reset = none
  running : t.running = true

/-- A round in which `execute` swallows the interrupt, if there is one, and
returns. -/
def round : List Action :=
  [.thread .go, .thread .go, .thread (.interrupt false), .thread (.ends .returned), .thread .go, .thread .go]

def rounds (n : ℕ) : List Action := (List.replicate n round).flatten

theorem countP_rounds (n : ℕ) : (rounds n).countP Action.own = 5 * n := by
  induction n with
  | zero => rfl
  | succ n ih =>
    have hround : round.countP Action.own = 5 := by decide
    have hsucc : rounds (n + 1) = round ++ rounds n := by simp [rounds, List.replicate_succ]
    rw [hsucc, List.countP_append, ih, hround]
    omega

theorem looping_round {s : State} (h : Looping s.task) : ∃ s', run step Normal s round = some s' ∧
    Looping s'.task ∧ s'.history = s.history ++ [.did .execute, .ended .returned] := by
  obtain ⟨⟨isLoop, callback, running, reset, pc, interrupted, trace⟩, history⟩ := s
  obtain ⟨hpc, hr, hrun⟩ := h
  dsimp only at hpc hr hrun
  subst hpc hr hrun
  refine ⟨⟨⟨isLoop, callback, true, none, .reset, false, trace ++ [.execute]⟩,
    history ++ [.did .execute, .ended .returned]⟩, ?_, ⟨rfl, rfl, rfl⟩, rfl⟩
  simp [round, run, Normal, step, ScriptTask.step, mark, leave, PC.inScript]

/-- A looping task goes on, as long as its script returns. -/
theorem looping_rounds {s : State} (h : Looping s.task) : ∀ n, ∃ s', run step Normal s (rounds n) = some s' ∧
    s'.history = s.history ++ (List.replicate n [Mark.did .execute, .ended .returned]).flatten
  | 0 => ⟨s, rfl, by simp⟩
  | n + 1 => by
    obtain ⟨s₁, hr₁, hl₁, hh₁⟩ := looping_round h
    obtain ⟨s', hr', hh'⟩ := looping_rounds hl₁ n
    refine ⟨s', ?_, ?_⟩
    · have hsucc : rounds (n + 1) = round ++ rounds n := by simp [rounds, List.replicate_succ]
      rw [hsucc, run_append, hr₁]
      exact hr'
    · rw [hh', hh₁, List.append_assoc, List.replicate_succ, List.flatten_cons]

/-- `stop` before `running.set(true)`: the task comes to its loop all the same. -/
theorem looping_of_early {s : State} (hs : Inv s) (hloop : s.task.isLoop = true)
    (hpc : s.task.pc = .submitted ∨ s.task.pc = .enter) :
    ∃ as s', run step Normal { s with task := s.task.stop } as = some s' ∧ Looping s'.task := by
  obtain ⟨last, -, hl⟩ := hs.stands
  have hreset : s.task.reset = none := by
    rcases hpc with hpc | hpc
    · simp only [Stands, hpc] at hl
      exact hl.2
    · simp only [Stands, hpc] at hl
      exact hl.2
  have hlooping : Looping { s.task with running := s.task.isLoop, pc := .reset } := ⟨rfl, hreset, hloop⟩
  rcases hpc with hpc | hpc
  · refine ⟨[.thread .go, .thread .go], ⟨_, s.history⟩, ?_, hlooping⟩
    simp [run, Normal, step, ScriptTask.step, ScriptTask.stop, mark, hpc]
  · refine ⟨[.thread .go], ⟨_, s.history⟩, ?_, hlooping⟩
    simp [run, Normal, step, ScriptTask.step, ScriptTask.stop, mark, hpc]

/-- A stop ends the task, unless `running.set(true)` is still to come. -/
theorem endsWithin_stop_iff {s : State} (hs : Inv s) : (∃ n, EndsWithin n { s with task := s.task.stop }) ↔
    ¬(s.task.isLoop = true ∧ (s.task.pc = .submitted ∨ s.task.pc = .enter)) := by
  constructor
  · rintro ⟨n, hn⟩ ⟨hloop, hpc⟩
    obtain ⟨as, s₁, hr, hl⟩ := looping_of_early hs hloop hpc
    obtain ⟨s', hr', -⟩ := looping_rounds hl (n + 1)
    have hall : run step Normal { s with task := s.task.stop } (as ++ rounds (n + 1)) = some s' := by
      rw [run_append, hr]
      exact hr'
    have hcount := (hn _ _ hall).1
    rw [List.countP_append, countP_rounds] at hcount
    omega
  · intro h
    have hstop : Inv { s with task := s.task.stop } := inv_step (a := .stop) hs trivial rfl
    refine ⟨10, endsWithin_of_leaving hstop (leaving_stop ?_ h)⟩
    obtain ⟨last, -, hl⟩ := hs.stands
    intro hpc
    simp [Stands, hpc] at hl

/-- A round that begins after a reset was asked for runs the runnable it carries
first. -/
theorem prefix_proceed {s : State} (hs : Inv s) (hpc : s.task.pc = .reset) {r : Option Runnable}
    (hr : s.history.getLast? = some (.ended (.resetScript r))) (o o' : Outcome) :
    s.history ++ [.did (first r)] <+: (proceed s [o, o']).history := by
  obtain ⟨last, hlast, hl⟩ := hs.stands
  obtain rfl : Mark.ended (.resetScript r) = last := Option.some.inj (hr.symm.trans hlast)
  simp only [Stands, hpc] at hl
  have hfield : s.task.reset = r := by
    rcases follows_reset hl with he | he
    · exact absurd he (first_inLoop _).1
    · cases ht : s.task.reset <;> cases r <;> simp_all [first]
  cases r with
  | none => simp [proceed, step, next, hpc, ScriptTask.step, mark, hfield, first]
  | some k => simp [proceed, step, next, hpc, ScriptTask.step, mark, hfield, first]

/-- In every run in which `destroy` returns normally, however the script's code
ends and whenever `stop` is called:
* the task ends with `destroy` and then, if there is one, the callback, and does
  neither before; a task that is leaving is done after at most ten of its thread's
  own steps;
* a `stop` that comes now makes it leave if and only if the script does not loop
  or `running.set(isLoop)` is behind the thread: before that the stop is
  overwritten, and `destroy` and the callback can stay away for ever;
* right after a reset was asked for comes the runnable it carries (`execute`, if
  it carries none), or `destroy` if the loop is over, and a round of the loop that
  begins then does begin with it; a runnable is run only right after the exception
  that carried it, so at most once for each;
* after an `InterruptScriptException` or an exception `run` does not catch there
  is nothing but `destroy` and the callback. -/
theorem exactly_once {isLoop callback : Bool} {s : State}
    (h : Reach step Normal (start isLoop callback) s) :
    (∃ before : List Mark, s.history = before ++ closing s.task ∧
      ∀ x ∈ before, x ≠ .did .destroy ∧ x ≠ .did .callback) ∧
    (Leaving s.task → EndsWithin 10 s) ∧
    ((∃ n, EndsWithin n { s with task := s.task.stop }) ↔
      ¬(s.task.isLoop = true ∧ (s.task.pc = .submitted ∨ s.task.pc = .enter))) ∧
    (∀ (pre post : List Mark) r y, s.history = pre ++ .ended (.resetScript r) :: y :: post →
      y = .did .destroy ∨ y = .did (first r)) ∧
    (∀ r, s.task.pc = .reset → s.history.getLast? = some (.ended (.resetScript r)) →
      ∀ o o', s.history ++ [.did (first r)] <+: (proceed s [o, o']).history) ∧
    (∀ (pre post : List Mark) r, s.history = pre ++ .did (.reset r) :: post →
      ∃ pre' : List Mark, pre = pre' ++ [.ended (.resetScript (some r))]) ∧
    (∀ (pre post : List Mark) o, s.history = pre ++ .ended o :: post → o = .interruptScript ∨ o = .threw →
      post <+: [.did .destroy, .did .callback]) := by
  have hs : Inv s := h.invariant (inv_start _ _) fun _ _ _ => inv_step
  have hchain := hs.chain
  refine ⟨hs.closing, endsWithin_of_leaving hs, endsWithin_stop_iff hs, ?_, ?_, ?_, ?_⟩
  · intro pre post r y he
    rw [he] at hchain
    obtain ⟨-, hpost, -⟩ := List.isChain_append.mp hchain
    exact follows_reset (List.isChain_cons_cons.mp hpost).1
  · intro r hpc hr o o'
    exact prefix_proceed hs hpc hr o o'
  · intro pre post r he
    rcases List.eq_nil_or_concat pre with rfl | ⟨pre', x, rfl⟩
    · have hhead := hs.head
      rw [he] at hhead
      cases hhead
    · rw [List.concat_eq_append] at he ⊢
      rw [he] at hchain
      obtain ⟨-, -, hx⟩ := List.isChain_append.mp hchain
      exact ⟨pre', by rw [before_reset (hx x (by simp) _ rfl)]⟩
  · intro pre post o he ho
    rw [he] at hchain
    obtain ⟨-, hpost, -⟩ := List.isChain_append.mp hchain
    exact after_exception ho hpost

/-- `execute` asks for runnable 3, which asks for a plain restart; the second
`execute` is interrupted, after a `stop` that came while it ran. -/
def restarts : List Action :=
  [.thread .go, .thread .go, .thread .go, .thread .go, .thread (.ends (.resetScript (some 3))),
    .thread .go, .thread .go, .thread .go, .thread (.ends (.resetScript none)),
    .thread .go, .thread .go, .thread .go, .thread .go, .stop, .thread (.ends .interruptScript),
    .thread (.ends .returned), .thread .go]

/-- After them. -/
def restarted : State where
  task := {
    isLoop := true, callback := true, running := false, reset := none, pc := .done,
    interrupted := false, trace := [.execute, .reset 3, .execute, .destroy, .callback] }
  history := [.submitted, .did .execute, .ended (.resetScript (some 3)), .did (.reset 3),
    .ended (.resetScript none), .did .execute, .ended .interruptScript, .did .destroy, .did .callback]

/-- The first `execute` is under way. -/
def executing : State where
  task := {
    isLoop := true, callback := true, running := true, reset := none, pc := .executing,
    interrupted := false, trace := [.execute] }
  history := [.submitted, .did .execute]

/-- Stopped while it executes the task ends; the whole run has one `destroy` and
one callback. -/
theorem exactly_once_restarted : run step Normal (start true true) restarts = some restarted ∧
    (∃ before : List Mark, restarted.history = before ++ [.did .destroy, .did .callback] ∧
      ∀ x ∈ before, x ≠ .did .destroy ∧ x ≠ .did .callback) ∧
    run step Normal (start true true) (restarts.take 4) = some executing ∧
    ∃ n, EndsWithin n { executing with task := executing.task.stop } := by
  have hr : run step Normal (start true true) restarts = some restarted := by decide +kernel
  have he : run step Normal (start true true) (restarts.take 4) = some executing := by decide +kernel
  exact ⟨hr, (exactly_once (reach_of_run restarts .start hr)).1, he,
    (exactly_once (reach_of_run _ .start he)).2.2.1.mpr (by decide)⟩

/-- The thread is started and `stop` comes before `running.set(isLoop)`. -/
def early : List Action := [.thread .go, .stop, .thread .go]

def overwritten : State where
  task := {
    isLoop := true, callback := true, running := true, reset := none, pc := .reset,
    interrupted := false, trace := [] }
  history := [.submitted]

/-- The stop is lost: `execute` is called again and again, and neither `destroy`
nor the callback ever comes. -/
theorem stop_lost : run step Normal (start true true) early = some overwritten ∧
    ∀ n, ∃ s, run step Normal overwritten (rounds n) = some s ∧ s.history.count (.did .execute) = n ∧
      .did .destroy ∉ s.history ∧ .did .callback ∉ s.history := by
  refine ⟨by decide, fun n => ?_⟩
  obtain ⟨s, hr, hh⟩ := looping_rounds (s := overwritten) ⟨rfl, rfl, rfl⟩ n
  refine ⟨s, hr, ?_, ?_, ?_⟩
  · rw [hh]
    simp [overwritten, List.count_flatten, List.map_replicate]
  · rw [hh]
    simp [overwritten, List.mem_flatten, List.mem_replicate]
  · rw [hh]
    simp [overwritten, List.mem_flatten, List.mem_replicate]

end ExactlyOnce
end PGCon
