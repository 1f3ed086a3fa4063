/-
# Waiting for a notification

A Java object whose monitor is used in one way: threads come into a `synchronized`
block and `wait` in it at once; others change what the object protects and call
`notifyAll`; a thread that was notified goes on, when it has the lock again, with
what the object holds by then. The blocks do not overlap, so each part of one
between taking the lock and giving it up is a step.

Notifications are counted. A thread that waits has missed none since it came in,
and one that goes on has had at least one (`Inv.waiting`, `Inv.notified`); the turns
of one thread do not overlap (`Inv.apart`). A notification while a thread is outside
the block is lost on it: it comes in, waits, and nothing happens until the next one
(`unheard_step`). `wait` may also return by itself (`spurious`), which the results exclude.
No thread is interrupted while it waits.
-/
import PGCon.Machine

namespace PGCon
namespace Monitor

open Machine

/-- Where a thread is. -/
inductive Phase
  | outside
  | waiting
  | notified
  deriving DecidableEq, Repr

/-- What `notifyAll` does to a thread. -/
def Phase.notify : Phase → Phase
  | .outside => .outside
  | .waiting | .notified => .notified

/-- A block left: by whom, the notifications there had been when it came in and when
it went on, and its result. -/
structure Turn (T R : Type) where
  thread : T
  entered : ℕ
  resumed : ℕ
  result : R
  deriving DecidableEq, Repr

/-- An object: how it changes before a notification, and what a thread does to it on
its way out. -/
structure Object (S A B R : Type) where
  change : A → S → S
  leave : B → S → Option (R × S)

structure State (T S R : Type) where
  object : S
  notifications : ℕ
  phase : T → Phase
  /-- the notifications there had been when a thread came in -/
  entered : T → ℕ
  turns : List (Turn T R)

inductive Action (T A B : Type)
  | enter (t : T)
  | change (a : A)
  | leave (t : T) (b : B)
  /-- `wait` returns without a notification -/
  | spurious (t : T)
  deriving DecidableEq, Repr

variable {T S A B R : Type}

/-- Nobody has come in. -/
def State.init (object : S) : State T S R where
  object := object
  notifications := 0
  phase _ := .outside
  entered _ := 0
  turns := []

variable [DecidableEq T]

def step (o : Object S A B R) (s : State T S R) : Action T A B → Option (State T S R)
  | .enter t =>
    if s.phase t = .outside then
      some { s with
        phase := Function.update s.phase t .waiting
        entered := Function.update s.entered t s.notifications }
    else none
  | .change a => some { s with
      object := o.change a s.object
      notifications := s.notifications + 1
      phase := fun t => (s.phase t).notify }
  | .leave t b =>
    if s.phase t = .notified then
      (o.leave b s.object).map fun p => { s with
        object := p.2
        phase := Function.update s.phase t .outside
        turns := s.turns ++ [⟨t, s.entered t, s.notifications, p.1⟩] }
    else none
  | .spurious t =>
    if s.phase t = .waiting then some { s with phase := Function.update s.phase t .notified } else none

omit [DecidableEq T] in
/-- `wait` returns after a notification only. -/
def faithful (_ : State T S R) : Action T A B → Prop
  | .spurious _ => False
  | _ => True

/-- What the counts say. -/
structure Inv (s : State T S R) : Prop where
  waiting : ∀ t, s.phase t = .waiting → s.entered t = s.notifications
  notified : ∀ t, s.phase t = .notified → s.entered t < s.notifications
  fresh : ∀ turn ∈ s.turns, turn.entered < turn.resumed ∧ turn.resumed ≤ s.notifications
  apart : s.turns.Pairwise fun a b => a.thread = b.thread → a.resumed ≤ b.entered
  since : ∀ turn ∈ s.turns, s.phase turn.thread ≠ .outside → turn.resumed ≤ s.entered turn.thread

omit [DecidableEq T] in
theorem inv_init (object : S) : Inv (State.init object : State T S R) :=
  ⟨by simp [State.init], by simp [State.init], by simp [State.init], .nil, by simp [State.init]⟩

variable {o : Object S A B R} {s s' : State T S R}

theorem Inv.enter (h : Inv s) {t : T} (hs : step o s (.enter t) = some s') : Inv s' := by
  simp only [step, Option.ite_none_right_eq_some, Option.some.injEq] at hs
  obtain ⟨-, rfl⟩ := hs
  refine ⟨fun u => ?_, fun u => ?_, h.fresh, h.apart, fun turn hturn => ?_⟩ <;> dsimp only
  · by_cases hu : u = t
    · subst hu
      simp
    · simpa [Function.update_of_ne hu] using h.waiting u
  · by_cases hu : u = t
    · subst hu
      simp
    · simpa [Function.update_of_ne hu] using h.notified u
  · by_cases hu : turn.thread = t
    · rw [hu]
      simpa using (h.fresh turn hturn).2
    · simpa [Function.update_of_ne hu] using h.since turn hturn

theorem Inv.change (h : Inv s) {a : A} (hs : step o s (.change a) = some s') : Inv s' := by
  obtain rfl := Option.some.inj hs
  refine ⟨fun t ht => ?_, fun t ht => ?_, fun turn hturn => ?_, h.apart, fun turn hturn hp => ?_⟩ <;> dsimp only at *
  · rcases hp : s.phase t <;> simp [hp, Phase.notify] at ht
  · rcases hp : s.phase t
    · simp [hp, Phase.notify] at ht
    · exact (h.waiting t hp).trans_lt (Nat.lt_succ_self _)
    · exact (h.notified t hp).trans (Nat.lt_succ_self _)
  · exact ⟨(h.fresh turn hturn).1, (h.fresh turn hturn).2.trans (Nat.le_succ _)⟩
  · refine h.since turn hturn fun hout => hp ?_
    rw [hout]
    rfl

theorem Inv.leave (h : Inv s) {t : T} {b : B} (hs : step o s (.leave t b) = some s') : Inv s' := by
  simp only [step, Option.ite_none_right_eq_some, Option.map_eq_some_iff] at hs
  obtain ⟨ht, p, -, rfl⟩ := hs
  have hlt := h.notified t ht
  refine ⟨fun u => ?_, fun u => ?_, fun turn hturn => ?_, ?_, fun turn hturn => ?_⟩ <;> dsimp only at *
  · by_cases hu : u = t
    · subst hu
      simp
    · simpa [Function.update_of_ne hu] using h.waiting u
  · by_cases hu : u = t
    · subst hu
      simp
    · simpa [Function.update_of_ne hu] using h.notified u
  · rcases List.mem_append.mp hturn with hturn | hturn
    · exact h.fresh turn hturn
    · rw [List.mem_singleton.mp hturn]
      exact ⟨hlt, le_rfl⟩
  · rw [List.pairwise_append]
    refine ⟨h.apart, List.pairwise_singleton _ _, fun turn hturn last hlast hthread => ?_⟩
    rw [List.mem_singleton.mp hlast] at hthread ⊢
    have hphase : s.phase turn.thread ≠ .outside := by
      rw [hthread, ht]
      decide
    simpa [hthread] using h.since turn hturn hphase
  · by_cases hu : turn.thread = t
    · rw [hu]
      simp
    · rcases List.mem_append.mp hturn with hturn | hturn
      · simpa [Function.update_of_ne hu] using h.since turn hturn
      · exact absurd (by rw [List.mem_singleton.mp hturn]) hu

/-! ### Without a notification -/

omit [DecidableEq T] in
/-- Nothing wakes a thread up. -/
def still (_ : State T S R) : Action T A B → Prop
  | .change _ | .spurious _ => False
  | _ => True

/-- The thread is not on its way out, and has not been since `s₀`. -/
structure Unheard (t : T) (s₀ s : State T S R) : Prop where
  phase : s.phase t ≠ .notified
  turns : s.turns.filter (·.thread = t) = s₀.turns.filter (·.thread = t)

theorem unheard_step {t : T} {s₀ : State T S R} {a : Action T A B} (h : Unheard t s₀ s) (ha : still s a)
    (hs : step o s a = some s') : Unheard t s₀ s' := by
  cases a with
  | enter u =>
    simp only [step, Option.ite_none_right_eq_some, Option.some.injEq] at hs
    obtain ⟨-, rfl⟩ := hs
    refine ⟨?_, h.turns⟩
    by_cases hu : t = u
    · subst hu
      simp
    · simpa [Function.update_of_ne hu] using h.phase
  | change a => exact ha.elim
  | leave u b =>
    simp only [step, Option.ite_none_right_eq_some, Option.map_eq_some_iff] at hs
    obtain ⟨hphase, p, -, rfl⟩ := hs
    have hu : u ≠ t := fun hu => h.phase (hu ▸ hphase)
    refine ⟨?_, ?_⟩
    · simpa [Function.update_of_ne hu.symm] using h.phase
    · simpa [List.filter_append, hu] using h.turns
  | spurious u => exact ha.elim

end Monitor
end PGCon
