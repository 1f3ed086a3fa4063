/-
# Runs of a machine

A machine is a partial step function: `step s a = some s'` when the action
`a` is enabled in `s` and leads to `s'`. Interleavings of several threads are
machines whose actions name the thread that moves.

`Reach step ok s₀ s` says that `s` is reached from `s₀` by a run each of whose
steps meets `ok`, a condition on the state before the step and the action.
With `ok` always true it is plain reachability. What holds at first and is
kept by every step that meets `ok` holds in every state reached
(`Reach.invariant`); `run` executes a list of actions, for concrete runs.
-/
import Mathlib

namespace PGCon
namespace Machine

variable {S A : Type*}

/-- The states reached from `s₀` by steps that meet `ok`. -/
inductive Reach (step : S → A → Option S) (ok : S → A → Prop) (s₀ : S) : S → Prop
  | start : Reach step ok s₀ s₀
  | step {s s' : S} (a : A) : Reach step ok s₀ s → ok s a → step s a = some s' → Reach step ok s₀ s'

/-- No condition on the steps. -/
def anyStep (_ : S) (_ : A) : Prop := True

variable {step : S → A → Option S} {ok : S → A → Prop} {s₀ s s' : S}

/-- What holds at first and is kept by every step that meets `ok` holds in
every state reached. -/
theorem Reach.invariant {Inv : S → Prop} (h : Reach step ok s₀ s) (h0 : Inv s₀)
    (hs : ∀ s a s', Inv s → ok s a → step s a = some s' → Inv s') : Inv s := by
  induction h with
  | start => exact h0
  | step a _ hok he ih => exact hs _ a _ ih hok he

theorem Reach.trans (h : Reach step ok s₀ s) (h' : Reach step ok s s') : Reach step ok s₀ s' := by
  induction h' with
  | start => exact h
  | step a _ hok he ih => exact .step a ih hok he

instance : DecidableRel (anyStep : S → A → Prop) := fun _ _ => .isTrue trivial

/-- The state after a list of actions, each enabled in its turn and meeting
`ok`. -/
def run (step : S → A → Option S) (ok : S → A → Prop) [DecidableRel ok] : S → List A → Option S
  | s, [] => some s
  | s, a :: as => if ok s a then (step s a).bind fun s' => run step ok s' as else none

theorem run_append [DecidableRel ok] (as bs : List A) (s : S) :
    run step ok s (as ++ bs) = (run step ok s as).bind fun t => run step ok t bs := by
  induction as generalizing s with
  | nil => rfl
  | cons a as ih =>
    rw [List.cons_append, run, run]
    split
    · rw [Option.bind_assoc]
      simp only [ih]
    · rfl

theorem reach_of_run [DecidableRel ok] : ∀ (as : List A) {s : S}, Reach step ok s₀ s → ∀ {s' : S},
    run step ok s as = some s' → Reach step ok s₀ s'
  | [], s, h, s', hr => by
    cases hr
    exact h
  | a :: as, s, h, s', hr => by
    unfold run at hr
    split at hr
    · rename_i hok
      obtain ⟨t, ht, hr⟩ := Option.bind_eq_some_iff.mp hr
      exact reach_of_run as (.step a h hok ht) hr
    · cases hr

/-- A rank that no step raises and every step of a kind lowers bounds the number
of those steps in a run. -/
theorem countP_le_of_run [DecidableRel ok] (Inv : S → Prop) (rank : S → ℕ) (kind : A → Bool)
    (hs : ∀ s a s', Inv s → ok s a → step s a = some s' →
      Inv s' ∧ rank s' + (if kind a then 1 else 0) ≤ rank s) :
    ∀ (as : List A) {s s' : S}, Inv s → run step ok s as = some s' →
      Inv s' ∧ rank s' + as.countP kind ≤ rank s
  | [], s, s', h, hr => by
    cases hr
    exact ⟨h, le_rfl⟩
  | a :: as, s, s', h, hr => by
    unfold run at hr
    split at hr
    · rename_i hok
      obtain ⟨t, ht, hr⟩ := Option.bind_eq_some_iff.mp hr
      obtain ⟨hinv, hle⟩ := hs s a t h hok ht
      obtain ⟨hinv', hle'⟩ := countP_le_of_run Inv rank kind hs as hinv hr
      refine ⟨hinv', ?_⟩
      rw [List.countP_cons]
      omega
    · cases hr

end Machine
end PGCon
