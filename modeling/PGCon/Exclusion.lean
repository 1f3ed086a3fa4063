/-
# One script at a time?

`ScriptRunner.run` stops the script before it starts the next, but stopping is a
flag and an interrupt: the old script is inside `execute` until it returns or
throws. So two tasks can be inside `execute` at once (`two_executing`). Where
every task is submitted after the ones before it have left their loops, no two
ever are (`atMostOne_executing`).
-/
import PGCon.ScriptRunner

namespace PGCon
namespace Interleaved

open Effect Machine ScriptRunner

variable {P O : Type} [Protocol P O]

/-- No two tasks are between entering and leaving `execute`. -/
def AtMostOne (s : State P O) : Prop :=
  ∀ i j t u, s.runner.tasks i = some t → s.runner.tasks j = some u →
    t.pc = .executing → u.pc = .executing → i = j

/-- A task is submitted when all the others have left their loops, or were
cancelled before they started. -/
def SubmitsAlone (s : State P O) : Action P O → Prop
  | .caller => s.caller.head?.any Statement.isSubmit →
    ∀ i < s.runner.next, ∀ t ∈ s.runner.tasks i, t.pc.inLoop = false
  | _ => True

instance : DecidableRel (SubmitsAlone (P := P) (O := O)) := fun s a => by
  cases a <;> unfold SubmitsAlone <;> infer_instance

/-- At most one task can still execute its script. -/
structure Alone (s : State P O) : Prop where
  fresh : ∀ i, s.runner.next ≤ i → s.runner.tasks i = none
  one : ∀ i j t u, s.runner.tasks i = some t → s.runner.tasks j = some u →
    t.pc.inLoop = true → u.pc.inLoop = true → i = j

omit [Protocol P O] in
theorem Alone.of_tasks {s s' : State P O} (h : Alone s) (hn : s'.runner.next = s.runner.next)
    (ht : ∀ i t', s'.runner.tasks i = some t' →
      ∃ t, s.runner.tasks i = some t ∧ (t'.pc.inLoop = true → t.pc.inLoop = true)) : Alone s' := by
  refine ⟨fun i hi => ?_, fun i j t' u' hi hj hti hui => ?_⟩
  · by_contra hne
    obtain ⟨t', ht'⟩ := Option.ne_none_iff_exists'.mp hne
    obtain ⟨t, htt, -⟩ := ht i t' ht'
    rw [h.fresh i (hn ▸ hi)] at htt
    cases htt
  · obtain ⟨t, ht1, ht2⟩ := ht i t' hi
    obtain ⟨u, hu1, hu2⟩ := ht j u' hj
    exact h.one i j t u ht1 hu1 (ht2 hti) (hu2 hui)

omit [Protocol P O] in
/-- One task is changed. -/
theorem Alone.update {s s' : State P O} (h : Alone s) (hn : s'.runner.next = s.runner.next) {i : ℕ}
    {f : ScriptTask → ScriptTask} (hs : s'.runner.tasks = Function.update s.runner.tasks i ((s.runner.tasks i).map f))
    (hf : ∀ t, s.runner.tasks i = some t → (f t).pc.inLoop = true → t.pc.inLoop = true) : Alone s' := by
  refine h.of_tasks hn fun j t' hj => ?_
  rw [hs] at hj
  by_cases hji : j = i
  · subst hji
    rw [Function.update_self] at hj
    obtain ⟨t, ht, rfl⟩ := Option.map_eq_some_iff.mp hj
    exact ⟨t, ht, hf t ht⟩
  · rw [Function.update_of_ne hji] at hj
    exact ⟨t', hj, id⟩

omit [Protocol P O] in
theorem Alone.effect {s s' : State P O} (h : Alone s) {st : Statement} {rest : List Statement}
    (hc : s.caller = st :: rest) (hok : SubmitsAlone s .caller) {service : ControllerService P O}
    (hs : s'.runner = { st.effect s.runner with controllerService := service }) : Alone s' := by
  cases st with
  | stopTask i => exact h.update (f := ScriptTask.stop) (by rw [hs]; rfl) (by rw [hs]; rfl) fun t _ => id
  | cancel i =>
    exact h.update (f := ScriptTask.cancel) (by rw [hs]; rfl) (by rw [hs]; rfl) fun t _ =>
      ScriptTask.cancel_inLoop
  | submit isLoop callback =>
    have hout := hok (by rw [hc]; rfl)
    have hin : ∀ i t, s'.runner.tasks i = some t → t.pc.inLoop = true → i = s.runner.next := by
      intro i t hi hl
      by_contra hne
      rw [hs] at hi
      simp only [Statement.effect, Function.update_of_ne hne] at hi
      have hlt : i < s.runner.next := by
        by_contra hge
        rw [h.fresh i (not_lt.mp hge)] at hi
        cases hi
      rw [hout i hlt t hi] at hl
      cases hl
    refine ⟨fun i hi => ?_, fun i j t u hi hj hti huj => (hin i t hi hti).trans (hin j u hj huj).symm⟩
    rw [hs] at hi ⊢
    simp only [Statement.effect] at hi ⊢
    rw [Function.update_of_ne (by omega)]
    exact h.fresh i (by omega)
  | _ => exact h.of_tasks (by rw [hs]; rfl) fun i t hi => ⟨t, by rw [hs] at hi; exact hi, id⟩

theorem alone_step (s : State P O) (a : Action P O) (s' : State P O) (h : Alone s)
    (hok : SubmitsAlone s a) (hs : step s a = some s') : Alone s' := by
  cases a with
  | run loads isLoop callback =>
    simp only [step] at hs
    split at hs
    · obtain rfl := Option.some.inj hs
      exact ⟨h.fresh, h.one⟩
    · cases hs
  | stop =>
    simp only [step] at hs
    split at hs
    · obtain rfl := Option.some.inj hs
      exact ⟨h.fresh, h.one⟩
    · cases hs
  | caller =>
    obtain ⟨st, rest, service, hc, rfl | rfl⟩ := callerStep_cases hs
    · exact h.effect hc hok (note_runner _ st)
    · exact h.effect hc hok rfl
  | thread i m =>
    obtain ⟨t', ht', rfl⟩ := Option.map_eq_some_iff.mp hs
    obtain ⟨t, ht, hstep⟩ := Option.bind_eq_some_iff.mp ht'
    refine h.update (f := fun _ => t') rfl (by rw [ht]; rfl) fun u hu hl => ?_
    obtain rfl : t = u := Option.some.inj (ht.symm.trans hu)
    exact (ScriptTask.steps_of_step hstep).inLoop hl
  | controller service =>
    obtain rfl := Option.some.inj hs
    exact ⟨h.fresh, h.one⟩

/-- Where every task is submitted after the others have left their loops, no two
scripts are ever inside `execute` at once. -/
theorem atMostOne_executing {service : ControllerService P O} {s : State P O}
    (h : Reach step SubmitsAlone (start service) s) : AtMostOne s := by
  have hinv : Alone s := h.invariant ⟨fun _ _ => rfl, by simp [start, init]⟩ alone_step
  intro i j t u hi hj hti huj
  exact hinv.one i j t u hi hj (by rw [hti]; rfl) (by rw [huj]; rfl)

/-- A second script that is started once the first has run to its end. -/
theorem atMostOne_executing_twice : ∃ (s : State (Pad Empty) Empty) (t : ScriptTask),
    Reach step SubmitsAlone (start (.init 100)) s ∧ s.runner.tasks 1 = some t ∧ t.pc = .executing ∧
      AtMostOne s := by
  have hr : Reach step SubmitsAlone (start (.init 100) : State (Pad Empty) Empty) _ :=
    reach_of_run ([.run true false true, .caller, .caller, .thread 0 .go, .thread 0 .go, .thread 0 .go,
      .thread 0 .go, .thread 0 (.ends .returned), .thread 0 .go, .thread 0 (.ends .returned), .thread 0 .go,
      .run true true true, .caller, .caller, .caller, .caller, .caller, .caller,
      .thread 1 .go, .thread 1 .go, .thread 1 .go, .thread 1 .go]) .start rfl
  exact ⟨_, _, hr, rfl, rfl, atMostOne_executing hr⟩

/-- A second `run` while the first script is inside `execute`: stopping it sets its
flag and interrupts it, and the second is submitted at once. -/
theorem two_executing : ¬ ∀ s : State (Pad Empty) Empty,
    Reach step anyStep (start (.init 100)) s → AtMostOne s := by
  intro h
  have hr : Reach step anyStep (start (.init 100) : State (Pad Empty) Empty) _ :=
    reach_of_run ([.run true true true, .caller, .caller, .thread 0 .go, .thread 0 .go, .thread 0 .go,
      .thread 0 .go, .run true true true, .caller, .caller, .caller, .caller, .caller, .caller,
      .thread 1 .go, .thread 1 .go, .thread 1 .go, .thread 1 .go]) .start rfl
  have h01 : 0 = 1 := h _ hr 0 1 _ _ rfl rfl rfl rfl
  cases h01

end Interleaved

end PGCon
