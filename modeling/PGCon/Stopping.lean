/-
# Does a stop take effect?

`ScriptTask.stop` sets `running` to false, and the thread reads it at the end of
every turn of its loop. But the first thing the thread does is to set `running`
to whether the script loops. A stop that comes after the executor has started
the thread and before that statement is overwritten, the interrupt is swallowed
by the script or consumed by a `sleep` in it, and the script goes on for ever
(`stop_overwritten`). Where no thread sets `running` to true after its task was
stopped, the task begins `execute` at most once more (`stop_effective`).
-/
import PGCon.ScriptRunner

namespace PGCon
namespace Interleaved

open Effect Machine ScriptRunner

variable {P O : Type}

/-- After `ScriptRunner.stop` has returned, the task it stopped has begun `execute`
at most once more. -/
def StopEffective (s : State P O) : Prop :=
  ∀ i n, s.returned i = some n → ∀ t ∈ s.runner.tasks i, t.executions ≤ n + 1

/-- `running.set(true)` is not executed in a task that has been stopped. -/
def FlagKept (s : State P O) : Action P O → Prop
  | .thread i .go => ∀ t ∈ s.runner.tasks i, t.pc = .enter → t.isLoop = true → s.stopped i = none
  | _ => True

instance : DecidableRel (FlagKept (P := P) (O := O)) := fun s a =>
  match a with
  | .thread i .go => inferInstanceAs (Decidable
      (∀ t ∈ s.runner.tasks i, t.pc = .enter → t.isLoop = true → s.stopped i = none))
  | .thread _ (.ends _) | .thread _ (.interrupt _) => .isTrue trivial
  | .run _ _ _ | .stop | .caller | .controller _ => .isTrue trivial

/-- Each `clear` of the statements comes after the task was stopped, `S` being the
tasks stopped already. -/
def Ordered (S : ℕ → Prop) : List Statement → Prop
  | [] => True
  | .stopTask i :: rest => Ordered (fun j => j = i ∨ S j) rest
  | .clear i :: rest => S i ∧ Ordered S rest
  | _ :: rest => Ordered S rest

theorem Ordered.mono : ∀ {l : List Statement} {S S' : ℕ → Prop}, Ordered S l → (∀ i, S i → S' i) →
    Ordered S' l
  | [], _, _, _, _ => trivial
  | st :: l, S, S', h, hs => by
    cases st with
    | stopTask i => exact Ordered.mono (l := l) h fun j hj => hj.imp_right (hs j)
    | clear i => exact ⟨hs i h.1, Ordered.mono h.2 hs⟩
    | _ => exact Ordered.mono (l := l) h hs

theorem ordered_stopBody (S : ℕ → Prop) (current : Option ℕ) : Ordered S (stopBody current) := by
  cases current with
  | none => trivial
  | some i => exact ⟨Or.inl rfl, trivial⟩

theorem ordered_runBody (S : ℕ → Prop) (current : Option ℕ) (loads isLoop callback : Bool) :
    Ordered S (runBody current loads isLoop callback) := by
  cases current with
  | none => trivial
  | some i => exact ⟨Or.inl rfl, trivial⟩

/-- The tasks a caller stops exist, and a stopped task is calm: `running` is false,
and it has begun, or has still to come, one execution at most since then. -/
structure Stopping (s : State P O) : Prop where
  fresh : ∀ i, s.runner.next ≤ i → s.runner.tasks i = none
  current : ∀ i ∈ s.runner.current, (s.runner.tasks i).isSome
  caller : ∀ i, .stopTask i ∈ s.caller → (s.runner.tasks i).isSome
  ordered : Ordered (fun i => (s.stopped i).isSome) s.caller
  stopped : ∀ i k, s.stopped i = some k → ∃ t, s.runner.tasks i = some t ∧ t.running = false ∧
    k ≤ t.executions ∧ t.executions + t.pc.pending ≤ k + 1
  returned : ∀ i n, s.returned i = some n → ∃ k, s.stopped i = some k ∧ k ≤ n

/-- No statement calls back what a stopped task was told, and no task is lost. -/
theorem effect_calms {s : State P O} (h : Stopping s) (st : Statement) {i : ℕ} {t : ScriptTask}
    (ht : s.runner.tasks i = some t) : ∃ t', (st.effect s.runner).tasks i = some t' ∧ t.Calms t' := by
  have hmap : ∀ (j : ℕ) (f : ScriptTask → ScriptTask), (∀ u, ScriptTask.Calms u (f u)) →
      ∃ t', Function.update s.runner.tasks j ((s.runner.tasks j).map f) i = some t' ∧ t.Calms t' := by
    intro j f hf
    by_cases hij : i = j
    · subst hij
      exact ⟨f t, by rw [Function.update_self, ht]; rfl, hf t⟩
    · exact ⟨t, by rw [Function.update_of_ne hij, ht], .refl t⟩
  cases st with
  | stopTask j => exact hmap j _ ScriptTask.calms_stop
  | cancel j => exact hmap j _ ScriptTask.calms_cancel
  | submit isLoop callback =>
    have hne : i ≠ s.runner.next := by
      rintro rfl
      rw [h.fresh _ le_rfl] at ht
      cases ht
    exact ⟨t, by simp only [Statement.effect, Function.update_of_ne hne, ht], .refl t⟩
  | _ => exact ⟨t, ht, .refl t⟩

theorem effect_isSome {s : State P O} (h : Stopping s) (st : Statement) {i : ℕ}
    (hi : (s.runner.tasks i).isSome) : ((st.effect s.runner).tasks i).isSome := by
  obtain ⟨t, ht⟩ := Option.isSome_iff_exists.mp hi
  obtain ⟨t', ht', -⟩ := effect_calms h st ht
  rw [ht']
  rfl

theorem effect_fresh {s : State P O} (h : Stopping s) (st : Statement) (i : ℕ)
    (hi : (st.effect s.runner).next ≤ i) : (st.effect s.runner).tasks i = none := by
  have hmap : ∀ (j : ℕ) (f : ScriptTask → ScriptTask), s.runner.next ≤ i →
      Function.update s.runner.tasks j ((s.runner.tasks j).map f) i = none := by
    intro j f hn
    by_cases hij : i = j
    · subst hij
      rw [Function.update_self, h.fresh i hn]
      rfl
    · rw [Function.update_of_ne hij, h.fresh i hn]
  cases st with
  | stopTask j => exact hmap j _ hi
  | cancel j => exact hmap j _ hi
  | submit isLoop callback =>
    have hn : s.runner.next + 1 ≤ i := hi
    simp only [Statement.effect]
    rw [Function.update_of_ne (by omega)]
    exact h.fresh i (by omega)
  | _ => exact h.fresh i hi

theorem effect_current {s : State P O} (h : Stopping s) (st : Statement) (i : ℕ)
    (hi : i ∈ (st.effect s.runner).current) : ((st.effect s.runner).tasks i).isSome := by
  cases st with
  | submit isLoop callback =>
    obtain rfl : s.runner.next = i := Option.some.inj hi
    simp [Statement.effect]
  | dropTask => cases hi
  | _ => exact effect_isSome h _ (h.current i hi)

/-- A stopped task stays calm. -/
theorem Stopping.calm {s : State P O} (h : Stopping s) {tasks : ℕ → Option ScriptTask}
    (ht : ∀ i t, s.runner.tasks i = some t → ∃ t', tasks i = some t' ∧ ((s.stopped i).isSome → t.Calms t'))
    {i k : ℕ} (hk : s.stopped i = some k) : ∃ t, tasks i = some t ∧ t.running = false ∧
      k ≤ t.executions ∧ t.executions + t.pc.pending ≤ k + 1 := by
  obtain ⟨t, hti, hr, hlo, hhi⟩ := h.stopped i k hk
  obtain ⟨t', ht', hc⟩ := ht i t hti
  have hcalm := hc (by rw [hk]; rfl)
  exact ⟨t', ht', hcalm.running hr, hlo.trans hcalm.mono, (hcalm.bound hr).trans hhi⟩

theorem Stopping.calm_effect {s : State P O} (h : Stopping s) (st : Statement) {i k : ℕ}
    (hk : s.stopped i = some k) : ∃ t, (st.effect s.runner).tasks i = some t ∧ t.running = false ∧
      k ≤ t.executions ∧ t.executions + t.pc.pending ≤ k + 1 := by
  refine h.calm (fun j t ht => ?_) hk
  obtain ⟨t', ht', hcalm⟩ := effect_calms h st ht
  exact ⟨t', ht', fun _ => hcalm⟩

theorem Stopping.caller_rest {s : State P O} (h : Stopping s) {st : Statement} {rest : List Statement}
    (hc : s.caller = st :: rest) :
    ∀ j, Statement.stopTask j ∈ rest → ((st.effect s.runner).tasks j).isSome := by
  intro j hj
  refine effect_isSome h st (h.caller j ?_)
  rw [hc]
  exact List.mem_cons_of_mem _ hj

/-- The stop of a task is noted when its flag is cleared; the number noted first
stays. -/
theorem Stopping.note_stopTask {s : State P O} (h : Stopping s) {i : ℕ} {rest : List Statement}
    (hc : s.caller = .stopTask i :: rest) (service : ControllerService P O) : Stopping (State.note
      { s with
        runner := { Statement.effect (.stopTask i) s.runner with controllerService := service }
        caller := rest } (.stopTask i)) := by
  have hord := h.ordered
  rw [hc] at hord
  obtain ⟨t, ht⟩ := Option.isSome_iff_exists.mp (h.caller i (by rw [hc]; simp))
  obtain ⟨noted, hnoted⟩ : ∃ f, f = Function.update s.stopped i ((s.stopped i).or (some t.executions)) :=
    ⟨_, rfl⟩
  have hself : noted i = (s.stopped i).or (some t.executions) := by rw [hnoted, Function.update_self]
  have hother : ∀ j, j ≠ i → noted j = s.stopped j := fun j hj => by
    rw [hnoted, Function.update_of_ne hj]
  have hex : ((Statement.effect (.stopTask i) s.runner).tasks i).map ScriptTask.executions =
      some t.executions := by
    simp [Statement.effect, ht, ScriptTask.stop, ScriptTask.executions]
  simp only [State.note, State.executions, hex, ← hnoted]
  refine ⟨effect_fresh h _, effect_current h _, h.caller_rest hc, Ordered.mono (l := rest) hord fun j hj => ?_,
    fun j k hk => ?_, fun j n hn => ?_⟩
  · show (noted j).isSome = true
    by_cases hji : j = i
    · rw [hji, hself]
      cases s.stopped i <;> rfl
    · rw [hother j hji]
      exact hj.resolve_left hji
  · have hk' : noted j = some k := hk
    by_cases hji : j = i
    · subst hji
      rw [hself] at hk'
      cases hs : s.stopped j with
      | some k' =>
        rw [hs] at hk'
        exact h.calm_effect (.stopTask j) (hs.trans hk')
      | none =>
        rw [hs] at hk'
        obtain rfl : t.executions = k := Option.some.inj hk'
        refine ⟨t.stop, by simp [Statement.effect, ht], rfl, le_rfl, ?_⟩
        exact Nat.add_le_add_left (PC.pending_le _) _
    · rw [hother j hji] at hk'
      exact h.calm_effect (.stopTask i) hk'
  · obtain ⟨k, hk, hkn⟩ := h.returned j n hn
    refine ⟨k, ?_, hkn⟩
    show noted j = some k
    by_cases hji : j = i
    · rw [hji] at hk ⊢
      rw [hself, hk]
      rfl
    · rw [hother j hji, hk]

/-- The return of `stop` is noted after the stop of its task. -/
theorem Stopping.note_clear {s : State P O} (h : Stopping s) {i : ℕ} {rest : List Statement}
    (hc : s.caller = .clear i :: rest) (service : ControllerService P O) : Stopping (State.note
      { s with
        runner := { Statement.effect (.clear i) s.runner with controllerService := service }
        caller := rest } (.clear i)) := by
  have hord := h.ordered
  rw [hc] at hord
  refine ⟨effect_fresh h _, effect_current h _, h.caller_rest hc, hord.2,
    fun j k hk => h.calm_effect (.clear i) hk, fun j n hn => ?_⟩
  by_cases hji : j = i
  · subst hji
    simp only [State.note, State.executions, Function.update_self] at hn
    obtain ⟨k, hk⟩ := Option.isSome_iff_exists.mp hord.1
    obtain ⟨t, ht, -, hlo, -⟩ := h.stopped j k hk
    refine ⟨k, hk, ?_⟩
    rw [show (Statement.effect (.clear j) s.runner).tasks j = some t from ht] at hn
    obtain rfl : t.executions = n := Option.some.inj hn
    exact hlo
  · simp only [State.note, Function.update_of_ne hji] at hn
    exact h.returned j n hn

/-- A statement that returns. -/
theorem Stopping.note {s : State P O} (h : Stopping s) {st : Statement} {rest : List Statement}
    (hc : s.caller = st :: rest) (service : ControllerService P O) : Stopping (State.note
      { s with runner := { st.effect s.runner with controllerService := service }, caller := rest } st) := by
  have hcalm := fun j k (hk : s.stopped j = some k) => h.calm_effect st hk
  have hord := h.ordered
  rw [hc] at hord
  cases st with
  | stopTask i => exact h.note_stopTask hc service
  | clear i => exact h.note_clear hc service
  | _ => exact ⟨effect_fresh h _, effect_current h _, h.caller_rest hc, hord, hcalm, h.returned⟩

variable [Protocol P O]

theorem Stopping.callerStep {s s' : State P O} (h : Stopping s) (hs : callerStep s = some s') :
    Stopping s' := by
  obtain ⟨st, rest, service, hc, rfl | rfl⟩ := callerStep_cases hs
  · exact h.note hc service
  · exact ⟨effect_fresh h st, effect_current h st, by simp, trivial, fun i k hk => h.calm_effect st hk,
      h.returned⟩

theorem Stopping.threadStep {s s' : State P O} (h : Stopping s) {i : ℕ} {m : ScriptTask.Move}
    (hok : FlagKept s (.thread i m)) (hs : step s (.thread i m) = some s') : Stopping s' := by
  obtain ⟨t', ht', rfl⟩ := Option.map_eq_some_iff.mp hs
  obtain ⟨t, ht, hstep⟩ := Option.bind_eq_some_iff.mp ht'
  have hsteps := ScriptTask.steps_of_step hstep
  have hcalm : (s.stopped i).isSome → t.Calms t' := by
    intro hst
    refine hsteps.calms fun hpc => ?_
    cases hloop : t.isLoop with
    | false => rfl
    | true =>
      -- at `enter` the only step is the assignment
      cases m with
      | go => rw [hok t ht hpc hloop] at hst; cases hst
      | ends o => simp [ScriptTask.step, hpc] at hstep
      | interrupt flag => simp [ScriptTask.step, hpc, PC.inScript] at hstep
  have hsome : ∀ j, (s.runner.tasks j).isSome →
      (Function.update s.runner.tasks i (some t') j).isSome := by
    intro j hj
    by_cases hji : j = i
    · subst hji; rw [Function.update_self]; rfl
    · rwa [Function.update_of_ne hji]
  refine ⟨fun j hj => ?_, fun j hj => hsome j (h.current j hj), fun j hj => hsome j (h.caller j hj),
    h.ordered, fun j k hk => h.calm (fun l u hl => ?_) hk, h.returned⟩
  · have hji : j ≠ i := by
      rintro rfl
      rw [h.fresh j hj] at ht
      cases ht
    show Function.update s.runner.tasks i (some t') j = none
    rw [Function.update_of_ne hji]
    exact h.fresh j hj
  · by_cases hli : l = i
    · subst hli
      obtain rfl : t = u := Option.some.inj (ht.symm.trans hl)
      exact ⟨t', Function.update_self _ _ _, hcalm⟩
    · exact ⟨u, (Function.update_of_ne hli _ _).trans hl, fun _ => .refl u⟩

theorem stopping_step (s : State P O) (a : Action P O) (s' : State P O) (h : Stopping s)
    (hok : FlagKept s a) (hs : step s a = some s') : Stopping s' := by
  have hstop : ∀ i, Statement.stopTask i ∈ stopBody s.runner.current → (s.runner.tasks i).isSome := by
    intro i hi
    cases hc : s.runner.current with
    | none => rw [hc] at hi; cases hi
    | some j =>
      rw [hc] at hi
      obtain rfl : i = j := by simpa [stopBody] using hi
      exact h.current i hc
  cases a with
  | run loads isLoop callback =>
    simp only [step] at hs
    split at hs
    · obtain rfl := Option.some.inj hs
      refine ⟨h.fresh, h.current, fun i hi => hstop i ?_, ordered_runBody _ _ _ _ _, h.stopped, h.returned⟩
      simpa [runBody] using hi
    · cases hs
  | stop =>
    simp only [step] at hs
    split at hs
    · obtain rfl := Option.some.inj hs
      exact ⟨h.fresh, h.current, hstop, ordered_stopBody _ _, h.stopped, h.returned⟩
    · cases hs
  | caller => exact h.callerStep hs
  | thread i m => exact h.threadStep hok hs
  | controller service =>
    obtain rfl := Option.some.inj hs
    exact ⟨h.fresh, h.current, h.caller, h.ordered, h.stopped, h.returned⟩

/-- Where no thread sets `running` to true after its task was stopped, a task begins
`execute` at most once more after `ScriptRunner.stop` has returned. -/
theorem stop_effective {service : ControllerService P O} {s : State P O}
    (h : Reach step FlagKept (start service) s) : StopEffective s := by
  have h0 : Stopping (start service) :=
    ⟨fun _ _ => rfl, by simp [start, init], by simp [start], trivial, by simp [start], by simp [start]⟩
  have hinv : Stopping s := h.invariant h0 stopping_step
  intro i n hn t ht
  obtain ⟨k, hk, hkn⟩ := hinv.returned i n hn
  obtain ⟨u, hu, -, -, hbound⟩ := hinv.stopped i k hk
  obtain rfl : u = t := Option.some.inj (hu.symm.trans ht)
  omega

/-- A looping script that is stopped inside `execute` and swallows the interrupt. -/
theorem stop_effective_loop : ∃ s : State (Pad Empty) Empty, Reach step FlagKept (start (.init 100)) s ∧
    s.returned 0 = some 1 ∧ (s.runner.tasks 0).map ScriptTask.pc = some .destroy ∧ StopEffective s := by
  have hr : Reach step FlagKept (start (.init 100) : State (Pad Empty) Empty) _ :=
    reach_of_run [.run true true true, .caller, .caller, .thread 0 .go, .thread 0 .go, .thread 0 .go,
      .thread 0 .go, .stop, .caller, .caller, .caller, .caller, .thread 0 (.interrupt false),
      .thread 0 (.ends .returned), .thread 0 .go] .start rfl
  exact ⟨_, hr, rfl, rfl, stop_effective hr⟩

/-- The executor has started the thread; the script is stopped; the thread sets
`running` to true and the script, swallowing the interrupt, begins a second
time. -/
theorem stop_overwritten : ¬ ∀ s : State (Pad Empty) Empty,
    Reach step anyStep (start (.init 100)) s → StopEffective s := by
  intro h
  have hr : Reach step anyStep (start (.init 100) : State (Pad Empty) Empty) _ :=
    reach_of_run [.run true true true, .caller, .caller, .thread 0 .go,
      .stop, .caller, .caller, .caller, .caller,
      .thread 0 .go, .thread 0 .go, .thread 0 .go, .thread 0 (.interrupt false), .thread 0 (.ends .returned),
      .thread 0 .go, .thread 0 .go, .thread 0 .go, .thread 0 .go] .start rfl
  have hle := h _ hr 0 0 rfl _ rfl
  exact absurd hle (by decide)

end Interleaved

end PGCon
