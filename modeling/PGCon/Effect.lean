/-
# Methods that update an object and may throw

A method on an object with state `S` is an `EStateM E S α`: it returns a value
or throws, and in both cases leaves a state behind, so what was assigned
before an exception stays assigned.

`Sim R m n` relates two methods: from states related by `R` they return the
same value or throw the same exception, and leave related states. It is kept
by sequencing, branching and loops (`Sim.bind`, `Sim.ite`, `Sim.forM`), so two
implementations of an interface that are related method by method stay related
under everything built on the interface. `Frame π m` says which fields a method
leaves alone, `Preserves I m` that it keeps an invariant, `Keeps I G m` that it
also returns, `Throws P m` which exceptions it can throw.
-/
import Mathlib

namespace PGCon
namespace Effect

variable {E S T α β : Type}

/-- The state a method leaves behind, also when it throws. -/
def left : EStateM.Result E S α → S
  | .ok _ s => s
  | .error _ s => s

/-- What a method answers: its value or its exception. -/
def answer : EStateM.Result E S α → Except E α
  | .ok a _ => .ok a
  | .error e _ => .error e

/-! ### How a method runs -/

@[simp] theorem pure_run (a : α) (s : S) : (pure a : EStateM E S α) s = .ok a s := rfl

theorem bind_run (m : EStateM E S α) (f : α → EStateM E S β) (s : S) :
    (m >>= f) s = match m s with
      | .ok a s' => f a s'
      | .error e s' => .error e s' := rfl

theorem bind_of_ok {m : EStateM E S α} {f : α → EStateM E S β} {s s' : S} {a : α}
    (h : m s = .ok a s') : (m >>= f) s = f a s' := by
  rw [bind_run, h]

@[simp] theorem get_bind_run (f : S → EStateM E S β) (s : S) : ((get : EStateM E S S) >>= f) s = f s s :=
  rfl

@[simp] theorem modify_run (f : S → S) (s : S) : (modify f : EStateM E S PUnit) s = .ok ⟨⟩ (f s) := rfl

@[simp] theorem modify_bind_run (f : S → S) (g : PUnit → EStateM E S β) (s : S) :
    ((modify f : EStateM E S PUnit) >>= g) s = g ⟨⟩ (f s) := rfl

@[simp] theorem ite_run {c : Prop} [Decidable c] (m n : EStateM E S α) (s : S) :
    (if c then m else n) s = if c then m s else n s := by
  split <;> rfl

/-! ### Methods without a state -/

theorem ok_bind (a : α) (f : α → Except E β) : ((.ok a : Except E α) >>= f) = f a := rfl

theorem bind_eq_ok {x : Except E α} {f : α → Except E β} {b : β} :
    (x >>= f) = .ok b ↔ ∃ a, x = .ok a ∧ f a = .ok b := by
  cases x <;> simp [bind, Except.bind]

/-- Within a method that has a state. -/
theorem ofExcept_bind_eq_ok {x : Except E α} {f : α → EStateM E S β} {s s' : S} {b : β} :
    ((MonadExcept.ofExcept x : EStateM E S α) >>= f) s = .ok b s' ↔ ∃ a, x = .ok a ∧ f a s = .ok b s' := by
  cases x with
  | error e =>
    constructor
    · intro h
      cases h
    · rintro ⟨a, h, -⟩
      cases h
  | ok a =>
    constructor
    · intro h
      exact ⟨a, rfl, h⟩
    · rintro ⟨a', h, hf⟩
      exact Except.ok.inj h ▸ hf

theorem bind_eq_error {x : Except E α} {f : α → Except E β} {e : E} :
    (x >>= f) = .error e ↔ x = .error e ∨ ∃ a, x = .ok a ∧ f a = .error e := by
  cases x <;> simp [bind, Except.bind]

/-- Throwing another exception instead. -/
theorem mapError_eq_ok {E' : Type} {x : Except E α} {f : E → E'} {a : α} : x.mapError f = .ok a ↔ x = .ok a := by
  cases x <;> simp [Except.mapError]

theorem mapError_eq_error {E' : Type} {x : Except E α} {f : E → E'} {e : E'} :
    x.mapError f = .error e ↔ ∃ e', x = .error e' ∧ f e' = e := by
  cases x <;> simp [Except.mapError]

/-- Where a loop over a list stops that throws at an element without `p`. -/
theorem exists_first_not {p : α → Prop} : ∀ {l : List α}, (¬ ∀ a ∈ l, p a) →
    ∃ before a after, l = before ++ a :: after ∧ (∀ b ∈ before, p b) ∧ ¬ p a
  | [], h => absurd (List.forall_mem_nil p) h
  | a :: l, h => by
    by_cases ha : p a
    · have hl : ¬ ∀ b ∈ l, p b := fun hl => h (List.forall_mem_cons.mpr ⟨ha, hl⟩)
      obtain ⟨before, b, after, rfl, hbefore, hb⟩ := exists_first_not hl
      exact ⟨a :: before, b, after, rfl, List.forall_mem_cons.mpr ⟨ha, hbefore⟩, hb⟩
    · exact ⟨[], a, l, rfl, List.forall_mem_nil p, ha⟩

/-! ### Related methods -/

/-- The same answer, in related states. -/
inductive SimResult (R : S → T → Prop) : EStateM.Result E S α → EStateM.Result E T α → Prop
  | ok (a : α) {s : S} {t : T} : R s t → SimResult R (.ok a s) (.ok a t)
  | error (e : E) {s : S} {t : T} : R s t → SimResult R (.error e s) (.error e t)

/-- From related states the two methods answer alike and leave related states. -/
def Sim (R : S → T → Prop) (m : EStateM E S α) (n : EStateM E T α) : Prop :=
  ∀ s t, R s t → SimResult R (m s) (n t)

variable {R : S → T → Prop}

theorem SimResult.left {x : EStateM.Result E S α} {y : EStateM.Result E T α} (h : SimResult R x y) :
    R (left x) (left y) := by
  cases h <;> assumption

theorem Sim.pure (a : α) : Sim (E := E) R (Pure.pure a) (Pure.pure a) :=
  fun _ _ h => .ok a h

theorem Sim.bind {m : EStateM E S α} {n : EStateM E T α} {f : α → EStateM E S β}
    {g : α → EStateM E T β} (h : Sim R m n) (hf : ∀ a, Sim R (f a) (g a)) :
    Sim R (m >>= f) (n >>= g) := by
  intro s t hst
  have hm := h s t hst
  rw [bind_run, bind_run]
  generalize m s = x at hm
  generalize n t = y at hm
  cases hm with
  | ok a h' => exact hf a _ _ h'
  | error e h' => exact .error e h'

theorem Sim.assign {f : S → S} {g : T → T} (h : ∀ s t, R s t → R (f s) (g t)) :
    Sim (E := E) R (modify f) (modify g) :=
  fun s t hst => .ok _ (h s t hst)

/-- A method that reads its object may be related from each pair of states
apart. -/
theorem Sim.get_bind {f : S → EStateM E S β} {g : T → EStateM E T β}
    (h : ∀ s t, R s t → SimResult R (f s s) (g t t)) : Sim R (get >>= f) (get >>= g) :=
  fun s t hst => h s t hst

theorem Sim.ite {c : Prop} [Decidable c] {m m' : EStateM E S α} {n n' : EStateM E T α}
    (h : Sim R m n) (h' : Sim R m' n') : Sim R (if c then m else m') (if c then n else n') := by
  split
  · exact h
  · exact h'

theorem Sim.forM {ι : Type} {f : ι → EStateM E S PUnit} {g : ι → EStateM E T PUnit}
    (h : ∀ i, Sim R (f i) (g i)) : ∀ is : List ι, Sim R (forM is f) (forM is g)
  | [] => Sim.pure _
  | i :: is => by
    rw [List.forM_cons, List.forM_cons]
    exact Sim.bind (h i) fun _ => Sim.forM h is

/-! ### Fields a method does not touch -/

/-- The method leaves the field `π` as it was, also when it throws. -/
def Frame {γ : Type} (π : S → γ) (m : EStateM E S α) : Prop := ∀ s, π (left (m s)) = π s

section Frame

variable {γ : Type} {π : S → γ}

theorem Frame.pure (a : α) : Frame (E := E) π (Pure.pure a) := fun _ => rfl

theorem Frame.throw (e : E) : Frame π (throw e : EStateM E S α) := fun _ => rfl

theorem Frame.assign {f : S → S} (h : ∀ s, π (f s) = π s) : Frame (E := E) π (modify f) := h

theorem Frame.ite {c : Prop} [Decidable c] {m n : EStateM E S α} (h : Frame π m) (h' : Frame π n) :
    Frame π (if c then m else n) := by
  split
  · exact h
  · exact h'

/-- What a method does to the field is done before a part that leaves it alone. -/
theorem left_bind_of_frame (m : EStateM E S α) {f : α → EStateM E S β} (hf : ∀ a, Frame π (f a)) (s : S) :
    π (left ((m >>= f) s)) = π (left (m s)) := by
  rw [bind_run]
  cases m s with
  | ok a s' => exact hf a s'
  | error e s' => rfl

/-- After a method that leaves the field alone the rest runs with the field as it
was, or is never reached. -/
theorem Frame.bind_cases {m : EStateM E S α} (h : Frame π m) (f : α → EStateM E S β) (s : S) :
    π (left ((m >>= f) s)) = π s ∨ ∃ a s', π s' = π s ∧ (m >>= f) s = f a s' := by
  have hm := h s
  rw [bind_run]
  cases hr : m s with
  | ok a s' =>
    rw [hr] at hm
    exact Or.inr ⟨a, s', hm, rfl⟩
  | error e s' =>
    rw [hr] at hm
    exact Or.inl hm

theorem Frame.bind {m : EStateM E S α} {f : α → EStateM E S β} (h : Frame π m)
    (hf : ∀ a, Frame π (f a)) : Frame π (m >>= f) :=
  fun s => (left_bind_of_frame m hf s).trans (h s)

theorem Frame.get_bind {f : S → EStateM E S β} (h : ∀ s, Frame π (f s)) :
    Frame (E := E) π (get >>= f) := fun s => h s s

end Frame

/-! ### Methods that keep an invariant -/

/-- The method keeps `I`, also when it throws. -/
def Preserves (I : S → Prop) (m : EStateM E S α) : Prop := ∀ s, I s → I (left (m s))

section Preserves

variable {I : S → Prop}

theorem Preserves.pure (a : α) : Preserves (E := E) I (Pure.pure a) := fun _ h => h

theorem Preserves.throw (e : E) : Preserves I (throw e : EStateM E S α) := fun _ h => h

theorem Preserves.assign {f : S → S} (h : ∀ s, I s → I (f s)) : Preserves (E := E) I (modify f) := h

theorem Preserves.get_bind {f : S → EStateM E S β} (h : ∀ s, Preserves I (f s)) :
    Preserves (E := E) I (get >>= f) := fun s hs => h s s hs

/-- What holds after the first part holds after the rest, if that keeps it. -/
theorem Preserves.left_bind {m : EStateM E S α} {f : α → EStateM E S β} (hf : ∀ a, Preserves I (f a)) {s : S}
    (h : I (left (m s))) : I (left ((m >>= f) s)) := by
  rw [bind_run]
  cases hr : m s with
  | ok a s' =>
    rw [hr] at h
    exact hf a s' h
  | error e s' =>
    rw [hr] at h
    exact h

theorem Preserves.bind {m : EStateM E S α} {f : α → EStateM E S β} (h : Preserves I m)
    (hf : ∀ a, Preserves I (f a)) : Preserves I (m >>= f) :=
  fun s hs => Preserves.left_bind hf (h s hs)

theorem Preserves.ite {c : Prop} [Decidable c] {m n : EStateM E S α} (h : Preserves I m)
    (h' : Preserves I n) : Preserves I (if c then m else n) := by
  split
  · exact h
  · exact h'

theorem Preserves.forM {ι : Type} {f : ι → EStateM E S PUnit} (h : ∀ i, Preserves I (f i)) :
    ∀ is : List ι, Preserves I (forM is f)
  | [] => Preserves.pure _
  | i :: is => by
    rw [List.forM_cons]
    exact Preserves.bind (h i) fun _ => Preserves.forM h is

theorem Preserves.foldlM {ι : Type} {f : α → ι → EStateM E S α} (h : ∀ a i, Preserves I (f a i)) :
    ∀ (is : List ι) (a : α), Preserves I (is.foldlM f a)
  | [], a => Preserves.pure a
  | i :: is, a => by
    rw [List.foldlM_cons]
    exact Preserves.bind (h a i) fun b => Preserves.foldlM h is b

theorem Preserves.mapM {ι : Type} {f : ι → EStateM E S α} (h : ∀ i, Preserves I (f i)) :
    ∀ is : List ι, Preserves I (is.mapM f)
  | [] => by
    rw [List.mapM_nil]
    exact Preserves.pure _
  | i :: is => by
    rw [List.mapM_cons]
    exact Preserves.bind (h i) fun _ => Preserves.bind (Preserves.mapM h is) fun _ => Preserves.pure _

end Preserves

/-! ### What a method can throw -/

/-- What the method throws meets `P`. -/
def Throws (P : E → Prop) (m : EStateM E S α) : Prop := ∀ s e s', m s = .error e s' → P e

section Throws

variable {P : E → Prop}

theorem Throws.pure (a : α) : Throws P (Pure.pure a : EStateM E S α) := fun _ _ _ h => by cases h

theorem Throws.throw {e : E} (h : P e) : Throws P (throw e : EStateM E S α) := fun _ _ _ he => by
  cases he
  exact h

theorem Throws.assign (f : S → S) : Throws P (modify f : EStateM E S PUnit) := fun _ _ _ h => by cases h

theorem Throws.get_bind {f : S → EStateM E S β} (h : ∀ s, Throws P (f s)) :
    Throws P ((get : EStateM E S S) >>= f) := fun s e s' he => h s s e s' he

theorem Throws.bind {m : EStateM E S α} {f : α → EStateM E S β} (h : Throws P m) (hf : ∀ a, Throws P (f a)) :
    Throws P (m >>= f) := by
  intro s e s' he
  rw [bind_run] at he
  cases hm : m s with
  | ok a t =>
    rw [hm] at he
    exact hf a t e s' he
  | error e' t =>
    rw [hm] at he
    cases he
    exact h s _ _ hm

theorem Throws.ite {c : Prop} [Decidable c] {m n : EStateM E S α} (h : Throws P m) (h' : Throws P n) :
    Throws P (if c then m else n) := by
  split
  · exact h
  · exact h'

theorem Throws.forM {ι : Type} {f : ι → EStateM E S PUnit} (h : ∀ i, Throws P (f i)) :
    ∀ is : List ι, Throws P (forM is f)
  | [] => Throws.pure _
  | i :: is => by
    rw [List.forM_cons]
    exact Throws.bind (h i) fun _ => Throws.forM h is

end Throws

/-- From a state that meets `I` the method returns, in a state that meets `I`
again and is related by `G` to the one before. -/
def Keeps (I : S → Prop) (G : S → S → Prop) (m : EStateM E S PUnit) : Prop :=
  ∀ s, I s → ∃ s', m s = .ok ⟨⟩ s' ∧ I s' ∧ G s s'

section Keeps

variable {I : S → Prop} {G : S → S → Prop}

theorem Keeps.weaken {m : EStateM E S PUnit} (h : Keeps I G m) {G' : S → S → Prop}
    (hw : ∀ s s', G s s' → G' s s') : Keeps I G' m := by
  intro s hs
  obtain ⟨s', hm, hs', hg⟩ := h s hs
  exact ⟨s', hm, hs', hw s s' hg⟩

theorem Keeps.pure (hr : ∀ s, G s s) : Keeps (E := E) I G (Pure.pure ⟨⟩) :=
  fun s h => ⟨s, rfl, h, hr s⟩

variable (ht : ∀ a b c, G a b → G b c → G a c)
include ht

theorem Keeps.bind {m : EStateM E S PUnit} {f : PUnit → EStateM E S PUnit} (h : Keeps I G m)
    (hf : Keeps I G (f ⟨⟩)) : Keeps I G (m >>= f) := by
  intro s hs
  obtain ⟨s', hm, hs', hg⟩ := h s hs
  obtain ⟨s'', hm', hs'', hg'⟩ := hf s' hs'
  exact ⟨s'', by rw [bind_of_ok hm, hm'], hs'', ht _ _ _ hg hg'⟩

theorem Keeps.forM (hr : ∀ s, G s s) {ι : Type} {f : ι → EStateM E S PUnit} :
    ∀ is : List ι, (∀ i ∈ is, Keeps I G (f i)) → Keeps I G (forM is f)
  | [], _ => Keeps.pure hr
  | i :: is, h => by
    rw [List.forM_cons]
    exact Keeps.bind ht (h i (by simp)) (Keeps.forM hr is fun j hj => h j (List.mem_cons_of_mem _ hj))

end Keeps

end Effect
end PGCon
