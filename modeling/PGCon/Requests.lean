/-
# Requests for a slot

A slot is asked for again and again, each time for a direction and until a time,
and given up in between. What is to be kept of the requests since it was last
given up is the direction of the last one and an expiry: the latest time asked
for, over the longest suffix of requests that name one direction. A request for
the direction in force moves the expiry to the maximum, any other one replaces it
(`expiry_append_same`, `expiry_append_new`).

A loop over the slots gives up those that are due. Each turn looks only at its own
slot, so what the loop comes to can be said slot by slot (`foldl_due`).
`Alternates` is for the calls a slot leads to: switched on and off in turn.
-/
import Mathlib

namespace PGCon
namespace Requests

/-! ### Expiries -/

section Expiry

variable {D T : Type*} [DecidableEq D] [LinearOrder T] [Zero T]

/-- The latest of some times, 0 if there are none. -/
def latest : List T → T
  | [] => 0
  | e :: es => es.foldl max e

/-- The direction the last request names. -/
def direction (l : List (D × T)) : Option D := l.getLast?.map Prod.fst

/-- The longest suffix of requests that name one direction. -/
def lastRun (l : List (D × T)) : List (D × T) :=
  match direction l with
  | none => []
  | some d => l.rtakeWhile fun r => r.1 = d

/-- The latest time asked for in that suffix. -/
def expiry (l : List (D × T)) : T := latest ((lastRun l).map Prod.snd)

theorem latest_append {l : List T} (h : l ≠ []) (e : T) : latest (l ++ [e]) = max (latest l) e := by
  obtain ⟨x, l, rfl⟩ := List.exists_cons_of_ne_nil h
  rw [List.cons_append, latest, latest, List.foldl_append]
  rfl

omit [Zero T] in
theorem foldl_max_mem (l : List T) (x : T) : l.foldl max x ∈ x :: l := by
  induction l generalizing x with
  | nil => exact List.mem_singleton_self x
  | cons y l ih =>
    rcases List.mem_cons.mp (ih (max x y)) with h | h
    · rw [List.foldl_cons, h]
      rcases max_choice x y with hm | hm <;> rw [hm] <;> simp
    · exact List.mem_cons_of_mem _ (List.mem_cons_of_mem _ h)

theorem latest_mem {l : List T} (h : l ≠ []) : latest l ∈ l := by
  obtain ⟨x, l, rfl⟩ := List.exists_cons_of_ne_nil h
  exact foldl_max_mem l x

omit [DecidableEq D] [LinearOrder T] [Zero T] in
theorem direction_append (l : List (D × T)) (r : D × T) : direction (l ++ [r]) = some r.1 := by
  rw [direction, List.getLast?_concat, Option.map_some]

omit [DecidableEq D] [LinearOrder T] [Zero T] in
theorem direction_eq_none {l : List (D × T)} : direction l = none ↔ l = [] := by
  rw [direction, Option.map_eq_none_iff, List.getLast?_eq_none_iff]

omit [DecidableEq D] [LinearOrder T] [Zero T] in
theorem mem_of_direction {l : List (D × T)} {d : D} (h : direction l = some d) : ∃ r ∈ l, r.1 = d := by
  obtain ⟨r, hr, hd⟩ := Option.map_eq_some_iff.mp h
  exact ⟨r, List.mem_of_getLast? hr, hd⟩

omit [LinearOrder T] [Zero T] in
theorem lastRun_append (l : List (D × T)) (r : D × T) :
    lastRun (l ++ [r]) = (if direction l = some r.1 then lastRun l else []) ++ [r] := by
  have hrun : lastRun (l ++ [r]) = l.rtakeWhile (fun x => x.1 = r.1) ++ [r] := by
    rw [lastRun, direction_append]
    exact List.rtakeWhile_concat_pos _ _ _ (decide_eq_true rfl)
  rw [hrun]
  congr 1
  split
  · rename_i hd
    rw [lastRun, hd]
  · rename_i hd
    -- the last request names another direction, or there is none
    rcases List.eq_nil_or_concat l with rfl | ⟨l, x, rfl⟩
    · rfl
    · rw [List.concat_eq_append, direction_append] at hd
      rw [List.concat_eq_append]
      exact List.rtakeWhile_concat_neg _ _ _ (by simpa using fun he => hd (congrArg some he))

omit [LinearOrder T] [Zero T] in
theorem lastRun_eq_nil {l : List (D × T)} : lastRun l = [] ↔ l = [] := by
  rcases List.eq_nil_or_concat l with rfl | ⟨l, x, rfl⟩
  · exact iff_of_true rfl rfl
  · rw [List.concat_eq_append, lastRun_append]
    exact iff_of_false (by simp) (by simp)

omit [LinearOrder T] [Zero T] in
theorem mem_of_mem_lastRun {l : List (D × T)} {r : D × T} (h : r ∈ lastRun l) : r ∈ l := by
  unfold lastRun at h
  split at h
  · cases h
  · exact (List.rtakeWhile_suffix _ _).mem h

omit [LinearOrder T] [Zero T] in
/-- If all requests name one direction, none is left out. -/
theorem lastRun_of_one {l : List (D × T)} {d : D} (h : ∀ r ∈ l, r.1 = d) : lastRun l = l := by
  induction l using List.reverseRecOn with
  | nil => rfl
  | append_singleton l r ih =>
    have hr : r.1 = d := h r (by simp)
    have ih := ih fun x hx => h x (List.mem_append_left _ hx)
    rw [lastRun_append, ih]
    congr 1
    split
    · rfl
    · rename_i hd
      rcases List.eq_nil_or_concat l with rfl | ⟨l, x, rfl⟩
      · rfl
      · rw [List.concat_eq_append, direction_append, hr, h x (by simp)] at hd
        exact absurd rfl hd

/-- A request for the direction in force. -/
theorem expiry_append_same {l : List (D × T)} {d : D} (h : direction l = some d) (e : T) :
    expiry (l ++ [(d, e)]) = max (expiry l) e := by
  have hne : (lastRun l).map Prod.snd ≠ [] := by
    rw [ne_eq, List.map_eq_nil_iff, lastRun_eq_nil, ← direction_eq_none, h]
    nofun
  rw [expiry, lastRun_append, if_pos h, List.map_append]
  exact latest_append hne e

/-- The first request, or one for another direction. -/
theorem expiry_append_new {l : List (D × T)} {d : D} (h : direction l ≠ some d) (e : T) :
    expiry (l ++ [(d, e)]) = e := by
  rw [expiry, lastRun_append, if_neg h]
  rfl

/-- What a slot keeps of its requests, none of them until 0. -/
structure Kept (l : List (D × T)) (e : T) : Prop where
  expiry_eq : e = expiry l
  nonzero : ∀ r ∈ l, r.2 ≠ 0

theorem Kept.nil : Kept ([] : List (D × T)) 0 := ⟨rfl, nofun⟩

theorem Kept.eq_zero_iff {l : List (D × T)} {e : T} (h : Kept l e) : e = 0 ↔ l = [] := by
  constructor
  · intro he
    by_contra hne
    have hmem : expiry l ∈ (lastRun l).map Prod.snd :=
      latest_mem (by rwa [ne_eq, List.map_eq_nil_iff, lastRun_eq_nil])
    obtain ⟨r, hr, hre⟩ := List.mem_map.mp hmem
    exact h.nonzero r (mem_of_mem_lastRun hr) (hre.trans (h.expiry_eq.symm.trans he))
  · rintro rfl
    exact h.expiry_eq

theorem Kept.direction_isSome {l : List (D × T)} {e : T} (h : Kept l e) (he : e ≠ 0) : ∃ d, direction l = some d := by
  rw [← Option.ne_none_iff_exists', ne_eq, direction_eq_none, ← h.eq_zero_iff]
  exact he

theorem Kept.append {l : List (D × T)} {e : T} (h : Kept l e) {d : D} {t e' : T} (ht : t ≠ 0)
    (he' : e' = expiry (l ++ [(d, t)])) : Kept (l ++ [(d, t)]) e' := by
  refine ⟨he', fun r hr => ?_⟩
  rcases List.mem_append.mp hr with hr | hr
  · exact h.nonzero r hr
  · rw [List.mem_singleton.mp hr]
    exact ht

theorem Kept.same {l : List (D × T)} {e : T} (h : Kept l e) {d : D} (hd : direction l = some d) {t : T}
    (ht : t ≠ 0) : Kept (l ++ [(d, t)]) (max e t) :=
  h.append ht (by rw [expiry_append_same hd, h.expiry_eq])

theorem Kept.new {l : List (D × T)} {e : T} (h : Kept l e) {d : D} (hd : direction l ≠ some d) {t : T}
    (ht : t ≠ 0) : Kept (l ++ [(d, t)]) t :=
  h.append ht (expiry_append_new hd t).symm

end Expiry

/-! ### What is due -/

section Due

variable {S K D T V : Type*} [DecidableEq K] [DecidableEq D] [LinearOrder T] [Zero T]

/-- A time that has passed. -/
def Due (now e : T) : Prop := e ≠ 0 ∧ now ≥ e

instance (now e : T) : Decidable (Due now e) := inferInstanceAs (Decidable (e ≠ 0 ∧ now ≥ e))

theorem released_iff {now e e' : T} (h : e' = if Due now e then 0 else e) : e ≠ 0 ∧ e' = 0 ↔ Due now e := by
  rw [h]
  split
  · exact iff_of_true ⟨‹Due now e›.1, rfl⟩ ‹_›
  · exact iff_of_false (fun hz => hz.1 hz.2) ‹_›

/-- The requests for a slot that is given up if it is due. -/
theorem Kept.release {l : List (D × T)} {now e e' : T} (hk : Kept l e) (h : e' = if Due now e then 0 else e) :
    Kept (if e ≠ 0 ∧ e' = 0 then [] else l) e' := by
  rw [if_congr (released_iff h) rfl rfl, h]
  split
  · exact Kept.nil
  · exact hk

/-- A turn for the slot `a` changes no other slot. -/
theorem ite_update {e : K → T} {now : K → T} (f y : K → V) (a b : K) :
    (if Due (now a) (e a) then Function.update f a (y a) else f) b =
      if b = a ∧ Due (now b) (e b) then y b else f b := by
  by_cases hba : b = a
  · subst hba
    by_cases hdue : Due (now b) (e b)
    · rw [if_pos hdue, if_pos ⟨rfl, hdue⟩, Function.update_self]
    · rw [if_neg hdue, if_neg fun h => hdue h.2]
  · have hnot : ¬ (b = a ∧ Due (now b) (e b)) := fun h => hba h.1
    rw [if_neg hnot]
    split
    · rw [Function.update_of_ne hba]
    · rfl

/-- A loop each of whose turns gives up its slot if it is due: the times `e` go to
0, and what else is kept for a slot, `d`, to `y`. -/
theorem foldl_due {I : S → Prop} {pass : S → K → S} {e : S → K → T} {d : S → K → V} {now : K → T} {y : K → V}
    (hI : ∀ s a, I s → I (pass s a))
    (he : ∀ s, I s → ∀ a b, e (pass s a) b = if b = a ∧ Due (now b) (e s b) then 0 else e s b)
    (hd : ∀ s, I s → ∀ a b, d (pass s a) b = if b = a ∧ Due (now b) (e s b) then y b else d s b)
    (l : List K) {s : S} (hs : I s) (b : K) :
    d (l.foldl pass s) b = if b ∈ l ∧ Due (now b) (e s b) then y b else d s b := by
  induction l generalizing s with
  | nil => exact (if_neg fun h => List.not_mem_nil h.1).symm
  | cons a l ih =>
    rw [List.foldl_cons, ih (hI s a hs), he s hs, hd s hs]
    by_cases hdue : Due (now b) (e s b)
    · by_cases hba : b = a
      · have hnow : b = a ∧ Due (now b) (e s b) := ⟨hba, hdue⟩
        have hmem : b ∈ a :: l ∧ Due (now b) (e s b) := ⟨hba ▸ List.mem_cons_self, hdue⟩
        rw [if_pos hnow, if_pos hnow, if_pos hmem, ite_self]
      · simp [hba]
    · simp [hdue]

/-- The same loop, if each turn that gives up its slot adds an entry to a log, where
one is kept. -/
theorem foldl_due_log {I : S → Prop} {pass : S → K → S} {e : S → K → T} {now : K → T} {p : S → Option (List V)}
    {entry : K → V} (hI : ∀ s a, I s → I (pass s a))
    (he : ∀ s, I s → ∀ a b, e (pass s a) b = if b = a ∧ Due (now b) (e s b) then 0 else e s b)
    (hp : ∀ s, I s → ∀ a, p (pass s a) = if Due (now a) (e s a) then (p s).map (· ++ [entry a]) else p s)
    {l : List K} (hl : l.Nodup) {s : S} (hs : I s) :
    p (l.foldl pass s) = (p s).map (· ++ (l.filter fun b => Due (now b) (e s b)).map entry) := by
  induction l generalizing s with
  | nil => simp
  | cons a l ih =>
    obtain ⟨ha, hl⟩ := List.nodup_cons.mp hl
    -- the slots still to come are as they were
    have hsame : (l.filter fun b => Due (now b) (e (pass s a) b)) = l.filter fun b => Due (now b) (e s b) := by
      refine List.filter_congr fun b hb => ?_
      have hne : b ≠ a := fun hba => ha (hba ▸ hb)
      rw [he s hs, if_neg fun h => hne h.1]
    rw [List.foldl_cons, ih hl (hI s a hs), hsame, hp s hs]
    by_cases hdue : Due (now a) (e s a)
    · rw [if_pos hdue, List.filter_cons_of_pos (by simpa using hdue), Option.map_map]
      congr 1
      funext log
      simp
    · rw [if_neg hdue, List.filter_cons_of_neg (by simpa using hdue)]

end Due

/-! ### On and off in turn -/

section Alternation

variable {α : Type*} {on off : α} {l : List α}

/-- `on`, `off`, `on` and so forth, from the start. -/
def Alternates (on off : α) (l : List α) : Prop :=
  ∀ i x, l[i]? = some x → x = if i % 2 = 0 then on else off

theorem Alternates.nil : Alternates on off [] := fun i x h => by simp at h

theorem Alternates.append (h : Alternates on off l) {x : α} (hx : x = if l.length % 2 = 0 then on else off) :
    Alternates on off (l ++ [x]) := by
  intro i y hy
  rcases Nat.lt_trichotomy i l.length with hi | hi | hi
  · rw [List.getElem?_append_left hi] at hy
    exact h i y hy
  · rw [hi, List.getElem?_concat_length] at hy
    rw [hi, ← Option.some.inj hy, hx]
  · rw [List.getElem?_eq_none (by simp; omega)] at hy
    cases hy

end Alternation

end Requests
end PGCon
