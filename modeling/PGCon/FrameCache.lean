/-
# New frames

`FrameCacheService`: one thread sets frames, others wait in `getNewFrame` for the next
one. The frame a call returns was set after the call began, and the frames one thread
gets are a subsequence of the frames set: in their order, none twice
(`new_frames`). So does the screen, which shows what the thread `RENDER_SCREEN` gets.

`getNewFrame` does not test what it waits for; a `wait` that returns by itself would
hand out the old frame again, or `null`. The result is about waits that do not.
-/
import PGCon.Monitor

namespace PGCon
namespace FrameCache

open Machine Monitor

/-- `CachedFrame`: an image and the time it was handed over. -/
structure CachedFrame (I : Type) where
  image : I
  timestamp : ℤ
  deriving DecidableEq, Repr

variable {T I : Type}

/-- `setFrame`, its synchronized part, and `getNewFrame`. The object is the frames set so
far; `cachedFrame` is the last of them. -/
def service (I : Type) : Object (List (CachedFrame I)) (CachedFrame I) Unit (Option (CachedFrame I)) where
  change cachedFrame frames := frames ++ [cachedFrame]
  leave _ frames := some (frames.getLast?, frames)

/-- The frames a thread got, in order. -/
def got [DecidableEq T] (t : T) (s : State T (List (CachedFrame I)) (Option (CachedFrame I))) : List (CachedFrame I) :=
  (s.turns.filter (·.thread = t)).filterMap (·.result)

variable [DecidableEq T] {s s' : State T (List (CachedFrame I)) (Option (CachedFrame I))}

/-- Every notification set a frame; a result is one set after the call began; what a
thread got lies, in order, among the frames set before its present call. -/
structure FrameInv (s : State T (List (CachedFrame I)) (Option (CachedFrame I))) : Prop extends Inv s where
  count : s.notifications = s.object.length
  result : ∀ turn ∈ s.turns, ∃ i frame, turn.entered ≤ i ∧ turn.result = some frame ∧ s.object[i]? = some frame
  order : ∀ t, ∃ n, (got t s).Sublist (s.object.take n) ∧ (s.phase t ≠ .outside → n ≤ s.entered t)

theorem frameInv_init : FrameInv (State.init [] : State T (List (CachedFrame I)) (Option (CachedFrame I))) :=
  ⟨inv_init [], rfl, by simp [State.init], fun t => ⟨0, by simp [got, State.init], by simp [State.init]⟩⟩

theorem FrameInv.enter (h : FrameInv s) {t : T} (hs : step (service I) s (.enter t) = some s') : FrameInv s' := by
  have hinv := h.toInv.enter hs
  simp only [step, Option.ite_none_right_eq_some, Option.some.injEq] at hs
  obtain ⟨-, rfl⟩ := hs
  refine ⟨hinv, h.count, h.result, fun u => ?_⟩
  by_cases hu : u = t
  · -- the call is as new as the newest frame
    subst hu
    obtain ⟨n, hgot, -⟩ := h.order u
    refine ⟨s.notifications, ?_, by simp⟩
    rw [h.count, List.take_length]
    exact hgot.trans (List.take_sublist n _)
  · obtain ⟨n, hgot, hn⟩ := h.order u
    exact ⟨n, hgot, by simpa [Function.update_of_ne hu] using hn⟩

theorem FrameInv.change (h : FrameInv s) {frame : CachedFrame I}
    (hs : step (service I) s (.change frame) = some s') : FrameInv s' := by
  have hinv := h.toInv.change hs
  obtain rfl := Option.some.inj hs
  refine ⟨hinv, ?_, fun turn hturn => ?_, fun t => ?_⟩ <;> dsimp only [service]
  · rw [List.length_append, h.count]
    rfl
  · obtain ⟨i, f, hi, hresult, hf⟩ := h.result turn hturn
    exact ⟨i, f, hi, hresult, List.getElem?_append_left (List.getElem?_eq_some_iff.mp hf).1 ▸ hf⟩
  · obtain ⟨n, hgot, hn⟩ := h.order t
    refine ⟨min n s.object.length, ?_, fun hphase => ?_⟩
    · rw [List.take_append_of_le_length (min_le_right _ _), ← List.take_take, List.take_length]
      exact hgot
    · refine (min_le_left _ _).trans (hn fun hout => hphase ?_)
      rw [hout]
      rfl

theorem FrameInv.leave (h : FrameInv s) {t : T} (hs : step (service I) s (.leave t ()) = some s') :
    FrameInv s' := by
  have hinv := h.toInv.leave hs
  simp only [step, service, Option.ite_none_right_eq_some, Option.map_some, Option.some.injEq] at hs
  obtain ⟨hphase, rfl⟩ := hs
  have hlt : s.entered t < s.object.length := h.count ▸ h.notified t hphase
  have hlast : s.object.getLast? = s.object[s.object.length - 1]? := List.getLast?_eq_getElem?
  obtain ⟨frame, hframe⟩ : ∃ frame, s.object[s.object.length - 1]? = some frame :=
    ⟨_, List.getElem?_eq_getElem (show s.object.length - 1 < s.object.length by omega)⟩
  have hobject : s.object.take (s.object.length - 1) ++ [frame] = s.object := by
    have htake := List.take_add_one (l := s.object) (i := s.object.length - 1)
    rw [hframe, Nat.sub_add_cancel (by omega), List.take_length] at htake
    exact htake.symm
  refine ⟨hinv, h.count, fun turn hturn => ?_, fun u => ?_⟩ <;> dsimp only
  · rcases List.mem_append.mp hturn with hturn | hturn
    · exact h.result turn hturn
    · rw [List.mem_singleton.mp hturn]
      exact ⟨s.object.length - 1, frame, Nat.le_sub_one_of_lt hlt, hlast.trans hframe, hframe⟩
  · obtain ⟨n, hgot, hn⟩ := h.order u
    by_cases hu : u = t
    · -- what came before lies among the frames set before the call began
      subst hu
      have hle : n ≤ s.object.length - 1 := by
        have := hn (by rw [hphase]; decide)
        omega
      have hbefore : (s.object.take n).Sublist (s.object.take (s.object.length - 1)) := by
        rw [← min_eq_left hle, ← List.take_take]
        exact List.take_sublist _ _
      refine ⟨s.object.length, ?_, by simp⟩
      rw [List.take_length]
      have hnew : (got u s ++ [frame]).Sublist s.object :=
        hobject ▸ (hgot.trans hbefore).append (List.Sublist.refl _)
      simpa [got, List.filter_append, hlast, hframe] using hnew
    · have hother : (t = u) = False := eq_false fun he => hu he.symm
      refine ⟨n, ?_, by simpa [Function.update_of_ne hu] using hn⟩
      simpa [got, List.filter_append, hother] using hgot

theorem frameInv_step {a : Action T (CachedFrame I) Unit} (h : FrameInv s) (ha : faithful s a)
    (hs : step (service I) s a = some s') : FrameInv s' := by
  cases a with
  | enter t => exact h.enter hs
  | change frame => exact h.change hs
  | leave t b => exact h.leave hs
  | spurious t => exact ha.elim

/-- The frame a call of `getNewFrame` returns was set after the call began; the frames a
thread gets are a subsequence of the frames set. -/
theorem new_frames (h : Reach (step (service I)) faithful (State.init []) s) :
    (∀ turn ∈ s.turns, ∃ i frame, turn.entered ≤ i ∧ turn.result = some frame ∧ s.object[i]? = some frame) ∧
      ∀ t, (got t s).Sublist s.object := by
  have hinv : FrameInv s := h.invariant frameInv_init fun _ _ _ hi ha hs => frameInv_step hi ha hs
  refine ⟨hinv.result, fun t => ?_⟩
  obtain ⟨n, hgot, -⟩ := hinv.order t
  exact hgot.trans (List.take_sublist n _)

/-- A thread comes in after a frame was set, and gets the next one. -/
theorem new_frames_second : ∃ s : State Bool (List (CachedFrame ℕ)) (Option (CachedFrame ℕ)),
    s.turns = [⟨true, 1, 2, some ⟨8, 20⟩⟩] ∧
    (∀ turn ∈ s.turns, ∃ i frame, turn.entered ≤ i ∧ turn.result = some frame ∧ s.object[i]? = some frame) ∧
      ∀ t, (got t s).Sublist s.object :=
  ⟨_, rfl, new_frames (.step (.leave true ()) (.step (.change (CachedFrame.mk 8 20)) (.step (.enter true)
    (.step (.change (CachedFrame.mk 7 10)) .start trivial rfl) trivial rfl) trivial rfl) trivial rfl)⟩

end FrameCache
end PGCon
