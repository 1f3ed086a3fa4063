/-
# Maps written by puts

What a map holds that was empty and had some entries put into it, one after the other:
under each key the value of the last entry with that key (`written_eq_some_iff`).
-/
import Mathlib

namespace PGCon
namespace Puts

variable {K V : Type*} [DecidableEq K]

def put (m : K → Option V) (entry : K × V) : K → Option V := Function.update m entry.1 (some entry.2)

/-- The map after some puts. -/
def written (entries : List (K × V)) : K → Option V := entries.foldl put fun _ => none

theorem written_snoc (entries : List (K × V)) (entry : K × V) :
    written (entries ++ [entry]) = put (written entries) entry := by
  rw [written, List.foldl_append]
  rfl

/-- The value of the last entry with the key. -/
theorem written_eq_some_iff {entries : List (K × V)} {k : K} {v : V} : written entries k = some v ↔
    ∃ before after, entries = before ++ (k, v) :: after ∧ ∀ entry ∈ after, entry.1 ≠ k := by
  induction entries using List.reverseRecOn with
  | nil => simp [written]
  | append_singleton entries entry ih =>
    obtain ⟨k', v'⟩ := entry
    rw [written_snoc]
    constructor
    · intro h
      rcases eq_or_ne k k' with rfl | hk
      · rw [put, Function.update_self] at h
        obtain rfl := Option.some.inj h
        exact ⟨entries, [], rfl, List.forall_mem_nil _⟩
      · rw [put, Function.update_of_ne hk] at h
        obtain ⟨before, after, rfl, hafter⟩ := ih.mp h
        refine ⟨before, after ++ [(k', v')], by simp, ?_⟩
        simpa [or_imp, forall_and, hk.symm] using hafter
    · rintro ⟨before, after, heq, hafter⟩
      rcases List.eq_nil_or_concat after with rfl | ⟨after', last, rfl⟩
      · obtain ⟨-, hlast⟩ := List.append_inj' heq rfl
        obtain ⟨rfl, rfl⟩ := Prod.mk.inj (List.singleton_inj.mp hlast)
        rw [put, Function.update_self]
      · rw [List.concat_eq_append] at heq hafter
        rw [← List.cons_append, ← List.append_assoc] at heq
        obtain ⟨rfl, hlast⟩ := List.append_inj' heq rfl
        obtain rfl := List.singleton_inj.mp hlast
        have hk : k ≠ k' := (hafter _ (List.mem_append_right _ (List.mem_singleton_self _))).symm
        rw [put, Function.update_of_ne hk]
        exact ih.mpr ⟨before, after', rfl, fun entry he => hafter entry (List.mem_append_left _ he)⟩

theorem mem_of_written {entries : List (K × V)} {k : K} {v : V} (h : written entries k = some v) :
    (k, v) ∈ entries := by
  obtain ⟨before, after, rfl, -⟩ := written_eq_some_iff.mp h
  simp

end Puts
end PGCon
