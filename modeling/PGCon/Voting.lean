/-
# First past the post

Votes come in one after the other, some of them spoilt. The election is over at
the first vote at which some candidate has got `count` votes so far, and then that
vote was for the candidate elected (`elects_iff`). With `k` candidates it is over
after at most `k * (count - 1) + 1` votes that are not spoilt (`turnout_le`).
-/
import Mathlib

namespace PGCon
namespace Voting

variable {K : Type*} [DecidableEq K] (votes : ℕ → Option K)

/-- The votes for `k` among the first `n`. -/
def tally (n : ℕ) (k : K) : ℕ := Nat.count (fun i => votes i = some k) n

/-- The votes among the first `n` that are not spoilt. -/
def turnout (n : ℕ) : ℕ := Nat.count (fun i => (votes i).isSome = true) n

/-- After vote `n` some candidate has `count` votes. -/
def Elects (count n : ℕ) : Prop := ∃ k, count ≤ tally votes (n + 1) k

variable {votes}

@[simp] theorem tally_zero (k : K) : tally votes 0 k = 0 := Nat.count_zero _

theorem tally_succ (n : ℕ) (k : K) : tally votes (n + 1) k = tally votes n k + if votes n = some k then 1 else 0 :=
  Nat.count_succ ..

theorem tally_succ_of_eq {n : ℕ} {k : K} (h : votes n = some k) : tally votes (n + 1) k = tally votes n k + 1 := by
  rw [tally_succ, if_pos h]

theorem tally_succ_of_ne {n : ℕ} {k : K} (h : votes n ≠ some k) : tally votes (n + 1) k = tally votes n k := by
  rw [tally_succ, if_neg h, Nat.add_zero]

/-- With no election so far, nobody has `count` votes. -/
theorem tally_lt {count n : ℕ} (hcount : 1 ≤ count) (h : ∀ i < n, ¬ Elects votes count i) (k : K) :
    tally votes n k < count := by
  cases n with
  | zero =>
    rw [tally_zero]
    omega
  | succ n =>
    by_contra hk
    exact h n (Nat.lt_succ_self n) ⟨k, not_lt.mp hk⟩

/-- The vote that decides the election is one for the candidate elected. -/
theorem elects_iff {count n : ℕ} (hcount : 1 ≤ count) (h : ∀ i < n, ¬ Elects votes count i) :
    Elects votes count n ↔ ∃ k, votes n = some k ∧ tally votes n k + 1 = count := by
  constructor
  · rintro ⟨k, hk⟩
    have hlt := tally_lt hcount h k
    by_cases hv : votes n = some k
    · rw [tally_succ_of_eq hv] at hk
      exact ⟨k, hv, by omega⟩
    · rw [tally_succ_of_ne hv] at hk
      omega
  · rintro ⟨k, hv, hk⟩
    exact ⟨k, by rw [tally_succ_of_eq hv, hk]⟩

/-- The turnout is the sum of the tallies. -/
theorem turnout_eq_sum {candidates : Finset K} (h : ∀ i k, votes i = some k → k ∈ candidates) (n : ℕ) :
    turnout votes n = ∑ k ∈ candidates, tally votes n k := by
  induction n with
  | zero => simp [turnout]
  | succ n ih =>
    have hone : (if (votes n).isSome = true then 1 else 0) =
        ∑ k ∈ candidates, if votes n = some k then 1 else 0 := by
      cases hv : votes n with
      | none => simp
      | some v => simp [h n v hv]
    rw [turnout, Nat.count_succ, ← turnout, ih, hone, ← Finset.sum_add_distrib]
    exact Finset.sum_congr rfl fun k _ => (tally_succ n k).symm

/-- With no election among the first `n` votes, not more than this many of the first
`n + 1` count. -/
theorem turnout_le {count n : ℕ} (hcount : 1 ≤ count) {candidates : Finset K}
    (hmem : ∀ i k, votes i = some k → k ∈ candidates) (h : ∀ i < n, ¬ Elects votes count i) :
    turnout votes (n + 1) ≤ candidates.card * (count - 1) + 1 := by
  have hsum : ∑ k ∈ candidates, tally votes n k ≤ candidates.card * (count - 1) := by
    rw [← smul_eq_mul]
    refine Finset.sum_le_card_nsmul _ _ _ fun k _ => ?_
    have := tally_lt hcount h k
    omega
  rw [turnout, Nat.count_succ, ← turnout, turnout_eq_sum hmem]
  split <;> omega

end Voting
end PGCon
