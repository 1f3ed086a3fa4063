/-
# Machine words

Compound assignments on narrow machine words, as C and Java evaluate them:
the operands widen (by sign in Java, by zero for unsigned C types), the
operator works at the wide width, and the result narrows back. On the bits
that are kept the widening never shows (`orAssign_eq`, `andNotAssign_eq`,
`andMask_eq`).

A word made of two halves (`hi ++ lo`) takes `|||` and `&&&` half by half, so
an update of one half is an update of the whole (`append_or_left` and its
companions). A word of several lanes is filled from behind (`lane_foldl_putBehind`).
`Flags.set` and `Flags.clear` say which bits of a word stand after
one of a family of disjoint masks is set or cleared.
-/
import Mathlib

namespace PGCon
namespace Word

variable {v w : ℕ}

/-! ### Compound assignments -/

/-- `x |= c` on a signed `v`-bit variable in `w`-bit arithmetic. -/
def orAssign (w : ℕ) (x c : BitVec v) : BitVec v :=
  (x.signExtend w ||| c.signExtend w).setWidth v

/-- `x &= ~c` on a signed `v`-bit variable in `w`-bit arithmetic. -/
def andNotAssign (w : ℕ) (x c : BitVec v) : BitVec v :=
  (x.signExtend w &&& ~~~(c.signExtend w)).setWidth v

/-- `x &= m` on an unsigned `v`-bit variable with a `w`-bit mask. -/
def andMask (x : BitVec v) (m : BitVec w) : BitVec v :=
  (x.setWidth w &&& m).setWidth v

theorem setWidth_signExtend (h : v ≤ w) (x : BitVec v) : (x.signExtend w).setWidth v = x := by
  ext i hi
  rw [BitVec.getElem_setWidth, BitVec.getLsbD_signExtend, if_pos hi]
  have : i < w := by omega
  simp [this, BitVec.getLsbD_eq_getElem hi]

theorem orAssign_eq (h : v ≤ w) (x c : BitVec v) : orAssign w x c = x ||| c := by
  rw [orAssign, BitVec.setWidth_or, setWidth_signExtend h, setWidth_signExtend h]

theorem andNotAssign_eq (h : v ≤ w) (x c : BitVec v) : andNotAssign w x c = x &&& ~~~c := by
  rw [andNotAssign, BitVec.setWidth_and, BitVec.setWidth_not h, setWidth_signExtend h,
    setWidth_signExtend h]

theorem andMask_eq (h : v ≤ w) (x : BitVec v) (m : BitVec w) : andMask x m = x &&& m.setWidth v := by
  rw [andMask, BitVec.setWidth_and, BitVec.setWidth_setWidth_of_le x h, BitVec.setWidth_eq]

/-! ### Signed sums -/

/-- `a + b` for 32-bit signed integers. -/
def addInt (a b : ℤ) : ℤ := (a + b).bmod (2 ^ 32)

/-- `a * b` for 32-bit signed integers. -/
def mulInt (a b : ℤ) : ℤ := (a * b).bmod (2 ^ 32)

theorem addInt_eq {a b : ℤ} (h : -2 ^ 31 ≤ a + b) (h' : a + b < 2 ^ 31) : addInt a b = a + b :=
  Int.bmod_eq_of_le (by omega) (by omega)

theorem mulInt_eq {a b : ℤ} (h : -2 ^ 31 ≤ a * b) (h' : a * b < 2 ^ 31) : mulInt a b = a * b :=
  Int.bmod_eq_of_le (by omega) (by omega)

theorem addInt_natCast {a b : ℕ} (h : a + b < 2 ^ 31) : addInt a b = (a + b : ℕ) := by
  rw [addInt_eq (by omega) (by omega), Nat.cast_add]

theorem mulInt_natCast {a b : ℕ} (h : a * b < 2 ^ 31) : mulInt a b = (a * b : ℕ) := by
  have hcast : (a : ℤ) * b = (a * b : ℕ) := (Nat.cast_mul a b).symm
  rw [mulInt_eq (by omega) (by omega), hcast]

/-- A sum that is too large comes out negative. -/
theorem addInt_of_le {a b : ℤ} (h : 2 ^ 31 ≤ a + b) (h' : a + b < 2 ^ 32) : addInt a b = a + b - 2 ^ 32 := by
  have hshift : addInt a b = (a + b - 2 ^ 32).bmod (2 ^ 32) := by
    rw [addInt]
    exact (Int.sub_bmod_right (a + b) (2 ^ 32)).symm
  rw [hshift]
  exact Int.bmod_eq_of_le (by omega) (by omega)

/-! ### Lanes -/

/-- Lane `j` of a word: the `v` bits from bit `v * j` on. -/
def lane (v : ℕ) (x : BitVec w) (j : ℕ) : BitVec v := (x >>> (v * j)).setWidth v

/-- `x <<= v; x |= b & mask` for a signed `b` of `v` bits and their mask. -/
def putBehind (x : BitVec w) (b : BitVec v) : BitVec w :=
  x <<< v ||| (b.signExtend w &&& (BitVec.allOnes v).setWidth w)

theorem getLsbD_lane (x : BitVec w) {i j : ℕ} (hi : i < v) : (lane v x j).getLsbD i = x.getLsbD (v * j + i) := by
  simp [lane, hi]

theorem lane_shiftRight (x : BitVec w) (j : ℕ) : lane v (x >>> v) j = lane v x (j + 1) := by
  rw [lane, lane, ← BitVec.shiftRight_add, Nat.mul_succ, Nat.add_comm v]

theorem lane_zero_putBehind (h : v ≤ w) (x : BitVec w) (b : BitVec v) : lane v (putBehind x b) 0 = b := by
  refine BitVec.eq_of_getLsbD_eq fun i hi => ?_
  have hw : i < w := by omega
  have hsign : (b.signExtend w).getLsbD i = b.getLsbD i := by
    rw [BitVec.getLsbD_signExtend, if_pos hi, decide_eq_true hw, Bool.true_and]
  rw [getLsbD_lane _ hi, Nat.mul_zero, Nat.zero_add, putBehind, BitVec.getLsbD_or, BitVec.getLsbD_and, hsign]
  simp [hi, hw]

theorem lane_succ_putBehind (x : BitVec w) (b : BitVec v) {j : ℕ} (h : v * (j + 2) ≤ w) :
    lane v (putBehind x b) (j + 1) = lane v x j := by
  refine BitVec.eq_of_getLsbD_eq fun i hi => ?_
  have hmul : v * (j + 2) = v * j + v + v := by ring
  have hbit : v * (j + 1) + i = v + (v * j + i) := by ring
  have hw : v + (v * j + i) < w := by omega
  have hshift : (x <<< v).getLsbD (v + (v * j + i)) = x.getLsbD (v * j + i) := by
    rw [BitVec.getLsbD_shiftLeft, decide_eq_true hw, Nat.add_sub_cancel_left]
    simp
  have hmask : ((BitVec.allOnes v).setWidth w).getLsbD (v + (v * j + i)) = false := by
    rw [BitVec.getLsbD_setWidth, BitVec.getLsbD_of_ge _ _ (Nat.le_add_right ..), Bool.and_false]
  rw [getLsbD_lane _ hi, getLsbD_lane _ hi, hbit, putBehind, BitVec.getLsbD_or, BitVec.getLsbD_and, hshift, hmask,
    Bool.and_false, Bool.or_false]

/-- Values put one behind the other are the lanes, the last one lowest. -/
theorem lane_foldl_putBehind (l : List (BitVec v)) : v * l.length ≤ w → ∀ (x : BitVec w) (j : ℕ), j < l.length →
    lane v (l.foldl putBehind x) j = l.reverse.getD j 0 := by
  induction l using List.reverseRecOn with
  | nil =>
    intro _ _ j hj
    simp at hj
  | append_singleton l b ih =>
    intro hlen x j hj
    rw [List.length_append, List.length_singleton] at hlen hj
    rw [List.foldl_append, List.reverse_append]
    cases j with
    | zero =>
      have hle : v ≤ w := (Nat.le_mul_of_pos_right v (Nat.succ_pos _)).trans hlen
      exact lane_zero_putBehind hle _ b
    | succ j =>
      have hle : v * (j + 2) ≤ w := (Nat.mul_le_mul_left v (by omega)).trans hlen
      have hle' : v * l.length ≤ w := (Nat.mul_le_mul_left v (by omega)).trans hlen
      exact (lane_succ_putBehind _ b hle).trans (ih hle' x j (by omega))

/-! ### Words of two halves -/

theorem append_or_left (a c : BitVec v) (b : BitVec w) : (a ||| c) ++ b = (a ++ b) ||| (c ++ 0#w) := by
  apply BitVec.eq_of_getLsbD_eq
  intro i _
  simp only [BitVec.getLsbD_append, BitVec.getLsbD_or, BitVec.getLsbD_zero]
  split <;> simp

theorem append_or_right (a : BitVec v) (b c : BitVec w) : a ++ (b ||| c) = (a ++ b) ||| (0#v ++ c) := by
  apply BitVec.eq_of_getLsbD_eq
  intro i _
  simp only [BitVec.getLsbD_append, BitVec.getLsbD_or, BitVec.getLsbD_zero]
  split <;> simp

theorem append_and_left (a c : BitVec v) (b : BitVec w) :
    (a &&& ~~~c) ++ b = (a ++ b) &&& ~~~(c ++ 0#w) := by
  apply BitVec.eq_of_getLsbD_eq
  intro i hi
  simp only [BitVec.getLsbD_append, BitVec.getLsbD_and, BitVec.getLsbD_not, BitVec.getLsbD_zero, hi]
  split
  · simp
  · rename_i h
    have : i - w < v := by omega
    simp [this]

theorem append_and_right (a : BitVec v) (b c : BitVec w) :
    a ++ (b &&& ~~~c) = (a ++ b) &&& ~~~(0#v ++ c) := by
  apply BitVec.eq_of_getLsbD_eq
  intro i hi
  simp only [BitVec.getLsbD_append, BitVec.getLsbD_and, BitVec.getLsbD_not, BitVec.getLsbD_zero, hi]
  split
  · rename_i h
    simp [h]
  · simp

/-! ### Flags

A family of masks `mask k`, those of the indices in `K` pairwise disjoint. A
word stores the set of indices `held` when its bits are exactly the bits of
the masks of the indices held. -/

/-- The bits of `x` are the bits of the masks of the `K`-indices held. -/
def Flags {ι : Type*} (mask : ι → BitVec w) (K : ι → Prop) (held : ι → Bool) (x : BitVec w) : Prop :=
  ∀ i, x.getLsbD i = true ↔ ∃ k, K k ∧ held k = true ∧ (mask k).getLsbD i = true

section Flags

variable {ι : Type*} {mask : ι → BitVec w} {K : ι → Prop} {held : ι → Bool} {x : BitVec w}

theorem flags_zero : Flags mask K (fun _ => false) (0#w) := by
  intro i
  simp

/-- Setting the bits of one mask holds its index. -/
theorem Flags.set [DecidableEq ι] (h : Flags mask K held x) {k : ι} (hk : K k) :
    Flags mask K (Function.update held k true) (x ||| mask k) := by
  intro i
  rw [BitVec.getLsbD_or, Bool.or_eq_true, h i]
  constructor
  · rintro (⟨j, hj, hh, hm⟩ | hm)
    · refine ⟨j, hj, ?_, hm⟩
      by_cases e : j = k
      · simp [e]
      · simpa [Function.update_of_ne e] using hh
    · exact ⟨k, hk, by simp, hm⟩
  · rintro ⟨j, hj, hh, hm⟩
    by_cases e : j = k
    · exact Or.inr (e ▸ hm)
    · exact Or.inl ⟨j, hj, by simpa [Function.update_of_ne e] using hh, hm⟩

/-- Clearing the bits of one mask releases its index: no other mask of the
family has a bit in common with it. -/
theorem Flags.clear [DecidableEq ι] (h : Flags mask K held x) {k : ι} (hk : K k)
    (hd : ∀ j, K j → j ≠ k → mask j &&& mask k = 0#w) :
    Flags mask K (Function.update held k false) (x &&& ~~~(mask k)) := by
  intro i
  rw [BitVec.getLsbD_and, Bool.and_eq_true, h i]
  have hdis : ∀ j, K j → j ≠ k → (mask j).getLsbD i = true → (mask k).getLsbD i = false := by
    intro j hj hne hm
    have := congrArg (fun y : BitVec w => y.getLsbD i) (hd j hj hne)
    simpa [hm] using this
  constructor
  · rintro ⟨⟨j, hj, hh, hm⟩, hn⟩
    refine ⟨j, hj, ?_, hm⟩
    by_cases e : j = k
    · subst e; simp [hm] at hn
    · simpa [Function.update_of_ne e] using hh
  · rintro ⟨j, hj, hh, hm⟩
    by_cases e : j = k
    · subst e; simp at hh
    · have hw : i < w := BitVec.lt_of_getLsbD hm
      refine ⟨⟨j, hj, by simpa [Function.update_of_ne e] using hh, hm⟩, ?_⟩
      rw [BitVec.getLsbD_not, hdis j hj e hm]
      simp [hw]

/-- Two words that store the same set of indices are equal. -/
theorem Flags.unique {y : BitVec w} (hx : Flags mask K held x) (hy : Flags mask K held y) : x = y := by
  apply BitVec.eq_of_getLsbD_eq
  intro i _
  exact Bool.eq_iff_iff.mpr ((hx i).trans (hy i).symm)

theorem exists_bit_of_ne_zero {y : BitVec w} (h : y ≠ 0#w) : ∃ i, y.getLsbD i = true := by
  by_contra hn
  push Not at hn
  apply h
  apply BitVec.eq_of_getLsbD_eq
  intro i _
  simpa using hn i

/-- The bits of the mask of `k`, which are its own, tell whether `k` is held. -/
theorem Flags.masked (h : Flags mask K held x) {k : ι} (hk : K k) (h0 : mask k ≠ 0#w)
    (hd : ∀ j, K j → j ≠ k → mask j &&& mask k = 0#w) :
    x &&& mask k ≠ 0#w ↔ held k = true := by
  constructor
  · intro hne
    obtain ⟨i, hi⟩ := exists_bit_of_ne_zero hne
    rw [BitVec.getLsbD_and, Bool.and_eq_true] at hi
    obtain ⟨j, hj, hh, hm⟩ := (h i).mp hi.1
    by_cases e : j = k
    · exact e ▸ hh
    · have := congrArg (fun y : BitVec w => y.getLsbD i) (hd j hj e)
      simp [hi.2, hm] at this
  · intro hh hz
    obtain ⟨i, hi⟩ := exists_bit_of_ne_zero h0
    have hx : x.getLsbD i = true := (h i).mpr ⟨k, hk, hh, hi⟩
    have := congrArg (fun y : BitVec w => y.getLsbD i) hz
    simp [hi, hx] at this

end Flags

end Word
end PGCon
