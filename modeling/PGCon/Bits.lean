/-
# Bits of a stream

A number is sent as its low bits, most significant first: `bits k x`. The bits
of a number are those of its upper part followed by those of its lower part
(`bits_add`), so a stream of words of one width can be read as a stream of words
of another: what matters is the concatenation. `groups` cuts a stream into words
again, and `ofBits` reads them.
-/
import Mathlib

namespace PGCon
namespace Bits

/-- The low `k` bits of `x`, most significant first. -/
def bits : ℕ → ℕ → List Bool
  | 0, _ => []
  | k + 1, x => x.testBit k :: bits k x

@[simp] theorem length_bits : ∀ k x : ℕ, (bits k x).length = k
  | 0, _ => rfl
  | k + 1, x => by simp [bits, length_bits k x]

/-- The upper bits come first. -/
theorem bits_add (a b x : ℕ) : bits (a + b) x = bits a (x >>> b) ++ bits b x := by
  induction a with
  | zero => simp [bits]
  | succ a ih =>
    have hab : a + 1 + b = a + b + 1 := by omega
    have htop : (x >>> b).testBit a = x.testBit (a + b) := by
      rw [Nat.testBit_shiftRight, Nat.add_comm]
    rw [hab, bits, bits, ih, htop, List.cons_append]

/-- Only the low bits count. -/
theorem bits_congr {k x y : ℕ} (h : ∀ i < k, x.testBit i = y.testBit i) : bits k x = bits k y := by
  induction k with
  | zero => rfl
  | succ k ih => rw [bits, bits, h k (Nat.lt_succ_self k), ih fun i hi => h i (by omega)]

theorem bits_mod (k x : ℕ) : bits k (x % 2 ^ k) = bits k x := by
  refine bits_congr fun i hi => ?_
  rw [Nat.testBit_mod_two_pow, decide_eq_true hi, Bool.true_and]

/-- A number put behind another. -/
theorem bits_append {a b x y : ℕ} (hy : y < 2 ^ b) : bits (a + b) (x * 2 ^ b + y) = bits a x ++ bits b y := by
  have hdiv : (x * 2 ^ b + y) >>> b = x := by
    rw [Nat.shiftRight_eq_div_pow, Nat.mul_comm, Nat.mul_add_div (Nat.two_pow_pos b), Nat.div_eq_of_lt hy,
      Nat.add_zero]
  have hmod : (x * 2 ^ b + y) % 2 ^ b = y := by
    rw [Nat.mul_comm, Nat.mul_add_mod, Nat.mod_eq_of_lt hy]
  rw [bits_add, hdiv, ← bits_mod b (x * 2 ^ b + y), hmod]

/-! ### Reading a stream -/

/-- The number whose bits these are. -/
def ofBits (bs : List Bool) : ℕ := bs.foldl (fun v b => 2 * v + b.toNat) 0

theorem foldl_bits (k x v : ℕ) :
    (bits k x).foldl (fun v b => 2 * v + b.toNat) v = v * 2 ^ k + x % 2 ^ k := by
  induction k generalizing v with
  | zero => simp [bits, Nat.mod_one]
  | succ k ih =>
    rw [bits, List.foldl_cons, ih, Nat.mod_pow_succ, Nat.toNat_testBit]
    ring

theorem ofBits_bits (k x : ℕ) : ofBits (bits k x) = x % 2 ^ k := by
  rw [ofBits, foldl_bits, Nat.zero_mul, Nat.zero_add]

section Groups

variable {α β : Type*}

/-- The first `n` words of width `w`. -/
def groups (w : ℕ) : ℕ → List α → List (List α)
  | 0, _ => []
  | n + 1, l => l.take w :: groups w n (l.drop w)

/-- Words of one width, concatenated, are told apart again. -/
theorem groups_flatMap {w : ℕ} {f : β → List α} (hf : ∀ x, (f x).length = w) :
    ∀ xs : List β, groups w xs.length (xs.flatMap f) = xs.map f
  | [] => rfl
  | x :: xs => by
    have htake : (f x ++ xs.flatMap f).take w = f x := List.take_left' (hf x)
    have hdrop : (f x ++ xs.flatMap f).drop w = xs.flatMap f := List.drop_left' (hf x)
    rw [List.flatMap_cons, List.length_cons, groups, htake, hdrop, groups_flatMap hf xs, List.map_cons]

theorem length_flatMap {w : ℕ} {f : β → List α} (hf : ∀ x, (f x).length = w) (xs : List β) :
    (xs.flatMap f).length = w * xs.length := by
  induction xs with
  | nil => simp
  | cons x xs ih =>
    rw [List.flatMap_cons, List.length_append, ih, hf, List.length_cons]
    ring

end Groups

end Bits
end PGCon
