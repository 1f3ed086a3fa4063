/-
# The edit distance

The distance of two words is the least number of edits that turn one into the other, an
edit being to insert, delete or substitute one letter (`Edit`, `Edits`,
`editDistance`). `distance` is the usual recursion on the first letters, and it is that
least number (`isLeast_distance`): it is attained, and one edit changes it by at most one
(`distance_le_of_edit`). The recursion asks for the same distances over and over;
`levenshtein` computes them row by row (`levenshtein_eq`).
-/
import Mathlib

namespace PGCon
namespace EditDistance

variable {α : Type*}

/-! ### Edits -/

/-- One word is the other with a letter inserted, deleted or substituted. -/
inductive Edit : List α → List α → Prop
  | insert (l r : List α) (x : α) : Edit (l ++ r) (l ++ x :: r)
  | delete (l r : List α) (x : α) : Edit (l ++ x :: r) (l ++ r)
  | substitute (l r : List α) (x y : α) : Edit (l ++ x :: r) (l ++ y :: r)

/-- One word is turned into the other by this many edits. -/
inductive Edits : ℕ → List α → List α → Prop
  | done (a : List α) : Edits 0 a a
  | edit {n : ℕ} {a b c : List α} : Edit a b → Edits n b c → Edits (n + 1) a c

/-- The least number of edits. -/
noncomputable def editDistance (a b : List α) : ℕ := sInf {n | Edits n a b}

theorem Edit.cons {a b : List α} (x : α) (h : Edit a b) : Edit (x :: a) (x :: b) := by
  rcases h with ⟨l, r, y⟩ | ⟨l, r, y⟩ | ⟨l, r, y, z⟩
  · exact .insert (x :: l) r y
  · exact .delete (x :: l) r y
  · exact .substitute (x :: l) r y z

theorem Edits.cons {n : ℕ} {a b : List α} (x : α) (h : Edits n a b) : Edits n (x :: a) (x :: b) := by
  induction h with
  | done a => exact .done (x :: a)
  | edit he _ ih => exact .edit (he.cons x) ih

theorem edits_insert_all (b : List α) : Edits b.length [] b := by
  induction b with
  | nil => exact .done []
  | cons y b ih => exact .edit (.insert [] [] y) (ih.cons y)

theorem edits_delete_all (a : List α) : Edits a.length a [] := by
  induction a with
  | nil => exact .done []
  | cons x a ih => exact .edit (.delete [] a x) ih

/-! ### The recursion -/

variable [DecidableEq α]

/-- What it costs to put one letter for another. -/
def cost (x y : α) : ℕ := if x = y then 0 else 1

/-- The first letters are aligned, or the one is deleted, or the other inserted. -/
def distance : List α → List α → ℕ
  | [], b => b.length
  | x :: a, [] => (x :: a).length
  | x :: a, y :: b => min (distance a b + cost x y) (min (distance a (y :: b) + 1) (distance (x :: a) b + 1))
termination_by a b => a.length + b.length

@[simp]
theorem distance_nil_left (b : List α) : distance [] b = b.length := by rw [distance]

@[simp]
theorem distance_nil_right (a : List α) : distance a [] = a.length := by
  cases a with
  | nil => rw [distance]
  | cons x a => rw [distance]

theorem distance_cons_cons (x y : α) (a b : List α) : distance (x :: a) (y :: b) =
    min (distance a b + cost x y) (min (distance a (y :: b) + 1) (distance (x :: a) b + 1)) := by
  rw [distance]

theorem cost_le_one (x y : α) : cost x y ≤ 1 := by
  unfold cost
  split <;> decide

theorem distance_cons_le (x : α) (a c : List α) : distance (x :: a) c ≤ distance a c + 1 := by
  cases c with
  | nil => simp
  | cons y c =>
    rw [distance_cons_cons]
    omega

theorem distance_le_cons (a : List α) (y : α) (c : List α) : distance a (y :: c) ≤ distance a c + 1 := by
  cases a with
  | nil => simp
  | cons x a =>
    rw [distance_cons_cons]
    omega

/-- The recursion is attained. -/
theorem edits_distance (a b : List α) : Edits (distance a b) a b := by
  induction a, b using distance.induct with
  | case1 b =>
    rw [distance_nil_left]
    exact edits_insert_all b
  | case2 x a =>
    rw [distance_nil_right]
    exact edits_delete_all (x :: a)
  | case3 x a y b halign hdelete hinsert =>
    rw [distance_cons_cons]
    rcases min_choice (distance a b + cost x y) (min (distance a (y :: b) + 1) (distance (x :: a) b + 1))
      with hmin | hmin
    · rw [hmin, cost]
      split
      · rename_i hxy
        rw [hxy]
        exact halign.cons y
      · exact .edit (.substitute [] a x y) (halign.cons y)
    · rw [hmin]
      rcases min_choice (distance a (y :: b) + 1) (distance (x :: a) b + 1) with hmin | hmin
      · rw [hmin]
        exact .edit (.delete [] a x) hdelete
      · rw [hmin]
        exact .edit (.insert [] (x :: a) y) (hinsert.cons y)

/-! ### One edit -/

/-- A letter less. -/
theorem distance_le_of_cons (x : α) (r : List α) : ∀ c : List α, distance r c ≤ distance (x :: r) c + 1
  | [] => by simp; omega
  | z :: c => by
    have hless := distance_le_of_cons x r c
    have htarget := distance_le_cons r z c
    rw [distance_cons_cons x z r c]
    omega

/-- Another letter. -/
theorem distance_le_of_substitute (x y : α) (r : List α) : ∀ c : List α,
    distance (x :: r) c ≤ distance (y :: r) c + 1
  | [] => by simp
  | z :: c => by
    have hless := distance_le_of_substitute x y r c
    have hx := cost_le_one x z
    rw [distance_cons_cons, distance_cons_cons]
    omega

/-- The same letter in front of both. -/
theorem distance_le_of_cons_cons {a b : List α} (x : α) (h : ∀ c, distance a c ≤ distance b c + 1) :
    ∀ c : List α, distance (x :: a) c ≤ distance (x :: b) c + 1
  | [] => by
    have hlen := h []
    simp only [distance_nil_right, List.length_cons] at hlen ⊢
    omega
  | z :: c => by
    have hless := distance_le_of_cons_cons x h c
    have halign := h c
    have hdelete := h (z :: c)
    rw [distance_cons_cons, distance_cons_cons]
    omega

theorem distance_le_of_append {a b : List α} (h : ∀ c, distance a c ≤ distance b c + 1) : ∀ l c : List α,
    distance (l ++ a) c ≤ distance (l ++ b) c + 1
  | [], c => h c
  | x :: l, c => distance_le_of_cons_cons x (distance_le_of_append h l) c

/-- An edit takes a word nearer by one at most. -/
theorem distance_le_of_edit {a b : List α} (h : Edit a b) (c : List α) : distance a c ≤ distance b c + 1 := by
  rcases h with ⟨l, r, x⟩ | ⟨l, r, x⟩ | ⟨l, r, x, y⟩
  · exact distance_le_of_append (distance_le_of_cons x r) l c
  · exact distance_le_of_append (distance_cons_le x r) l c
  · exact distance_le_of_append (distance_le_of_substitute x y r) l c

theorem distance_self (a : List α) : distance a a = 0 := by
  induction a with
  | nil => simp
  | cons x a ih => simp [distance_cons_cons, ih, cost]

theorem distance_le_of_edits {n : ℕ} {a b : List α} (h : Edits n a b) : distance a b ≤ n := by
  induction h with
  | done a => rw [distance_self]
  | @edit n a b c he _ ih =>
    calc distance a c ≤ distance b c + 1 := distance_le_of_edit he c
      _ ≤ n + 1 := Nat.add_le_add_right ih 1

/-- The recursion is the least number of edits. -/
theorem isLeast_distance (a b : List α) : IsLeast {n | Edits n a b} (distance a b) :=
  ⟨edits_distance a b, fun _ h => distance_le_of_edits h⟩

theorem distance_eq (a b : List α) : distance a b = editDistance a b := (isLeast_distance a b).csInf_eq.symm

/-- An edit makes a word shorter by one letter at most. -/
theorem length_le_editDistance (a b : List α) : a.length ≤ b.length + editDistance a b := by
  rw [← distance_eq]
  induction a, b using distance.induct with
  | case1 b => simp
  | case2 x a => simp
  | case3 x a y b halign hdelete hinsert =>
    rw [distance_cons_cons]
    simp only [List.length_cons] at hdelete hinsert ⊢
    omega

/-! ### Row by row -/

/-- The distances of `x :: a` from the ends of a word, longest first, from those of `a`. -/
def nextRow (x : α) : List α → List ℕ → List ℕ
  | y :: b, d :: e :: row =>
    let rest := nextRow x b (e :: row)
    min (e + cost x y) (min (d + 1) (rest.headD 0 + 1)) :: rest
  | _, row => row.map (· + 1)

/-- The distances of `a` from the ends of `b`, longest first. -/
def rowOf (b : List α) : List α → List ℕ
  | [] => (List.range (b.length + 1)).reverse
  | x :: a => nextRow x b (rowOf b a)

/-- The distance, from the last row. -/
def levenshtein (a b : List α) : ℕ := (rowOf b a).headD 0

theorem nextRow_eq (x : α) (a : List α) : ∀ b : List α,
    nextRow x b (b.tails.map (distance a)) = b.tails.map (distance (x :: a))
  | [] => by simp [nextRow]
  | [y] => by simp [nextRow, distance_cons_cons]
  | y :: z :: b => by
    have hrest := nextRow_eq x a (z :: b)
    simp only [List.tails_cons, List.map_cons] at hrest ⊢
    rw [nextRow, hrest, distance_cons_cons x y a]
    rfl

theorem rowOf_eq (b : List α) : ∀ a : List α, rowOf b a = b.tails.map (distance a)
  | [] => by
    rw [rowOf]
    induction b with
    | nil => simp
    | cons y b ih =>
      rw [List.length_cons, List.range_succ, List.reverse_append, ih]
      simp
  | x :: a => by rw [rowOf, rowOf_eq b a, nextRow_eq]

theorem levenshtein_eq (a b : List α) : levenshtein a b = editDistance a b := by
  rw [levenshtein, rowOf_eq, ← distance_eq]
  cases b <;> rfl

end EditDistance
end PGCon
