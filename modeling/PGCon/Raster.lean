/-
# Pictures in memory, and views of them

A `Picture` is a value: rows, columns, channels and a sample for each. A `Store`
holds buffers, and a `View` is a rectangle of one of them: what a program calls
an image is such a view, and two views of one buffer share their samples. A
buffer a store has handed out lies below `next`.

A picture also lies in memory row by row; `cell_lt`, `cell_div` and `cell_mod` are the
arithmetic of that, and `last_sample` is where it ends.

`read` and `write` go through a view, `alloc` makes a buffer of its own. What a
program does to the buffers it was given is said by `Store.Grows`: the buffers
in a set are as they were, and new ones may have come.
-/
import Mathlib

namespace PGCon
namespace Raster

variable {α : Type*}

/-- The samples of a picture. -/
abbrev Samples (α : Type*) (rows cols channels : ℕ) := Fin rows → Fin cols → Fin channels → α

structure Picture (α : Type*) where
  rows : ℕ
  cols : ℕ
  channels : ℕ
  samples : Samples α rows cols channels

/-- A rectangle of the buffer `data`. -/
structure View where
  data : ℕ
  top : ℕ
  left : ℕ
  rows : ℕ
  cols : ℕ
  channels : ℕ
  deriving DecidableEq, Repr

/-- The buffers: a sample for each buffer, row, column and channel. -/
structure Store (α : Type*) where
  next : ℕ
  cell : ℕ → ℕ → ℕ → ℕ → α

/-- A rectangle of a picture. -/
def Picture.crop (p : Picture α) (top left rows cols : ℕ) (hr : top + rows ≤ p.rows)
    (hc : left + cols ≤ p.cols) : Picture α where
  rows := rows
  cols := cols
  channels := p.channels
  samples i j k := p.samples ⟨top + i, by omega⟩ ⟨left + j, by omega⟩ k

/-! ### Rows one after the other -/

theorem row_le {i i' : ℕ} (length : ℕ) (h : i < i') : i * length + length ≤ i' * length := by
  rw [← Nat.succ_mul]
  exact Nat.mul_le_mul_right _ h

theorem cell_lt {rows length i j : ℕ} (hi : i < rows) (hj : j < length) : i * length + j < rows * length := by
  have hle := row_le length hi
  omega

theorem last_cell {rows length : ℕ} (hr : 0 < rows) (hl : 0 < length) :
    (rows - 1) * length + (length - 1) + 1 = rows * length := by
  obtain ⟨n, rfl⟩ := Nat.exists_eq_add_of_lt hr
  rw [Nat.zero_add, Nat.add_sub_cancel, Nat.succ_mul]
  omega

theorem last_sample {rows cols channels : ℕ} (hr : 0 < rows) (hc : 0 < cols) (hk : 0 < channels) :
    ((rows - 1) * cols + (cols - 1)) * channels + (channels - 1) + 1 = rows * (cols * channels) := by
  have hpixel : (rows - 1) * cols + (cols - 1) = rows * cols - 1 := by
    have := last_cell hr hc
    omega
  rw [hpixel, last_cell (Nat.mul_pos hr hc) hk, Nat.mul_assoc]

theorem cell_div {length i j : ℕ} (hj : j < length) : (i * length + j) / length = i := by
  rw [Nat.mul_comm, Nat.mul_add_div (Nat.zero_lt_of_lt hj), Nat.div_eq_of_lt hj, Nat.add_zero]

theorem cell_mod {length i j : ℕ} (hj : j < length) : (i * length + j) % length = j := by
  rw [Nat.mul_comm, Nat.mul_add_mod, Nat.mod_eq_of_lt hj]

theorem row_lt {rows length n : ℕ} (h : n < rows * length) : n / length < rows :=
  Nat.div_lt_of_lt_mul (by rwa [Nat.mul_comm])

theorem col_lt {rows cols channels n : ℕ} (h : n < rows * (cols * channels)) : n / channels % cols < cols :=
  Nat.mod_lt _ (Nat.pos_of_lt_mul_right (Nat.pos_of_lt_mul_left h))

theorem channel_lt {rows cols channels n : ℕ} (h : n < rows * (cols * channels)) : n % channels < channels :=
  Nat.mod_lt _ (Nat.pos_of_lt_mul_left (Nat.pos_of_lt_mul_left h))

namespace View

/-- A rectangle of a view: another view of the same buffer. -/
def sub (v : View) (top left rows cols : ℕ) : View :=
  { v with top := v.top + top, left := v.left + left, rows := rows, cols := cols }

/-- The cell lies in the rectangle. -/
def Covers (v : View) (d i j k : ℕ) : Prop :=
  d = v.data ∧ (v.top ≤ i ∧ i < v.top + v.rows) ∧ (v.left ≤ j ∧ j < v.left + v.cols) ∧ k < v.channels

instance (v : View) (d i j k : ℕ) : Decidable (v.Covers d i j k) := by
  unfold Covers
  infer_instance

/-- The rectangle of `w` lies in that of `v`. -/
structure Within (w v : View) : Prop where
  data : w.data = v.data
  top : v.top ≤ w.top
  bottom : w.top + w.rows ≤ v.top + v.rows
  left : v.left ≤ w.left
  right : w.left + w.cols ≤ v.left + v.cols
  channels : w.channels = v.channels

theorem Within.refl (v : View) : v.Within v := ⟨rfl, le_refl _, le_refl _, le_refl _, le_refl _, rfl⟩

theorem within_sub {v : View} {top left rows cols : ℕ} (hr : top + rows ≤ v.rows)
    (hc : left + cols ≤ v.cols) : (v.sub top left rows cols).Within v := by
  refine ⟨rfl, ?_, ?_, ?_, ?_, rfl⟩ <;> simp only [sub] <;> omega

end View

namespace Store

/-- The samples seen through a view. -/
def read (m : Store α) (v : View) : Samples α v.rows v.cols v.channels := fun i j k =>
  m.cell v.data (v.top + i) (v.left + j) k

def picture (m : Store α) (v : View) : Picture α := ⟨v.rows, v.cols, v.channels, m.read v⟩

/-- Samples written through a view. -/
def write (m : Store α) (v : View) (s : Samples α v.rows v.cols v.channels) : Store α where
  next := m.next
  cell d i j k :=
    if h : v.Covers d i j k then
      s ⟨i - v.top, by have := h.2.1; omega⟩ ⟨j - v.left, by have := h.2.2.1; omega⟩ ⟨k, h.2.2.2⟩
    else m.cell d i j k

/-- The view of the buffer made next. -/
def fresh (m : Store α) (rows cols channels : ℕ) : View := ⟨m.next, 0, 0, rows, cols, channels⟩

/-- A new buffer with the samples of a picture. -/
def alloc (m : Store α) (p : Picture α) : Store α :=
  write ⟨m.next + 1, m.cell⟩ (m.fresh p.rows p.cols p.channels) p.samples

/-! ### Reading what was written -/

variable {m m' : Store α} {v w : View}

theorem write_cell_of_covers {s : Samples α v.rows v.cols v.channels} (i : Fin v.rows) (j : Fin v.cols)
    (k : Fin v.channels) : (m.write v s).cell v.data (v.top + i) (v.left + j) k = s i j k := by
  have h : v.Covers v.data (v.top + i) (v.left + j) k := by
    refine ⟨rfl, ⟨?_, ?_⟩, ⟨?_, ?_⟩, k.isLt⟩ <;> omega
  unfold write
  simp only [dif_pos h, Nat.add_sub_cancel_left, Fin.eta]

theorem write_cell_of_not_covers {s : Samples α v.rows v.cols v.channels} {d i j k : ℕ}
    (h : ¬ v.Covers d i j k) : (m.write v s).cell d i j k = m.cell d i j k := by
  unfold write
  simp only [dif_neg h]

theorem read_write (s : Samples α v.rows v.cols v.channels) : (m.write v s).read v = s := by
  funext i j k
  exact write_cell_of_covers i j k

/-- A write of what is there does nothing. -/
theorem write_read (m : Store α) (v : View) : m.write v (m.read v) = m := by
  have h : (m.write v (m.read v)).cell = m.cell := by
    funext d i j k
    by_cases hc : v.Covers d i j k
    · obtain ⟨rfl, hi, hj, hk⟩ := id hc
      unfold write read
      simp only [dif_pos hc]
      congr 1 <;> omega
    · exact write_cell_of_not_covers hc
  exact congrArg (Store.mk m.next) h

theorem picture_write (s : Samples α v.rows v.cols v.channels) :
    (m.write v s).picture v = ⟨v.rows, v.cols, v.channels, s⟩ := by
  unfold picture
  rw [read_write]

theorem read_of_picture (h : m'.picture v = m.picture v) : m'.read v = m.read v := by
  simpa [picture] using h

theorem picture_sub {top left rows cols : ℕ} (hr : top + rows ≤ v.rows) (hc : left + cols ≤ v.cols) :
    m.picture (v.sub top left rows cols) = (m.picture v).crop top left rows cols hr hc := by
  unfold picture Picture.crop read View.sub
  simp only [Nat.add_assoc]

/-! ### What is left as it was -/

/-- The buffers in `D` are as they were, of those that were there; no buffer is
gone. -/
structure Grows (D : ℕ → Prop) (m m' : Store α) : Prop where
  next_le : m.next ≤ m'.next
  cell_eq : ∀ d < m.next, D d → m'.cell d = m.cell d

variable {D E : ℕ → Prop}

theorem Grows.refl (m : Store α) : Grows D m m := ⟨le_refl _, fun _ _ _ => rfl⟩

theorem Grows.trans {m'' : Store α} (h : Grows D m m') (h' : Grows E m' m'') (hDE : ∀ d < m.next, D d → E d) :
    Grows D m m'' := by
  refine ⟨h.next_le.trans h'.next_le, fun d hd hD => ?_⟩
  rw [h'.cell_eq d (hd.trans_le h.next_le) (hDE d hd hD), h.cell_eq d hd hD]

theorem Grows.mono (h : Grows E m m') (hDE : ∀ d < m.next, D d → E d) : Grows D m m' :=
  ⟨h.next_le, fun d hd hD => h.cell_eq d hd (hDE d hd hD)⟩

theorem grows_write (m : Store α) (s : Samples α v.rows v.cols v.channels) (hD : ¬ D v.data) :
    Grows D m (m.write v s) := by
  refine ⟨le_refl _, fun d _ hd => ?_⟩
  funext i j k
  exact write_cell_of_not_covers fun hc => hD (hc.1 ▸ hd)

theorem grows_alloc (m : Store α) (p : Picture α) : Grows D m (m.alloc p) := by
  refine ⟨Nat.le_succ _, fun d hd _ => ?_⟩
  funext i j k
  exact write_cell_of_not_covers fun hc => absurd hc.1 hd.ne

theorem picture_alloc (m : Store α) (p : Picture α) :
    (m.alloc p).picture (m.fresh p.rows p.cols p.channels) = p :=
  picture_write _

/-- A view of a buffer left as it was shows what it showed. -/
theorem Grows.picture (h : Grows D m m') (hv : v.data < m.next) (hD : D v.data) :
    m'.picture v = m.picture v := by
  unfold Store.picture read
  rw [h.cell_eq _ hv hD]

end Store

/-! ### Loops that fill a table -/

section Loops

variable {ι κ β : Type*} [DecidableEq ι]

/-- A loop that changes one entry again and again. -/
theorem foldl_update_at (i : ι) (g : κ → β → β) : ∀ (l : List κ) (a : ι → β),
    l.foldl (fun a x => Function.update a i (g x (a i))) a =
      Function.update a i (l.foldl (fun b x => g x b) (a i))
  | [], a => by simp
  | x :: l, a => by
    simp only [List.foldl_cons]
    rw [foldl_update_at i g l]
    simp

/-- A loop that changes the entries one by one. -/
theorem foldl_update (g : ι → β → β) (hg : ∀ i b, g i (g i b) = g i b) : ∀ (l : List ι) (a : ι → β),
    l.foldl (fun a i => Function.update a i (g i (a i))) a = fun i => if i ∈ l then g i (a i) else a i
  | [], a => by simp
  | x :: l, a => by
    simp only [List.foldl_cons]
    rw [foldl_update g hg l]
    funext i
    by_cases hi : i = x
    · subst hi
      by_cases hl : i ∈ l <;> simp [hl, hg]
    · simp [hi]

end Loops

end Raster
end PGCon
