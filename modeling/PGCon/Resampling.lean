/-
# The integer resampler

`ImageResizeUtil.resizeRaw` fills the output row by row and keeps one offset into the
input, which two error terms move on: `XE` along a row, `YE` from row to row.

Where the reads go does not depend on the pixels. `offsetAt` is the offset of each
output cell (`resizeRaw_ok_iff`), and it is that of the nearest neighbour as long as the
error terms stay below `2 ^ 31`. They are `int`s, and for sizes beyond `2 ^ 30` they
need not: the sum then comes out negative and a carry is lost
(`nearest_iff_fits`).
-/
import PGCon.Raster
import PGCon.Protocol

namespace PGCon
namespace Resampling

open Word Raster

/-! ### The loops -/

/-- An offset and its error term. -/
structure Cursor where
  offset : ℤ
  error : ℤ
  deriving DecidableEq, Repr

-- to unfold the projection is to evaluate the loops it is applied to
theorem Cursor.offset_mk (offset error : ℤ) : (Cursor.mk offset error).offset = offset := rfl

/-- `offset += step; error += rest; if (error >= limit) { error -= limit; offset += carry; }` -/
def advance (step rest limit carry : ℤ) (c : Cursor) : Cursor :=
  let offset := addInt c.offset step
  let error := addInt c.error rest
  if limit ≤ error then ⟨addInt offset carry, addInt error (-limit)⟩ else ⟨offset, error⟩

/-- `input[i]`. -/
def load {α : Type} (input : List α) (i : ℤ) : Except JavaException α :=
  if 0 ≤ i then
    match input[i.toNat]? with
    | some pixel => .ok pixel
    | none => .error .arrayIndexOutOfBounds
  else .error .arrayIndexOutOfBounds

/-- The sizes of a call. -/
structure Sizes where
  oldWidth : ℕ
  oldHeight : ℕ
  newWidth : ℕ
  newHeight : ℕ

namespace Sizes

variable (s : Sizes)

/-- `YD = (oldHeight / newHeight) * oldWidth - oldWidth`. -/
def YD : ℤ := addInt (mulInt (s.oldHeight / s.newHeight : ℕ) s.oldWidth) (-s.oldWidth)

/-- `XD = oldWidth / newWidth` and `XR = oldWidth % newWidth`, after each pixel. -/
def nextPixel : Cursor → Cursor :=
  advance (s.oldWidth / s.newWidth : ℕ) (s.oldWidth % s.newWidth : ℕ) s.newWidth 1

/-- `YD` and `YR = oldHeight % newHeight`, after each row. -/
def nextRow : Cursor → Cursor := advance s.YD (s.oldHeight % s.newHeight : ℕ) s.newHeight s.oldWidth

end Sizes

section

variable {α : Type} (s : Sizes) (input : List α)

/-- The inner loop, `n` more pixels. The output is written from its first cell on, so the
part of it that is written is a list. -/
def resizeRow : ℕ → List α → Cursor → Except JavaException (List α × Cursor)
  | 0, output, c => .ok (output, c)
  | n + 1, output, c => do
    let pixel ← load input c.offset
    resizeRow n (output ++ [pixel]) (s.nextPixel c)

/-- The outer loop, `n` more rows; `XE` starts at 0 in each. -/
def resizeRows : ℕ → List α → Cursor → Except JavaException (List α)
  | 0, output, _ => .ok output
  | n + 1, output, c => do
    let (output, row) ← resizeRow s input s.newWidth output ⟨c.offset, 0⟩
    resizeRows n output (s.nextRow ⟨row.offset, c.error⟩)

def resizeRaw : Except JavaException (List α) := resizeRows s input s.newHeight [] ⟨0, 0⟩

end

/-! ### Where the reads go -/

namespace Sizes

variable (s : Sizes)

/-- One turn of the outer loop. -/
def row (c : Cursor) : Cursor := s.nextRow ⟨(s.nextPixel^[s.newWidth] ⟨c.offset, 0⟩).offset, c.error⟩

/-- The input offset read for pixel `x` of row `y`. -/
def offsetAt (y x : ℕ) : ℤ := (s.nextPixel^[x] ⟨(s.row^[y] ⟨0, 0⟩).offset, 0⟩).offset

theorem offsetAt_zero (y : ℕ) : s.offsetAt y 0 = (s.row^[y] ⟨0, 0⟩).offset := by
  rw [offsetAt, Function.iterate_zero, id_eq, Cursor.offset_mk]

/-- The offset of the nearest neighbour. -/
def nearest (y x : ℕ) : ℕ := y * s.oldHeight / s.newHeight * s.oldWidth + x * s.oldWidth / s.newWidth

end Sizes

section

variable {α : Type} {s : Sizes} {input : List α}

/-- A row appends the pixels at the offsets the cursor goes through. -/
theorem resizeRow_ok_iff : ∀ (n : ℕ) (output : List α) (c : Cursor) (output' : List α) (c' : Cursor),
    resizeRow s input n output c = .ok (output', c') ↔
      c' = s.nextPixel^[n] c ∧ ∃ pixels : List α, output' = output ++ pixels ∧ pixels.length = n ∧
        ∀ k (hk : k < pixels.length), load input (s.nextPixel^[k] c).offset = .ok pixels[k]
  | 0, output, c, output', c' => by
    simp only [resizeRow, Except.ok.injEq, Prod.mk.injEq, Function.iterate_zero, id_eq]
    constructor
    · rintro ⟨rfl, rfl⟩
      exact ⟨rfl, [], by simp⟩
    · rintro ⟨rfl, pixels, rfl, hlen, -⟩
      rw [List.length_eq_zero_iff.mp hlen]
      simp
  | n + 1, output, c, output', c' => by
    cases hload : load input c.offset with
    | error e =>
      simp only [resizeRow, hload]
      constructor
      · intro h
        cases h
      · rintro ⟨-, pixels, -, hlen, hget⟩
        have h0 := hget 0 (by omega)
        rw [Function.iterate_zero, id_eq, hload] at h0
        cases h0
    | ok pixel =>
      have hstep : resizeRow s input (n + 1) output c =
          resizeRow s input n (output ++ [pixel]) (s.nextPixel c) := by
        rw [resizeRow, hload]
        rfl
      rw [hstep, resizeRow_ok_iff n, ← Function.iterate_succ_apply]
      refine and_congr_right fun _ => ⟨?_, ?_⟩
      · rintro ⟨pixels, rfl, hlen, hget⟩
        refine ⟨pixel :: pixels, by simp, by simp [hlen], fun k hk => ?_⟩
        cases k with
        | zero => exact hload
        | succ k => exact hget k (by simpa using hk)
      · rintro ⟨pixels, rfl, hlen, hget⟩
        obtain ⟨p, pixels, rfl⟩ := List.exists_cons_of_length_eq_add_one hlen
        have h0 := hget 0 (by simp)
        rw [Function.iterate_zero, id_eq, hload] at h0
        cases h0
        refine ⟨pixels, by simp, by simpa using hlen, fun k hk => ?_⟩
        exact hget (k + 1) (by simpa using hk)

/-- The rows after the first. -/
theorem getElem?_row {row rest : List α} {w : ℕ} (h : row.length = w) (y x : ℕ) :
    (row ++ rest)[(y + 1) * w + x]? = rest[y * w + x]? := by
  have hidx : (y + 1) * w + x = row.length + (y * w + x) := by
    rw [h, Nat.add_mul]
    omega
  rw [hidx, List.getElem?_append_right (Nat.le_add_right ..), Nat.add_sub_cancel_left]

/-- The loop over the rows appends one row after the other. -/
theorem resizeRows_ok_iff : ∀ (n : ℕ) (output : List α) (c : Cursor) (output' : List α),
    resizeRows s input n output c = .ok output' ↔
      ∃ pixels : List α, output' = output ++ pixels ∧ pixels.length = n * s.newWidth ∧
        ∀ y < n, ∀ x < s.newWidth, ∃ p, load input (s.nextPixel^[x] ⟨(s.row^[y] c).offset, 0⟩).offset = .ok p ∧
          pixels[y * s.newWidth + x]? = some p
  | 0, output, c, output' => by
    simp only [resizeRows, Except.ok.injEq, Nat.zero_mul]
    constructor
    · rintro rfl
      exact ⟨[], by simp⟩
    · rintro ⟨pixels, rfl, hlen, -⟩
      rw [List.length_eq_zero_iff.mp hlen, List.append_nil]
  | n + 1, output, c, output' => by
    constructor
    · intro h
      rw [resizeRows] at h
      rcases hrow : resizeRow s input s.newWidth output ⟨c.offset, 0⟩ with e | ⟨output₁, c₁⟩
      · rw [hrow] at h
        cases h
      · rw [hrow] at h
        obtain ⟨rfl, row, rfl, hlen, hget⟩ := (resizeRow_ok_iff ..).mp hrow
        obtain ⟨rest, rfl, hlen', hget'⟩ := (resizeRows_ok_iff n ..).mp h
        refine ⟨row ++ rest, by simp, by simp [hlen, hlen', Nat.add_mul, Nat.add_comm], fun y hy x hx => ?_⟩
        rcases y with - | y
        · exact ⟨row[x], hget x (by omega), by simp [List.getElem?_append_left (hlen ▸ hx)]⟩
        · rw [getElem?_row hlen]
          exact hget' y (by omega) x hx
    · rintro ⟨pixels, rfl, hlen, hget⟩
      rw [Nat.add_mul, Nat.one_mul] at hlen
      obtain ⟨row, rest, rfl, hrowlen⟩ : ∃ row rest, pixels = row ++ rest ∧ row.length = s.newWidth :=
        ⟨pixels.take s.newWidth, pixels.drop s.newWidth, (List.take_append_drop ..).symm, by simp [hlen]⟩
      have hrow : resizeRow s input s.newWidth output ⟨c.offset, 0⟩ =
          .ok (output ++ row, s.nextPixel^[s.newWidth] ⟨c.offset, 0⟩) := by
        refine (resizeRow_ok_iff ..).mpr ⟨rfl, row, rfl, hrowlen, fun k hk => ?_⟩
        obtain ⟨p, hload, hp⟩ := hget 0 (Nat.succ_pos n) k (hrowlen ▸ hk)
        rw [Nat.zero_mul, Nat.zero_add, List.getElem?_append_left hk, List.getElem?_eq_getElem hk] at hp
        rw [Option.some.inj hp]
        exact hload
      rw [resizeRows, hrow]
      refine (resizeRows_ok_iff n ..).mpr ⟨rest, by simp, ?_, fun y hy x hx => ?_⟩
      · rw [List.length_append, hrowlen] at hlen
        omega
      · obtain ⟨p, hload, hp⟩ := hget (y + 1) (by omega) x hx
        rw [getElem?_row hrowlen] at hp
        exact ⟨p, hload, hp⟩

/-- The resampler returns if every offset is inside the input, and then cell
`y * newWidth + x` of the output is the pixel at `offsetAt y x`. -/
theorem resizeRaw_ok_iff {output : List α} : resizeRaw s input = .ok output ↔
    output.length = s.newHeight * s.newWidth ∧ ∀ y < s.newHeight, ∀ x < s.newWidth,
      ∃ p, load input (s.offsetAt y x) = .ok p ∧ output[y * s.newWidth + x]? = some p := by
  rw [resizeRaw, resizeRows_ok_iff]
  constructor
  · rintro ⟨pixels, rfl, hlen, hget⟩
    exact ⟨hlen, hget⟩
  · rintro ⟨hlen, hget⟩
    exact ⟨output, rfl, hlen, hget⟩

/-- All it takes to return is that every offset is inside the input. -/
theorem exists_resized (h : ∀ y < s.newHeight, ∀ x < s.newWidth, ∃ p, load input (s.offsetAt y x) = .ok p) :
    ∃ output, resizeRaw s input = .ok output := by
  have hcell : ∀ i : Fin (s.newHeight * s.newWidth),
      ∃ p, load input (s.offsetAt (i / s.newWidth) (i % s.newWidth)) = .ok p := by
    intro i
    have hpos : 0 < s.newWidth := Nat.pos_of_lt_mul_left i.isLt
    exact h _ ((Nat.div_lt_iff_lt_mul hpos).mpr i.isLt) _ (Nat.mod_lt _ hpos)
  choose pixel hpixel using hcell
  refine ⟨List.ofFn pixel, resizeRaw_ok_iff.mpr ⟨List.length_ofFn, fun y hy x hx => ?_⟩⟩
  have hlt := cell_lt hy hx
  have hload := hpixel ⟨y * s.newWidth + x, hlt⟩
  rw [cell_div hx, cell_mod hx] at hload
  refine ⟨_, hload, ?_⟩
  rw [List.getElem?_ofFn, dif_pos hlt]

end

/-! ### Nearest neighbours -/

/-- What a call with these sizes should do, for every input that is large enough. -/
def NearestNeighbour (s : Sizes) : Prop :=
  ∀ input : List (BitVec 32), s.oldWidth * s.oldHeight ≤ input.length →
    ∃ output, resizeRaw s input = .ok output ∧ output.length = s.newHeight * s.newWidth ∧
      ∀ y < s.newHeight, ∀ x < s.newWidth, s.nearest y x < s.oldWidth * s.oldHeight ∧
        output[y * s.newWidth + x]? = input[s.nearest y x]?

theorem load_of_lt {α : Type} {input : List α} {i : ℕ} (h : i < input.length) :
    load input i = .ok input[i] := by
  simp [load, h]

/-- What was loaded, and from where. -/
theorem of_load {α : Type} {input : List α} {i : ℤ} {p : α} (h : load input i = .ok p) :
    ∃ n : ℕ, i = n ∧ input[n]? = some p := by
  unfold load at h
  split at h
  · rename_i hi
    refine ⟨i.toNat, (Int.toNat_of_nonneg hi).symm, ?_⟩
    split at h
    · rename_i q hq
      cases h
      exact hq
    · cases h
  · cases h

/-- Positions that are scaled down stay in range. -/
theorem scaled_lt {a b x : ℕ} (ha : 0 < a) (hx : x < b) : x * a / b < a :=
  (Nat.div_lt_iff_lt_mul (Nat.zero_lt_of_lt hx)).mpr (by
    rw [Nat.mul_comm a b]
    exact Nat.mul_lt_mul_of_pos_right hx ha)

theorem nearest_lt {s : Sizes} (hw : 0 < s.oldWidth) (hh : 0 < s.oldHeight) {y x : ℕ} (hy : y < s.newHeight)
    (hx : x < s.newWidth) : s.nearest y x < s.oldWidth * s.oldHeight := by
  have hrow : y * s.oldHeight / s.newHeight + 1 ≤ s.oldHeight := scaled_lt hh hy
  have hcol := scaled_lt hw hx
  calc s.nearest y x < y * s.oldHeight / s.newHeight * s.oldWidth + s.oldWidth := Nat.add_lt_add_left hcol _
    _ = (y * s.oldHeight / s.newHeight + 1) * s.oldWidth := by ring
    _ ≤ s.oldHeight * s.oldWidth := Nat.mul_le_mul_right _ hrow
    _ = s.oldWidth * s.oldHeight := Nat.mul_comm ..

/-- The pixels come from the nearest neighbours exactly if the offsets are theirs: an
input with one pixel set tells two offsets apart. -/
theorem nearestNeighbour_iff_offsets {s : Sizes} (hw : 0 < s.oldWidth) (hh : 0 < s.oldHeight) :
    NearestNeighbour s ↔ ∀ y < s.newHeight, ∀ x < s.newWidth, s.offsetAt y x = s.nearest y x := by
  constructor
  · intro h y hy x hx
    set N := s.oldWidth * s.oldHeight
    let input : List (BitVec 32) := (List.replicate N 0).set (s.nearest y x) 1
    have hlen : input.length = N := by simp [input]
    obtain ⟨output, hok, -, hcells⟩ := h input hlen.ge
    obtain ⟨hlt, hcell⟩ := hcells y hy x hx
    obtain ⟨p, hload, hp⟩ := (resizeRaw_ok_iff.mp hok).2 y hy x hx
    obtain ⟨n, hn, hget⟩ := of_load hload
    have hone : input[s.nearest y x]? = some 1 := by
      rw [List.getElem?_set_self (by simpa using hlt)]
    rw [hn]
    by_contra hne
    have hne' : s.nearest y x ≠ n := fun e => hne (by rw [e])
    -- the cell holds the one and not the one at the same time
    rw [hp, hone] at hcell
    cases hcell
    rw [List.getElem?_set_ne hne'] at hget
    simp [List.getElem?_replicate] at hget
  · intro h input hlen
    have hload : ∀ y < s.newHeight, ∀ x < s.newWidth, ∃ p, load input (s.offsetAt y x) = .ok p ∧
        input[s.nearest y x]? = some p := by
      intro y hy x hx
      have hlt : s.nearest y x < input.length := (nearest_lt hw hh hy hx).trans_le hlen
      rw [h y hy x hx]
      exact ⟨_, load_of_lt hlt, List.getElem?_eq_getElem hlt⟩
    obtain ⟨output, hok⟩ := exists_resized fun y hy x hx => (hload y hy x hx).imp fun _ hp => hp.1
    obtain ⟨hout, hcells⟩ := resizeRaw_ok_iff.mp hok
    refine ⟨output, hok, hout, fun y hy x hx => ⟨nearest_lt hw hh hy hx, ?_⟩⟩
    obtain ⟨p, hp, hin⟩ := hload y hy x hx
    obtain ⟨p', hp', hcell⟩ := hcells y hy x hx
    obtain rfl := Except.ok.inj (hp.symm.trans hp')
    rw [hcell, hin]

/-! ### The error terms -/

/-- The error term of a division of `b` steps over `a` stays an `int`. -/
def Fits (a b : ℕ) : Prop := ∀ x < b, x * a % b + a % b < 2 ^ 31

/-- Sizes up to `2 ^ 30` fit. -/
theorem fits_of_le {a b : ℕ} (h : b ≤ 2 ^ 30) : Fits a b := by
  intro x hx
  have hb : 0 < b := Nat.zero_lt_of_lt hx
  have h1 := Nat.mod_lt (x * a) hb
  have h2 := Nat.mod_lt a hb
  omega

/-- Whether the error term carries after step `x`. -/
def carried (a b x : ℕ) : ℕ := if b ≤ x * a % b + a % b then 1 else 0

theorem succ_mul_div {a b : ℕ} (hb : 0 < b) (x : ℕ) : (x + 1) * a / b = x * a / b + a / b + carried a b x := by
  rw [Nat.add_mul, Nat.one_mul, Nat.add_div hb]
  rfl

/-- One step of the error term, as long as it fits. -/
theorem advance_of_fits {a b x m c : ℕ} {offset step carry : ℤ} (hx : x < b)
    (hfit : x * a % b + a % b < 2 ^ 31) (hm : offset + step = m) (hc : carry = c)
    (hlt : m + carried a b x * c < 2 ^ 31) :
    advance step (a % b : ℕ) b carry ⟨offset, (x * a % b : ℕ)⟩ =
      ⟨(m + carried a b x * c : ℕ), ((x + 1) * a % b : ℕ)⟩ := by
  have hpos : 0 < b := Nat.zero_lt_of_lt hx
  have hmod := Nat.mod_lt (x * a) hpos
  have hmod' := Nat.mod_lt a hpos
  have hsum : addInt (x * a % b : ℕ) (a % b : ℕ) = (x * a % b + a % b : ℕ) := addInt_natCast hfit
  have hoff : addInt offset step = m := by
    rw [addInt_eq (by omega) (by omega), hm]
  have hnext : (x + 1) * a % b = (x * a % b + a % b) % b := by
    rw [Nat.add_mul, Nat.one_mul, Nat.add_mod]
  simp only [advance, hsum, hoff, hnext, hc]
  by_cases hcarry : b ≤ x * a % b + a % b
  · rw [carried, if_pos hcarry, Nat.one_mul] at hlt ⊢
    have herror : addInt (x * a % b + a % b : ℕ) (-b) = (x * a % b + a % b - b : ℕ) := by
      rw [addInt_eq (by omega) (by omega)]
      omega
    have hoff' : addInt m c = (m + c : ℕ) := addInt_natCast hlt
    have hwrap : (x * a % b + a % b) % b = x * a % b + a % b - b := by
      rw [Nat.mod_eq_sub_mod hcarry]
      exact Nat.mod_eq_of_lt (by omega)
    rw [if_pos (by exact_mod_cast hcarry), herror, hoff', hwrap]
  · rw [if_neg (by exact_mod_cast hcarry), carried, if_neg hcarry, Nat.mod_eq_of_lt (not_le.mp hcarry), Nat.zero_mul,
      Nat.add_zero]

/-- One step with an error term that does not fit: the carry is lost. -/
theorem advance_of_overflow {a b x m : ℕ} {offset step carry : ℤ} (hb : b < 2 ^ 31) (hx : x < b)
    (hover : 2 ^ 31 ≤ x * a % b + a % b) (hm : offset + step = m) (hlt : m < 2 ^ 31) :
    (advance step (a % b : ℕ) b carry ⟨offset, (x * a % b : ℕ)⟩).offset = m := by
  have hpos : 0 < b := Nat.zero_lt_of_lt hx
  have hmod := Nat.mod_lt (x * a) hpos
  have hmod' := Nat.mod_lt a hpos
  have hsum : addInt (x * a % b : ℕ) (a % b : ℕ) = (x * a % b : ℕ) + (a % b : ℕ) - 2 ^ 32 :=
    addInt_of_le (by omega) (by omega)
  have hneg : ¬ ((b : ℤ) ≤ (x * a % b : ℕ) + (a % b : ℕ) - 2 ^ 32) := by omega
  simp only [advance, hsum, if_neg hneg]
  rw [addInt_eq (by omega) (by omega), hm]

/-- It should have carried. -/
theorem carried_of_overflow {a b x : ℕ} (hb : b < 2 ^ 31) (hover : 2 ^ 31 ≤ x * a % b + a % b) : carried a b x = 1 :=
  if_pos (by omega)

/-- The last error term always fits, so an overflow leaves a step to go wrong. -/
theorem exists_overflow {a b : ℕ} (hb : b < 2 ^ 31) (h : ¬ Fits a b) :
    ∃ x, x + 1 < b ∧ 2 ^ 31 ≤ x * a % b + a % b ∧ ∀ i < x, i * a % b + a % b < 2 ^ 31 := by
  classical
  have hex : ∃ x, x < b ∧ 2 ^ 31 ≤ x * a % b + a % b := by
    unfold Fits at h
    push Not at h
    exact h
  obtain ⟨hx, hover⟩ := Nat.find_spec hex
  refine ⟨Nat.find hex, ?_, hover, fun i hi => ?_⟩
  · by_contra hlast
    -- at the last step the term comes to `b` or to nothing
    have hend : Nat.find hex + 1 = b := by omega
    have hlt := Nat.mod_lt (Nat.find hex * a) (Nat.zero_lt_of_lt hx)
    have hlt' := Nat.mod_lt a (Nat.zero_lt_of_lt hx)
    have hsum : (Nat.find hex * a % b + a % b) % b = 0 := by
      rw [← Nat.add_mod, ← Nat.succ_mul, Nat.succ_eq_add_one, hend, Nat.mul_mod_right]
    obtain ⟨k, hk⟩ := Nat.dvd_of_mod_eq_zero hsum
    have hk2 : k < 2 := by
      by_contra hge
      have : b * 2 ≤ b * k := Nat.mul_le_mul_left b (not_lt.mp hge)
      omega
    interval_cases k <;> omega
  · have hmin := Nat.find_min hex hi
    omega

/-! ### The offsets -/

/-- Sizes whose products are positive `int`s. -/
structure Sizes.Valid (s : Sizes) : Prop where
  oldWidth : 0 < s.oldWidth
  oldHeight : 0 < s.oldHeight
  newWidth : 0 < s.newWidth
  newHeight : 0 < s.newHeight
  old : s.oldWidth * s.oldHeight < 2 ^ 31
  new : s.newWidth * s.newHeight < 2 ^ 31

section

variable {s : Sizes} (hs : s.Valid)
include hs

theorem newWidth_lt : s.newWidth < 2 ^ 31 := (Nat.le_mul_of_pos_right _ hs.newHeight).trans_lt hs.new

theorem newHeight_lt : s.newHeight < 2 ^ 31 := (Nat.le_mul_of_pos_left _ hs.newWidth).trans_lt hs.new

/-- `k` pixels into a row that starts at `base`. -/
theorem nextPixel_iterate {base : ℕ} (hbase : base + s.oldWidth < 2 ^ 31) :
    ∀ k ≤ s.newWidth, (∀ i < k, i * s.oldWidth % s.newWidth + s.oldWidth % s.newWidth < 2 ^ 31) →
      s.nextPixel^[k] ⟨base, 0⟩ =
        ⟨(base + k * s.oldWidth / s.newWidth : ℕ), (k * s.oldWidth % s.newWidth : ℕ)⟩ := by
  intro k
  induction k with
  | zero => intro _ _; simp
  | succ k ih =>
    intro hk hfit
    have hdiv := succ_mul_div (a := s.oldWidth) hs.newWidth k
    have hle : (k + 1) * s.oldWidth / s.newWidth ≤ s.oldWidth :=
      Nat.div_le_of_le_mul (Nat.mul_le_mul_right _ hk)
    rw [Function.iterate_succ_apply', ih (by omega) fun i hi => hfit i (by omega), Sizes.nextPixel,
      advance_of_fits (m := base + k * s.oldWidth / s.newWidth + s.oldWidth / s.newWidth) (by omega) (hfit k (Nat.lt_succ_self k))
        (by push_cast; rfl) Nat.cast_one.symm (by omega)]
    rw [hdiv, Nat.mul_one]
    simp only [Nat.add_assoc]

/-- The row at `base`, `y` rows of the input down. -/
theorem base_le {y : ℕ} (hy : y < s.newHeight) :
    y * s.oldHeight / s.newHeight * s.oldWidth + s.oldWidth < 2 ^ 31 := by
  have hrow : y * s.oldHeight / s.newHeight + 1 ≤ s.oldHeight := scaled_lt hs.oldHeight hy
  calc y * s.oldHeight / s.newHeight * s.oldWidth + s.oldWidth
      = (y * s.oldHeight / s.newHeight + 1) * s.oldWidth := by ring
    _ ≤ s.oldHeight * s.oldWidth := Nat.mul_le_mul_right _ hrow
    _ = s.oldWidth * s.oldHeight := Nat.mul_comm ..
    _ < 2 ^ 31 := hs.old

/-- What the end of a row adds to the offset. -/
theorem YD_eq : s.YD = (s.oldHeight / s.newHeight * s.oldWidth : ℕ) - s.oldWidth := by
  have hle : s.oldHeight / s.newHeight * s.oldWidth ≤ s.oldWidth * s.oldHeight := by
    rw [Nat.mul_comm]
    exact Nat.mul_le_mul_left _ (Nat.div_le_self ..)
  have hwidth : s.oldWidth ≤ s.oldWidth * s.oldHeight := Nat.le_mul_of_pos_right _ hs.oldHeight
  have hlt := hs.old
  have hmul : mulInt (s.oldHeight / s.newHeight : ℕ) s.oldWidth = (s.oldHeight / s.newHeight * s.oldWidth : ℕ) :=
    mulInt_natCast (by omega)
  rw [Sizes.YD, hmul, addInt_eq (by omega) (by omega)]
  ring

/-- With the columns exact, a row moves the offset on by the old width before `nextRow`. -/
theorem row_eq (hwidth : Fits s.oldWidth s.newWidth) {base : ℕ} (hbase : base + s.oldWidth < 2 ^ 31) (error : ℤ) :
    s.row ⟨base, error⟩ = s.nextRow ⟨(base + s.oldWidth : ℕ), error⟩ := by
  rw [Sizes.row, nextPixel_iterate hs hbase s.newWidth le_rfl hwidth, Nat.mul_div_cancel_left _ hs.newWidth]

/-- The offset `nextRow` comes to, before any carry. -/
theorem offset_add_YD (base : ℕ) :
    ((base + s.oldWidth : ℕ) : ℤ) + s.YD = (base + s.oldHeight / s.newHeight * s.oldWidth : ℕ) := by
  rw [YD_eq hs]
  push_cast
  ring

/-- `y` rows down, with the columns exact. -/
theorem row_iterate (hwidth : Fits s.oldWidth s.newWidth) :
    ∀ y < s.newHeight, (∀ i < y, i * s.oldHeight % s.newHeight + s.oldHeight % s.newHeight < 2 ^ 31) →
      s.row^[y] ⟨0, 0⟩ =
        ⟨(y * s.oldHeight / s.newHeight * s.oldWidth : ℕ), (y * s.oldHeight % s.newHeight : ℕ)⟩ := by
  intro y
  induction y with
  | zero => intro _ _; simp
  | succ y ih =>
    intro hy hfit
    have hdiv : (y + 1) * s.oldHeight / s.newHeight * s.oldWidth =
        y * s.oldHeight / s.newHeight * s.oldWidth + s.oldHeight / s.newHeight * s.oldWidth +
          carried s.oldHeight s.newHeight y * s.oldWidth := by
      rw [succ_mul_div hs.newHeight, Nat.add_mul, Nat.add_mul]
    have hbase := base_le hs hy
    rw [Function.iterate_succ_apply', ih (by omega) fun i hi => hfit i (by omega),
      row_eq hs hwidth (base_le hs (by omega)), Sizes.nextRow,
      advance_of_fits (by omega) (hfit y (Nat.lt_succ_self y)) (offset_add_YD hs _) rfl (by omega),
      hdiv]

/-- With error terms that fit the offsets are those of the nearest neighbours. -/
theorem offsetAt_of_fits (hwidth : Fits s.oldWidth s.newWidth) (hheight : Fits s.oldHeight s.newHeight) {y x : ℕ}
    (hy : y < s.newHeight) (hx : x < s.newWidth) : s.offsetAt y x = s.nearest y x := by
  rw [Sizes.offsetAt, row_iterate hs hwidth y hy fun i hi => hheight i (hi.trans hy),
    nextPixel_iterate hs (base_le hs hy) x hx.le fun i hi => hwidth i (hi.trans hx)]
  rfl

/-- A lost carry in a row shows in its first row. -/
theorem offsetAt_of_width_overflow (h : ¬ Fits s.oldWidth s.newWidth) :
    ∃ x < s.newWidth, s.offsetAt 0 x ≠ s.nearest 0 x := by
  obtain ⟨x, hx, hover, hfit⟩ := exists_overflow (newWidth_lt hs) h
  have hbase : 0 + s.oldWidth < 2 ^ 31 := by simpa using base_le hs hs.newHeight
  have hdiv := succ_mul_div (a := s.oldWidth) hs.newWidth x
  have hle : (x + 1) * s.oldWidth / s.newWidth ≤ s.oldWidth :=
    Nat.div_le_of_le_mul (Nat.mul_le_mul_right _ hx.le)
  rw [carried_of_overflow (newWidth_lt hs) hover] at hdiv
  refine ⟨x + 1, hx, ?_⟩
  have hat : s.offsetAt 0 (x + 1) = (0 + x * s.oldWidth / s.newWidth + s.oldWidth / s.newWidth : ℕ) := by
    have hrow : s.nextPixel^[x] ⟨((0 : ℕ) : ℤ), 0⟩ = _ := nextPixel_iterate hs hbase x (by omega) hfit
    rw [Sizes.offsetAt, Function.iterate_zero, id_eq, Function.iterate_succ_apply']
    rw [Nat.cast_zero] at hrow
    rw [hrow, Sizes.nextPixel]
    exact advance_of_overflow (newWidth_lt hs) (by omega) hover (by push_cast; rfl) (by omega)
  rw [hat, Sizes.nearest, hdiv, Nat.zero_mul, Nat.zero_div, Nat.zero_mul]
  omega

/-- A lost carry between rows shows in the first pixel of the next one. -/
theorem offsetAt_of_height_overflow (hwidth : Fits s.oldWidth s.newWidth) (h : ¬ Fits s.oldHeight s.newHeight) :
    ∃ y < s.newHeight, s.offsetAt y 0 ≠ s.nearest y 0 := by
  obtain ⟨y, hy, hover, hfit⟩ := exists_overflow (newHeight_lt hs) h
  have hdiv := succ_mul_div (a := s.oldHeight) hs.newHeight y
  rw [carried_of_overflow (newHeight_lt hs) hover] at hdiv
  have hnear : s.nearest (y + 1) 0 = y * s.oldHeight / s.newHeight * s.oldWidth +
      s.oldHeight / s.newHeight * s.oldWidth + s.oldWidth := by
    rw [Sizes.nearest, hdiv, Nat.zero_mul, Nat.zero_div]
    ring
  have hlt : s.nearest (y + 1) 0 < s.oldWidth * s.oldHeight := nearest_lt hs.oldWidth hs.oldHeight hy hs.newWidth
  have hold := hs.old
  have hpos := hs.oldWidth
  have hsum : y * s.oldHeight / s.newHeight * s.oldWidth + s.oldHeight / s.newHeight * s.oldWidth < 2 ^ 31 := by
    omega
  refine ⟨y + 1, hy, ?_⟩
  have hat : s.offsetAt (y + 1) 0 =
      (y * s.oldHeight / s.newHeight * s.oldWidth + s.oldHeight / s.newHeight * s.oldWidth : ℕ) := by
    rw [Sizes.offsetAt_zero, Function.iterate_succ_apply', row_iterate hs hwidth y (by omega) hfit,
      row_eq hs hwidth (base_le hs (by omega)), Sizes.nextRow]
    exact advance_of_overflow (newHeight_lt hs) (Nat.lt_of_succ_lt hy) hover (offset_add_YD hs _) hsum
  rw [hat, hnear]
  omega

end

/-- The offsets are those of the nearest neighbours if and only if the error terms fit. -/
theorem offsets_iff_fits {s : Sizes} (hs : s.Valid) :
    (∀ y < s.newHeight, ∀ x < s.newWidth, s.offsetAt y x = s.nearest y x) ↔
      Fits s.oldWidth s.newWidth ∧ Fits s.oldHeight s.newHeight := by
  constructor
  · intro h
    have hwidth : Fits s.oldWidth s.newWidth := by
      by_contra hnot
      obtain ⟨x, hx, hne⟩ := offsetAt_of_width_overflow hs hnot
      exact hne (h 0 hs.newHeight x hx)
    refine ⟨hwidth, ?_⟩
    by_contra hnot
    obtain ⟨y, hy, hne⟩ := offsetAt_of_height_overflow hs hwidth hnot
    exact hne (h y hy 0 hs.newWidth)
  · rintro ⟨hwidth, hheight⟩ y hy x hx
    exact offsetAt_of_fits hs hwidth hheight hy hx

/-- For positive sizes whose products are `int`s, the resampler is exact if and only if
its error terms fit an `int`. -/
theorem nearest_iff_fits (s : Sizes) (hs : s.Valid) :
    NearestNeighbour s ↔ Fits s.oldWidth s.newWidth ∧ Fits s.oldHeight s.newHeight :=
  (nearestNeighbour_iff_offsets hs.oldWidth hs.oldHeight).trans (offsets_iff_fits hs)

theorem nearest_iff_fits_three_to_two :
    NearestNeighbour ⟨3, 2, 2, 3⟩ ↔ Fits 3 2 ∧ Fits 2 3 :=
  nearest_iff_fits ⟨3, 2, 2, 3⟩ ⟨by decide, by decide, by decide, by decide, by decide, by decide⟩

/-- A line of `2 ^ 30 + 1` pixels made one longer. -/
def longer : Sizes := ⟨2 ^ 30 + 1, 1, 2 ^ 30 + 2, 1⟩

theorem longer_valid : longer.Valid :=
  ⟨by norm_num [longer], by norm_num [longer], by norm_num [longer], by norm_num [longer], by norm_num [longer],
    by norm_num [longer]⟩

theorem longer_not_fits : ¬ Fits longer.oldWidth longer.newWidth := by
  intro h
  have hfits := h 1 (by norm_num [longer])
  norm_num [longer] at hfits

/-- When a line of `2 ^ 30 + 1` pixels is made one longer, the third pixel is taken from the
first cell instead of the second. -/
theorem carry_lost : ¬ ∀ s : Sizes, s.Valid → NearestNeighbour s := by
  intro h
  have hoffsets := (nearestNeighbour_iff_offsets longer_valid.oldWidth longer_valid.oldHeight).mp (h longer longer_valid)
  exact longer_not_fits ((offsets_iff_fits longer_valid).mp hoffsets).1

end Resampling
end PGCon
