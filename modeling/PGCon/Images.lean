/-
# Images of the JVM and Mats

`ImageUtil` converts between `BufferedImage`s of bytes and 8-bit Mats. A Mat keeps its
samples row by row in the order B, G, R(, A). An image keeps them in a data array in
the order its band offsets say, and a sub-image shares the array of its root: it is a
window on it, placed by the translation of its raster.

`bufferedImageToMat` copies the bytes, in one piece or row by row, and then moves the
channels. `base` is where the bytes of a pixel are copied from (`copyData_ok_iff`) and
`destination` is where each goes (`correctColorChannel_spec`), and what is said of the
conversions is read off from these two.
-/
import PGCon.Raster
import PGCon.Protocol

namespace PGCon
namespace Images

open Word Effect Raster

/-! ### Mats -/

/-- A Mat of type CV_8UC(channels), or CV_8SC(channels) if it is signed. -/
structure Mat where
  rows : ℕ
  cols : ℕ
  channels : ℕ
  signed : Bool
  samples : Samples (BitVec 8) rows cols channels

/-- What memory a new Mat finds. -/
abbrev Blank := ∀ rows cols channels : ℕ, Samples (BitVec 8) rows cols channels

namespace Mat

/-- The place of a sample among all samples of the Mat. -/
def place (mat : Mat) (i j k : ℕ) : ℕ := (i * mat.cols + j) * mat.channels + k

/-- `put(row, 0, data, offset, length)`. The native code checks no bounds of `data`; a
read that leaves it is an error here. -/
def put (mat : Mat) (row : ℕ) (data : List (BitVec 8)) (offset : ℤ) (length : ℕ) : Except JavaException Mat :=
  if length % mat.channels ≠ 0 then .error .unsupportedOperation
  else if 0 ≤ offset ∧ offset + length ≤ data.length then
    .ok { mat with samples := fun i j k =>
      let n := mat.place i j k
      let first := mat.place row 0 0
      if first ≤ n ∧ n < first + length then data.getD (offset.toNat + (n - first)) 0 else mat.samples i j k }
  else .error .arrayIndexOutOfBounds

/-- `get(0, 0, bytes)` into an array that has room for all samples. -/
def bytes (mat : Mat) : List (BitVec 8) :=
  List.ofFn fun n : Fin (mat.rows * (mat.cols * mat.channels)) =>
    mat.samples ⟨n / (mat.cols * mat.channels), row_lt n.isLt⟩ ⟨n / mat.channels % mat.cols, col_lt n.isLt⟩
      ⟨n % mat.channels, channel_lt n.isLt⟩

/-- The sample of a channel, if there is one. -/
def sample (mat : Mat) (i j k : ℕ) : Option (BitVec 8) :=
  if h : i < mat.rows ∧ j < mat.cols ∧ k < mat.channels then some (mat.samples ⟨i, h.1⟩ ⟨j, h.2.1⟩ ⟨k, h.2.2⟩) else none

/-- One sample after `Core.mixChannels`: each pair says from which channel to which, and
a channel that is no destination keeps its sample. -/
def mixed (src : Mat) (fromTo : List (ℕ × ℕ)) (i : Fin src.rows) (j : Fin src.cols) (k : Fin src.channels)
    (old : BitVec 8) : BitVec 8 :=
  fromTo.foldl (fun sample pair =>
    if h : pair.1 < src.channels then (if pair.2 = k.val then src.samples i j ⟨pair.1, h⟩ else sample) else sample) old

/-- `Core.mixChannels` into a new Mat of the same size. -/
def mixChannels (src : Mat) (dst : Samples (BitVec 8) src.rows src.cols src.channels) (fromTo : List (ℕ × ℕ)) :
    Except JavaException Mat :=
  if fromTo.all fun pair => decide (pair.1 < src.channels ∧ pair.2 < src.channels) then
    .ok { src with samples := fun i j k => src.mixed fromTo i j k (dst i j k) }
  else .error .cvException

end Mat

/-! ### Images -/

/-- `SampleModel`; one that is not a `ComponentSampleModel` is not looked into further. -/
structure SampleModel where
  isComponent : Bool
  width : ℕ
  height : ℕ
  pixelStride : ℕ
  scanlineStride : ℕ
  bandOffsets : List ℕ
  deriving DecidableEq

structure BufferedImage where
  width : ℕ
  height : ℕ
  sampleModel : SampleModel
  /-- `getRaster().getSampleModelTranslateX()` -/
  translateX : ℤ
  translateY : ℤ
  /-- the data buffer is a `DataBufferByte` -/
  isByte : Bool
  data : List (BitVec 8)

namespace BufferedImage

variable (image : BufferedImage)

/-- `getNumBands()`. -/
def bands : ℕ := image.sampleModel.bandOffsets.length

/-- The same layout with other contents. -/
def withData (data : List (BitVec 8)) : BufferedImage := { image with data := data }

/-- The cell of the data array where the pixel in row `i` and column `j` starts. -/
def origin (i j : ℕ) : ℤ :=
  (i - image.translateY) * image.sampleModel.scanlineStride + (j - image.translateX) * image.sampleModel.pixelStride

/-- The sample of a band, as `Raster.getSample` finds it. -/
def sample (i j band : ℕ) : Option (BitVec 8) :=
  let n := image.origin i j + image.sampleModel.bandOffsets.getD band 0
  if 0 ≤ n then image.data[n.toNat]? else none

end BufferedImage

/-! ### The conversions -/

/-- `checkChannel(BufferedImage)`. -/
def checkChannel (image : BufferedImage) : Except JavaException Unit :=
  if image.bands ≠ 1 ∧ image.bands ≠ 3 ∧ image.bands ≠ 4 then .error .illegalArgument
  else if !image.isByte then .error .illegalArgument
  else if !image.sampleModel.isComponent then .error .illegalArgument
  else .ok ()

/-- `checkChannel(Mat)`. -/
def checkChannelMat (mat : Mat) : Except JavaException Unit :=
  if mat.channels ≠ 1 ∧ mat.channels ≠ 3 ∧ mat.channels ≠ 4 then .error .illegalArgument else .ok ()

def CORRECT_COLOR_CHANNEL_BGR : List ℕ := [2, 1, 0]
def CORRECT_COLOR_CHANNEL_BGRA : List ℕ := [0, 3, 2, 1]
def BGRA2ABGR : List (ℕ × ℕ) := [(0, 1), (1, 2), (2, 3), (3, 0)]

/-- The pairs `correctColorChannel(Mat, ComponentSampleModel)` mixes by, if it does. -/
def fromTo (bandOffsets : List ℕ) : Option (List (ℕ × ℕ)) :=
  match bandOffsets with
  | [o0, o1, o2] =>
    if bandOffsets ≠ CORRECT_COLOR_CHANNEL_BGR then some [(0, o2), (1, o1), (2, o0)] else none
  | [o0, o1, o2, o3] =>
    if bandOffsets ≠ CORRECT_COLOR_CHANNEL_BGRA then some [(0, o0), (1, o3), (2, o2), (3, o1)] else none
  | _ => none

section

variable (blank : Blank)

/-- `correctColorChannel(Mat, ComponentSampleModel)`. -/
def correctColorChannel (mat : Mat) (sampleModel : SampleModel) : Except JavaException Mat :=
  match fromTo sampleModel.bandOffsets with
  | some pairs => mat.mixChannels (blank mat.rows mat.cols mat.channels) pairs
  | none => .ok mat

/-- `correctColorChannel(Mat)`. -/
def correctColorChannelMat (mat : Mat) : Except JavaException Mat :=
  if mat.channels ≠ 4 then .ok mat else mat.mixChannels (blank mat.rows mat.cols mat.channels) BGRA2ABGR

/-- `((i + subOffY) * originWidth + subOffX) * channels`. -/
def rowOffset (image : BufferedImage) (i : ℕ) : ℤ :=
  mulInt (addInt (mulInt (addInt i (-image.translateY)) image.sampleModel.width) (-image.translateX)) image.bands

/-- `dataSize != data.length`. -/
def isSubImage (image : BufferedImage) : Prop :=
  mulInt (mulInt image.bands image.width) image.height ≠ image.data.length

instance (image : BufferedImage) : Decidable (isSubImage image) :=
  inferInstanceAs (Decidable (mulInt (mulInt image.bands image.width) image.height ≠ image.data.length))

/-- The data of the image, copied into a new Mat as it is. -/
def copyData (image : BufferedImage) : Except JavaException Mat :=
  let mat : Mat := ⟨image.height, image.width, image.bands, false, blank image.height image.width image.bands⟩
  if isSubImage image then
    (List.range image.height).foldlM (fun mat i =>
      mat.put i image.data (rowOffset image i) (image.width * image.bands)) mat
  else mat.put 0 image.data 0 image.data.length

def bufferedImageToMat (image : BufferedImage) : Except JavaException Mat := do
  checkChannel image
  let mat ← copyData blank image
  correctColorChannel blank mat image.sampleModel

end

/-- `BufferedImage.TYPE_BYTE_GRAY`, `TYPE_3BYTE_BGR` and `TYPE_4BYTE_ABGR`: the band offsets. -/
def typeOffsets : ℕ → List ℕ
  | 1 => [0]
  | 3 => [2, 1, 0]
  | _ => [3, 2, 1, 0]

/-- `new BufferedImage(width, height, type)` with this data, for the type of this many
bands. -/
def newImage (width height bands : ℕ) (data : List (BitVec 8)) : BufferedImage where
  width := width
  height := height
  sampleModel := ⟨true, width, height, bands, width * bands, typeOffsets bands⟩
  translateX := 0
  translateY := 0
  isByte := true
  data := data

/-- `matToBufferedImage`. A `BufferedImage` needs positive sizes and an array that an
`int` can index. -/
def matToBufferedImage (blank : Blank) (mat : Mat) : Except JavaException BufferedImage := do
  checkChannelMat mat
  if mat.cols = 0 ∨ mat.rows = 0 ∨ 2 ^ 31 ≤ mat.cols * mat.rows * mat.channels then .error .illegalArgument
  else
    let mat ← correctColorChannelMat blank mat
    return newImage mat.cols mat.rows mat.channels mat.bytes

/-- `getSubimage(x, y, w, h)`: the child shares the array and the sample model. -/
def getSubimage (image : BufferedImage) (x y w h : ℕ) : Except JavaException BufferedImage :=
  if 0 < w ∧ 0 < h ∧ x + w ≤ image.width ∧ y + h ≤ image.height then
    .ok { image with
      width := w, height := h, translateX := image.translateX - x, translateY := image.translateY - y }
  else .error .illegalArgument

/-! ### Copying the data -/

/-- The samples of a row. -/
theorem place_eq (mat : Mat) (i j k : ℕ) : mat.place i j k = mat.place i 0 0 + (j * mat.channels + k) := by
  simp only [Mat.place, Nat.add_mul, Nat.add_zero, Nat.add_assoc]

theorem place_row (mat : Mat) (i : ℕ) : mat.place i 0 0 = i * (mat.cols * mat.channels) := by
  simp only [Mat.place, Nat.add_zero, Nat.mul_assoc]

/-- A sample of row `i` is in the stretch of that row and of no other. -/
theorem place_in_row (mat : Mat) (row : ℕ) {i j k : ℕ} (hj : j < mat.cols) (hk : k < mat.channels) :
    (mat.place row 0 0 ≤ mat.place i j k ∧ mat.place i j k < mat.place row 0 0 + mat.cols * mat.channels) ↔
      i = row := by
  have hlt := cell_lt hj hk
  rw [place_eq mat i, place_row, place_row]
  constructor
  · rintro ⟨hle, hlt'⟩
    by_contra hne
    rcases Nat.lt_or_gt_of_ne hne with h | h
    · have hmul := row_le (mat.cols * mat.channels) h
      omega
    · have hmul := row_le (mat.cols * mat.channels) h
      omega
  · rintro rfl
    omega

/-- Putting one row. -/
theorem put_row_ok_iff {mat mat' : Mat} {row : ℕ} {data : List (BitVec 8)} {offset : ℤ} :
    mat.put row data offset (mat.cols * mat.channels) = .ok mat' ↔
      (0 ≤ offset ∧ offset + (mat.cols * mat.channels : ℕ) ≤ data.length) ∧
        mat' = { mat with samples := fun i j k =>
          if i.val = row then data.getD (offset.toNat + (j.val * mat.channels + k.val)) 0 else mat.samples i j k } := by
  have hmod : mat.cols * mat.channels % mat.channels = 0 := Nat.mul_mod_left ..
  have hsamples : (fun (i : Fin mat.rows) (j : Fin mat.cols) (k : Fin mat.channels) =>
      if mat.place row 0 0 ≤ mat.place i j k ∧ mat.place i j k < mat.place row 0 0 + mat.cols * mat.channels then
        data.getD (offset.toNat + (mat.place i j k - mat.place row 0 0)) 0 else mat.samples i j k) =
      fun i j k =>
        if i.val = row then data.getD (offset.toNat + (j.val * mat.channels + k.val)) 0 else mat.samples i j k := by
    funext i j k
    have hin := place_in_row mat row (i := i.val) j.isLt k.isLt
    by_cases hi : i.val = row
    · rw [if_pos (hin.mpr hi), if_pos hi, place_eq mat i, hi, Nat.add_sub_cancel_left]
    · rw [if_neg fun h => hi (hin.mp h), if_neg hi]
  rw [Mat.put, if_neg (by rw [hmod]; simp)]
  split
  · rename_i hrange
    simp only [hsamples, Except.ok.injEq, hrange, and_self, true_and, eq_comm]
  · rename_i hrange
    exact ⟨fun h => (by cases h), fun h => absurd h.1 hrange⟩

theorem place_lt (mat : Mat) {i j k : ℕ} (hi : i < mat.rows) (hj : j < mat.cols) (hk : k < mat.channels) :
    mat.place i j k < mat.rows * (mat.cols * mat.channels) := by
  rw [place_eq, place_row]
  exact cell_lt hi (cell_lt hj hk)

/-- Putting all of them. -/
theorem put_all (mat : Mat) {data : List (BitVec 8)} (hlen : data.length = mat.rows * (mat.cols * mat.channels)) :
    mat.put 0 data 0 data.length =
      .ok { mat with samples := fun i j k => data.getD (mat.place i j k) 0 } := by
  have hmod : ¬ (data.length % mat.channels ≠ 0) := by
    rw [hlen, ← Nat.mul_assoc, Nat.mul_mod_left, not_not]
  have hzero : mat.place 0 0 0 = 0 := by simp [Mat.place]
  rw [Mat.put, if_neg hmod, if_pos ⟨le_rfl, by omega⟩]
  congr 2
  funext i j k
  have hplace : mat.place i j k < data.length := by
    rw [hlen]
    exact place_lt mat i.isLt j.isLt k.isLt
  rw [hzero, if_pos ⟨Nat.zero_le _, by omega⟩]
  simp

/-- Past the end of the data the memory stays as it was found. -/
theorem put_past {mat mat' : Mat} {data : List (BitVec 8)} (h : mat.put 0 data 0 data.length = .ok mat') :
    ∃ samples : Samples (BitVec 8) mat.rows mat.cols mat.channels, mat' = { mat with samples := samples } ∧
      ∀ (i : Fin mat.rows) (j : Fin mat.cols) (k : Fin mat.channels), data.length ≤ mat.place i j k →
        samples i j k = mat.samples i j k := by
  have hzero : mat.place 0 0 0 = 0 := by simp [Mat.place]
  unfold Mat.put at h
  split at h
  · cases h
  · split at h
    · refine ⟨_, (Except.ok.inj h).symm, fun i j k hpast => if_neg ?_⟩
      omega
    · cases h

/-! ### Where the bytes come from -/

namespace BufferedImage

/-- The cell the bytes of the pixel in row `i` and column `j` are copied from. -/
def base (image : BufferedImage) (i j : ℕ) : ℤ :=
  if isSubImage image then rowOffset image i + (j * image.bands : ℕ)
  else ((i * image.width + j) * image.bands : ℕ)

/-- No row that is copied leaves the data array. -/
def Inside (image : BufferedImage) : Prop :=
  isSubImage image → ∀ i < image.height,
    0 ≤ rowOffset image i ∧ rowOffset image i + (image.width * image.bands : ℕ) ≤ image.data.length

/-- What is copied in one piece is as long as the Mat. `dataSize` can overflow, so this is
not what `isSubImage` says. -/
def Whole (image : BufferedImage) : Prop :=
  ¬ isSubImage image → image.data.length = image.height * (image.width * image.bands)

/-- The Mat with these bytes. -/
def copied (image : BufferedImage) : Mat :=
  ⟨image.height, image.width, image.bands, false, fun i j k => image.data.getD (image.base i j + k).toNat 0⟩

end BufferedImage

section

variable {blank : Blank} {image : BufferedImage}

/-- The first `n` rows are copied. -/
def rowsCopied (blank : Blank) (image : BufferedImage) (n : ℕ) : Mat :=
  ⟨image.height, image.width, image.bands, false, fun i j k =>
    if i.val < n then image.data.getD ((rowOffset image i).toNat + (j.val * image.bands + k.val)) 0
    else blank image.height image.width image.bands i j k⟩

/-- Copying row by row: the induction is on the rows. -/
theorem copyRows_ok_iff (n : ℕ) (mat : Mat) :
    (List.range n).foldlM (fun mat i => mat.put i image.data (rowOffset image i) (image.width * image.bands))
        (rowsCopied blank image 0) = .ok mat ↔
      (∀ i < n, 0 ≤ rowOffset image i ∧
        rowOffset image i + (image.width * image.bands : ℕ) ≤ image.data.length) ∧ mat = rowsCopied blank image n := by
  induction n generalizing mat with
  | zero =>
    simp [pure, Except.pure, eq_comm]
  | succ n ih =>
    have hput : ∀ mat', (rowsCopied blank image n).put n image.data (rowOffset image n) (image.width * image.bands) =
        .ok mat' ↔ (0 ≤ rowOffset image n ∧
          rowOffset image n + (image.width * image.bands : ℕ) ≤ image.data.length) ∧
          mat' = rowsCopied blank image (n + 1) := by
      intro mat'
      refine Iff.trans put_row_ok_iff (and_congr_right fun _ => ?_)
      refine Eq.congr_right ?_
      simp only [rowsCopied, Mat.mk.injEq, heq_eq_eq, true_and]
      funext i j k
      by_cases hi : i.val = n
      · rw [if_pos hi, if_pos (by omega), hi]
      · rw [if_neg hi]
        by_cases hlt : i.val < n
        · rw [if_pos hlt, if_pos (by omega)]
        · rw [if_neg hlt, if_neg (by omega)]
    have hone : ∀ mat', List.foldlM (fun (mat : Mat) i =>
        mat.put i image.data (rowOffset image i) (image.width * image.bands)) mat' [n] =
        mat'.put n image.data (rowOffset image n) (image.width * image.bands) := fun mat' => by
      simp
    rw [List.range_succ, List.foldlM_append, bind_eq_ok]
    simp only [ih, hone]
    constructor
    · rintro ⟨mat', ⟨hrows, rfl⟩, h⟩
      obtain ⟨hrow, rfl⟩ := (hput _).mp h
      refine ⟨fun i hi => ?_, rfl⟩
      rcases Nat.lt_succ_iff_lt_or_eq.mp hi with hlt | rfl
      · exact hrows i hlt
      · exact hrow
    · rintro ⟨hrows, rfl⟩
      exact ⟨_, ⟨fun i hi => hrows i (by omega), rfl⟩, (hput _).mpr ⟨hrows n (by omega), rfl⟩⟩

/-- `dataSize`, with one overflow for both products. -/
theorem size_bmod (image : BufferedImage) : mulInt (mulInt image.bands image.width) image.height =
    ((image.height * (image.width * image.bands) : ℕ) : ℤ).bmod (2 ^ 32) := by
  rw [mulInt, mulInt, Int.bmod_mul_bmod, ← Nat.cast_mul, ← Nat.cast_mul, Nat.mul_comm image.bands,
    Nat.mul_comm _ image.height]

theorem whole_of_size (hsize : image.height * (image.width * image.bands) < 2 ^ 31) : image.Whole := by
  intro hsub
  rw [isSubImage, not_not, size_bmod, Int.bmod_eq_of_le (by omega) (by omega)] at hsub
  exact_mod_cast hsub.symm

/-- Only an overflow hides a sub-image, and the Mat is then far larger than the data. -/
theorem overflow_of_not_whole (h : ¬ image.Whole) :
    ¬ isSubImage image ∧ image.data.length < image.height * (image.width * image.bands) := by
  obtain ⟨hsub, hne⟩ := Classical.not_imp.mp h
  refine ⟨hsub, ?_⟩
  rw [isSubImage, not_not, size_bmod] at hsub
  generalize image.height * (image.width * image.bands) = size at hsub hne ⊢
  have hlt : (size : ℤ).bmod (2 ^ 32) < 2 ^ 31 := Int.bmod_lt (by norm_num)
  by_contra hle
  rw [Int.bmod_eq_of_le (by omega) (by omega)] at hsub
  exact hne (by exact_mod_cast hsub.symm)

/-- The data is copied, if no row leaves the array. -/
theorem copyData_ok_iff (hwhole : image.Whole) {mat : Mat} :
    copyData blank image = .ok mat ↔ image.Inside ∧ mat = image.copied := by
  have hblank : (⟨image.height, image.width, image.bands, false,
      blank image.height image.width image.bands⟩ : Mat) = rowsCopied blank image 0 := by
    simp [rowsCopied]
  rw [copyData, hblank]
  by_cases hsub : isSubImage image
  · rw [if_pos hsub, copyRows_ok_iff]
    have hinside : image.Inside ↔ ∀ i < image.height, 0 ≤ rowOffset image i ∧
        rowOffset image i + (image.width * image.bands : ℕ) ≤ image.data.length :=
      ⟨fun h => h hsub, fun h _ => h⟩
    rw [hinside]
    refine and_congr_right fun hrows => Eq.congr_right ?_
    simp only [rowsCopied, BufferedImage.copied, Mat.mk.injEq, heq_eq_eq, true_and]
    funext i j k
    have hrow := (hrows i i.isLt).1
    rw [if_pos i.isLt, BufferedImage.base, if_pos hsub]
    congr 1
    omega
  · have hput : (rowsCopied blank image 0).put 0 image.data 0 image.data.length = .ok image.copied := by
      rw [put_all _ (hwhole hsub)]
      refine congrArg (fun samples => Except.ok (Mat.mk image.height image.width image.bands false samples)) ?_
      funext i j k
      have hbase : (image.base i j + k).toNat = (rowsCopied blank image 0).place i j k := by
        rw [BufferedImage.base, if_neg hsub]
        exact Int.toNat_natCast _
      rw [hbase]
    have hinside : image.Inside := fun h => absurd h hsub
    rw [if_neg hsub, hput]
    simp [hinside, eq_comm]

end

/-! ### Where the channels go -/

/-- Channel `p` of the copied data becomes this channel of the result. -/
def destination (bandOffsets : List ℕ) (p : ℕ) : ℕ :=
  match fromTo bandOffsets with
  | some pairs => (pairs.getD p (0, 0)).2
  | none => p

/-- The pairs are those of `destination`, and they are within the channels. -/
def PairsRight (bandOffsets : List ℕ) : Prop :=
  (∀ pairs ∈ fromTo bandOffsets,
      (∀ pair ∈ pairs, pair.1 < bandOffsets.length ∧ pair.2 < bandOffsets.length) ∧ (pairs.map (·.2)).Nodup ∧
        ∀ p < bandOffsets.length, (p, destination bandOffsets p) ∈ pairs) ∧
    ∀ p < bandOffsets.length, destination bandOffsets p < bandOffsets.length

/-- A channel that is no destination keeps its sample. -/
theorem mixed_of_not_mem (src : Mat) {i : Fin src.rows} {j : Fin src.cols} {k : Fin src.channels} :
    ∀ (pairs : List (ℕ × ℕ)) (old : BitVec 8), k.val ∉ pairs.map (·.2) → src.mixed pairs i j k old = old
  | [], old, _ => rfl
  | pair :: pairs, old, h => by
    rw [List.map_cons, List.mem_cons, not_or] at h
    have hne : ¬ pair.2 = k.val := fun e => h.1 e.symm
    have hstep : src.mixed (pair :: pairs) i j k old = src.mixed pairs i j k old := by
      simp [Mat.mixed, hne]
    rw [hstep, mixed_of_not_mem src pairs old h.2]

/-- With distinct destinations each pair has its effect. -/
theorem mixed_of_mem (src : Mat) {i : Fin src.rows} {j : Fin src.cols} {p k : Fin src.channels} :
    ∀ (pairs : List (ℕ × ℕ)) (old : BitVec 8), (pairs.map (·.2)).Nodup → (p.val, k.val) ∈ pairs →
      src.mixed pairs i j k old = src.samples i j p
  | [], _, _, h => by cases h
  | pair :: pairs, old, hnodup, h => by
    rw [List.map_cons, List.nodup_cons] at hnodup
    rcases List.mem_cons.mp h with rfl | hmem
    · have hstep : src.mixed ((p.val, k.val) :: pairs) i j k old = src.mixed pairs i j k (src.samples i j p) := by
        simp [Mat.mixed]
      rw [hstep, mixed_of_not_mem src pairs _ hnodup.1]
    · exact mixed_of_mem src pairs _ hnodup.2 hmem

/-- The channels are moved to their destinations. -/
theorem correctColorChannel_spec (blank : Blank) (mat : Mat) {sampleModel : SampleModel}
    (hpairs : PairsRight sampleModel.bandOffsets) (hc : mat.channels = sampleModel.bandOffsets.length) :
    ∃ samples : Samples (BitVec 8) mat.rows mat.cols mat.channels,
      correctColorChannel blank mat sampleModel = .ok { mat with samples := samples } ∧
        ∀ i j (p q : Fin mat.channels), q.val = destination sampleModel.bandOffsets p →
          samples i j q = mat.samples i j p := by
  obtain ⟨hsome, hlt⟩ := hpairs
  rw [correctColorChannel]
  cases hpairs : fromTo sampleModel.bandOffsets with
  | none =>
    refine ⟨mat.samples, rfl, fun i j p q hq => ?_⟩
    have hdest : destination sampleModel.bandOffsets p = p := by rw [destination, hpairs]
    rw [Fin.ext (hq.trans hdest)]
  | some pairs =>
    obtain ⟨hrange, hnodup, hmem⟩ := hsome pairs hpairs
    have hall : (pairs.all fun pair => decide (pair.1 < mat.channels ∧ pair.2 < mat.channels)) = true := by
      rw [List.all_eq_true]
      intro pair hpair
      exact decide_eq_true (hc ▸ hrange pair hpair)
    refine ⟨fun i j k => mat.mixed pairs i j k (blank mat.rows mat.cols mat.channels i j k), ?_, fun i j p q hq => ?_⟩
    · simp only [Mat.mixChannels, hall, ↓reduceIte]
    · refine mixed_of_mem mat pairs _ hnodup ?_
      rw [hq]
      exact hmem p (hc ▸ p.isLt)

end Images
end PGCon
