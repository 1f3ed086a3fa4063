/-
# Resizing images and Mats

`ImageResizeUtil.resize` packs the pixels of an image into `int`s, resamples them and
unpacks the result into an image of the type for its bands. A byte that goes in for band
`k` comes out for band `k`, so all that can go wrong is where the resampler reads
(`resizeBytes_spec`, `takes_iff`): its error terms have to fit an `int`, and the rows of
the image have to lie one after the other.
-/
import PGCon.PixelPacking

namespace PGCon
namespace ImageResize

open Word Effect Raster Images Resampling

/-! ### Resizing -/

def convertBufferedImageToRaw (image : BufferedImage) : Except JavaException (List (BitVec 32)) :=
  convertBytesToInts image.data image.sampleModel.bandOffsets

/-- `new BufferedImage` as for `matToBufferedImage`. -/
def convertRawToBufferedImage (raw : List (BitVec 32)) (width height channels : ℕ) :
    Except JavaException BufferedImage :=
  if width = 0 ∨ height = 0 ∨ 2 ^ 31 ≤ width * height * channels then .error .illegalArgument
  else do
    let data ← convertIntsToBytes raw (List.replicate (width * height * channels) 0) (getDefaultOffset channels)
    return newImage width height channels data

/-- `resize(BufferedImage, int, int)` for positive sizes. -/
def resize (image : BufferedImage) (newWidth newHeight : ℕ) : Except JavaException BufferedImage := do
  checkChannel image
  let rawInput ← convertBufferedImageToRaw image
  let rawOutput ← resizeRaw ⟨image.width, image.height, newWidth, newHeight⟩ rawInput
  convertRawToBufferedImage rawOutput newWidth newHeight image.bands

def convertMatToRaw (mat : Images.Mat) (offset : List ℕ) : Except JavaException (List (BitVec 32)) :=
  convertBytesToInts mat.bytes offset

def convertRawToMat (blank : Blank) (raw : List (BitVec 32)) (newWidth newHeight channels : ℕ) :
    Except JavaException Images.Mat := do
  let mat : Images.Mat := ⟨newHeight, newWidth, channels, false, blank newHeight newWidth channels⟩
  let matData ← convertIntsToBytes raw (List.replicate (mat.rows * mat.cols * mat.channels) 0)
    (getDefaultOffset channels)
  mat.put 0 matData 0 matData.length

/-- `resize(Mat, int, int)` for positive sizes. -/
def resizeMat (blank : Blank) (mat : Images.Mat) (newWidth newHeight : ℕ) : Except JavaException Images.Mat := do
  checkChannelMat mat
  let rawInput ← convertMatToRaw mat (getDefaultOffset mat.channels)
  let rawOutput ← resizeRaw ⟨mat.cols, mat.rows, newWidth, newHeight⟩ rawInput
  convertRawToMat blank rawOutput newWidth newHeight mat.channels

/-! ### From bytes to bytes -/

/-- What both kinds of `resize` have in common. -/
def resizeBytes (offsets : List ℕ) (s : Sizes) (c : ℕ) (data : List (BitVec 8)) :
    Except JavaException (List (BitVec 8)) := do
  let rawInput ← convertBytesToInts data offsets
  let rawOutput ← resizeRaw s rawInput
  convertIntsToBytes rawOutput (List.replicate (s.newWidth * s.newHeight * c) 0) (getDefaultOffset c)

section

variable {c : ℕ} {offsets : List ℕ} {s : Sizes} {data : List (BitVec 8)} (hc : c = 1 ∨ c = 3 ∨ c = 4)
  (hperm : offsets.Perm (List.range c)) (hlen : data.length = s.oldWidth * s.oldHeight * c)
include hc hperm hlen

/-- What comes out of band `k` went in for band `k`, wherever the resampler read it. -/
theorem resizeBytes_spec {out : List (BitVec 8)} (hok : resizeBytes offsets s c data = .ok out) :
    out.length = s.newWidth * s.newHeight * c ∧ ∀ y < s.newHeight, ∀ x < s.newWidth, ∃ n : ℕ, s.offsetAt y x = n ∧
      ∀ k < c, out.getD ((y * s.newWidth + x) * c + (typeOffsets c).getD k 0) 0 =
        data.getD (n * c + offsets.getD k 0) 0 := by
  obtain ⟨ints, hints, -, hin⟩ := convertBytesToInts_spec hc hperm hlen
  rw [resizeBytes, hints, ok_bind, bind_eq_ok, getDefaultOffset_eq hc] at hok
  obtain ⟨raw, hraw, hout⟩ := hok
  obtain ⟨hrawlen, hcells⟩ := resizeRaw_ok_iff.mp hraw
  have harea : s.newWidth * s.newHeight = raw.length := by rw [hrawlen, Nat.mul_comm]
  have hzeros : (List.replicate (s.newWidth * s.newHeight * c) (0 : BitVec 8)).length = raw.length * c := by
    rw [List.length_replicate, harea]
  obtain ⟨out', hout', hlen', hback⟩ := convertIntsToBytes_spec hc (typeOffsets_facts hc).2.1 hzeros
  obtain rfl := Except.ok.inj (hout.symm.trans hout')
  refine ⟨by rw [hlen', hzeros, harea], fun y hy x hx => ?_⟩
  obtain ⟨p, hload, hp⟩ := hcells y hy x hx
  obtain ⟨n, hn, hget⟩ := of_load hload
  refine ⟨n, hn, fun k hk => ?_⟩
  have hpixel : raw.getD (y * s.newWidth + x) 0 = ints.getD n 0 := by
    rw [List.getD_eq_getElem?_getD, List.getD_eq_getElem?_getD, hp, hget]
  rw [hback _ (hrawlen ▸ cell_lt hy hx) k hk, hpixel, hin n k hk]

/-- It returns if the resampler stays inside. -/
theorem exists_resizeBytes (h : ∀ y < s.newHeight, ∀ x < s.newWidth, ∃ n : ℕ, s.offsetAt y x = n ∧
    n < s.oldWidth * s.oldHeight) : ∃ out, resizeBytes offsets s c data = .ok out := by
  obtain ⟨ints, hints, hle, -⟩ := convertBytesToInts_spec hc hperm hlen
  have hinside : ∀ y < s.newHeight, ∀ x < s.newWidth, ∃ p, load ints (s.offsetAt y x) = .ok p := by
    intro y hy x hx
    obtain ⟨n, hn, hlt⟩ := h y hy x hx
    rw [hn]
    exact ⟨_, load_of_lt (hlt.trans_le hle)⟩
  obtain ⟨raw, hraw⟩ := exists_resized hinside
  have hzeros : (List.replicate (s.newWidth * s.newHeight * c) (0 : BitVec 8)).length = raw.length * c := by
    rw [List.length_replicate, (resizeRaw_ok_iff.mp hraw).1, Nat.mul_comm s.newHeight]
  obtain ⟨out, hout, -⟩ := convertIntsToBytes_spec hc (typeOffsets_facts hc).2.1 hzeros
  refine ⟨out, ?_⟩
  rw [resizeBytes, hints, ok_bind, hraw, ok_bind, getDefaultOffset_eq hc, hout]

end

/-- The bytes of pixel `(x, y)` of the result are those of the pixel that starts at this
cell of the data. -/
def Takes (start : ℕ → ℕ → ℕ) (offsets : List ℕ) (s : Sizes) (c : ℕ) (data : List (BitVec 8)) : Prop :=
  ∃ out, resizeBytes offsets s c data = .ok out ∧ ∀ y < s.newHeight, ∀ x < s.newWidth, ∀ k < c,
    out.getD ((y * s.newWidth + x) * c + (typeOffsets c).getD k 0) 0 = data.getD (start y x + offsets.getD k 0) 0

/-- They are so for all data exactly if the resampler reads there. -/
theorem takes_iff {c : ℕ} {offsets : List ℕ} {s : Sizes} (start : ℕ → ℕ → ℕ) (hc : c = 1 ∨ c = 3 ∨ c = 4)
    (hperm : offsets.Perm (List.range c))
    (hstart : ∀ y < s.newHeight, ∀ x < s.newWidth, ∀ k < c,
      start y x + offsets.getD k 0 < s.oldWidth * s.oldHeight * c) :
    (∀ data : List (BitVec 8), data.length = s.oldWidth * s.oldHeight * c → Takes start offsets s c data) ↔
      ∀ y < s.newHeight, ∀ x < s.newWidth, s.offsetAt y x * c = start y x := by
  have hpos : 0 < c := by omega
  constructor
  · intro h y hy x hx
    let data := (List.replicate (s.oldWidth * s.oldHeight * c) (0 : BitVec 8)).set (start y x + offsets.getD 0 0) 1
    have hlen : data.length = s.oldWidth * s.oldHeight * c := by simp [data]
    obtain ⟨out, hok, htakes⟩ := h data hlen
    obtain ⟨n, hn, hspec⟩ := (resizeBytes_spec hc hperm hlen hok).2 y hy x hx
    -- the byte that is set is the one that was read
    have hset : data.getD (start y x + offsets.getD 0 0) 0 = 1 :=
      getD_set_self (by simpa using hstart y hy x hx 0 hpos) 1
    have hread : data.getD (n * c + offsets.getD 0 0) 0 = 1 := by
      rw [← hspec 0 hpos, htakes y hy x hx 0 hpos, hset]
    have hsame := eq_of_getD_set hread
    rw [hn]
    exact_mod_cast Nat.add_right_cancel hsame
  · intro h data hlen
    have hinside : ∀ y < s.newHeight, ∀ x < s.newWidth, ∃ n : ℕ, s.offsetAt y x = n ∧ n * c = start y x := by
      intro y hy x hx
      have hmul := h y hy x hx
      have hnonneg : 0 ≤ s.offsetAt y x := by
        by_contra hneg
        have : s.offsetAt y x * c < 0 := Int.mul_neg_of_neg_of_pos (not_le.mp hneg) (by exact_mod_cast hpos)
        omega
      obtain ⟨n, hn⟩ := Int.eq_ofNat_of_zero_le hnonneg
      rw [hn] at hmul ⊢
      exact ⟨n, rfl, by exact_mod_cast hmul⟩
    obtain ⟨out, hok⟩ := exists_resizeBytes hc hperm hlen fun y hy x hx => by
      obtain ⟨n, hn, hmul⟩ := hinside y hy x hx
      refine ⟨n, hn, Nat.lt_of_mul_lt_mul_right (a := c) ?_⟩
      rw [hmul]
      exact (Nat.le_add_right ..).trans_lt (hstart y hy x hx 0 hpos)
    refine ⟨out, hok, fun y hy x hx k hk => ?_⟩
    obtain ⟨n, hn, hspec⟩ := (resizeBytes_spec hc hperm hlen hok).2 y hy x hx
    obtain ⟨n', hn', hmul⟩ := hinside y hy x hx
    obtain rfl : n = n' := by exact_mod_cast hn.symm.trans hn'
    rw [hspec k hk, hmul]

/-! ### Images -/

/-- Positive sizes whose products with the number of channels are `int`s. -/
structure Sized (c : ℕ) (s : Sizes) : Prop where
  oldWidth : 0 < s.oldWidth
  oldHeight : 0 < s.oldHeight
  newWidth : 0 < s.newWidth
  newHeight : 0 < s.newHeight
  old : s.oldWidth * s.oldHeight * c < 2 ^ 31
  new : s.newWidth * s.newHeight * c < 2 ^ 31

theorem Sized.valid {c : ℕ} {s : Sizes} (h : Sized c s) (hc : 0 < c) : s.Valid :=
  ⟨h.oldWidth, h.oldHeight, h.newWidth, h.newHeight, (Nat.le_mul_of_pos_right _ hc).trans_lt h.old,
    (Nat.le_mul_of_pos_right _ hc).trans_lt h.new⟩

/-- The sizes of a call of `resize`. -/
def sizes (image : BufferedImage) (newWidth newHeight : ℕ) : Sizes := ⟨image.width, image.height, newWidth, newHeight⟩

/-- An image whose data array is as long as its samples are many, in any band order. -/
structure Resizable (image : BufferedImage) (newWidth newHeight : ℕ) : Prop where
  accepted : Accepted image
  valid : image.Valid
  full : image.data.length = image.width * image.height * image.bands
  perm : image.sampleModel.bandOffsets.Perm (List.range image.bands)
  sized : Sized image.bands (sizes image newWidth newHeight)

/-- The result has the new size and the type for its bands, and each of its samples is that
of the same band at the nearest neighbour. -/
def KeepsBands (image : BufferedImage) (newWidth newHeight : ℕ) : Prop :=
  ∃ result, resize image newWidth newHeight = .ok result ∧ result.width = newWidth ∧ result.height = newHeight ∧
    result.sampleModel.bandOffsets = typeOffsets image.bands ∧ ∀ y < newHeight, ∀ x < newWidth, ∀ k < image.bands,
      result.sample y x k = image.sample (y * image.height / newHeight) (x * image.width / newWidth) k

theorem resize_eq {image : BufferedImage} {newWidth newHeight : ℕ} (hacc : Accepted image)
    (hsized : Sized image.bands (sizes image newWidth newHeight)) :
    resize image newWidth newHeight =
      (resizeBytes image.sampleModel.bandOffsets (sizes image newWidth newHeight) image.bands image.data >>=
        fun data => .ok (newImage newWidth newHeight image.bands data)) := by
  have hsizes : ¬ (newWidth = 0 ∨ newHeight = 0 ∨ 2 ^ 31 ≤ newWidth * newHeight * image.bands) := by
    have hwidth : 0 < newWidth := hsized.newWidth
    have hheight : 0 < newHeight := hsized.newHeight
    have hsize : newWidth * newHeight * image.bands < 2 ^ 31 := hsized.new
    omega
  rw [resize, checkChannel_ok hacc, ok_bind, resizeBytes, bind_assoc]
  refine congrArg (convertBytesToInts image.data image.sampleModel.bandOffsets >>= ·) (funext fun raw => ?_)
  rw [bind_assoc]
  refine congrArg (resizeRaw (sizes image newWidth newHeight) raw >>= ·) (funext fun raw => ?_)
  rw [convertRawToBufferedImage, if_neg hsizes]
  rfl

/-- The pixel in row `i` and column `j` starts inside the data. -/
theorem origin_nonneg {image : BufferedImage} (hbands : 0 < image.bands) (hvalid : image.Valid)
    (hperm : image.sampleModel.bandOffsets.Perm (List.range image.bands)) {i j : ℕ} (hi : i < image.height)
    (hj : j < image.width) : 0 ≤ image.origin i j := by
  obtain ⟨k, hk, hzero⟩ := List.getElem_of_mem (hperm.mem_iff.mpr (List.mem_range.mpr hbands))
  have hcell := (hvalid.samples i hi j hj k hk).1
  rw [List.getD_eq_getElem _ _ hk, hzero] at hcell
  simpa using hcell

section

variable {image : BufferedImage} {newWidth newHeight : ℕ} (hr : Resizable image newWidth newHeight)
include hr

theorem Resizable.bands_pos : 0 < image.bands := hr.accepted.bands_pos

/-- The nearest neighbour of a pixel is a pixel. -/
theorem Resizable.near_lt {y x : ℕ} (hy : y < newHeight) (hx : x < newWidth) :
    y * image.height / newHeight < image.height ∧ x * image.width / newWidth < image.width :=
  ⟨scaled_lt hr.sized.oldHeight hy, scaled_lt hr.sized.oldWidth hx⟩

/-- The start of the nearest neighbour. -/
theorem Resizable.start {y x : ℕ} (hy : y < newHeight) (hx : x < newWidth) :
    ((image.origin (y * image.height / newHeight) (x * image.width / newWidth)).toNat : ℤ) =
      image.origin (y * image.height / newHeight) (x * image.width / newWidth) :=
  Int.toNat_of_nonneg (origin_nonneg hr.bands_pos hr.valid hr.perm (hr.near_lt hy hx).1 (hr.near_lt hy hx).2)

/-- The sample of a band at the nearest neighbour. -/
theorem Resizable.sample_near {y x k : ℕ} (hy : y < newHeight) (hx : x < newWidth) (hk : k < image.bands) :
    (image.origin (y * image.height / newHeight) (x * image.width / newWidth)).toNat +
        image.sampleModel.bandOffsets.getD k 0 < image.data.length ∧
      image.sample (y * image.height / newHeight) (x * image.width / newWidth) k = some (image.data.getD
        ((image.origin (y * image.height / newHeight) (x * image.width / newWidth)).toNat +
          image.sampleModel.bandOffsets.getD k 0) 0) := by
  obtain ⟨hi, hj⟩ := hr.near_lt hy hx
  have hcell := hr.valid.samples _ hi _ hj k hk
  have hsample := sample_eq image hcell
  have hstart := hr.start hy hx
  generalize image.origin (y * image.height / newHeight) (x * image.width / newWidth) = o at hcell hsample hstart ⊢
  have hnat : (o + (image.sampleModel.bandOffsets.getD k 0 : ℤ)).toNat =
      o.toNat + image.sampleModel.bandOffsets.getD k 0 := by
    omega
  rw [hnat] at hsample
  exact ⟨by omega, hsample⟩

/-- For images, bands are kept if the bytes are taken from the nearest neighbours. -/
theorem keepsBands_iff : KeepsBands image newWidth newHeight ↔
    Takes (fun y x => (image.origin (y * image.height / newHeight) (x * image.width / newWidth)).toNat)
      image.sampleModel.bandOffsets (sizes image newWidth newHeight) image.bands image.data := by
  have hfacts := typeOffsets_facts hr.accepted.bands
  have heq := resize_eq hr.accepted hr.sized
  constructor
  · rintro ⟨result, hok, -, -, -, hsamples⟩
    rw [heq, bind_eq_ok] at hok
    obtain ⟨out, hout, hresult⟩ := hok
    obtain rfl := Except.ok.inj hresult
    refine ⟨out, hout, fun y hy x hx k hk => ?_⟩
    have hsample := hsamples y hy x hx k hk
    rw [sample_newImage, (hr.sample_near hy hx hk).2] at hsample
    exact getD_of_some hsample
  · rintro ⟨out, hout, hcells⟩
    have hlen := (resizeBytes_spec hr.accepted.bands hr.perm hr.full hout).1
    refine ⟨newImage newWidth newHeight image.bands out, ?_, rfl, rfl, rfl, fun y hy x hx k hk => ?_⟩
    · rw [heq, hout, ok_bind]
    · have hlt : (y * newWidth + x) * image.bands + (typeOffsets image.bands).getD k 0 < out.length := by
        have hcell : (y * newWidth + x) * image.bands + (typeOffsets image.bands).getD k 0 <
            newHeight * newWidth * image.bands := cell_lt (cell_lt hy hx) (hfacts.2.2.2 k hk)
        rw [hlen]
        exact hcell.trans_eq (congrArg (· * image.bands) (Nat.mul_comm ..))
      rw [sample_newImage, (hr.sample_near hy hx hk).2, ← hcells y hy x hx k hk, List.getElem?_eq_getElem hlt]
      exact congrArg some (List.getD_eq_getElem _ _ hlt).symm

/-- The other contents leave the layout as it is. -/
theorem Resizable.withData {data : List (BitVec 8)} (hlen : data.length = image.data.length) :
    Resizable (image.withData data) newWidth newHeight :=
  ⟨⟨hr.accepted.bands, hr.accepted.isByte, hr.accepted.isComponent⟩, valid_withData hr.valid hlen,
    hlen.trans hr.full, hr.perm, hr.sized⟩

/-- A layout keeps its bands, whatever it shows, if and only if the resampler reads where
its pixels are. -/
theorem layout_iff : (∀ data : List (BitVec 8), data.length = image.data.length →
      KeepsBands (image.withData data) newWidth newHeight) ↔
    ∀ y < newHeight, ∀ x < newWidth, (sizes image newWidth newHeight).offsetAt y x * image.bands =
      image.origin (y * image.height / newHeight) (x * image.width / newWidth) := by
  have hstart : ∀ y < newHeight, ∀ x < newWidth, ∀ k < image.bands,
      (image.origin (y * image.height / newHeight) (x * image.width / newWidth)).toNat +
        image.sampleModel.bandOffsets.getD k 0 < image.width * image.height * image.bands := by
    intro y hy x hx k hk
    rw [← hr.full]
    exact (hr.sample_near hy hx hk).1
  have htakes := takes_iff (s := sizes image newWidth newHeight) _ hr.accepted.bands hr.perm hstart
  constructor
  · intro h y hy x hx
    rw [← hr.start hy hx]
    refine htakes.mp (fun data hlen => ?_) y hy x hx
    have hlen' : data.length = image.data.length := hlen.trans hr.full.symm
    exact (keepsBands_iff (hr.withData hlen')).mp (h data hlen')
  · intro h data hlen
    refine (keepsBands_iff (hr.withData hlen)).mpr (htakes.mpr (fun y hy x hx => ?_) data (hlen.trans hr.full))
    exact (h y hy x hx).trans (hr.start hy hx).symm

end

/-- The pixels lie one after the other, row by row. -/
structure Packed (image : BufferedImage) : Prop where
  pixelStride : image.sampleModel.pixelStride = image.bands
  scanlineStride : image.sampleModel.scanlineStride = image.width * image.bands
  translateX : image.translateX = 0
  translateY : image.translateY = 0

theorem Packed.origin_eq {image : BufferedImage} (h : Packed image) (i j : ℕ) :
    image.origin i j = ((i * image.width + j : ℕ) : ℤ) * image.bands := by
  rw [BufferedImage.origin, h.pixelStride, h.scanlineStride, h.translateX, h.translateY]
  push_cast
  ring

/-- Of the layouts with the pixels in order, those keep their bands whose error terms fit. -/
theorem packed_iff {image : BufferedImage} {newWidth newHeight : ℕ} (hr : Resizable image newWidth newHeight)
    (hp : Packed image) : (∀ data : List (BitVec 8), data.length = image.data.length →
      KeepsBands (image.withData data) newWidth newHeight) ↔
    Fits image.width newWidth ∧ Fits image.height newHeight := by
  have hbands : (image.bands : ℤ) ≠ 0 := by exact_mod_cast hr.bands_pos.ne'
  rw [layout_iff hr]
  refine Iff.trans ?_ (offsets_iff_fits (hr.sized.valid hr.bands_pos))
  refine forall₄_congr fun y _ x _ => ?_
  rw [hp.origin_eq, mul_left_inj' hbands]
  rfl

/-- Colour images are never large enough for the error terms not to fit. -/
theorem Sized.fits {c : ℕ} {s : Sizes} (h : Sized c s) (hc : 2 ≤ c) :
    Fits s.oldWidth s.newWidth ∧ Fits s.oldHeight s.newHeight := by
  have hsize : s.newWidth * s.newHeight * 2 < 2 ^ 31 := (Nat.mul_le_mul_left _ hc).trans_lt h.new
  have hwidth : s.newWidth ≤ s.newWidth * s.newHeight := Nat.le_mul_of_pos_right _ h.newHeight
  have hheight : s.newHeight ≤ s.newWidth * s.newHeight := Nat.le_mul_of_pos_left _ h.newWidth
  exact ⟨fits_of_le (by omega), fits_of_le (by omega)⟩

/-- So they keep their bands. -/
theorem colour_kept {image : BufferedImage} {newWidth newHeight : ℕ} (hr : Resizable image newWidth newHeight)
    (hp : Packed image) (hc : 2 ≤ image.bands) : KeepsBands image newWidth newHeight :=
  (packed_iff hr hp).mpr (hr.sized.fits hc) image.data rfl

/-! ### Mats -/

/-- The result has the new size, and each of its samples is that of the same channel at the
nearest neighbour. -/
def KeepsChannels (blank : Blank) (mat : Images.Mat) (newWidth newHeight : ℕ) : Prop :=
  ∃ result, resizeMat blank mat newWidth newHeight = .ok result ∧ result.rows = newHeight ∧ result.cols = newWidth ∧
    result.channels = mat.channels ∧ ∀ y < newHeight, ∀ x < newWidth, ∀ k < mat.channels,
      result.sample y x k = mat.sample (y * mat.rows / newHeight) (x * mat.cols / newWidth) k

section

variable (blank : Blank) {mat : Images.Mat} {newWidth newHeight : ℕ}
  (hc : mat.channels = 1 ∨ mat.channels = 3 ∨ mat.channels = 4)
  (hsized : Sized mat.channels ⟨mat.cols, mat.rows, newWidth, newHeight⟩)

/-- The Mat made of these bytes. -/
def ofBytes (rows cols channels : ℕ) (data : List (BitVec 8)) : Images.Mat :=
  ⟨rows, cols, channels, false, fun i j k => data.getD ((i * cols + j) * channels + k) 0⟩

theorem sample_ofBytes {rows cols channels : ℕ} (data : List (BitVec 8)) {i j k : ℕ} (hi : i < rows) (hj : j < cols)
    (hk : k < channels) :
    (ofBytes rows cols channels data).sample i j k = some (data.getD ((i * cols + j) * channels + k) 0) :=
  dif_pos ⟨hi, hj, hk⟩

theorem sample_bytes (mat : Images.Mat) {i j k : ℕ} (hi : i < mat.rows) (hj : j < mat.cols) (hk : k < mat.channels) :
    mat.sample i j k = some (mat.bytes.getD ((i * mat.cols + j) * mat.channels + k) 0) := by
  have hbytes := getD_bytes mat ⟨i, hi⟩ ⟨j, hj⟩ ⟨k, hk⟩
  rw [Images.Mat.place] at hbytes
  rw [Images.Mat.sample, dif_pos ⟨hi, hj, hk⟩, hbytes]

theorem length_bytes_eq (mat : Images.Mat) : mat.bytes.length = mat.cols * mat.rows * mat.channels := by
  rw [length_bytes]
  ring

include hc

theorem resizeMat_eq : resizeMat blank mat newWidth newHeight =
    (resizeBytes (typeOffsets mat.channels) ⟨mat.cols, mat.rows, newWidth, newHeight⟩ mat.channels mat.bytes >>=
      fun data => Images.Mat.put ⟨newHeight, newWidth, mat.channels, false, blank newHeight newWidth mat.channels⟩ 0 data 0
        data.length) := by
  have hcheck : checkChannelMat mat = .ok () := if_neg (by tauto)
  rw [resizeMat, hcheck, ok_bind, resizeBytes, bind_assoc, getDefaultOffset_eq hc]
  refine congrArg (convertBytesToInts mat.bytes (typeOffsets mat.channels) >>= ·) (funext fun raw => ?_)
  rw [bind_assoc]
  refine congrArg (resizeRaw ⟨mat.cols, mat.rows, newWidth, newHeight⟩ raw >>= ·) (funext fun raw => ?_)
  rw [convertRawToMat, getDefaultOffset_eq hc, Nat.mul_comm newWidth]

/-- The Mat that is returned. -/
theorem resizeMat_ok_iff {result : Images.Mat} : resizeMat blank mat newWidth newHeight = .ok result ↔
    ∃ out, resizeBytes (typeOffsets mat.channels) ⟨mat.cols, mat.rows, newWidth, newHeight⟩ mat.channels mat.bytes =
      .ok out ∧ result = ofBytes newHeight newWidth mat.channels out := by
  rw [resizeMat_eq blank hc, bind_eq_ok]
  refine exists_congr fun out => and_congr_right fun hout => ?_
  have hlen := (resizeBytes_spec hc (typeOffsets_facts hc).2.1 (length_bytes_eq mat) hout).1
  have hput := put_all ⟨newHeight, newWidth, mat.channels, false, blank newHeight newWidth mat.channels⟩
    (hlen.trans (by ring : newWidth * newHeight * mat.channels = newHeight * (newWidth * mat.channels)))
  rw [hput]
  exact ⟨fun h => (Except.ok.inj h).symm, fun h => congrArg Except.ok h.symm⟩

/-- For Mats, channels are kept if the bytes are taken from the nearest neighbours. -/
theorem keepsChannels_iff (hrows : 0 < mat.rows) (hcols : 0 < mat.cols) : KeepsChannels blank mat newWidth newHeight ↔
    Takes (fun y x => (Sizes.mk mat.cols mat.rows newWidth newHeight).nearest y x * mat.channels)
      (typeOffsets mat.channels) ⟨mat.cols, mat.rows, newWidth, newHeight⟩ mat.channels mat.bytes := by
  have hfacts := typeOffsets_facts hc
  constructor
  · rintro ⟨result, hok, -, -, -, hsamples⟩
    obtain ⟨out, hout, rfl⟩ := (resizeMat_ok_iff blank hc).mp hok
    refine ⟨out, hout, fun y hy x hx k hk => ?_⟩
    have hlt := hfacts.2.2.2 k hk
    have hsample := hsamples y hy x hx _ hlt
    rw [sample_ofBytes out hy hx hlt, sample_bytes mat (scaled_lt hrows hy) (scaled_lt hcols hx) hlt] at hsample
    exact Option.some.inj hsample
  · rintro ⟨out, hout, hcells⟩
    refine ⟨_, (resizeMat_ok_iff blank hc).mpr ⟨out, hout, rfl⟩, rfl, rfl, rfl, fun y hy x hx q hq => ?_⟩
    -- every channel is that of a band
    obtain ⟨k, hk, hkq⟩ := List.getElem_of_mem (hfacts.2.1.mem_iff.mpr (List.mem_range.mpr hq))
    have hband : (typeOffsets mat.channels).getD k 0 = q := by rw [List.getD_eq_getElem _ _ hk, hkq]
    have hcell := hcells y hy x hx k (hfacts.1 ▸ hk)
    rw [hband] at hcell
    rw [sample_ofBytes out hy hx hq, sample_bytes mat (scaled_lt hrows hy) (scaled_lt hcols hx) hq]
    exact congrArg some hcell

end

/-- Any bytes are those of a Mat. -/
theorem exists_bytes_eq {rows cols channels : ℕ} {data : List (BitVec 8)} (signed : Bool)
    (hlen : data.length = cols * rows * channels) : ∃ samples : Samples (BitVec 8) rows cols channels,
      (Images.Mat.mk rows cols channels signed samples).bytes = data := by
  refine ⟨fun i j k => data.getD ((i * cols + j) * channels + k) 0, List.ext_getElem ?_ fun n hn hn' => ?_⟩
  · rw [length_bytes_eq, hlen]
  · obtain ⟨i, hi, j, hj, k, hk, rfl⟩ := exists_place (hlen ▸ hn')
    rw [← List.getD_eq_getElem _ 0 hn, ← List.getD_eq_getElem _ 0 hn']
    exact getD_bytes (Images.Mat.mk rows cols channels signed _) ⟨i, hi⟩ ⟨j, hj⟩ ⟨k, hk⟩

/-- Mats keep their channels, whatever they show, if and only if the error terms fit. -/
theorem mats_iff (blank : Blank) {rows cols c newWidth newHeight : ℕ} (signed : Bool) (hc : c = 1 ∨ c = 3 ∨ c = 4)
    (hsized : Sized c ⟨cols, rows, newWidth, newHeight⟩) :
    (∀ samples, KeepsChannels blank ⟨rows, cols, c, signed, samples⟩ newWidth newHeight) ↔
      Fits cols newWidth ∧ Fits rows newHeight := by
  have hpos : 0 < c := by omega
  have hne : (c : ℤ) ≠ 0 := by exact_mod_cast hpos.ne'
  have hfacts := typeOffsets_facts hc
  have hrows : 0 < rows := hsized.oldHeight
  have hcols : 0 < cols := hsized.oldWidth
  have htakes := takes_iff (s := ⟨cols, rows, newWidth, newHeight⟩)
    (fun y x => (Sizes.mk cols rows newWidth newHeight).nearest y x * c) hc hfacts.2.1
    fun y hy x hx k hk => cell_lt (nearest_lt hcols hrows hy hx) (hfacts.2.2.2 k hk)
  have hoffsets := offsets_iff_fits (hsized.valid hpos)
  have hdata : (∀ samples, KeepsChannels blank ⟨rows, cols, c, signed, samples⟩ newWidth newHeight) ↔
      ∀ data : List (BitVec 8), data.length = cols * rows * c →
        Takes (fun y x => (Sizes.mk cols rows newWidth newHeight).nearest y x * c) (typeOffsets c)
          ⟨cols, rows, newWidth, newHeight⟩ c data := by
    constructor
    · intro h data hlen
      obtain ⟨samples, rfl⟩ := exists_bytes_eq signed hlen
      exact (keepsChannels_iff blank hc hrows hcols).mp (h samples)
    · intro h samples
      exact (keepsChannels_iff blank hc hrows hcols).mpr (h _ (length_bytes_eq _))
  rw [hdata, htakes, ← hoffsets]
  refine forall₄_congr fun y _ x _ => ?_
  rw [Nat.cast_mul, mul_left_inj' hne]

/-! ### All of them -/

/-- Resizing keeps the bands of an image layout, whatever it shows, if and only if the
resampler reads where its pixels are. With the pixels in order, and for Mats, that is if
and only if the error terms of the resampler fit an `int`. -/
theorem bands_kept_iff (blank : Blank) (newWidth newHeight : ℕ) :
    (∀ image : BufferedImage, Resizable image newWidth newHeight →
      ((∀ data : List (BitVec 8), data.length = image.data.length →
          KeepsBands (image.withData data) newWidth newHeight) ↔
        ∀ y < newHeight, ∀ x < newWidth, (sizes image newWidth newHeight).offsetAt y x * image.bands =
          image.origin (y * image.height / newHeight) (x * image.width / newWidth)) ∧
      (Packed image → ((∀ data : List (BitVec 8), data.length = image.data.length →
          KeepsBands (image.withData data) newWidth newHeight) ↔
        Fits image.width newWidth ∧ Fits image.height newHeight))) ∧
    ∀ (rows cols c : ℕ) (signed : Bool), c = 1 ∨ c = 3 ∨ c = 4 → Sized c ⟨cols, rows, newWidth, newHeight⟩ →
      ((∀ samples, KeepsChannels blank ⟨rows, cols, c, signed, samples⟩ newWidth newHeight) ↔
        Fits cols newWidth ∧ Fits rows newHeight) :=
  ⟨fun _ hr => ⟨layout_iff hr, packed_iff hr⟩, fun _ _ _ signed hc hsized => mats_iff blank signed hc hsized⟩

/-- A grey line of this many black pixels. -/
def line (width : ℕ) : BufferedImage := newImage width 1 1 (List.replicate width 0)

theorem packed_line (width : ℕ) : Packed (line width) := ⟨rfl, rfl, rfl, rfl⟩

theorem resizable_line {width newWidth : ℕ} (hpos : 0 < width) (hlt : width < 2 ^ 31) (hpos' : 0 < newWidth)
    (hlt' : newWidth < 2 ^ 31) : Resizable (line width) newWidth 1 := by
  have hfull : IsFull width 1 1 (List.replicate width 0) :=
    ⟨hpos, Nat.one_pos, Or.inl rfl, by simp, by simpa using hlt⟩
  have hroot : window (newImage width 1 1 (List.replicate width 0)) 0 0 width 1 = line width := by
    simp [window, newImage, line]
  have hvalid := valid_window hfull hpos Nat.one_pos (Nat.zero_add width).le (Nat.zero_add 1).le
  rw [hroot] at hvalid
  refine ⟨⟨Or.inl rfl, rfl, rfl⟩, hvalid, hfull.data_length, List.Perm.refl _, hpos, Nat.one_pos, hpos', Nat.one_pos,
    ?_, ?_⟩
  · simpa [sizes, line, newImage, BufferedImage.bands, typeOffsets] using hlt
  · simpa [sizes, line, newImage, BufferedImage.bands, typeOffsets] using hlt'

/-- Three bands that are not in the default order, whatever the six pixels are. -/
theorem bands_kept_iff_shuffled : (∀ data : List (BitVec 8), data.length = 18 →
      KeepsBands ((sixPixels [1, 2, 0]).withData data) 2 1) ∧
    ∀ samples, KeepsChannels (fun _ _ _ _ _ _ => 0) ⟨2, 3, 3, false, samples⟩ 2 1 := by
  have hvalid : (sixPixels [1, 2, 0]).Valid := ⟨by decide, by decide, by decide +kernel⟩
  have hr : Resizable (sixPixels [1, 2, 0]) 2 1 :=
    ⟨⟨.inr (.inl rfl), rfl, rfl⟩, hvalid, rfl, by decide,
      ⟨by decide, by decide, by decide, by decide, by decide, by decide⟩⟩
  have hfits : Fits 3 2 ∧ Fits 2 1 := ⟨fits_of_le (by norm_num), fits_of_le (by norm_num)⟩
  obtain ⟨himages, hmats⟩ := bands_kept_iff (fun _ _ _ _ _ _ => 0) 2 1
  exact ⟨((himages _ hr).2 ⟨rfl, rfl, rfl, rfl⟩).mpr hfits,
    (hmats 2 3 3 false (.inr (.inl rfl)) ⟨by decide, by decide, by decide, by decide, by decide, by decide⟩).mpr hfits⟩

/-- A grey line of `2 ^ 30 + 1` pixels made one longer: some pixel is not that of its
nearest neighbour. -/
theorem bands_not_kept : ¬ ∀ (image : BufferedImage) (newWidth newHeight : ℕ), Resizable image newWidth newHeight →
    Packed image → KeepsBands image newWidth newHeight := by
  intro h
  have hr : Resizable (line longer.oldWidth) longer.newWidth 1 :=
    resizable_line longer_valid.oldWidth (by norm_num [longer]) longer_valid.newWidth (by norm_num [longer])
  have hp := packed_line longer.oldWidth
  have hall : ∀ data : List (BitVec 8), data.length = (line longer.oldWidth).data.length →
      KeepsBands ((line longer.oldWidth).withData data) longer.newWidth 1 := fun data hlen =>
    h _ _ _ (hr.withData hlen) ⟨hp.pixelStride, hp.scanlineStride, hp.translateX, hp.translateY⟩
  exact longer_not_fits ((packed_iff hr hp).mp hall).1

end ImageResize
end PGCon
