/-
# Sub-images, and there and back

A sub-image of a sub-image is a window on the root (`nested_window`), and the offsets
`bufferedImageToMat` computes from its translation are those of its pixels
(`aligned_window`).

A whole image and a Mat hold the same samples in the same places, channel `q` in the
cell `stored q` of its pixel. Both conversions keep to that (`matToBufferedImage_spec`,
`bufferedImageToMat_spec`), so they are each other's inverse.
-/
import PGCon.BandOrder

namespace PGCon
namespace Images

open Word Effect Raster

/-! ### Sub-images -/

/-- The sizes and the data of an image of one of the three types. -/
structure IsFull (width height bands : ℕ) (data : List (BitVec 8)) : Prop where
  width_pos : 0 < width
  height_pos : 0 < height
  bands_mem : bands = 1 ∨ bands = 3 ∨ bands = 4
  data_length : data.length = width * height * bands
  size_lt : width * height * bands < 2 ^ 31

theorem IsFull.bands_pos {width height bands : ℕ} {data : List (BitVec 8)} (h : IsFull width height bands data) :
    0 < bands := by
  have := h.bands_mem
  omega

/-- A rectangle given to `getSubimage`. -/
structure Rect where
  x : ℕ
  y : ℕ
  w : ℕ
  h : ℕ
  deriving DecidableEq, Repr

/-- A chain of nested sub-images. -/
def nested (image : BufferedImage) (rects : List Rect) : Except JavaException BufferedImage :=
  rects.foldlM (fun image r => getSubimage image r.x r.y r.w r.h) image

/-- The window of the root that lies `x` to the right and `y` down. -/
def window (root : BufferedImage) (x y w h : ℕ) : BufferedImage :=
  { root with width := w, height := h, translateX := root.translateX - x, translateY := root.translateY - y }

/-- A sub-image of a window is a window. -/
theorem getSubimage_window {root image : BufferedImage} {x y w h : ℕ} {r : Rect}
    (hsub : getSubimage (window root x y w h) r.x r.y r.w r.h = .ok image) :
    image = window root (x + r.x) (y + r.y) r.w r.h ∧ 0 < r.w ∧ 0 < r.h ∧ r.x + r.w ≤ w ∧ r.y + r.h ≤ h := by
  unfold getSubimage at hsub
  split at hsub
  · rename_i hin
    refine ⟨?_, hin⟩
    obtain rfl := Except.ok.inj hsub
    simp only [window, BufferedImage.mk.injEq, true_and, and_true]
    constructor <;> push_cast <;> ring
  · cases hsub

/-- So is the innermost image of a chain. -/
theorem nested_window {root : BufferedImage} : ∀ (rects : List Rect) (x y w h : ℕ) (image : BufferedImage),
    nested (window root x y w h) rects = .ok image → 0 < w → 0 < h →
      ∃ w' h', image = window root (x + (rects.map (·.x)).sum) (y + (rects.map (·.y)).sum) w' h' ∧ 0 < w' ∧ 0 < h' ∧
        (rects.map (·.x)).sum + w' ≤ w ∧ (rects.map (·.y)).sum + h' ≤ h
  | [], x, y, w, h, image, hn, hw, hh => by
    obtain rfl := Except.ok.inj (show Except.ok (window root x y w h) = Except.ok image from hn)
    exact ⟨w, h, by simp [hw, hh]⟩
  | r :: rects, x, y, w, h, image, hn, hw, hh => by
    rw [nested, List.foldlM_cons, bind_eq_ok] at hn
    obtain ⟨child, hchild, hn⟩ := hn
    obtain ⟨rfl, hw', hh', hxw, hyh⟩ := getSubimage_window hchild
    obtain ⟨w', h', rfl, hpos, hpos', hx, hy⟩ := nested_window rects _ _ _ _ image hn hw' hh'
    refine ⟨w', h', ?_, hpos, hpos', ?_, ?_⟩
    · simp only [List.map_cons, List.sum_cons, Nat.add_assoc]
    · rw [List.map_cons, List.sum_cons]
      omega
    · rw [List.map_cons, List.sum_cons]
      omega

theorem typeOffsets_facts {bands : ℕ} (h : bands = 1 ∨ bands = 3 ∨ bands = 4) :
    (typeOffsets bands).length = bands ∧ (typeOffsets bands).Perm (List.range bands) ∧ Good (typeOffsets bands) ∧
      ∀ k < bands, (typeOffsets bands).getD k 0 < bands := by
  rcases h with rfl | rfl | rfl <;> decide

section

variable {width height bands : ℕ} {data : List (BitVec 8)} (hfull : IsFull width height bands data)
include hfull

theorem bands_window (x y w h : ℕ) : (window (newImage width height bands data) x y w h).bands = bands :=
  (typeOffsets_facts hfull.bands_mem).1

omit hfull in
/-- The pixels of a window are those of the image behind it. -/
theorem origin_window (x y w h i j : ℕ) :
    (window (newImage width height bands data) x y w h).origin i j = (((y + i) * width + (x + j)) * bands : ℕ) := by
  simp only [window, newImage, BufferedImage.origin]
  push_cast
  ring

omit hfull in
theorem sample_window (x y w h i j band : ℕ) :
    (window (newImage width height bands data) x y w h).sample i j band =
      (newImage width height bands data).sample (y + i) (x + j) band := by
  have horigin : (newImage width height bands data).origin (y + i) (x + j) =
      (window (newImage width height bands data) x y w h).origin i j := by
    rw [origin_window]
    simp only [newImage, BufferedImage.origin]
    push_cast
    ring
  rw [BufferedImage.sample, BufferedImage.sample, horigin]
  rfl

/-- Such a pixel is within the data. -/
theorem pixel_lt {i j k : ℕ} (hi : i < height) (hj : j < width) (hk : k < bands) :
    (i * width + j) * bands + k < data.length := by
  have hpixel := cell_lt hi hj
  have hsample := cell_lt hpixel hk
  rw [hfull.data_length, Nat.mul_comm width height]
  exact hsample

theorem valid_window {x y w h : ℕ} (hw : 0 < w) (hh : 0 < h) (hx : x + w ≤ width) (hy : y + h ≤ height) :
    (window (newImage width height bands data) x y w h).Valid := by
  have hbands := bands_window hfull x y w h
  refine ⟨hw, hh, fun i hi j hj k hk => ?_⟩
  rw [hbands] at hk
  have hi' : i < h := hi
  have hj' : j < w := hj
  have hoff := (typeOffsets_facts hfull.bands_mem).2.2.2 k hk
  have hlt : ((y + i) * width + (x + j)) * bands + (typeOffsets bands).getD k 0 < data.length :=
    pixel_lt hfull (by omega) (by omega) hoff
  rw [origin_window]
  change 0 ≤ ((((y + i) * width + (x + j)) * bands : ℕ) : ℤ) + ((typeOffsets bands).getD k 0 : ℕ) ∧
    ((((y + i) * width + (x + j)) * bands : ℕ) : ℤ) + ((typeOffsets bands).getD k 0 : ℕ) < data.length
  omega

/-- The size of a window does not overflow. -/
theorem whole_window {x y w h : ℕ} (hx : x + w ≤ width) (hy : y + h ≤ height) :
    (window (newImage width height bands data) x y w h).Whole := by
  have hle : h * (w * bands) ≤ width * height * bands := by
    calc h * (w * bands) = w * h * bands := by ring
      _ ≤ width * height * bands := Nat.mul_le_mul_right _ (Nat.mul_le_mul (by omega) (by omega))
  refine whole_of_size ?_
  rw [bands_window hfull]
  exact hle.trans_lt hfull.size_lt

theorem rowOffset_window {x y w h i : ℕ} (hw : 0 < w) (hx : x + w ≤ width) (hi : y + i < height) :
    rowOffset (window (newImage width height bands data) x y w h) i = (((y + i) * width + x) * bands : ℕ) := by
  have hbands := hfull.bands_pos
  have hlt : ((y + i) * width + x) * bands + 0 < data.length := pixel_lt hfull hi (by omega) hbands
  have hsize : data.length < 2 ^ 31 := by
    rw [hfull.data_length]
    exact hfull.size_lt
  have hpixel : (y + i) * width + x ≤ ((y + i) * width + x) * bands := Nat.le_mul_of_pos_right _ hbands
  have hrow : y + i ≤ (y + i) * width := Nat.le_mul_of_pos_right _ hfull.width_pos
  have hneg : ∀ n : ℕ, -(0 - (n : ℤ)) = n := fun n => by ring
  have hdef : rowOffset (window (newImage width height bands data) x y w h) i =
      mulInt (addInt (mulInt (addInt i (-(0 - (y : ℤ)))) width) (-(0 - (x : ℤ))))
        (window (newImage width height bands data) x y w h).bands := rfl
  rw [hdef, bands_window hfull, hneg, hneg, addInt_natCast (by omega), Nat.add_comm i y, mulInt_natCast (by omega),
    addInt_natCast (by omega), mulInt_natCast (by omega)]

/-- A window that is no sub-image is the whole image. -/
theorem whole_of_not_sub {x y w h : ℕ} (hx : x + w ≤ width) (hy : y + h ≤ height)
    (hsub : ¬ isSubImage (window (newImage width height bands data) x y w h)) : x = 0 ∧ y = 0 ∧ w = width := by
  have hprod : data.length = h * (w * bands) := by
    have hlength := whole_window hfull hx hy hsub
    rw [bands_window hfull] at hlength
    exact hlength
  have harea : w * h = width * height := by
    refine Nat.eq_of_mul_eq_mul_right hfull.bands_pos ?_
    rw [← hfull.data_length, hprod]
    ring
  -- neither side can be shorter
  have hwidth : w = width := by
    by_contra hne
    have hlt : w * h < width * height := by
      calc w * h ≤ w * height := Nat.mul_le_mul_left _ (by omega)
        _ < width * height := Nat.mul_lt_mul_of_pos_right (by omega) hfull.height_pos
    omega
  have hheight : h = height := by
    rw [hwidth] at harea
    exact Nat.eq_of_mul_eq_mul_left hfull.width_pos harea
  omega

theorem aligned_window {x y w h : ℕ} (hw : 0 < w) (hx : x + w ≤ width) (hy : y + h ≤ height) :
    Aligned (window (newImage width height bands data) x y w h) := by
  intro i hi j hj
  have hi' : i < h := hi
  have hwin := bands_window hfull x y w h
  rw [origin_window, BufferedImage.base]
  by_cases hsub : isSubImage (window (newImage width height bands data) x y w h)
  · rw [if_pos hsub, rowOffset_window hfull hw hx (by omega), hwin, ← Nat.cast_add]
    congr 1
    ring
  · obtain ⟨rfl, rfl, rfl⟩ := whole_of_not_sub hfull hx hy hsub
    rw [if_neg hsub, hwin, Nat.zero_add, Nat.zero_add]
    rfl

theorem accepted_window (x y w h : ℕ) : Accepted (window (newImage width height bands data) x y w h) :=
  ⟨(bands_window hfull x y w h).symm ▸ hfull.bands_mem, rfl, rfl⟩

/-- A window is converted to a Mat that shows it. -/
theorem converts_window (blank : Blank) {x y w h : ℕ} (hw : 0 < w) (hh : 0 < h) (hx : x + w ≤ width)
    (hy : y + h ≤ height) : Converts blank (window (newImage width height bands data) x y w h) := by
  have hfacts := typeOffsets_facts hfull.bands_mem
  have hwin := bands_window hfull x y w h
  exact converts_of_good_aligned (accepted_window hfull x y w h) (valid_window hfull hw hh hx hy)
    (by rw [hwin]; exact hfacts.2.1) blank hfacts.2.2.1 (aligned_window hfull hw hx hy)

end

/-- The innermost image of any chain of sub-images is extracted exactly: the Mat has its
size, and its pixels are those of the root that lie the sums of the offsets further. -/
theorem subimage_exact (blank : Blank) (width height bands : ℕ) (data : List (BitVec 8))
    (hfull : IsFull width height bands data) (rects : List Rect) (image : BufferedImage)
    (hnested : nested (newImage width height bands data) rects = .ok image) :
    ∃ mat, bufferedImageToMat blank image = .ok mat ∧ mat.rows = image.height ∧ mat.cols = image.width ∧
      mat.channels = bands ∧ ∀ (i : Fin mat.rows) (j : Fin mat.cols) (q : Fin mat.channels),
        (newImage width height bands data).sample ((rects.map (·.y)).sum + i) ((rects.map (·.x)).sum + j)
          (colour bands q) = some (mat.samples i j q) := by
  have hroot : window (newImage width height bands data) 0 0 width height = newImage width height bands data := by
    simp [window, newImage]
  rw [← hroot] at hnested
  obtain ⟨w, h, rfl, hw, hh, hx, hy⟩ :=
    nested_window rects 0 0 width height image hnested hfull.width_pos hfull.height_pos
  rw [Nat.zero_add, Nat.zero_add]
  obtain ⟨mat, hok, hshows⟩ := converts_window hfull blank hw hh hx hy
  have hwin := bands_window hfull (rects.map (·.x)).sum (rects.map (·.y)).sum w h
  refine ⟨mat, hok, hshows.rows, hshows.cols, hshows.channels.trans hwin, fun i j q => ?_⟩
  have hsample := hshows.samples i j q
  rw [hwin] at hsample
  rw [← hsample, sample_window]

/-- Four pixels in grey, and their right half. -/
theorem subimage_exact_half : ∃ mat, bufferedImageToMat (fun _ _ _ _ _ _ => 0)
      (window (newImage 2 2 1 [1, 2, 3, 4]) 1 0 1 2) = .ok mat ∧ mat.rows = 2 ∧ mat.cols = 1 ∧ mat.channels = 1 ∧
    ∀ (i : Fin mat.rows) (j : Fin mat.cols) (q : Fin mat.channels),
      (newImage 2 2 1 [1, 2, 3, 4]).sample (0 + i) (1 + j) (colour 1 q) = some (mat.samples i j q) :=
  subimage_exact _ 2 2 1 [1, 2, 3, 4] ⟨by decide, by decide, Or.inl rfl, rfl, by decide⟩ [⟨1, 0, 1, 2⟩] _ rfl

/-! ### There and back -/

theorem length_bytes (mat : Mat) : mat.bytes.length = mat.rows * (mat.cols * mat.channels) := List.length_ofFn

/-- The bytes are the samples in their places. -/
theorem getD_bytes (mat : Mat) (i : Fin mat.rows) (j : Fin mat.cols) (k : Fin mat.channels) :
    mat.bytes.getD (mat.place i j k) 0 = mat.samples i j k := by
  have hplace := place_lt mat i.isLt j.isLt k.isLt
  have hlen : mat.place i j k < mat.bytes.length := by rwa [length_bytes]
  have hin := cell_lt j.isLt k.isLt
  have hrow : mat.place i j k / (mat.cols * mat.channels) = i := by
    rw [place_eq, place_row, cell_div hin]
  have hcol : mat.place i j k / mat.channels % mat.cols = j := by
    rw [Mat.place, cell_div k.isLt, cell_mod j.isLt]
  have hchannel : mat.place i j k % mat.channels = k := by
    rw [Mat.place, cell_mod k.isLt]
  rw [List.getD_eq_getElem _ _ hlen]
  simp only [Mat.bytes, List.getElem_ofFn, hrow, hcol, hchannel]

/-- The channel of the data array that channel `q` of a Mat is stored in. -/
def stored (bands q : ℕ) : ℕ := (typeOffsets bands).getD (colour bands q) 0

theorem stored_facts {bands : ℕ} (h : bands = 1 ∨ bands = 3 ∨ bands = 4) :
    (∀ q < bands, colour bands q < bands ∧ stored bands q < bands) ∧
      (∀ k < bands, ∃ q < bands, stored bands q = k) ∧
      (bands ≠ 4 → ∀ q < bands, stored bands q = q) ∧ ∀ q < 4, (q, stored 4 q) ∈ BGRA2ABGR := by
  rcases h with rfl | rfl | rfl <;> decide

/-- `correctColorChannel(Mat)` stores the channels in the order of the image. -/
theorem correctColorChannelMat_spec (blank : Blank) (mat : Mat)
    (hc : mat.channels = 1 ∨ mat.channels = 3 ∨ mat.channels = 4) :
    ∃ samples : Samples (BitVec 8) mat.rows mat.cols mat.channels,
      correctColorChannelMat blank mat = .ok { mat with samples := samples } ∧
        ∀ i j (q k : Fin mat.channels), k.val = stored mat.channels q → samples i j k = mat.samples i j q := by
  have hfacts := stored_facts hc
  by_cases h4 : mat.channels = 4
  · have hall : (BGRA2ABGR.all fun pair => decide (pair.1 < mat.channels ∧ pair.2 < mat.channels)) = true := by
      rw [h4]
      decide
    refine ⟨fun i j k => mat.mixed BGRA2ABGR i j k (blank mat.rows mat.cols mat.channels i j k), ?_,
      fun i j q k hk => mixed_of_mem mat _ _ (by decide) ?_⟩
    · rw [correctColorChannelMat, if_neg (not_not.mpr h4), Mat.mixChannels, if_pos hall]
    · have hstored : stored mat.channels q = stored 4 q := congrArg (stored · q.val) h4
      rw [hk, hstored]
      exact hfacts.2.2.2 q (h4 ▸ q.isLt)
  · refine ⟨mat.samples, by rw [correctColorChannelMat, if_pos h4], fun i j q k hk => ?_⟩
    rw [Fin.ext (hk.trans (hfacts.2.2.1 h4 q q.isLt))]

/-- `new BufferedImage` with an array of its size. -/
theorem isFull_bytes {mat : Mat} (hc : mat.channels = 1 ∨ mat.channels = 3 ∨ mat.channels = 4) (hrows : 0 < mat.rows)
    (hcols : 0 < mat.cols) (hsize : mat.cols * mat.rows * mat.channels < 2 ^ 31)
    (samples : Samples (BitVec 8) mat.rows mat.cols mat.channels) :
    IsFull mat.cols mat.rows mat.channels ({ mat with samples := samples } : Mat).bytes := by
  refine ⟨hcols, hrows, hc, ?_, hsize⟩
  rw [length_bytes]
  change mat.rows * (mat.cols * mat.channels) = mat.cols * mat.rows * mat.channels
  ring

/-- From a Mat: each channel is in the place the image keeps it in. -/
theorem matToBufferedImage_spec (blank : Blank) (mat : Mat)
    (hc : mat.channels = 1 ∨ mat.channels = 3 ∨ mat.channels = 4) (hrows : 0 < mat.rows) (hcols : 0 < mat.cols)
    (hsize : mat.cols * mat.rows * mat.channels < 2 ^ 31) :
    ∃ data, matToBufferedImage blank mat = .ok (newImage mat.cols mat.rows mat.channels data) ∧
      IsFull mat.cols mat.rows mat.channels data ∧ ∀ (i : Fin mat.rows) (j : Fin mat.cols) (q : Fin mat.channels),
        data.getD (mat.place i j (stored mat.channels q)) 0 = mat.samples i j q := by
  obtain ⟨samples, hcorrect, hsamples⟩ := correctColorChannelMat_spec blank mat hc
  refine ⟨_, ?_, isFull_bytes hc hrows hcols hsize samples, fun i j q => ?_⟩
  · have hcheck : checkChannelMat mat = .ok () := if_neg (by tauto)
    have hsizes : ¬ (mat.cols = 0 ∨ mat.rows = 0 ∨ 2 ^ 31 ≤ mat.cols * mat.rows * mat.channels) := by omega
    rw [matToBufferedImage, hcheck, hcorrect]
    exact if_neg hsizes
  · have hlt := ((stored_facts hc).1 q q.isLt).2
    rw [← hsamples i j q ⟨_, hlt⟩ rfl]
    exact getD_bytes ({ mat with samples := samples } : Mat) i j ⟨_, hlt⟩

theorem sample_newImage (width height bands : ℕ) (data : List (BitVec 8)) (i j band : ℕ) :
    (newImage width height bands data).sample i j band =
      data[(i * width + j) * bands + (typeOffsets bands).getD band 0]? := by
  have hcell : (newImage width height bands data).origin i j + ((typeOffsets bands).getD band 0 : ℤ) =
      ((i * width + j) * bands + (typeOffsets bands).getD band 0 : ℕ) := by
    simp only [newImage, BufferedImage.origin]
    push_cast
    ring
  have hsample : (newImage width height bands data).sample i j band =
      if 0 ≤ (newImage width height bands data).origin i j + ((typeOffsets bands).getD band 0 : ℤ) then
        data[((newImage width height bands data).origin i j + ((typeOffsets bands).getD band 0 : ℤ)).toNat]?
      else none := rfl
  rw [hsample, hcell, if_pos (Int.natCast_nonneg _), Int.toNat_natCast]

/-- To a Mat: each channel comes from the place the image keeps it in. -/
theorem bufferedImageToMat_spec (blank : Blank) {width height bands : ℕ} {data : List (BitVec 8)}
    (hfull : IsFull width height bands data) : ∃ samples : Samples (BitVec 8) height width bands,
      bufferedImageToMat blank (newImage width height bands data) = .ok ⟨height, width, bands, false, samples⟩ ∧
        ∀ (i : Fin height) (j : Fin width) (q : Fin bands),
          data.getD ((i * width + j) * bands + stored bands q) 0 = samples i j q := by
  have hroot : window (newImage width height bands data) 0 0 width height = newImage width height bands data := by
    simp [window, newImage]
  have hbands := bands_window hfull 0 0 width height
  have hconverts := converts_window hfull blank hfull.width_pos hfull.height_pos (Nat.zero_add _).le (Nat.zero_add _).le
  rw [hroot] at hbands hconverts
  obtain ⟨⟨rows, cols, channels, signed, samples⟩, hok, hshows⟩ := hconverts
  obtain rfl : rows = height := hshows.rows
  obtain rfl : cols = width := hshows.cols
  obtain rfl : channels = bands := hshows.channels.trans hbands
  obtain rfl : signed = false := hshows.unsigned
  refine ⟨samples, hok, fun i j q => ?_⟩
  have hsample := hshows.samples i j q
  rw [hbands, sample_newImage] at hsample
  rw [List.getD_eq_getElem?_getD, stored, hsample]
  rfl

/-- Every cell is the place of a sample. -/
theorem exists_place {width height bands n : ℕ} (h : n < width * height * bands) :
    ∃ i < height, ∃ j < width, ∃ k < bands, n = (i * width + j) * bands + k := by
  have hn : n < height * (width * bands) := by
    calc n < width * height * bands := h
      _ = height * (width * bands) := by ring
  refine ⟨n / bands / width, ?_, n / bands % width, col_lt hn, n % bands, channel_lt hn, ?_⟩
  · rw [Nat.div_div_eq_div_mul, Nat.mul_comm bands]
    exact row_lt hn
  · rw [Nat.div_add_mod', Nat.div_add_mod']

/-- The data of an image is known from its channels. -/
theorem data_ext {width height bands : ℕ} {data data' : List (BitVec 8)} (hfull : IsFull width height bands data)
    (hfull' : IsFull width height bands data')
    (h : ∀ (i : Fin height) (j : Fin width) (q : Fin bands),
      data.getD ((i * width + j) * bands + stored bands q) 0 =
        data'.getD ((i * width + j) * bands + stored bands q) 0) : data = data' := by
  refine List.ext_getElem (hfull.data_length.trans hfull'.data_length.symm) fun n hn hn' => ?_
  obtain ⟨i, hi, j, hj, k, hk, rfl⟩ := exists_place (hfull.data_length ▸ hn)
  obtain ⟨q, hq, rfl⟩ := (stored_facts hfull.bands_mem).2.1 k hk
  have hcell := h ⟨i, hi⟩ ⟨j, hj⟩ ⟨q, hq⟩
  rwa [List.getD_eq_getElem _ _ hn, List.getD_eq_getElem _ _ hn'] at hcell

/-- There are no images without pixels, and none too large for an `int`. -/
theorem sizes_of_ok {blank : Blank} {mat : Mat} {image : BufferedImage} (h : matToBufferedImage blank mat = .ok image) :
    0 < mat.rows ∧ 0 < mat.cols ∧ mat.cols * mat.rows * mat.channels < 2 ^ 31 := by
  rw [matToBufferedImage, bind_eq_ok] at h
  obtain ⟨-, -, h⟩ := h
  split at h
  · cases h
  · omega

/-- A Mat there and back. -/
theorem mat_roundTrip (blank : Blank) {mat : Mat} (hc : mat.channels = 1 ∨ mat.channels = 3 ∨ mat.channels = 4)
    (hrows : 0 < mat.rows) (hcols : 0 < mat.cols) (hsize : mat.cols * mat.rows * mat.channels < 2 ^ 31) :
    (matToBufferedImage blank mat >>= bufferedImageToMat blank) = .ok { mat with signed := false } := by
  obtain ⟨data, himage, hfull, hdata⟩ := matToBufferedImage_spec blank mat hc hrows hcols hsize
  obtain ⟨samples, hmat, hsamples⟩ := bufferedImageToMat_spec blank hfull
  rw [himage, ok_bind, hmat]
  congr 2
  funext i j q
  rw [← hsamples i j q, ← hdata i j q]
  rfl

/-- An image there and back. -/
theorem image_roundTrip (blank : Blank) {width height bands : ℕ} {data : List (BitVec 8)}
    (hfull : IsFull width height bands data) :
    (bufferedImageToMat blank (newImage width height bands data) >>= matToBufferedImage blank) =
      .ok (newImage width height bands data) := by
  obtain ⟨samples, hmat, hsamples⟩ := bufferedImageToMat_spec blank hfull
  obtain ⟨data', himage, hfull', hdata⟩ := matToBufferedImage_spec blank
    ⟨height, width, bands, false, samples⟩ hfull.bands_mem hfull.height_pos hfull.width_pos hfull.size_lt
  have hsame : data' = data := data_ext hfull' hfull fun i j q => (hdata i j q).trans (hsamples i j q).symm
  rw [hmat, ok_bind, himage, hsame]

/-- A Mat comes back as it was if and only if it is unsigned, is not empty and has fewer
than `2 ^ 31` samples; an image always does. -/
theorem conversions_inverse (blank : Blank) :
    (∀ mat : Mat, mat.channels = 1 ∨ mat.channels = 3 ∨ mat.channels = 4 →
      ((matToBufferedImage blank mat >>= bufferedImageToMat blank) = .ok mat ↔
        mat.signed = false ∧ 0 < mat.rows ∧ 0 < mat.cols ∧ mat.cols * mat.rows * mat.channels < 2 ^ 31)) ∧
    ∀ (width height bands : ℕ) (data : List (BitVec 8)), IsFull width height bands data →
      (bufferedImageToMat blank (newImage width height bands data) >>= matToBufferedImage blank) =
        .ok (newImage width height bands data) := by
  refine ⟨fun mat hc => ⟨fun h => ?_, ?_⟩, fun width height bands data => image_roundTrip blank⟩
  · obtain ⟨image, himage, hback⟩ := bind_eq_ok.mp h
    obtain ⟨hrows, hcols, hsize⟩ := sizes_of_ok himage
    rw [mat_roundTrip blank hc hrows hcols hsize] at h
    have hsigned := congrArg Mat.signed (Except.ok.inj h)
    exact ⟨hsigned.symm, hrows, hcols, hsize⟩
  · rintro ⟨hsigned, hrows, hcols, hsize⟩
    rw [mat_roundTrip blank hc hrows hcols hsize, ← hsigned]

/-- A Mat of one colour. -/
def plain (rows cols channels : ℕ) (signed : Bool) (sample : BitVec 8) : Mat :=
  ⟨rows, cols, channels, signed, fun _ _ _ => sample⟩

theorem conversions_inverse_plain :
    (matToBufferedImage (fun _ _ _ _ _ _ => 0) (plain 2 1 4 false 7) >>= bufferedImageToMat fun _ _ _ _ _ _ => 0) =
      .ok (plain 2 1 4 false 7) :=
  ((conversions_inverse fun _ _ _ _ _ _ => 0).1 (plain 2 1 4 false 7) (Or.inr (Or.inr rfl))).mpr
    ⟨rfl, by decide, by decide, by decide⟩

/-- An empty Mat is no image, and a signed one comes back unsigned. -/
theorem not_every_mat : (¬ ∀ (blank : Blank) (mat : Mat), mat.signed = false →
      mat.channels = 1 ∨ mat.channels = 3 ∨ mat.channels = 4 →
      (matToBufferedImage blank mat >>= bufferedImageToMat blank) = .ok mat) ∧
    ¬ ∀ (blank : Blank) (mat : Mat), 0 < mat.rows → 0 < mat.cols →
      mat.channels = 1 ∨ mat.channels = 3 ∨ mat.channels = 4 →
      (matToBufferedImage blank mat >>= bufferedImageToMat blank) = .ok mat := by
  constructor
  · intro h
    obtain ⟨image, himage, -⟩ := bind_eq_ok.mp (h (fun _ _ _ _ _ _ => 0) (plain 0 0 1 false 0) rfl (Or.inl rfl))
    exact absurd (sizes_of_ok himage).1 (by decide)
  · intro h
    have hback := h (fun _ _ _ _ _ _ => 0) (plain 1 1 1 true 0) Nat.one_pos Nat.one_pos (Or.inl rfl)
    rw [mat_roundTrip _ (Or.inl rfl) Nat.one_pos Nat.one_pos (by decide)] at hback
    cases congrArg Mat.signed (Except.ok.inj hback)

end Images
end PGCon
