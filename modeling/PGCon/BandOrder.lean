/-
# The order of the bands

`bufferedImageToMat` is to bring the bands of an image into the order B, G, R(, A),
whatever their order in the data array. The pairs it mixes by say where each copied
byte goes; with `wanted` saying where it should have come from, an image is converted
if every byte is in its position (`converts_of_positions`). A conversion that works for
all contents has them so (`positions_of_converts`), and the orders can then be counted.

`dataSize` overflows for the largest images, and then the data may pass for all of the
image. Neither law allows that (`whole_of_positions`, `whole_of_converts`), so nothing is
asked of the size.
-/
import PGCon.Images

namespace PGCon
namespace Images

open Word Effect Raster

/-! ### Images and the Mats that show them -/

/-- The band a channel of a Mat is for: B, G, R, A are bands 2, 1, 0, 3. -/
def colour (bands q : ℕ) : ℕ := if bands = 1 then q else if q < 3 then 2 - q else q

/-- The Mat has the size of the image and its pixels in the order B, G, R(, A). -/
structure Shows (image : BufferedImage) (mat : Mat) : Prop where
  rows : mat.rows = image.height
  cols : mat.cols = image.width
  channels : mat.channels = image.bands
  unsigned : mat.signed = false
  samples : ∀ (i : Fin mat.rows) (j : Fin mat.cols) (q : Fin mat.channels),
    image.sample i j (colour image.bands q) = some (mat.samples i j q)

/-- The conversion of an image that shows what it should. -/
def Converts (blank : Blank) (image : BufferedImage) : Prop :=
  ∃ mat, bufferedImageToMat blank image = .ok mat ∧ Shows image mat

/-- An image `checkChannel` lets pass. -/
structure Accepted (image : BufferedImage) : Prop where
  bands : image.bands = 1 ∨ image.bands = 3 ∨ image.bands = 4
  isByte : image.isByte = true
  isComponent : image.sampleModel.isComponent = true

theorem Accepted.bands_pos {image : BufferedImage} (h : Accepted image) : 0 < image.bands := by
  have := h.bands
  omega

theorem checkChannel_ok {image : BufferedImage} (h : Accepted image) : checkChannel image = .ok () := by
  have hbands : ¬ (image.bands ≠ 1 ∧ image.bands ≠ 3 ∧ image.bands ≠ 4) := by
    have := h.bands
    tauto
  rw [checkChannel, if_neg hbands, h.isByte, h.isComponent]
  rfl

/-- What a `BufferedImage` is: it has pixels, and its samples are in the data array. -/
structure BufferedImage.Valid (image : BufferedImage) : Prop where
  width : 0 < image.width
  height : 0 < image.height
  samples : ∀ i < image.height, ∀ j < image.width, ∀ k < image.bands,
    0 ≤ image.origin i j + image.sampleModel.bandOffsets.getD k 0 ∧
      image.origin i j + image.sampleModel.bandOffsets.getD k 0 < image.data.length

/-- The offset that channel `p` of the copied data should have come from. -/
def wanted (bandOffsets : List ℕ) (p : ℕ) : ℕ :=
  bandOffsets.getD (colour bandOffsets.length (destination bandOffsets p)) 0

/-- Every byte is copied from where its sample is. -/
def Positions (image : BufferedImage) : Prop :=
  ∀ i < image.height, ∀ j < image.width, ∀ p < image.bands,
    image.base i j + p = image.origin i j + wanted image.sampleModel.bandOffsets p

/-- What is true of the band offsets of a permutation. -/
structure Shuffles (bandOffsets : List ℕ) : Prop where
  pairs : PairsRight bandOffsets
  onto : ∀ q < bandOffsets.length, ∃ p < bandOffsets.length, destination bandOffsets p = q
  colour_lt : ∀ q < bandOffsets.length, colour bandOffsets.length q < bandOffsets.length
  zero : ∃ p < bandOffsets.length, wanted bandOffsets p = 0

section

variable {blank : Blank} {image : BufferedImage}

/-- The conversion, once it is known where the bytes come from and go. -/
theorem bufferedImageToMat_eq (blank : Blank) (image : BufferedImage) (hacc : Accepted image)
    (hwhole : image.Whole) (hoff : Shuffles image.sampleModel.bandOffsets) (hinside : image.Inside) :
    ∃ samples : Samples (BitVec 8) image.height image.width image.bands,
      bufferedImageToMat blank image = .ok ⟨image.height, image.width, image.bands, false, samples⟩ ∧
        ∀ i j (p q : Fin image.bands), q.val = destination image.sampleModel.bandOffsets p →
          samples i j q = image.data.getD (image.base i j + p).toNat 0 := by
  have hcopy : copyData blank image = .ok image.copied := (copyData_ok_iff hwhole).mpr ⟨hinside, rfl⟩
  obtain ⟨samples, hcorrect, hsamples⟩ :=
    correctColorChannel_spec blank image.copied hoff.pairs rfl
  refine ⟨samples, ?_, hsamples⟩
  rw [bufferedImageToMat, checkChannel_ok hacc, hcopy]
  exact hcorrect

/-- The steps of a conversion that returns. -/
theorem copied_of_ok (image : BufferedImage) {mat : Mat} (h : bufferedImageToMat blank image = .ok mat) :
    ∃ copied, copyData blank image = .ok copied ∧ correctColorChannel blank copied image.sampleModel = .ok mat := by
  rw [bufferedImageToMat, bind_eq_ok] at h
  obtain ⟨-, -, h⟩ := h
  exact bind_eq_ok.mp h

theorem inside_of_ok (image : BufferedImage) (hwhole : image.Whole) {mat : Mat}
    (h : bufferedImageToMat blank image = .ok mat) : image.Inside := by
  obtain ⟨copied, hcopy, -⟩ := copied_of_ok image h
  exact ((copyData_ok_iff hwhole).mp hcopy).1

/-- A sample that is in the data array. -/
theorem sample_eq (image : BufferedImage) {i j band : ℕ}
    (h : 0 ≤ image.origin i j + image.sampleModel.bandOffsets.getD band 0 ∧
      image.origin i j + image.sampleModel.bandOffsets.getD band 0 < image.data.length) :
    image.sample i j band =
      some (image.data.getD (image.origin i j + image.sampleModel.bandOffsets.getD band 0).toNat 0) := by
  have hlt : (image.origin i j + image.sampleModel.bandOffsets.getD band 0).toNat < image.data.length := by omega
  simp only [BufferedImage.sample, if_pos h.1]
  rw [List.getElem?_eq_getElem hlt, List.getD_eq_getElem _ _ hlt]

/-- Bytes copied from their samples are in the data array. -/
theorem byte_inside (hvalid : image.Valid) (hoff : Shuffles image.sampleModel.bandOffsets) (h : Positions image)
    {i j p : ℕ} (hi : i < image.height) (hj : j < image.width) (hp : p < image.bands) :
    0 ≤ image.base i j + p ∧ image.base i j + p < image.data.length := by
  rw [h i hi j hj p hp]
  exact hvalid.samples i hi j hj _ (hoff.colour_lt _ (hoff.pairs.2 p hp))

/-- So no row that is copied leaves it. -/
theorem inside_of_positions (hvalid : image.Valid) (hbands : 0 < image.bands)
    (hoff : Shuffles image.sampleModel.bandOffsets) (h : Positions image) : image.Inside := by
  intro hsub i hi
  have hfirst := (byte_inside hvalid hoff h hi hvalid.width hbands).1
  have hlast := (byte_inside hvalid hoff h hi (Nat.sub_lt hvalid.width Nat.one_pos)
    (Nat.sub_lt hbands Nat.one_pos)).2
  have hwidth := last_cell hvalid.width hbands
  rw [BufferedImage.base, if_pos hsub] at hfirst hlast
  refine ⟨by simpa using hfirst, ?_⟩
  omega

/-- Nor does what is copied in one piece: the last byte would be past the end. -/
theorem whole_of_positions (hvalid : image.Valid) (hbands : 0 < image.bands)
    (hoff : Shuffles image.sampleModel.bandOffsets) (h : Positions image) : image.Whole := by
  by_contra hwhole
  obtain ⟨hsub, hlt⟩ := overflow_of_not_whole hwhole
  have hlast := (byte_inside hvalid hoff h (Nat.sub_lt hvalid.height Nat.one_pos)
    (Nat.sub_lt hvalid.width Nat.one_pos) (Nat.sub_lt hbands Nat.one_pos)).2
  have hsize := last_sample hvalid.height hvalid.width hbands
  rw [BufferedImage.base, if_neg hsub] at hlast
  omega

/-- With every byte in its position the image is converted. -/
theorem converts_of_positions (blank : Blank) (hacc : Accepted image) (hvalid : image.Valid)
    (hoff : Shuffles image.sampleModel.bandOffsets) (h : Positions image) : Converts blank image := by
  have hwhole := whole_of_positions hvalid hacc.bands_pos hoff h
  have hinside := inside_of_positions hvalid hacc.bands_pos hoff h
  obtain ⟨samples, hok, hsamples⟩ := bufferedImageToMat_eq blank image hacc hwhole hoff hinside
  refine ⟨_, hok, rfl, rfl, rfl, rfl, fun i j q => ?_⟩
  obtain ⟨p, hp, hq⟩ := hoff.onto q q.isLt
  have hpos := h i i.isLt j j.isLt p hp
  have hband : colour image.bands q < image.bands := hoff.colour_lt q q.isLt
  have hrange := hvalid.samples i i.isLt j j.isLt _ hband
  have hcell : image.origin i j + image.sampleModel.bandOffsets.getD (colour image.bands q) 0 =
      image.base i j + p := by
    rw [hpos, wanted, hq]
    rfl
  change image.sample i j (colour image.bands q) = some (samples i j q)
  rw [hsamples i j ⟨p, hp⟩ q hq.symm, sample_eq image hrange, hcell]

theorem isSubImage_withData (image : BufferedImage) {data : List (BitVec 8)} (hlen : data.length = image.data.length) :
    isSubImage (image.withData data) ↔ isSubImage image := by
  have hdata : (image.withData data).data.length = image.data.length := hlen
  rw [isSubImage, isSubImage, hdata]
  rfl

/-- Where the bytes come from does not depend on them. -/
theorem base_withData (image : BufferedImage) {data : List (BitVec 8)} (hlen : data.length = image.data.length)
    (i j : ℕ) : (image.withData data).base i j = image.base i j := by
  have hsub := isSubImage_withData image hlen
  rw [BufferedImage.base, BufferedImage.base]
  by_cases h : isSubImage image
  · rw [if_pos (hsub.mpr h), if_pos h]
    rfl
  · rw [if_neg fun h' => h (hsub.mp h'), if_neg h]
    rfl

/-- The other contents leave the layout as it is. -/
theorem valid_withData (hvalid : image.Valid) {data : List (BitVec 8)}
    (hlen : data.length = image.data.length) : (image.withData data).Valid := by
  refine ⟨hvalid.width, hvalid.height, fun i hi j hj k hk => ?_⟩
  have hrange := hvalid.samples i hi j hj k hk
  rw [← hlen] at hrange
  exact hrange

theorem whole_withData (hwhole : image.Whole) {data : List (BitVec 8)} (hlen : data.length = image.data.length) :
    (image.withData data).Whole := by
  intro hsub
  have hdata : (image.withData data).data.length = image.data.length := hlen
  rw [hdata]
  exact hwhole fun h => hsub ((isSubImage_withData image hlen).mpr h)

theorem base_nonneg (hinside : image.Inside) {i : ℕ} (hi : i < image.height) (j : ℕ) : 0 ≤ image.base i j := by
  rw [BufferedImage.base]
  split
  · rename_i hsub
    have hrow := (hinside hsub i hi).1
    omega
  · exact Int.natCast_nonneg _

theorem getD_set_self {bytes : List (BitVec 8)} {n : ℕ} (h : n < bytes.length) (b : BitVec 8) :
    (bytes.set n b).getD n 0 = b := by
  rw [List.getD_eq_getElem?_getD, List.getElem?_set_self h, Option.getD_some]

/-- The one byte that is set. -/
theorem eq_of_getD_set {length n m : ℕ} (h : ((List.replicate length (0 : BitVec 8)).set n 1).getD m 0 = 1) :
    m = n := by
  by_contra hne
  rw [List.getD_eq_getElem?_getD, List.getElem?_set_ne (Ne.symm hne)] at h
  rcases Nat.lt_or_ge m length with hlt | hge
  · simp [hlt] at h
  · simp [hge] at h

/-- A Mat that the data does not fill shows what memory it found. -/
theorem sample_of_past (image : BufferedImage) (hoff : Shuffles image.sampleModel.bandOffsets) (hsub : ¬ isSubImage image)
    (i : Fin image.height) (j : Fin image.width) (p : Fin image.bands)
    (hpast : image.data.length ≤ (i * image.width + j) * image.bands + p) (h : Converts blank image) :
    image.sample i j (colour image.bands (destination image.sampleModel.bandOffsets p)) =
      some (blank image.height image.width image.bands i j p) := by
  obtain ⟨mat, hok, hshows⟩ := h
  obtain ⟨copied, hcopy, hcorrect⟩ := copied_of_ok image hok
  rw [copyData, if_neg hsub] at hcopy
  obtain ⟨bytes, rfl, hbytes⟩ := put_past hcopy
  obtain ⟨samples, hok', hsamples⟩ := correctColorChannel_spec blank
    ⟨image.height, image.width, image.bands, false, bytes⟩ hoff.pairs rfl
  obtain rfl := Except.ok.inj (hcorrect.symm.trans hok')
  have hq : destination image.sampleModel.bandOffsets p < image.bands := hoff.pairs.2 p p.isLt
  have hshown : image.sample i j (colour image.bands (destination image.sampleModel.bandOffsets p)) =
      some (samples i j ⟨_, hq⟩) := hshows.samples i j ⟨_, hq⟩
  have hmoved : samples i j ⟨_, hq⟩ = bytes i j p := hsamples i j p ⟨_, hq⟩ rfl
  rw [hshown, hmoved]
  exact congrArg some (hbytes i j p hpast)

/-- A conversion that works for all contents fills the Mat: the memory found in the last
sample cannot be both 0 and 1. -/
theorem whole_of_converts (blank : Blank) (hbands : 0 < image.bands) (hvalid : image.Valid)
    (hoff : Shuffles image.sampleModel.bandOffsets)
    (h : ∀ data : List (BitVec 8), data.length = image.data.length → Converts blank (image.withData data)) :
    image.Whole := by
  by_contra hwhole
  obtain ⟨hsub, hlt⟩ := overflow_of_not_whole hwhole
  have hi : image.height - 1 < image.height := Nat.sub_lt hvalid.height Nat.one_pos
  have hj : image.width - 1 < image.width := Nat.sub_lt hvalid.width Nat.one_pos
  have hp : image.bands - 1 < image.bands := Nat.sub_lt hbands Nat.one_pos
  have hpast : image.data.length ≤
      ((image.height - 1) * image.width + (image.width - 1)) * image.bands + (image.bands - 1) := by
    have hsize := last_sample hvalid.height hvalid.width hbands
    omega
  have hfound : ∀ b : BitVec 8,
      blank image.height image.width image.bands ⟨_, hi⟩ ⟨_, hj⟩ ⟨_, hp⟩ = b := by
    intro b
    let data := List.replicate image.data.length b
    have hlen : data.length = image.data.length := List.length_replicate
    have hshown := sample_of_past (image.withData data) hoff (fun h' => hsub ((isSubImage_withData image hlen).mp h'))
      ⟨_, hi⟩ ⟨_, hj⟩ ⟨_, hp⟩ (hlen.le.trans hpast) (h data hlen)
    have hrange := (valid_withData hvalid hlen).samples _ hi _ hj _ (hoff.colour_lt _ (hoff.pairs.2 _ hp))
    have hbyte := Option.some.inj ((sample_eq (image.withData data) hrange).symm.trans hshown)
    rw [List.getD_eq_getElem _ _ ((Int.toNat_lt hrange.1).mpr hrange.2)] at hbyte
    exact hbyte.symm.trans (List.getElem_replicate _)
  exact absurd ((hfound 0).symm.trans (hfound 1)) (by decide)

/-- A conversion that works for all contents has every byte in its position: an array with
one byte set tells two positions apart. -/
theorem positions_of_converts (blank : Blank) (hacc : Accepted image) (hvalid : image.Valid)
    (hoff : Shuffles image.sampleModel.bandOffsets)
    (h : ∀ data : List (BitVec 8), data.length = image.data.length → Converts blank (image.withData data)) :
    Positions image := by
  have hwhole := whole_of_converts blank hacc.bands_pos hvalid hoff h
  intro i hi j hj p hp
  have hq : destination image.sampleModel.bandOffsets p < image.bands := hoff.pairs.2 p hp
  have hband : colour image.bands (destination image.sampleModel.bandOffsets p) < image.bands := hoff.colour_lt _ hq
  have hrange := hvalid.samples i hi j hj _ hband
  change image.base i j + p = image.origin i j + (image.sampleModel.bandOffsets.getD
    (colour image.bands (destination image.sampleModel.bandOffsets p)) 0 : ℤ)
  generalize hcell : image.origin i j + (image.sampleModel.bandOffsets.getD
    (colour image.bands (destination image.sampleModel.bandOffsets p)) 0 : ℤ) = n at hrange
  let data := (List.replicate image.data.length (0 : BitVec 8)).set n.toNat 1
  have hlen : data.length = image.data.length := by simp [data]
  obtain ⟨mat, hok, hshows⟩ := h data hlen
  have hinside : (image.withData data).Inside := inside_of_ok _ (whole_withData hwhole hlen) hok
  obtain ⟨samples, hok', hsamples⟩ := bufferedImageToMat_eq blank (image.withData data)
    ⟨hacc.bands, hacc.isByte, hacc.isComponent⟩ (whole_withData hwhole hlen) hoff hinside
  have hbase := base_withData image hlen i j
  have hnonneg := base_nonneg hinside hi j
  obtain rfl := Except.ok.inj (hok.symm.trans hok')
  -- the sample is the byte that is set
  have hsample : (image.withData data).sample i j
      (colour image.bands (destination image.sampleModel.bandOffsets p)) = some 1 := by
    have hin : 0 ≤ n ∧ n < data.length := hlen ▸ hrange
    have hset : data.getD n.toNat 0 = 1 := getD_set_self (by rw [List.length_replicate]; omega) 1
    rw [← hset, ← hcell]
    refine sample_eq (image.withData data) ?_
    rw [← hcell] at hin
    exact hin
  have hshown : (image.withData data).sample i j
      (colour image.bands (destination image.sampleModel.bandOffsets p)) = some (samples ⟨i, hi⟩ ⟨j, hj⟩ ⟨_, hq⟩) :=
    hshows.samples ⟨i, hi⟩ ⟨j, hj⟩ ⟨_, hq⟩
  have hbyte : data.getD ((image.withData data).base i j + p).toNat 0 = 1 := by
    rw [hsample, hsamples ⟨i, hi⟩ ⟨j, hj⟩ ⟨p, hp⟩ ⟨_, hq⟩ rfl] at hshown
    exact (Option.some.inj hshown).symm
  have hsame := eq_of_getD_set hbyte
  rw [hbase] at hsame hnonneg
  -- the position is a name from here on: it is not to be evaluated
  generalize image.base i j = b at hsame hnonneg ⊢
  have hn := hrange.1
  clear * - hsame hnonneg hn
  omega

/-- The offsets undo the moves. -/
def Good (bandOffsets : List ℕ) : Prop := ∀ p < bandOffsets.length, wanted bandOffsets p = p

instance (bandOffsets : List ℕ) : Decidable (Good bandOffsets) :=
  inferInstanceAs (Decidable (∀ p < bandOffsets.length, wanted bandOffsets p = p))

/-- Every pixel is copied from where it is. -/
def Aligned (image : BufferedImage) : Prop :=
  ∀ i < image.height, ∀ j < image.width, image.base i j = image.origin i j

/-- The bytes are in position exactly if the pixels and the channels are: `bands` cells in
a row are not the same as others in any order. -/
theorem positions_iff (hvalid : image.Valid) (hbands : 0 < image.bands)
    (hoff : Shuffles image.sampleModel.bandOffsets) :
    Positions image ↔ Good image.sampleModel.bandOffsets ∧ Aligned image := by
  constructor
  · intro h
    obtain ⟨p₀, hp₀, hzero⟩ := hoff.zero
    have haligned : Aligned image := by
      intro i hi j hj
      have hfirst := h i hi j hj 0 hbands
      have hlow := h i hi j hj p₀ hp₀
      rw [hzero] at hlow
      omega
    refine ⟨fun p hp => ?_, haligned⟩
    have hcell := h 0 hvalid.height 0 hvalid.width p hp
    rw [haligned 0 hvalid.height 0 hvalid.width] at hcell
    omega
  · rintro ⟨hgood, haligned⟩ i hi j hj p hp
    rw [haligned i hi j hj, hgood p hp]

end

/-! ### Every band order -/

instance (bandOffsets : List ℕ) : Decidable (PairsRight bandOffsets) :=
  inferInstanceAs (Decidable ((∀ pairs ∈ fromTo bandOffsets,
      (∀ pair ∈ pairs, pair.1 < bandOffsets.length ∧ pair.2 < bandOffsets.length) ∧ (pairs.map (·.2)).Nodup ∧
        ∀ p < bandOffsets.length, (p, destination bandOffsets p) ∈ pairs) ∧
    ∀ p < bandOffsets.length, destination bandOffsets p < bandOffsets.length))

/-- Whatever the order of the bands, the moves are a permutation of the channels. -/
theorem shuffles_of_perm {bandOffsets : List ℕ} {bands : ℕ} (hbands : bands = 1 ∨ bands = 3 ∨ bands = 4)
    (hperm : bandOffsets.Perm (List.range bands)) : Shuffles bandOffsets := by
  have hall : ∀ c ∈ [1, 3, 4], ∀ off ∈ (List.range c).permutations', PairsRight off ∧
      (∀ q < off.length, ∃ p < off.length, destination off p = q) ∧
      (∀ q < off.length, colour off.length q < off.length) ∧ ∃ p < off.length, wanted off p = 0 := by
    decide +kernel
  have hmem : bands ∈ [1, 3, 4] := by
    rcases hbands with rfl | rfl | rfl <;> simp
  obtain ⟨hpairs, honto, hcolour, hzero⟩ := hall bands hmem bandOffsets (List.mem_permutations'.mpr hperm)
  exact ⟨hpairs, honto, hcolour, hzero⟩

/-- The band orders that are brought into the order of a Mat: RGB and BGR, two more that
are their own inverses, and of the orders with four bands only GRAB and ABGR. -/
def goodOffsets : List (List ℕ) := [[0, 1, 2], [1, 2, 0], [2, 0, 1], [2, 1, 0], [1, 0, 3, 2], [3, 2, 1, 0]]

theorem good_iff {bandOffsets : List ℕ} {bands : ℕ} (hbands : bands = 3 ∨ bands = 4)
    (hperm : bandOffsets.Perm (List.range bands)) : Good bandOffsets ↔ bandOffsets ∈ goodOffsets := by
  have hall : ∀ c ∈ [3, 4], ∀ off ∈ (List.range c).permutations', Good off ↔ off ∈ goodOffsets := by
    decide +kernel
  have hmem : bands ∈ [3, 4] := by
    rcases hbands with rfl | rfl <;> simp
  exact hall bands hmem bandOffsets (List.mem_permutations'.mpr hperm)

section

variable {image : BufferedImage} (hacc : Accepted image) (hvalid : image.Valid)
  (hperm : image.sampleModel.bandOffsets.Perm (List.range image.bands))
include hacc hvalid hperm

theorem good_aligned_of_converts (blank : Blank)
    (h : ∀ data : List (BitVec 8), data.length = image.data.length → Converts blank (image.withData data)) :
    Good image.sampleModel.bandOffsets ∧ Aligned image := by
  have hoff := shuffles_of_perm hacc.bands hperm
  exact (positions_iff hvalid hacc.bands_pos hoff).mp (positions_of_converts blank hacc hvalid hoff h)

theorem converts_of_good_aligned (blank : Blank) (hgood : Good image.sampleModel.bandOffsets)
    (haligned : Aligned image) : Converts blank image := by
  have hoff := shuffles_of_perm hacc.bands hperm
  exact converts_of_positions blank hacc hvalid hoff ((positions_iff hvalid hacc.bands_pos hoff).mpr ⟨hgood, haligned⟩)

end

theorem aligned_withData {image : BufferedImage} (haligned : Aligned image) {data : List (BitVec 8)}
    (hlen : data.length = image.data.length) : Aligned (image.withData data) := by
  intro i hi j hj
  rw [base_withData image hlen]
  exact haligned i hi j hj

/-- An image layout with three or four bands is normalised, whatever it shows, if and only
if its band order is one of the six and its pixels are copied from where they are. -/
theorem normalises_iff (blank : Blank) (image : BufferedImage) (hacc : Accepted image) (hvalid : image.Valid)
    (hbands : image.bands = 3 ∨ image.bands = 4)
    (hperm : image.sampleModel.bandOffsets.Perm (List.range image.bands)) :
    (∀ data : List (BitVec 8), data.length = image.data.length → Converts blank (image.withData data)) ↔
      image.sampleModel.bandOffsets ∈ goodOffsets ∧ Aligned image := by
  rw [← good_iff hbands hperm]
  refine ⟨good_aligned_of_converts hacc hvalid hperm blank, fun h data hlen => ?_⟩
  have hacc' : Accepted (image.withData data) := ⟨hacc.bands, hacc.isByte, hacc.isComponent⟩
  exact converts_of_good_aligned hacc' (valid_withData hvalid hlen) hperm blank h.1 (aligned_withData h.2 hlen)

/-- One pixel in this band order. -/
def onePixel (bandOffsets : List ℕ) : BufferedImage where
  width := 1
  height := 1
  sampleModel := ⟨true, 1, 1, bandOffsets.length, bandOffsets.length, bandOffsets⟩
  translateX := 0
  translateY := 0
  isByte := true
  data := List.replicate bandOffsets.length 0

theorem accepted_onePixel {bandOffsets : List ℕ} (h : bandOffsets.length = 3 ∨ bandOffsets.length = 4) :
    Accepted (onePixel bandOffsets) := ⟨Or.inr h, rfl, rfl⟩

theorem valid_onePixel {bandOffsets : List ℕ} (hperm : bandOffsets.Perm (List.range bandOffsets.length)) :
    (onePixel bandOffsets).Valid := by
  refine ⟨Nat.one_pos, Nat.one_pos, fun i hi j hj k hk => ?_⟩
  obtain rfl : i = 0 := Nat.lt_one_iff.mp hi
  obtain rfl : j = 0 := Nat.lt_one_iff.mp hj
  have hmem : bandOffsets.getD k 0 ∈ List.range bandOffsets.length := by
    have hk' : k < bandOffsets.length := hk
    rw [List.getD_eq_getElem _ _ hk']
    exact hperm.mem_iff.mp (List.getElem_mem hk')
  have hlt := List.mem_range.mp hmem
  have horigin : (onePixel bandOffsets).origin 0 0 = 0 := by simp [onePixel, BufferedImage.origin]
  have hlen : (onePixel bandOffsets).data.length = bandOffsets.length := List.length_replicate
  rw [horigin, hlen]
  change 0 ≤ (0 : ℤ) + (bandOffsets.getD k 0 : ℕ) ∧ (0 : ℤ) + (bandOffsets.getD k 0 : ℕ) < bandOffsets.length
  omega

/-- Two rows of three pixels in this band order. -/
def sixPixels (bandOffsets : List ℕ) : BufferedImage where
  width := 3
  height := 2
  sampleModel := ⟨true, 3, 2, bandOffsets.length, 3 * bandOffsets.length, bandOffsets⟩
  translateX := 0
  translateY := 0
  isByte := true
  data := (List.range (6 * bandOffsets.length)).map (BitVec.ofNat 8)

/-- Of two orders that are not a default, one is normalised. -/
theorem normalises_iff_shuffled : Converts (fun _ _ _ _ _ _ => 0) (sixPixels [1, 2, 0]) ∧
    ¬ ∀ data : List (BitVec 8), data.length = (sixPixels [0, 2, 1]).data.length →
      Converts (fun _ _ _ _ _ _ => 0) ((sixPixels [0, 2, 1]).withData data) := by
  constructor
  · have hvalid : (sixPixels [1, 2, 0]).Valid := ⟨by decide, by decide, by decide +kernel⟩
    exact (normalises_iff _ (sixPixels [1, 2, 0]) ⟨.inr (.inl rfl), rfl, rfl⟩ hvalid (.inl rfl) (by decide)).mpr
      ⟨by decide, by unfold Aligned; decide +kernel⟩ (sixPixels [1, 2, 0]).data rfl
  · have hvalid : (sixPixels [0, 2, 1]).Valid := ⟨by decide, by decide, by decide +kernel⟩
    intro h
    have hgood := ((normalises_iff _ (sixPixels [0, 2, 1]) ⟨.inr (.inl rfl), rfl, rfl⟩ hvalid (.inl rfl)
      (by decide)).mp h).1
    exact absurd hgood (by decide)

/-- Red first, then blue, then green: the bands are moved round the wrong way. -/
theorem bands_misplaced : ¬ ∀ (blank : Blank) (image : BufferedImage), Accepted image → image.Valid →
    (image.bands = 3 ∨ image.bands = 4) → image.sampleModel.bandOffsets.Perm (List.range image.bands) →
    Converts blank image := by
  intro h
  have hacc : Accepted (onePixel [0, 2, 1]) := accepted_onePixel (Or.inl rfl)
  have hvalid : (onePixel [0, 2, 1]).Valid := valid_onePixel (by decide)
  have hperm : (onePixel [0, 2, 1]).sampleModel.bandOffsets.Perm (List.range (onePixel [0, 2, 1]).bands) := by decide
  have hgood := (good_aligned_of_converts hacc hvalid hperm (fun _ _ _ _ _ _ => 0) fun data hlen =>
    h _ _ ⟨hacc.bands, rfl, rfl⟩ (valid_withData hvalid hlen) (Or.inl rfl) hperm).1
  exact absurd hgood (by decide)

end Images
end PGCon
