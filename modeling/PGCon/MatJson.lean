/-
# Template images as text

`ImageUtil.matToJson` reads the elements of a Mat into a Java array, serializes
and compresses it, and writes it into a JSON object with the size and the type;
`jsonToMat` goes the other way. Both choose the kind of array by the type of the
Mat. The libraries in between are assumed to be lossless (`Libraries`).

Two things are left that can fail. The kind of the array has to be the one the
Mat's depth asks for, and for CV_16S it is not: `Mat.get` refuses an `int[]`
there. And the array has to hold all elements; its length is computed in bytes,
so it is larger than needed, but in `int` arithmetic, which overflows for large
images. Nothing else can (`survives_iff`).
-/
import PGCon.Protocol

namespace PGCon
namespace MatJson

/-! ### Types of Mats -/

namespace CvType

/-- `CV_MAKETYPE(depth, channels)`. -/
abbrev makeType (depth channels : ℕ) : ℕ := depth + 8 * (channels - 1)

abbrev CV_8U : ℕ := 0
abbrev CV_8S : ℕ := 1
abbrev CV_16S : ℕ := 3
abbrev CV_32S : ℕ := 4
abbrev CV_32F : ℕ := 5
abbrev CV_64F : ℕ := 6
abbrev CV_8UC2 : ℕ := makeType CV_8U 2
abbrev CV_8UC3 : ℕ := makeType CV_8U 3
abbrev CV_8UC4 : ℕ := makeType CV_8U 4
abbrev CV_32SC2 : ℕ := makeType CV_32S 2
abbrev CV_32SC3 : ℕ := makeType CV_32S 3
abbrev CV_32FC2 : ℕ := makeType CV_32F 2
abbrev CV_64FC2 : ℕ := makeType CV_64F 2

def depth (type : ℕ) : ℕ := type % 8

def channels (type : ℕ) : ℕ := type / 8 + 1

/-- The bytes of one channel of an element. -/
def elemSize1 (type : ℕ) : ℕ :=
  match depth type with
  | 0 | 1 => 1
  | 4 | 5 => 4
  | 6 => 8
  | _ => 2

/-- `Mat.elemSize()`. -/
def elemSize (type : ℕ) : ℕ := channels type * elemSize1 type

end CvType

open CvType

/-! ### Mats and Java arrays -/

/-- A Mat: every channel of every element, as bits. -/
structure Mat where
  rows : ℕ
  cols : ℕ
  type : ℕ
  isContinuous : Bool
  data : Vector (BitVec (8 * elemSize1 type)) (rows * cols * channels type)

/-- The kinds of Java arrays. -/
inductive Kind
  | int
  | float
  | double
  | byte
  deriving DecidableEq, Repr

namespace Kind

/-- The bits of an element. -/
def width : Kind → ℕ
  | int => 32
  | float => 32
  | double => 64
  | byte => 8

/-- `Mat.get` and `Mat.put` take an array of this kind for this depth, and move the
bits as they are. (They take a `double[]` for any depth, and convert; that is not
asked of them here.) -/
def Takes : Kind → ℕ → Prop
  | int, depth => depth = CV_32S
  | float, depth => depth = CV_32F
  | double, depth => depth = CV_64F
  | byte, depth => depth = CV_8U ∨ depth = CV_8S

instance (k : Kind) (depth : ℕ) : Decidable (k.Takes depth) :=
  match k with
  | int => inferInstanceAs (Decidable (depth = CV_32S))
  | float => inferInstanceAs (Decidable (depth = CV_32F))
  | double => inferInstanceAs (Decidable (depth = CV_64F))
  | byte => inferInstanceAs (Decidable (depth = CV_8U ∨ depth = CV_8S))

theorem Takes.width_eq {k : Kind} {type : ℕ} (h : k.Takes (depth type)) : 8 * elemSize1 type = k.width := by
  cases k with
  | int | float | double =>
    have hd : depth type = _ := h
    rw [elemSize1, hd]
    rfl
  | byte =>
    rcases h with hd | hd <;> rw [elemSize1, hd] <;> rfl

end Kind

/-- `new T[n]`, as far as the length goes. -/
def newArray (n : ℤ) : Except JavaException ℕ := if n < 0 then .error .negativeArraySize else .ok n.toNat

namespace Mat

variable (mat : Mat)

/-- The number of array elements that `mat` has. -/
abbrev count : ℕ := mat.rows * mat.cols * channels mat.type

/-- `cols * rows * elemSize`, in `int` arithmetic. -/
def arrayLength : ℤ :=
  (BitVec.ofNat 32 mat.cols * BitVec.ofNat 32 mat.rows * BitVec.ofNat 32 (elemSize mat.type)).toInt

/-- What `get(0, 0, data)` leaves in an array of length `n`: as many elements as
fit, and 0 behind them. -/
def copied (k : Kind) (n : ℕ) : List (BitVec k.width) :=
  List.ofFn fun i : Fin n => if h : i < mat.count then (mat.data.get ⟨i, h⟩).setWidth k.width else 0

/-- `get(0, 0, data)`. -/
def get (k : Kind) (n : ℕ) : Except JavaException (List (BitVec k.width)) :=
  if k.Takes (depth mat.type) then .ok (mat.copied k n) else .error .unsupportedOperation

/-- `put(0, 0, data)`: as many elements as fit, the others stay. -/
def put (k : Kind) (data : List (BitVec k.width)) : Except JavaException Mat :=
  if k.Takes (depth mat.type) then
    .ok { mat with data := Vector.ofFn fun i =>
      if h : i < data.length then (data.get ⟨i, h⟩).setWidth _ else mat.data.get i }
  else .error .unsupportedOperation

end Mat

/-- What memory a new Mat finds. -/
abbrev Memory := ∀ rows cols type : ℕ, Vector (BitVec (8 * elemSize1 type)) (rows * cols * channels type)

/-- `new Mat(rows, cols, type)`. -/
def Mat.new (memory : Memory) (rows cols type : ℕ) : Mat := ⟨rows, cols, type, true, memory rows cols type⟩

/-! ### The libraries -/

/-- The entries of the JSON object. -/
structure Json where
  R : ℕ
  C : ℕ
  T : ℕ
  L : ℕ
  D : String
  deriving DecidableEq

/-- LZ4, Base64, serialization of arrays and fastjson, as far as they are used.
Nothing is lost in any of them. -/
structure Libraries where
  lz4Compress : List (BitVec 8) → List (BitVec 8)
  lz4Decompress : List (BitVec 8) → ℕ → List (BitVec 8)
  encodeBase64String : List (BitVec 8) → String
  decodeBase64 : String → List (BitVec 8)
  serialize : (k : Kind) → List (BitVec k.width) → List (BitVec 8)
  deserialize : (k : Kind) → List (BitVec 8) → List (BitVec k.width)
  toJSONString : Json → String
  parseObject : String → Json
  lz4_lossless : ∀ bytes, lz4Decompress (lz4Compress bytes) bytes.length = bytes
  base64_lossless : ∀ bytes, decodeBase64 (encodeBase64String bytes) = bytes
  serialize_lossless : ∀ k data, deserialize k (serialize k data) = data
  json_lossless : ∀ obj, parseObject (toJSONString obj) = obj

/-! ### `ImageUtil` -/

variable (lib : Libraries)

/-- The branches of `matToJson` for `int[]`, `float[]` and `double[]`: the length
and the text of the data. -/
def packSerialized (k : Kind) (mat : Mat) : Except JavaException (ℕ × String) := do
  let n ← newArray mat.arrayLength
  let data ← mat.get k n
  let serialize := lib.serialize k data
  let compress := lib.lz4Compress serialize
  return (serialize.length, lib.encodeBase64String compress)

/-- The branch for `byte[]`, which is not serialized. -/
def packBytes (mat : Mat) : Except JavaException (ℕ × String) := do
  let n ← newArray mat.arrayLength
  let data ← mat.get .byte n
  let compress := lib.lz4Compress data
  return (data.length, lib.encodeBase64String compress)

/-- `matToJson`. -/
def matToJson (mat : Mat) : Except JavaException String :=
  if mat.isContinuous then do
    let type := mat.type
    let (dataLength, dataString) ←
      if type = CV_32S ∨ type = CV_32SC2 ∨ type = CV_32SC3 ∨ type = CV_16S then packSerialized lib .int mat
      else if type = CV_32F ∨ type = CV_32FC2 then packSerialized lib .float mat
      else if type = CV_64F ∨ type = CV_64FC2 then packSerialized lib .double mat
      else if type = CV_8U ∨ type = CV_8UC2 ∨ type = CV_8UC3 ∨ type = CV_8UC4 then packBytes lib mat
      else throw .interruptScript
    return lib.toJSONString ⟨mat.rows, mat.cols, type, dataLength, dataString⟩
  else throw .interruptScript

/-- The branches of `jsonToMat` for `int[]`, `float[]` and `double[]`. -/
def unpackSerialized (k : Kind) (dataLength : ℕ) (dataString : String) : List (BitVec k.width) :=
  lib.deserialize k (lib.lz4Decompress (lib.decodeBase64 dataString) dataLength)

/-- The branch for `byte[]`. -/
def unpackBytes (dataLength : ℕ) (dataString : String) : List (BitVec 8) :=
  lib.lz4Decompress (lib.decodeBase64 dataString) dataLength

/-- `jsonToMat`. -/
def jsonToMat (memory : Memory) (json : String) : Except JavaException Mat :=
  let parse := lib.parseObject json
  let type := parse.T
  let mat := Mat.new memory parse.R parse.C type
  if type = CV_32S ∨ type = CV_32SC2 ∨ type = CV_32SC3 ∨ type = CV_16S then
    mat.put .int (unpackSerialized lib .int parse.L parse.D)
  else if type = CV_32F ∨ type = CV_32FC2 then
    mat.put .float (unpackSerialized lib .float parse.L parse.D)
  else if type = CV_64F ∨ type = CV_64FC2 then
    mat.put .double (unpackSerialized lib .double parse.L parse.D)
  else if type = CV_8U ∨ type = CV_8UC2 ∨ type = CV_8UC3 ∨ type = CV_8UC4 then
    mat.put .byte (unpackBytes lib parse.L parse.D)
  else throw .interruptScript

/-- `matToJson` returns a text, from which `jsonToMat` makes the same Mat again. -/
def Survives (mat : Mat) : Prop :=
  ∃ json, matToJson lib mat = .ok json ∧ ∀ memory, jsonToMat lib memory json = .ok mat

/-- The kind of array that both functions choose for a type, if they have a branch
for it. -/
def kindOf (type : ℕ) : Option Kind :=
  if type = CV_32S ∨ type = CV_32SC2 ∨ type = CV_32SC3 ∨ type = CV_16S then some .int
  else if type = CV_32F ∨ type = CV_32FC2 then some .float
  else if type = CV_64F ∨ type = CV_64FC2 then some .double
  else if type = CV_8U ∨ type = CV_8UC2 ∨ type = CV_8UC3 ∨ type = CV_8UC4 then some .byte
  else none

/-! ### Elements -/

section Elements

variable {mat : Mat} {k : Kind} {n : ℕ}

theorem Mat.length_copied : (mat.copied k n).length = n := List.length_ofFn

theorem Mat.getElem_copied {i : ℕ} (h : i < (mat.copied k n).length) (hi : i < mat.count) :
    (mat.copied k n)[i] = (mat.data.get ⟨i, hi⟩).setWidth k.width := by
  simp only [Mat.copied, List.getElem_ofFn, dif_pos hi]

/-- Bits that go through an array of the right kind. -/
theorem setWidth_setWidth {type : ℕ} (h : k.Takes (depth type)) (x : BitVec (8 * elemSize1 type)) :
    (x.setWidth k.width).setWidth (8 * elemSize1 type) = x := by
  rw [BitVec.setWidth_setWidth_of_le x h.width_eq.le, BitVec.setWidth_eq]

/-- All elements fit: they are all put back. -/
theorem put_copied (hk : k.Takes (depth mat.type)) (hcont : mat.isContinuous = true) (hn : mat.count ≤ n)
    (memory : Memory) : (Mat.new memory mat.rows mat.cols mat.type).put k (mat.copied k n) = .ok mat := by
  obtain ⟨rows, cols, type, isContinuous, data⟩ := mat
  obtain rfl : isContinuous = true := hcont
  have hput : ((⟨rows, cols, type, true, memory rows cols type⟩ : Mat).put k
      ((⟨rows, cols, type, true, data⟩ : Mat).copied k n)) = .ok ⟨rows, cols, type, true, _⟩ := if_pos hk
  refine hput.trans ?_
  congr 2
  ext1 i hi
  have hlt : i < ((⟨rows, cols, type, true, data⟩ : Mat).copied k n).length := by
    rw [Mat.length_copied]
    exact hi.trans_le hn
  rw [Vector.getElem_ofFn, dif_pos hlt, List.get_eq_getElem, Mat.getElem_copied hlt hi]
  exact setWidth_setWidth hk _

/-- Elements that do not fit are lost: the new Mat has there what was in memory. -/
theorem not_put_copied (hk : k.Takes (depth mat.type)) (hn : n < mat.count) :
    ¬ ∀ memory : Memory, (Mat.new memory mat.rows mat.cols mat.type).put k (mat.copied k n) = .ok mat := by
  intro h
  obtain ⟨rows, cols, type, isContinuous, data⟩ := mat
  -- what is in memory at the first element that does not fit shows through
  have hshow : ∀ memory : Memory, data.get ⟨n, hn⟩ = (memory rows cols type).get ⟨n, hn⟩ := by
    intro memory
    have hput : (⟨rows, cols, type, true, memory rows cols type⟩ : Mat).put k
        ((⟨rows, cols, type, isContinuous, data⟩ : Mat).copied k n) = .ok ⟨rows, cols, type, true, _⟩ := if_pos hk
    have hdata := (Mat.mk.inj (Except.ok.inj (hput.symm.trans (h memory)))).2.2.2.2
    have hnot : ¬ n < ((⟨rows, cols, type, isContinuous, data⟩ : Mat).copied k n).length := by
      rw [Mat.length_copied]
      exact lt_irrefl n
    rw [← eq_of_heq hdata]
    show (Vector.ofFn _)[n] = _
    rw [Vector.getElem_ofFn, dif_neg hnot]
  have hzero := hshow fun _ _ _ => Vector.replicate _ 0
  have hones := hshow fun _ _ _ => Vector.replicate _ (BitVec.allOnes _)
  have hwidth : 0 < 8 * elemSize1 type := by
    rw [hk.width_eq]
    cases k <;> decide
  have hsame : (0 : BitVec (8 * elemSize1 type)) = BitVec.allOnes _ :=
    calc (0 : BitVec (8 * elemSize1 type)) = (Vector.replicate (rows * cols * channels type) 0).get ⟨n, hn⟩ :=
          (Vector.getElem_replicate hn).symm
      _ = data.get ⟨n, hn⟩ := hzero.symm
      _ = (Vector.replicate (rows * cols * channels type) (BitVec.allOnes _)).get ⟨n, hn⟩ := hones
      _ = BitVec.allOnes _ := Vector.getElem_replicate hn
  have hbit := congrArg (fun x => x.getLsbD 0) hsame
  simp [hwidth] at hbit

end Elements

/-! ### Branches -/

/-- The branch of `matToJson` for a kind of array. -/
def pack (k : Kind) (mat : Mat) : Except JavaException (ℕ × String) :=
  if k = .byte then packBytes lib mat else packSerialized lib k mat

/-- The branch of `jsonToMat`. -/
def unpack : (k : Kind) → ℕ → String → List (BitVec k.width)
  | .int => unpackSerialized lib .int
  | .float => unpackSerialized lib .float
  | .double => unpackSerialized lib .double
  | .byte => unpackBytes lib

/-- The bytes that are compressed. -/
def bytesOf : (k : Kind) → List (BitVec k.width) → List (BitVec 8)
  | .int => lib.serialize .int
  | .float => lib.serialize .float
  | .double => lib.serialize .double
  | .byte => id

theorem pack_eq (k : Kind) (mat : Mat) : pack lib k mat = (do
    let n ← newArray mat.arrayLength
    let data ← mat.get k n
    return ((bytesOf lib k data).length, lib.encodeBase64String (lib.lz4Compress (bytesOf lib k data)))) := by
  cases k <;> rfl

theorem unpack_bytes (k : Kind) (data : List (BitVec k.width)) :
    unpack lib k (bytesOf lib k data).length (lib.encodeBase64String (lib.lz4Compress (bytesOf lib k data))) =
      data := by
  cases k with
  | int | float | double =>
    rw [unpack, unpackSerialized, lib.base64_lossless, lib.lz4_lossless]
    exact lib.serialize_lossless _ data
  | byte =>
    rw [unpack, unpackBytes, lib.base64_lossless]
    exact lib.lz4_lossless data

section Branches

variable {lib} {mat : Mat} {k : Kind}

/-- Both functions choose their branch by the kind. -/
theorem branch_eq {α : Type} {type : ℕ} (hkind : kindOf type = some k) (branch : Kind → α) (other : α) :
    (if type = CV_32S ∨ type = CV_32SC2 ∨ type = CV_32SC3 ∨ type = CV_16S then branch .int
      else if type = CV_32F ∨ type = CV_32FC2 then branch .float
      else if type = CV_64F ∨ type = CV_64FC2 then branch .double
      else if type = CV_8U ∨ type = CV_8UC2 ∨ type = CV_8UC3 ∨ type = CV_8UC4 then branch .byte
      else other) = branch k := by
  unfold kindOf at hkind
  split_ifs at hkind with h₁ h₂ h₃ h₄ <;> cases hkind
  · exact if_pos h₁
  · exact (if_neg h₁).trans (if_pos h₂)
  · exact (if_neg h₁).trans ((if_neg h₂).trans (if_pos h₃))
  · exact (if_neg h₁).trans ((if_neg h₂).trans ((if_neg h₃).trans (if_pos h₄)))

theorem matToJson_eq (hcont : mat.isContinuous = true) (hkind : kindOf mat.type = some k) :
    matToJson lib mat = (pack lib k mat).map fun p =>
      lib.toJSONString ⟨mat.rows, mat.cols, mat.type, p.1, p.2⟩ := by
  have hbind : ∀ x : Except JavaException (ℕ × String), (do
      let (dataLength, dataString) ← x
      return lib.toJSONString ⟨mat.rows, mat.cols, mat.type, dataLength, dataString⟩) =
      x.map fun p => lib.toJSONString ⟨mat.rows, mat.cols, mat.type, p.1, p.2⟩ := by
    intro x
    cases x <;> rfl
  rw [matToJson, if_pos hcont, ← hbind]
  exact branch_eq hkind (fun k => do
    let (dataLength, dataString) ← pack lib k mat
    return lib.toJSONString ⟨mat.rows, mat.cols, mat.type, dataLength, dataString⟩) _

theorem jsonToMat_eq {rows cols type : ℕ} (hkind : kindOf type = some k) (memory : Memory) (L : ℕ) (D : String) :
    jsonToMat lib memory (lib.toJSONString ⟨rows, cols, type, L, D⟩) =
      (Mat.new memory rows cols type).put k (unpack lib k L D) := by
  rw [jsonToMat, lib.json_lossless]
  exact branch_eq hkind (fun k => (Mat.new memory rows cols type).put k (unpack lib k L D)) _

/-- CV_16S is the type whose branch has an array of the wrong kind. -/
theorem takes_iff {type : ℕ} (hkind : kindOf type = some k) : k.Takes (depth type) ↔ type ≠ CV_16S := by
  unfold kindOf at hkind
  split_ifs at hkind with h₁ h₂ h₃ h₄ <;> cases hkind
  · rcases h₁ with rfl | rfl | rfl | rfl <;> decide
  · rcases h₂ with rfl | rfl <;> decide
  · rcases h₃ with rfl | rfl <;> decide
  · rcases h₄ with rfl | rfl | rfl | rfl <;> decide

variable (lib) in
/-- An array that cannot be made, or is refused. -/
theorem pack_fails (h : mat.arrayLength < 0 ∨ ¬ k.Takes (depth mat.type)) : ∃ e, pack lib k mat = .error e := by
  rw [pack_eq]
  rcases lt_or_ge mat.arrayLength 0 with hn | hn
  · have hnew : newArray mat.arrayLength = .error .negativeArraySize := if_pos hn
    exact ⟨_, by rw [hnew]; rfl⟩
  · have hnew : newArray mat.arrayLength = .ok mat.arrayLength.toNat := if_neg (not_lt.mpr hn)
    have hget : mat.get k mat.arrayLength.toNat = .error .unsupportedOperation :=
      if_neg (h.resolve_left (not_lt.mpr hn))
    refine ⟨.unsupportedOperation, ?_⟩
    rw [hnew]
    show (mat.get k mat.arrayLength.toNat).bind _ = _
    rw [hget]
    rfl

variable (lib) in
/-- Otherwise the array is read back. -/
theorem pack_ok (hk : k.Takes (depth mat.type)) (hn : 0 ≤ mat.arrayLength) : ∃ p,
    pack lib k mat = .ok p ∧ unpack lib k p.1 p.2 = mat.copied k mat.arrayLength.toNat := by
  have hnew : newArray mat.arrayLength = .ok mat.arrayLength.toNat := if_neg (not_lt.mpr hn)
  have hget : mat.get k mat.arrayLength.toNat = .ok (mat.copied k mat.arrayLength.toNat) := if_pos hk
  refine ⟨(_, _), ?_, unpack_bytes lib k (mat.copied k mat.arrayLength.toNat)⟩
  rw [pack_eq, hnew]
  show (mat.get k mat.arrayLength.toNat).bind _ = _
  rw [hget]
  rfl

/-- The array has to be of a kind that the Mat takes, and hold all elements. -/
theorem survives_iff_takes (hcont : mat.isContinuous = true) (hkind : kindOf mat.type = some k) :
    Survives lib mat ↔ k.Takes (depth mat.type) ∧ (mat.count : ℤ) ≤ mat.arrayLength := by
  by_cases hok : 0 ≤ mat.arrayLength ∧ k.Takes (depth mat.type)
  · obtain ⟨hn, hk⟩ := hok
    obtain ⟨p, hp, hunpack⟩ := pack_ok lib hk hn
    have hjson : matToJson lib mat = .ok (lib.toJSONString ⟨mat.rows, mat.cols, mat.type, p.1, p.2⟩) := by
      rw [matToJson_eq hcont hkind, hp]
      rfl
    have hback : ∀ memory, jsonToMat lib memory (lib.toJSONString ⟨mat.rows, mat.cols, mat.type, p.1, p.2⟩) =
        (Mat.new memory mat.rows mat.cols mat.type).put k (mat.copied k mat.arrayLength.toNat) := by
      intro memory
      rw [jsonToMat_eq hkind, hunpack]
    constructor
    · rintro ⟨json, hto, hall⟩
      obtain rfl := Except.ok.inj (hjson.symm.trans hto)
      refine ⟨hk, ?_⟩
      by_contra hlt
      exact not_put_copied hk (by omega) fun memory => (hback memory).symm.trans (hall memory)
    · rintro ⟨-, hle⟩
      exact ⟨_, hjson, fun memory => (hback memory).trans (put_copied hk hcont (by omega) memory)⟩
  · have hfails : ¬ Survives lib mat := by
      rintro ⟨json, hjson, -⟩
      obtain ⟨e, he⟩ := pack_fails lib ((not_and_or.mp hok).imp_left not_le.mp)
      rw [matToJson_eq hcont hkind, he] at hjson
      cases hjson
    refine iff_of_false hfails ?_
    rintro ⟨hk, hle⟩
    exact hok ⟨by omega, hk⟩

/-- Without overflow the length is the number of bytes. -/
theorem count_le_arrayLength (h : mat.cols * mat.rows * elemSize mat.type < 2 ^ 31) :
    (mat.count : ℤ) ≤ mat.arrayLength := by
  have hlength : mat.arrayLength = (mat.cols * mat.rows * elemSize mat.type : ℕ) := by
    rw [Mat.arrayLength, ← BitVec.ofNat_mul, ← BitVec.ofNat_mul, BitVec.toInt_ofNat']
    exact Int.bmod_eq_of_le (by omega) (by omega)
  have hsize : 1 ≤ elemSize1 mat.type := by
    unfold elemSize1
    split <;> decide
  have hle : mat.count ≤ mat.cols * mat.rows * elemSize mat.type :=
    calc mat.rows * mat.cols * channels mat.type = mat.cols * mat.rows * (channels mat.type * 1) := by ring
      _ ≤ mat.cols * mat.rows * (channels mat.type * elemSize1 mat.type) := by gcongr
  rw [hlength]
  exact_mod_cast hle

/-- Every image of less than 2 GiB survives, unless it is of type CV_16S. -/
theorem survives_of_lt (hcont : mat.isContinuous = true) (hkind : kindOf mat.type = some k)
    (h16 : mat.type ≠ CV_16S) (h : mat.cols * mat.rows * elemSize mat.type < 2 ^ 31) : Survives lib mat :=
  (survives_iff_takes hcont hkind).mpr ⟨(takes_iff hkind).mpr h16, count_le_arrayLength h⟩

end Branches

variable {lib} {mat : Mat}

/-- A continuous Mat of a type that `matToJson` accepts survives if and only if its
type is not CV_16S and the length computed for the array is no less than the number
of its elements. -/
theorem survives_iff (hcont : mat.isContinuous = true) (htype : kindOf mat.type ≠ none) :
    Survives lib mat ↔ mat.type ≠ CV_16S ∧ (mat.count : ℤ) ≤ mat.arrayLength := by
  obtain ⟨k, hkind⟩ := Option.ne_none_iff_exists'.mp htype
  rw [← takes_iff hkind]
  exact survives_iff_takes hcont hkind

/-! ### Libraries that lose nothing -/

namespace Libraries

/-- A list of numbers as the length of a list. -/
def tally {α : Type} (a : α) (l : List ℕ) : List α := List.replicate (Encodable.encode l) a

def count {α : Type} (l : List α) : List ℕ := (Encodable.decode l.length).getD []

theorem count_tally {α : Type} (a : α) (l : List ℕ) : count (tally a l) = l := by
  rw [count, tally, List.length_replicate, Encodable.encodek, Option.getD_some]

theorem map_ofNat_toNat {w : ℕ} (l : List (BitVec w)) : (l.map BitVec.toNat).map (BitVec.ofNat w) = l := by
  have hx : ∀ x ∈ l, (BitVec.ofNat w ∘ BitVec.toNat) x = id x := by
    intro x _
    rw [Function.comp_apply, BitVec.ofNat_toNat, BitVec.setWidth_eq, id]
  rw [List.map_map, List.map_congr_left hx, List.map_id]

theorem map_ofNat_charToNat (l : List Char) : (l.map Char.toNat).map Char.ofNat = l := by
  have hx : ∀ x ∈ l, (Char.ofNat ∘ Char.toNat) x = id x := fun x _ => Char.ofNat_toNat x
  rw [List.map_map, List.map_congr_left hx, List.map_id]

/-- Everything written as a tally. -/
def tallies : Libraries where
  lz4Compress bytes := bytes
  lz4Decompress bytes _ := bytes
  encodeBase64String bytes := String.ofList (tally 'A' (bytes.map BitVec.toNat))
  decodeBase64 text := (count text.toList).map (BitVec.ofNat 8)
  serialize k data := tally 0 (data.map BitVec.toNat)
  deserialize k bytes := (count bytes).map (BitVec.ofNat k.width)
  toJSONString obj := String.ofList (tally 'A' (obj.R :: obj.C :: obj.T :: obj.L :: obj.D.toList.map Char.toNat))
  parseObject text := match count text.toList with
    | R :: C :: T :: L :: D => ⟨R, C, T, L, String.ofList (D.map Char.ofNat)⟩
    | _ => ⟨0, 0, 0, 0, ""⟩
  lz4_lossless _ := rfl
  base64_lossless bytes := by rw [String.toList_ofList, count_tally, map_ofNat_toNat]
  serialize_lossless k data := by rw [count_tally, map_ofNat_toNat]
  json_lossless obj := by
    rw [String.toList_ofList, count_tally]
    dsimp only
    rw [map_ofNat_charToNat, String.ofList_toList]

end Libraries

/-- One white pixel. -/
def white : Mat := ⟨1, 1, CV_8U, true, Vector.replicate _ 255⟩

theorem survives_iff_white : Survives Libraries.tallies white ↔
    white.type ≠ CV_16S ∧ (white.count : ℤ) ≤ white.arrayLength :=
  survives_iff rfl (by decide)

/-- A Mat of type CV_16S is not even written. -/
theorem short_lost : ¬ ∀ (lib : Libraries) (mat : Mat), mat.isContinuous = true → kindOf mat.type ≠ none →
    Survives lib mat := by
  intro h
  obtain ⟨json, hjson, -⟩ := h Libraries.tallies ⟨1, 1, CV_16S, true, Vector.replicate _ 1⟩ rfl (by decide)
  cases hjson

end MatJson
end PGCon
