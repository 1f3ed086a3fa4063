/-
# URL coding

Bytes in a URL or a form are coded, so that they can stand between its separators. A `Codec` is a
pair of an encoder and of the way its texts are read: a reader of a form takes a plus sign for a
blank, a reader of a path takes it for itself, and `decode` has that as an argument. What is used of
a codec is in `Codec.Lawful`: a text is read back but for its blanks, and no separator occurs in a
coded one.

A form is a list of keys and values. With a lawful codec, what is joined is taken apart again
(`parseForm_join`). In the `standard` codec the bytes of a safe set stand for themselves, a blank is
a plus sign, and any other byte is a percent sign and two hexadecimal digits.
-/
import Mathlib

namespace PGCon
namespace UrlCoding

abbrev Byte := BitVec 8

/-- A character of a literal, in ASCII. -/
def byte (c : Char) : Byte := BitVec.ofNat 8 c.toNat

/-- A literal in ASCII. -/
def ascii (s : String) : List Byte := s.toList.map byte

/-! ### Codecs -/

/-- An encoder, and what is read, with `plus` for a plus sign. -/
structure Codec where
  encode : List Byte → List Byte
  decode (plus : Byte) : List Byte → Option (List Byte)

/-- The bytes that stand between the parts of a URL or a form. -/
def isSeparator (b : Byte) : Bool :=
  b = byte '&' || b = byte '=' || b = byte '?' || b = byte '#' || b = byte '/'

/-- A small letter. -/
def isLetter (b : Byte) : Bool := 97 ≤ b.toNat && b.toNat ≤ 122

structure Codec.Lawful (codec : Codec) : Prop where
  decode_encode : ∀ plus text,
    codec.decode plus (codec.encode text) = some (text.map fun b => if b = byte ' ' then plus else b)
  decode_letters : ∀ plus text, (∀ b ∈ text, isLetter b = true) → codec.decode plus text = some text
  not_separator : ∀ text, ∀ b ∈ codec.encode text, isSeparator b = false

section

variable {codec : Codec}

/-- The reader of a form gets the text itself. -/
theorem Codec.Lawful.decode_blank (h : codec.Lawful) (text : List Byte) :
    codec.decode (byte ' ') (codec.encode text) = some text := by
  rw [h.decode_encode]
  congr 1
  refine List.map_id'' (fun b => ?_) text
  split
  · rename_i h
    exact h.symm
  · rfl

/-- Another reader gets the text only where there is no blank in it. -/
theorem Codec.Lawful.decode_encode_iff (h : codec.Lawful) {plus : Byte} (hplus : plus ≠ byte ' ') (text : List Byte) :
    codec.decode plus (codec.encode text) = some text ↔ byte ' ' ∉ text := by
  rw [h.decode_encode, Option.some_inj]
  induction text with
  | nil => simp
  | cons b text ih =>
    rw [List.map_cons, List.cons_eq_cons, ih, List.mem_cons, not_or]
    refine and_congr_left fun _ => ?_
    split
    · rename_i h
      simp [h, hplus]
    · rename_i h
      simp [Ne.symm h]

theorem Codec.Lawful.not_mem_encode (h : codec.Lawful) {c : Byte} (hc : isSeparator c = true) (text : List Byte) :
    c ∉ codec.encode text := by
  intro hmem
  rw [h.not_separator text c hmem] at hc
  cases hc

theorem not_letter_of_isSeparator {c : Byte} (hc : isSeparator c = true) : isLetter c = false := by
  simp only [isSeparator, Bool.or_eq_true, decide_eq_true_eq] at hc
  rcases hc with (((rfl | rfl) | rfl) | rfl) | rfl <;> rfl

theorem ne_of_isLetter {b c : Byte} (hb : isLetter b = true) (hc : isSeparator c = true) : b ≠ c := by
  rintro rfl
  rw [not_letter_of_isSeparator hc] at hb
  cases hb

/-! ### Forms -/

variable (codec)

/-- A key and the encoded value. -/
def pair (entry : List Byte × List Byte) : List Byte := entry.1 ++ byte '=' :: codec.encode entry.2

/-- The entries with an ampersand between them. -/
def join (entries : List (List Byte × List Byte)) : List Byte := [byte '&'].intercalate (entries.map (pair codec))

/-- A pair is cut at its first equals sign. -/
def parsePair (part : List Byte) : Option (List Byte × List Byte) := do
  let key ← codec.decode (byte ' ') (part.takeWhile (· ≠ byte '='))
  let value ← codec.decode (byte ' ') ((part.dropWhile (· ≠ byte '=')).drop 1)
  return (key, value)

/-- The pairs between the ampersands. -/
def parseForm (body : List Byte) : Option (List (List Byte × List Byte)) :=
  (body.splitOn (byte '&')).mapM (parsePair codec)

/-- The keys are letters. -/
def PlainKeys (entries : List (List Byte × List Byte)) : Prop := ∀ entry ∈ entries, ∀ b ∈ entry.1, isLetter b = true

variable {codec}

theorem parsePair_pair (hcodec : codec.Lawful) {entry : List Byte × List Byte} (h : ∀ b ∈ entry.1, isLetter b = true) :
    parsePair codec (pair codec entry) = some entry := by
  have hkey : ∀ b ∈ entry.1, decide (b ≠ byte '=') = true := fun b hb =>
    decide_eq_true (ne_of_isLetter (h b hb) rfl)
  have htake : (pair codec entry).takeWhile (· ≠ byte '=') = entry.1 := by
    rw [pair, List.takeWhile_append_of_pos hkey, List.takeWhile_cons_of_neg (by simp), List.append_nil]
  have hdrop : (pair codec entry).dropWhile (· ≠ byte '=') = byte '=' :: codec.encode entry.2 := by
    rw [pair, List.dropWhile_append_of_pos hkey, List.dropWhile_cons_of_neg (by simp)]
  rw [parsePair, htake, hdrop, hcodec.decode_letters _ _ h, List.drop_one, List.tail_cons, hcodec.decode_blank]
  rfl

/-- No separator but the equals sign is in a pair. -/
theorem not_mem_pair (hcodec : codec.Lawful) {entry : List Byte × List Byte} (h : ∀ b ∈ entry.1, isLetter b = true)
    {c : Byte} (hc : isSeparator c = true) (hne : c ≠ byte '=') : c ∉ pair codec entry := by
  rw [pair, List.mem_append, List.mem_cons, not_or, not_or]
  exact ⟨fun hmem => ne_of_isLetter (h c hmem) hc rfl, hne, hcodec.not_mem_encode hc entry.2⟩

/-- A form whose keys are letters, joined by ampersands, is read as it was. -/
theorem parseForm_join (hcodec : codec.Lawful) {entries : List (List Byte × List Byte)} (hne : entries ≠ [])
    (h : PlainKeys entries) : parseForm codec (join codec entries) = some entries := by
  have hseparator : ∀ part ∈ entries.map (pair codec), byte '&' ∉ part := by
    intro part hpart
    obtain ⟨entry, hentry, rfl⟩ := List.mem_map.mp hpart
    exact not_mem_pair hcodec (h entry hentry) rfl (by decide)
  rw [parseForm, join, List.splitOn_intercalate _ hseparator (by simpa using hne), List.mapM_map]
  clear hseparator hne
  induction entries with
  | nil => rfl
  | cons entry entries ih =>
    rw [List.mapM_cons, Function.comp_apply, parsePair_pair hcodec (h entry List.mem_cons_self),
      ih fun e he => h e (List.mem_cons_of_mem _ he)]
    rfl

end

/-! ### The standard codec -/

namespace Standard

/-- A digit from 0 to 15, in capitals. -/
def hexDigit (n : ℕ) : Byte := if n < 10 then BitVec.ofNat 8 (48 + n) else BitVec.ofNat 8 (55 + n)

def hexValue (b : Byte) : Option ℕ :=
  let n := b.toNat
  if 48 ≤ n ∧ n ≤ 57 then some (n - 48)
  else if 65 ≤ n ∧ n ≤ 70 then some (n - 55)
  else if 97 ≤ n ∧ n ≤ 102 then some (n - 87)
  else none

/-- Letters, digits and `-`, `_`, `.`, `*`. -/
def isSafe (b : Byte) : Bool :=
  let n := b.toNat
  (97 ≤ n && n ≤ 122) || (65 ≤ n && n ≤ 90) || (48 ≤ n && n ≤ 57) ||
    n == 45 || n == 95 || n == 46 || n == 42

def encodeByte (b : Byte) : List Byte :=
  if b = byte ' ' then [byte '+']
  else if isSafe b then [b]
  else [byte '%', hexDigit (b.toNat / 16), hexDigit (b.toNat % 16)]

def encode (text : List Byte) : List Byte := text.flatMap encodeByte

/-- `none` where a percent sign is not followed by two digits. -/
def decode (plus : Byte) : List Byte → Option (List Byte)
  | [] => some []
  | b :: text =>
    if b = byte '%' then
      match text with
      | high :: low :: text => do
        let high ← hexValue high
        let low ← hexValue low
        let rest ← decode plus text
        return BitVec.ofNat 8 (high * 16 + low) :: rest
      | _ => none
    else do
      let rest ← decode plus text
      return (if b = byte '+' then plus else b) :: rest

theorem hexValue_hexDigit {n : ℕ} (h : n < 16) : hexValue (hexDigit n) = some n := by
  interval_cases n <;> rfl

theorem isSafe_hexDigit {n : ℕ} (h : n < 16) : isSafe (hexDigit n) = true := by
  interval_cases n <;> rfl

/-- A safe byte is none of the bytes with a meaning. -/
theorem ne_of_isSafe {b : Byte} (h : isSafe b = true) {c : Char} (hc : isSafe (byte c) = false) : b ≠ byte c := by
  rintro rfl
  rw [hc] at h
  cases h

theorem isSafe_of_isLetter {b : Byte} (h : isLetter b = true) : isSafe b = true := by
  simp only [isLetter] at h
  simp only [isSafe, h, Bool.true_or]

theorem decode_plain {b : Byte} (plus : Byte) (text : List Byte) (h : b ≠ byte '%') :
    decode plus (b :: text) = (decode plus text).map ((if b = byte '+' then plus else b) :: ·) := by
  rw [decode.eq_def]
  simp only [if_neg h]
  cases decode plus text <;> rfl

theorem decode_escaped (plus b : Byte) (text : List Byte) :
    decode plus (byte '%' :: hexDigit (b.toNat / 16) :: hexDigit (b.toNat % 16) :: text) =
      (decode plus text).map (b :: ·) := by
  have hlt := b.isLt
  have hbyte : BitVec.ofNat 8 (b.toNat / 16 * 16 + b.toNat % 16) = b := by
    rw [Nat.div_add_mod', BitVec.ofNat_toNat, BitVec.setWidth_eq]
  rw [decode.eq_def]
  simp only [if_pos, hexValue_hexDigit (show b.toNat / 16 < 16 by omega),
    hexValue_hexDigit (show b.toNat % 16 < 16 by omega), hbyte, Option.bind_eq_bind, Option.bind_some]
  cases decode plus text <;> rfl

/-- An encoded byte is read as itself, and a blank as the plus sign is. -/
theorem decode_encodeByte (plus b : Byte) (text : List Byte) :
    decode plus (encodeByte b ++ text) = (decode plus text).map ((if b = byte ' ' then plus else b) :: ·) := by
  unfold encodeByte
  split
  · rw [List.singleton_append, decode_plain plus text (by decide), if_pos rfl]
  · split
    · rename_i hsafe
      rw [List.singleton_append, decode_plain plus text (ne_of_isSafe hsafe rfl), if_neg (ne_of_isSafe hsafe rfl)]
    · exact decode_escaped plus b text

/-- What is read of an encoded text: the text, with `plus` for its blanks. -/
theorem decode_encode (plus : Byte) : ∀ text : List Byte,
    decode plus (encode text) = some (text.map fun b => if b = byte ' ' then plus else b)
  | [] => rfl
  | b :: text => by
    rw [encode, List.flatMap_cons, decode_encodeByte, ← encode, decode_encode plus text, Option.map_some,
      List.map_cons]

theorem decode_safe (plus : Byte) : ∀ {text : List Byte}, (∀ b ∈ text, isSafe b = true) → decode plus text = some text
  | [], _ => rfl
  | b :: text, h => by
    have hb := h b List.mem_cons_self
    rw [decode_plain plus text (ne_of_isSafe hb rfl), if_neg (ne_of_isSafe hb rfl),
      decode_safe plus fun c hc => h c (List.mem_cons_of_mem _ hc)]
    rfl

/-- An encoded text has safe bytes, plus and percent signs. -/
theorem mem_encode {text : List Byte} {c : Byte} (h : c ∈ encode text) :
    isSafe c = true ∨ c = byte '+' ∨ c = byte '%' := by
  obtain ⟨b, -, hb⟩ := List.mem_flatMap.mp h
  have hlt := b.isLt
  unfold encodeByte at hb
  split at hb
  · exact .inr (.inl (List.mem_singleton.mp hb))
  · split at hb
    · rename_i hsafe
      rw [List.mem_singleton.mp hb]
      exact .inl hsafe
    · rcases List.mem_cons.mp hb with rfl | hb
      · exact .inr (.inr rfl)
      · rcases List.mem_cons.mp hb with rfl | hb
        · exact .inl (isSafe_hexDigit (by omega))
        · rw [List.mem_singleton.mp hb]
          exact .inl (isSafe_hexDigit (by omega))

theorem not_safe_of_isSeparator {c : Byte} (hc : isSeparator c = true) : isSafe c = false := by
  simp only [isSeparator, Bool.or_eq_true, decide_eq_true_eq] at hc
  rcases hc with (((rfl | rfl) | rfl) | rfl) | rfl <;> rfl

end Standard

def standard : Codec := ⟨Standard.encode, Standard.decode⟩

theorem lawful_standard : standard.Lawful where
  decode_encode := Standard.decode_encode
  decode_letters plus _ h := Standard.decode_safe plus fun b hb => Standard.isSafe_of_isLetter (h b hb)
  not_separator text b hb := by
    rcases Standard.mem_encode hb with hsafe | rfl | rfl
    · rw [← Bool.not_eq_true]
      intro hsep
      rw [Standard.not_safe_of_isSeparator hsep] at hsafe
      cases hsafe
    · rfl
    · rfl

end UrlCoding
end PGCon
