/-
# EasyCon on the wire

`EasyConSerialPort.convert` packs the seven bytes of a report into a packet of
eight bytes: seven bits a byte, with the top bit set on the last byte only. The
loop keeps the bits not yet sent in the accumulator `n`; between two command
bytes these are fewer than seven, and what has been written followed by them is
the command so far, bit for bit (`Packed`). Seven bytes fill eight groups of
seven with nothing left over, so the index never leaves the packet.

A packet ends where a top bit stands, so the receiver can cut the stream of any
sequence of commands into its packets (`cut`) and read each one (`decode`).
-/
import PGCon.Bits
import PGCon.Protocol

namespace PGCon
namespace Framing

open Bits

/-! ### `EasyConSerialPort` -/

/-- The locals of `convert` that its loops update, `bits` apart. -/
structure Locals where
  packet : Vector (BitVec 8) 8
  i : ℕ
  n : BitVec 64

namespace Locals

/-- `packet[i++] = b`. -/
def put (s : Locals) (b : BitVec 8) : Except JavaException Locals :=
  if h : s.i < 8 then .ok { s with packet := s.packet.set s.i b h, i := s.i + 1 }
  else .error .arrayIndexOutOfBounds

/-- `n = (n << 8) | (b & 0xFF)`. -/
def shiftIn (s : Locals) (b : BitVec 8) : Locals :=
  { s with n := (s.n <<< 8) ||| (b.signExtend 32 &&& 0xFF).signExtend 64 }

/-- `n &= (1L << bits) - 1`. -/
def keepLow (s : Locals) (bits : ℕ) : Locals := { s with n := s.n &&& ((1#64 <<< bits) - 1) }

end Locals

/-- `while (bits >= 7)`. The `bits` left are returned with the other locals. -/
def drain : ℕ → Locals → Except JavaException (ℕ × Locals)
  | bits + 7, s => do
    let s ← s.put ((s.n >>> bits).setWidth 8)
    drain bits (s.keepLow bits)
  | bits, s => .ok (bits, s)

/-- `convert`. -/
def convert (command : List (BitVec 8)) : Except JavaException (Vector (BitVec 8) 8) := do
  let (_, s) ← command.foldlM (fun (bits, s) b => drain (bits + 8) (s.shiftIn b))
    (0, ⟨Vector.replicate 8 0, 0, 0⟩)
  return s.packet.set 7 ((s.packet[7].signExtend 32 ||| 0x80).setWidth 8)

/-- `EasyConSerialPort`, as far as `sendCommand` goes: the bytes written. -/
structure EasyConSerialPort where
  written : List (BitVec 8)

/-- `sendCommand`. -/
def sendCommand (command : Report) : Java EasyConSerialPort Unit := fun sp =>
  match convert command.toList with
  | .ok packet => .ok () ⟨sp.written ++ packet.toList⟩
  | .error e => .error e sp

instance : SerialPort EasyConSerialPort Report where
  sendCommand := sendCommand
  close := pure ()

/-! ### What a packet says -/

/-- The bits of a byte. -/
def octet (b : BitVec 8) : List Bool := bits 8 b.toNat

/-- The bits of a byte below the top bit. -/
def payload (b : BitVec 8) : List Bool := bits 7 b.toNat

/-- The stream, cut after each byte whose top bit is set. -/
def cut : List (BitVec 8) → List (List (BitVec 8))
  | [] => []
  | b :: bs =>
    if b.msb then [b] :: cut bs
    else match cut bs with
      | [] => [[b]]
      | frame :: frames => (b :: frame) :: frames

/-- The bytes these bits make up. -/
def regroup (bs : List Bool) : List (BitVec 8) :=
  (groups 8 (bs.length / 8) bs).map fun g => BitVec.ofNat 8 (ofBits g)

/-- The commands in a stream of packets. -/
def decode (stream : List (BitVec 8)) : List (List (BitVec 8)) :=
  (cut stream).map fun frame => regroup (frame.flatMap payload)

theorem length_octet (b : BitVec 8) : (octet b).length = 8 := length_bits _ _

/-- Bytes put out as bits are read back. -/
theorem regroup_octets (bytes : List (BitVec 8)) : regroup (bytes.flatMap octet) = bytes := by
  have hread : ∀ b : BitVec 8, BitVec.ofNat 8 (ofBits (octet b)) = b := by
    intro b
    rw [octet, ofBits_bits, Nat.mod_eq_of_lt b.isLt, BitVec.ofNat_toNat, BitVec.setWidth_eq]
  rw [regroup, length_flatMap length_octet, Nat.mul_div_cancel_left _ (by omega), groups_flatMap length_octet,
    List.map_map]
  exact (List.map_congr_left fun b _ => hread b).trans (List.map_id bytes)

/-- A packet in front of a stream is cut off whole. -/
theorem cut_packet {body : List (BitVec 8)} {last : BitVec 8} (hbody : ∀ b ∈ body, b.msb = false)
    (hlast : last.msb = true) (rest : List (BitVec 8)) :
    cut (body ++ last :: rest) = (body ++ [last]) :: cut rest := by
  induction body with
  | nil => rw [List.nil_append, cut, if_pos hlast, List.nil_append]
  | cons b body ih =>
    have hb : ¬ b.msb = true := by simp [hbody b List.mem_cons_self]
    have ih := ih fun c hc => hbody c (List.mem_cons_of_mem b hc)
    rw [List.cons_append, cut, if_neg hb, ih, List.cons_append]

/-! ### The accumulator -/

theorem toNat_shiftIn {s : Locals} {k : ℕ} (hn : s.n.toNat < 2 ^ k) (hk : k + 8 ≤ 64) (b : BitVec 8) :
    (s.shiftIn b).n.toNat = s.n.toNat * 2 ^ 8 + b.toNat := by
  have hbyte : ∀ b : BitVec 8, (b.signExtend 32 &&& 0xFF).signExtend 64 = b.setWidth 64 := by decide +kernel
  have hfits : s.n.toNat * 2 ^ 8 < 2 ^ 64 :=
    calc s.n.toNat * 2 ^ 8 < 2 ^ k * 2 ^ 8 := Nat.mul_lt_mul_of_pos_right hn (by norm_num)
      _ = 2 ^ (k + 8) := (pow_add 2 k 8).symm
      _ ≤ 2 ^ 64 := Nat.pow_le_pow_right (by norm_num) hk
  have hb : b.toNat < 2 ^ 64 := lt_of_lt_of_le b.isLt (by norm_num)
  rw [Locals.shiftIn, hbyte, BitVec.toNat_or, BitVec.toNat_shiftLeft, BitVec.toNat_setWidth,
    Nat.mod_eq_of_lt hb, Nat.shiftLeft_eq, Nat.mod_eq_of_lt hfits, ← Nat.shiftLeft_eq,
    ← Nat.shiftLeft_add_eq_or_of_lt b.isLt]

theorem toNat_group {n : BitVec 64} {k : ℕ} (hn : n.toNat < 2 ^ (k + 7)) :
    ((n >>> k).setWidth 8).toNat = n.toNat >>> k ∧ n.toNat >>> k < 2 ^ 7 := by
  have hlt : n.toNat >>> k < 2 ^ 7 := by
    rw [Nat.shiftRight_eq_div_pow]
    exact Nat.div_lt_of_lt_mul (by rw [← pow_add]; exact hn)
  refine ⟨?_, hlt⟩
  rw [BitVec.toNat_setWidth, BitVec.toNat_ushiftRight]
  exact Nat.mod_eq_of_lt (by omega)

theorem toNat_keepLow (s : Locals) {k : ℕ} (hk : k < 64) : (s.keepLow k).n.toNat = s.n.toNat % 2 ^ k := by
  have hpow : 2 ^ k < 2 ^ 64 := Nat.pow_lt_pow_right (by norm_num) hk
  have hone : (1#64 <<< k).toNat = 2 ^ k := by
    have h1 : (1#64).toNat = 1 := rfl
    rw [BitVec.toNat_shiftLeft, Nat.shiftLeft_eq, h1, one_mul, Nat.mod_eq_of_lt hpow]
  have hmask : ((1#64 <<< k) - 1).toNat = 2 ^ k - 1 := by
    have hpos : 0 < 2 ^ k := Nat.two_pow_pos k
    have hle : (1 : BitVec 64) ≤ 1#64 <<< k := by
      rw [BitVec.le_def, hone]
      exact hpos
    rw [BitVec.toNat_sub_of_le hle, hone]
    rfl
  rw [Locals.keepLow, BitVec.toNat_and, hmask, Nat.and_two_pow_sub_one_eq_mod]

/-! ### The loops -/

/-- Between two writes: the groups written have a clear top bit, and followed by
the `k` bits still in `n` they are the bits of the command bytes `sent` so far. -/
structure Packed (sent : List (BitVec 8)) (k : ℕ) (s : Locals) : Prop where
  small : s.n.toNat < 2 ^ k
  count : 7 * s.i + k = 8 * sent.length
  clear : ∀ b ∈ s.packet.toList.take s.i, b.msb = false
  stream : (s.packet.toList.take s.i).flatMap payload ++ bits k s.n.toNat = sent.flatMap octet

variable {sent : List (BitVec 8)} {k : ℕ} {s : Locals}

/-- One command byte more. -/
theorem Packed.shiftIn (h : Packed sent k s) (hk : k + 8 ≤ 64) (b : BitVec 8) :
    Packed (sent ++ [b]) (k + 8) (s.shiftIn b) := by
  have hn := toNat_shiftIn h.small hk b
  have hb : b.toNat < 2 ^ 8 := b.isLt
  constructor
  · calc (s.shiftIn b).n.toNat = s.n.toNat * 2 ^ 8 + b.toNat := hn
      _ < (s.n.toNat + 1) * 2 ^ 8 := by omega
      _ ≤ 2 ^ k * 2 ^ 8 := Nat.mul_le_mul_right _ h.small
      _ = 2 ^ (k + 8) := (pow_add 2 k 8).symm
  · have hcount := h.count
    rw [List.length_append, List.length_singleton]
    show 7 * s.i + (k + 8) = _
    omega
  · exact h.clear
  · rw [hn, bits_append hb, ← List.append_assoc, List.flatMap_append, List.flatMap_singleton]
    exact congrArg (· ++ octet b) h.stream

/-- One pass of the inner loop. -/
theorem Packed.put (h : Packed sent (k + 7) s) (hk : k < 64) (hroom : sent.length ≤ 7) :
    ∃ s', s.put ((s.n >>> k).setWidth 8) = .ok s' ∧ Packed sent k (s'.keepLow k) := by
  have hi : s.i < 8 := by
    have := h.count
    omega
  obtain ⟨hgroup, hlt⟩ := toNat_group h.small
  have hlen : s.i < s.packet.toList.length := by rw [Vector.length_toList]; exact hi
  have htake : (s.packet.set s.i ((s.n >>> k).setWidth 8) hi).toList.take (s.i + 1) =
      s.packet.toList.take s.i ++ [(s.n >>> k).setWidth 8] := by
    rw [Vector.toList_set, List.take_succ_eq_append_getElem (by simpa using hlen), List.getElem_set_self,
      List.take_set_of_le (le_refl _)]
  refine ⟨_, dif_pos hi, ?_⟩
  constructor
  · rw [toNat_keepLow _ hk]
    exact Nat.mod_lt _ (Nat.two_pow_pos k)
  · have := h.count
    show 7 * (s.i + 1) + k = _
    omega
  · show ∀ b ∈ (s.packet.set s.i ((s.n >>> k).setWidth 8) hi).toList.take (s.i + 1), b.msb = false
    rw [htake]
    intro b hb
    rcases List.mem_append.mp hb with hb | hb
    · exact h.clear b hb
    · rw [List.mem_singleton.mp hb, BitVec.msb_eq_decide, decide_eq_false_iff_not, hgroup]
      omega
  · rw [toNat_keepLow _ hk, bits_mod]
    show (List.take (s.i + 1) (s.packet.set s.i ((s.n >>> k).setWidth 8) hi).toList).flatMap payload ++
      bits k s.n.toNat = _
    rw [htake, List.flatMap_append, List.flatMap_singleton, payload, hgroup, List.append_assoc, ← bits_add,
      Nat.add_comm 7 k]
    exact h.stream

/-- The inner loop leaves fewer than seven bits. -/
theorem Packed.drain (h : Packed sent k s) (hk : k < 64) (hroom : sent.length ≤ 7) :
    ∃ k' s', drain k s = .ok (k', s') ∧ k' < 7 ∧ Packed sent k' s' := by
  induction k using Nat.strong_induction_on generalizing s with
  | _ k ih =>
    by_cases h7 : 7 ≤ k
    · obtain ⟨k, rfl⟩ : ∃ j, k = j + 7 := ⟨k - 7, by omega⟩
      obtain ⟨s', hs', hp⟩ := h.put (by omega) hroom
      obtain ⟨k', s'', hd, hk', hp'⟩ := ih k (by omega) hp (by omega)
      refine ⟨k', s'', ?_, hk', hp'⟩
      rw [Framing.drain, hs']
      exact hd
    · refine ⟨k, s, ?_, by omega, h⟩
      rw [Framing.drain]
      intro j hj
      omega

/-- The outer loop. -/
theorem Packed.foldlM (command : List (BitVec 8)) (h : Packed sent k s) (hk : k < 7)
    (hroom : (sent ++ command).length ≤ 7) :
    ∃ k' s', command.foldlM (fun (bits, s) b => Framing.drain (bits + 8) (Locals.shiftIn s b)) (k, s) =
      .ok (k', s') ∧ k' < 7 ∧ Packed (sent ++ command) k' s' := by
  induction command generalizing sent k s with
  | nil => exact ⟨k, s, rfl, hk, by rwa [List.append_nil]⟩
  | cons b command ih =>
    have hlen : (sent ++ [b]).length ≤ 7 := by
      simp only [List.length_append, List.length_cons, List.length_nil] at hroom ⊢
      omega
    obtain ⟨k₁, s₁, hd, hk₁, hp₁⟩ := (h.shiftIn (by omega) b).drain (by omega) hlen
    have happ : sent ++ b :: command = sent ++ [b] ++ command := by simp
    obtain ⟨k₂, s₂, hf, hk₂, hp₂⟩ := ih hp₁ hk₁ (by rwa [← happ])
    refine ⟨k₂, s₂, ?_, hk₂, by rwa [happ]⟩
    rw [List.foldlM_cons]
    show (Framing.drain (k + 8) (s.shiftIn b)).bind _ = _
    rw [hd]
    exact hf

/-! ### The packet -/

/-- The last byte gets its top bit, and keeps the others. -/
theorem top_byte (b : BitVec 8) : ((b.signExtend 32 ||| 0x80).setWidth 8).msb = true ∧
    payload ((b.signExtend 32 ||| 0x80).setWidth 8) = payload b := by
  have h : ∀ b : BitVec 8, ((b.signExtend 32 ||| 0x80).setWidth 8).msb = true ∧
      payload ((b.signExtend 32 ||| 0x80).setWidth 8) = payload b := by decide +kernel
  exact h b

/-- Seven bytes fill the packet. -/
theorem convert_spec (command : Report) :
    ∃ (packet : Vector (BitVec 8) 8) (body : List (BitVec 8)) (last : BitVec 8),
      convert command.toList = .ok packet ∧ packet.toList = body ++ [last] ∧
      (∀ b ∈ body, b.msb = false) ∧ last.msb = true ∧
      packet.toList.flatMap payload = command.toList.flatMap octet := by
  have hstart : Packed [] 0 ⟨Vector.replicate 8 0, 0, 0⟩ :=
    ⟨by decide, rfl, fun b hb => by simp at hb, rfl⟩
  obtain ⟨k, s, hf, hk, hp⟩ := hstart.foldlM command.toList (by omega) (by simp)
  have hcount := hp.count
  rw [List.nil_append, Vector.length_toList] at hcount
  obtain rfl : k = 0 := by omega
  have hi : s.i = 8 := by omega
  have hlen : s.packet.toList.length = 8 := s.packet.length_toList
  have hclear := hp.clear
  have hstream := hp.stream
  rw [hi, List.take_of_length_le hlen.le] at hclear hstream
  rw [bits, List.append_nil, List.nil_append] at hstream
  -- the packet as its first seven bytes and the last
  have hsplit : s.packet.toList = s.packet.toList.take 7 ++ [s.packet[7]] := by
    conv_lhs => rw [← List.take_of_length_le hlen.le, List.take_succ_eq_append_getElem (by omega)]
    rfl
  have hset : (s.packet.set 7 ((s.packet[7].signExtend 32 ||| 0x80).setWidth 8)).toList =
      s.packet.toList.take 7 ++ [(s.packet[7].signExtend 32 ||| 0x80).setWidth 8] := by
    rw [Vector.toList_set]
    conv_lhs => rw [hsplit]
    rw [List.set_append_right _ _ (by simp)]
    simp
  refine ⟨_, _, _, ?_, hset, ?_, (top_byte _).1, ?_⟩
  · rw [convert, hf]
    rfl
  · intro b hb
    exact hclear b (List.mem_of_mem_take hb)
  · rw [hset, List.flatMap_append, List.flatMap_singleton, (top_byte _).2, ← List.flatMap_singleton payload,
      ← List.flatMap_append, ← hsplit, hstream]

/-- One command, from its packet. -/
theorem decode_packet (command : Report) : ∃ packet : Vector (BitVec 8) 8,
    convert command.toList = .ok packet ∧
      ∀ rest, decode (packet.toList ++ rest) = command.toList :: decode rest := by
  obtain ⟨packet, body, last, hc, hsplit, hbody, hlast, hpay⟩ := convert_spec command
  refine ⟨packet, hc, fun rest => ?_⟩
  have hcut : cut (packet.toList ++ rest) = packet.toList :: cut rest := by
    rw [hsplit, List.append_assoc, List.singleton_append, cut_packet hbody hlast]
  rw [decode, hcut, List.map_cons, hpay, regroup_octets]
  rfl

/-- The bytes a run of commands writes. -/
theorem decode_written (commands : List Report) (sp : EasyConSerialPort) : ∃ stream,
    (commands.forM sendCommand) sp = .ok () ⟨sp.written ++ stream⟩ ∧
      decode stream = commands.map Vector.toList := by
  induction commands generalizing sp with
  | nil => exact ⟨[], by rw [List.append_nil]; rfl, rfl⟩
  | cons command commands ih =>
    obtain ⟨packet, hc, hdecode⟩ := decode_packet command
    obtain ⟨stream, hrun, hstream⟩ := ih ⟨sp.written ++ packet.toList⟩
    have hsend : sendCommand command sp = .ok () ⟨sp.written ++ packet.toList⟩ := by rw [sendCommand, hc]
    refine ⟨packet.toList ++ stream, ?_, by rw [hdecode, hstream, List.map_cons]⟩
    rw [← List.append_assoc]
    exact (Effect.bind_of_ok hsend).trans hrun

/-- The framing: `convert` stays inside its packet, only the last byte has the top
bit set, the low seven bits of the bytes are the bits of the command; and any
sequence of commands sent is recovered from the bytes written. -/
theorem lossless_and_delimited :
    (∀ command : Report, ∃ packet : Vector (BitVec 8) 8, convert command.toList = .ok packet ∧
      (∀ i : Fin 8, (packet.get i).msb = decide (i = 7)) ∧
      packet.toList.flatMap payload = command.toList.flatMap octet) ∧
    ∀ commands : List Report, ∃ sp, (commands.forM sendCommand) ⟨[]⟩ = .ok () sp ∧
      decode sp.written = commands.map Vector.toList := by
  constructor
  · intro command
    obtain ⟨packet, body, last, hc, hsplit, hbody, hlast, hpay⟩ := convert_spec command
    refine ⟨packet, hc, fun i => ?_, hpay⟩
    have hlen : body.length = 7 := by
      have := congrArg List.length hsplit
      simp at this
      omega
    have hget : packet.toList[(i : ℕ)]? = some (packet.get i) := by
      rw [List.getElem?_eq_getElem (by simp)]
      rfl
    rw [hsplit] at hget
    rcases Nat.lt_or_ge i 7 with hi | hi
    · rw [List.getElem?_append_left (by omega)] at hget
      rw [hbody _ (List.mem_of_getElem? hget), eq_comm, decide_eq_false_iff_not]
      rintro rfl
      exact absurd hi (by decide)
    · obtain rfl : i = 7 := Fin.ext (by show i.val = 7; omega)
      rw [List.getElem?_append_right (by rw [hlen]; decide), hlen] at hget
      cases hget
      rw [hlast, decide_eq_true rfl]
  · intro commands
    obtain ⟨stream, hrun, hstream⟩ := decode_written commands ⟨[]⟩
    exact ⟨_, hrun, hstream⟩

end Framing
end PGCon
