/-
  The zero-copy PES accumulator (`src/tsa_es.c`): which packets a PES is made of, and how its bytes
  are read back.

  The accumulator keeps POINTERS, casts them to `tsa_packet_t*` and counts references in the
  structure it believes to be there, 200 bytes behind the pointer.

  * `PacketPtr` — the caller's memory, or the handle's `sync_buffer` (200 bytes behind it lies
    `consecutive_sync_errors`).
  * A PES is read through the pointers when it is NEEDED, from memory as it stands then
    (`pesBytes`).
  * The free queue `tsa_packet_unref` returns a packet to is created full, so its push fails and is
    left out.
-/
import TsAnalyzer.Lib.Bytes

namespace TsAnalyzer.Essence

open Lib List

/-! ## Memory and pointers -/

/-- A packet pointer as it reaches the accumulator. -/
inductive PacketPtr where
  /-- An address in the caller's memory. -/
  | caller (addr : Nat)
  /-- The handle's `sync_buffer`. -/
  | syncBuffer
  deriving DecidableEq

/-- The memory packets are read from. -/
structure Memory where
  caller : Nat → UInt8
  syncBuffer : Nat → UInt8

/-- Byte `i` behind a pointer. -/
def Memory.byte (m : Memory) : PacketPtr → Nat → UInt8
  | .caller addr, i => m.caller (addr + i)
  | .syncBuffer, i => m.syncBuffer i

/-- `offsetof(tsa_packet_t, ref_count)`: 188 data bytes, padding to 192, the ingress time. -/
def refCountOffset : Nat := 200

/-- An operation on the `ref_count` behind a packet pointer. -/
inductive RefOp where
  /-- `tsa_packet_ref`. -/
  | ref (pkt : PacketPtr)
  /-- `tsa_packet_unref`. -/
  | unref (pkt : PacketPtr)
  deriving DecidableEq

/-- The pointer an operation goes through. -/
def RefOp.pkt : RefOp → PacketPtr
  | .ref pkt => pkt
  | .unref pkt => pkt

/-- What an operation adds to the 32-bit count. -/
def RefOp.delta : RefOp → Nat
  | .ref _ => 1
  | .unref _ => 2 ^ 32 - 1

/-- An operation on the caller's memory; through `sync_buffer` it does not get there. -/
def RefOp.onCaller (op : RefOp) (m : Nat → UInt8) : Nat → UInt8 :=
  match op.pkt with
  | .caller addr => store32 m (addr + refCountOffset) (load32 m (addr + refCountOffset) + op.delta)
  | .syncBuffer => m

/-- An operation on `consecutive_sync_errors`, which is what lies behind `sync_buffer`. -/
def RefOp.onSyncErrors (op : RefOp) (errors : Nat) : Nat :=
  match op.pkt with
  | .caller _ => errors
  | .syncBuffer => (errors + op.delta) % 2 ^ 32

/-! ## The accumulator -/

/-- One packet of the PES under construction. -/
structure PesRef where
  pkt : PacketPtr
  payloadOffset : Nat
  payloadLen : Nat
  deriving DecidableEq

inductive FrameType where
  | none
  | i
  | p
  | b
  deriving DecidableEq

/-- `pes` of `tsa_es_track_t`, less the unroll state; `ref_count` is the length of `refs`. -/
structure PesAccumulator where
  refs : List PesRef
  totalLength : Nat
  lastDts33 : Nat
  pendingDtsNs : Nat
  hasPts : Bool
  hasDts : Bool
  currentFrameType : FrameType
  deriving DecidableEq

def pesMaxRefs : Nat := 16384

namespace PesAccumulator

/-- `tsa_es_track_clear_accumulator` on a handle with a packet pool, with its reference drops. -/
def clear (a : PesAccumulator) : PesAccumulator × List RefOp :=
  ({ a with refs := [], totalLength := 0, currentFrameType := .none },
    if a.refs.length ≤ pesMaxRefs then a.refs.map fun r => .unref r.pkt else [])

/-- Append the current packet, unless the accumulator is full. -/
def append (a : PesAccumulator) (pkt : PacketPtr) (afLen payloadLen : Nat) :
    PesAccumulator × List RefOp :=
  if a.refs.length < pesMaxRefs then
    ({ a with refs := a.refs ++ [⟨pkt, 4 + afLen, payloadLen % 256⟩]
              totalLength := (a.totalLength + payloadLen) % 2 ^ 32 }, [.ref pkt])
  else (a, [])

end PesAccumulator

/-! ## Reading a PES back -/

/-- The payload a reference denotes, in memory as it stands. -/
def PesRef.bytes (m : Memory) (r : PesRef) : List UInt8 :=
  (range r.payloadLen).map fun k => m.byte r.pkt (r.payloadOffset + k)

/-- The bytes of the PES under construction, in memory as it stands. -/
def pesBytes (m : Memory) (refs : List PesRef) : List UInt8 := refs.flatMap (PesRef.bytes m)

/-- `tsa_pes_get_ptr`: where the byte at `offset` of the PES lies, and how many follow it in the
    same packet. -/
def tsaPesGetPtr (refs : List PesRef) (offset : Nat) : Option (PacketPtr × Nat × Nat) :=
  match refs with
  | [] => none
  | r :: rest =>
    if offset < r.payloadLen then some (r.pkt, r.payloadOffset + offset, r.payloadLen - offset)
    else tsaPesGetPtr rest (offset - r.payloadLen)

/-- `tsa_pes_copy_data`: `len` bytes of the PES from `offset` on, packet by packet; fewer when the
    PES ends first. -/
def tsaPesCopyData (m : Memory) (refs : List PesRef) (offset len : Nat) : List UInt8 :=
  match tsaPesGetPtr refs offset with
  | none => []
  | some (pkt, pos, avail) =>
    if _hlen : 0 < len ∧ 0 < avail then
      let n := min len avail
      (range n).map (fun k => m.byte pkt (pos + k)) ++
        tsaPesCopyData m refs (offset + n) (len - n)
    else []
  termination_by len
  decreasing_by omega

theorem PesRef.bytes_length (m : Memory) (r : PesRef) : (r.bytes m).length = r.payloadLen := by
  simp [PesRef.bytes]

/-- `tsa_pes_get_ptr` points at the byte it is asked for. -/
theorem tsaPesGetPtr_spec (m : Memory) (refs : List PesRef) (offset : Nat) :
    match tsaPesGetPtr refs offset with
      | none => (pesBytes m refs).length ≤ offset
      | some (pkt, pos, avail) => 0 < avail ∧ offset + avail ≤ (pesBytes m refs).length ∧
          ∀ n, n ≤ avail → ((pesBytes m refs).drop offset).take n =
            (range n).map fun k => m.byte pkt (pos + k) := by
  induction refs generalizing offset with
  | nil => exact Nat.zero_le _
  | cons r rest ih =>
    have hcons : pesBytes m (r :: rest) = r.bytes m ++ pesBytes m rest := by
      simp [pesBytes]
    have hlen := r.bytes_length m
    rw [tsaPesGetPtr, hcons]
    by_cases hin : offset < r.payloadLen
    · rw [if_pos hin]
      refine ⟨by omega, by rw [length_append]; omega, fun n hn => ?_⟩
      rw [drop_append_of_le_length (by omega),
        take_append_of_le_length (by rw [length_drop]; omega)]
      apply ext_getElem
      · simp [hlen]; omega
      · intro k h1 h2
        simp [PesRef.bytes, Nat.add_assoc]
    · rw [if_neg hin]
      have hrec := ih (offset - r.payloadLen)
      have hdrop : (r.bytes m ++ pesBytes m rest).drop offset =
          (pesBytes m rest).drop (offset - r.payloadLen) := by
        rw [drop_append, drop_eq_nil_of_le (by omega), hlen, nil_append]
      split at hrec
      · rw [length_append]
        omega
      · refine ⟨hrec.1, by rw [length_append]; omega, fun n hn => ?_⟩
        rw [hdrop]
        exact hrec.2.2 n hn

theorem tsaPesCopyData_eq (m : Memory) (refs : List PesRef) (offset len : Nat) :
    tsaPesCopyData m refs offset len = ((pesBytes m refs).drop offset).take len := by
  induction len using Nat.strongRecOn generalizing offset with
  | ind len ih =>
    have hspec := tsaPesGetPtr_spec m refs offset
    rw [tsaPesCopyData]
    split
    · rename_i hnone
      rw [hnone] at hspec
      rw [drop_eq_nil_of_le hspec, take_nil]
    · rename_i pkt pos avail hsome
      rw [hsome] at hspec
      obtain ⟨hpos, -, htake⟩ := hspec
      by_cases hlen : 0 < len
      · rw [dif_pos ⟨hlen, hpos⟩]
        show (range (min len avail)).map _ ++
          tsaPesCopyData m refs (offset + min len avail) (len - min len avail) = _
        rw [ih _ (by omega), ← htake _ (Nat.min_le_right _ _), ← drop_drop]
        have hsplit : len = min len avail + (len - min len avail) := by omega
        conv => rhs; rw [hsplit, take_add]
      · rw [dif_neg (fun h => hlen h.1), show len = 0 from by omega, take_zero]

/-- The loop of `tsa_pes_get_ptr`, with `current` in 32 bits. -/
def pesGetPtrLoop (offset current : Nat) : List PesRef → Option (PacketPtr × Nat × Nat)
  | [] => none
  | r :: rest =>
    let next := (current + r.payloadLen) % 2 ^ 32
    if current ≤ offset ∧ offset < next then
      some (r.pkt, r.payloadOffset + (offset - current), r.payloadLen - (offset - current))
    else pesGetPtrLoop offset next rest

theorem pesGetPtrLoop_eq {offset current : Nat} {refs : List PesRef} (hle : current ≤ offset)
    (hsum : current + (refs.map PesRef.payloadLen).sum < 2 ^ 32) :
    pesGetPtrLoop offset current refs = tsaPesGetPtr refs (offset - current) := by
  induction refs generalizing current with
  | nil => rfl
  | cons r rest ih =>
    rw [map_cons, sum_cons] at hsum
    rw [pesGetPtrLoop, tsaPesGetPtr, Nat.mod_eq_of_lt (by omega)]
    by_cases hin : offset - current < r.payloadLen
    · rw [if_pos hin, if_pos ⟨hle, by omega⟩]
    · rw [if_neg hin, if_neg (by omega), ih (by omega) (by omega), Nat.sub_add_eq]

/-- **Scatter-gather access is slicing.** -/
theorem pes_access_slices (m : Memory) (refs : List PesRef) (hcount : refs.length ≤ pesMaxRefs)
    (hlen : ∀ r ∈ refs, r.payloadLen ≤ 184) (offset len : Nat) :
    pesGetPtrLoop offset 0 refs = tsaPesGetPtr refs offset ∧
      (tsaPesGetPtr refs offset = none ↔ (pesBytes m refs).length ≤ offset) ∧
      tsaPesCopyData m refs offset len = ((pesBytes m refs).drop offset).take len ∧
      (tsaPesCopyData m refs offset len).length = min len ((pesBytes m refs).length - offset) := by
  have hsum := sum_le_card_nsmul (refs.map PesRef.payloadLen) 184 (forall_mem_map.mpr hlen)
  rw [length_map, smul_eq_mul] at hsum
  unfold pesMaxRefs at hcount
  refine ⟨pesGetPtrLoop_eq (Nat.zero_le _) (by omega), ?_, tsaPesCopyData_eq m refs offset len, ?_⟩
  · have hspec := tsaPesGetPtr_spec m refs offset
    split at hspec
    · next hnone => exact iff_of_true hnone hspec
    · next hsome => exact iff_of_false (by rw [hsome]; exact Option.some_ne_none _) (by omega)
  · rw [tsaPesCopyData_eq, length_take, length_drop]

/-- Three pieces, of which the second is empty. -/
theorem pes_access_slices_three :
    let refs : List PesRef := [⟨.caller 4, 0, 2⟩, ⟨.caller 9, 0, 0⟩, ⟨.caller 0, 1, 3⟩]
    tsaPesCopyData ⟨fun a => a.toUInt8, fun _ => 0⟩ refs 1 3 = [5, 1, 2] :=
  (pes_access_slices _ _ (by decide) (by decide) 1 3).2.2.1

/-! ## The total length -/

/-- `total_length` counts the bytes of the packets, of which there are not too many. -/
structure PesAccumulator.Tallied (a : PesAccumulator) : Prop where
  total : a.totalLength = (a.refs.map PesRef.payloadLen).sum
  small : ∀ r ∈ a.refs, r.payloadLen < 256
  count : a.refs.length ≤ pesMaxRefs

namespace PesAccumulator.Tallied

theorem sum_lt {a : PesAccumulator} (h : a.Tallied) :
    (a.refs.map PesRef.payloadLen).sum ≤ 16384 * 255 := by
  have hbound : (a.refs.map PesRef.payloadLen).sum ≤ (a.refs.map PesRef.payloadLen).length * 255 := by
    apply sum_le_card_nsmul
    intro n hn
    obtain ⟨r, hr, rfl⟩ := mem_map.mp hn
    exact Nat.le_of_lt_succ (h.small r hr)
  rw [length_map] at hbound
  exact Nat.le_trans hbound (Nat.mul_le_mul_right 255 h.count)

theorem append {a : PesAccumulator} (h : a.Tallied) (pkt : PacketPtr) (afLen : Nat)
    {payloadLen : Nat} (hlen : payloadLen < 256) : (a.append pkt afLen payloadLen).1.Tallied := by
  have hsum := h.sum_lt
  have htotal := h.total
  rw [PesAccumulator.append]
  split
  · rename_i hroom
    refine ⟨?_, ?_, ?_⟩
    · show (a.totalLength + payloadLen) % 2 ^ 32 =
        ((a.refs ++ [PesRef.mk pkt (4 + afLen) (payloadLen % 256)]).map PesRef.payloadLen).sum
      rw [map_append, sum_append, map_singleton, sum_singleton, htotal]
      rw [Nat.mod_eq_of_lt (by omega), Nat.mod_eq_of_lt hlen]
    · intro r hr
      rcases mem_append.mp hr with hr | hr
      · exact h.small r hr
      · rw [eq_of_mem_singleton hr]
        exact Nat.mod_lt _ (by decide)
    · show (a.refs ++ [_]).length ≤ pesMaxRefs
      rw [length_append, length_singleton]
      omega
  · exact h

end PesAccumulator.Tallied

end TsAnalyzer.Essence
