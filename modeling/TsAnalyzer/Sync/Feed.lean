/-
  `tsa_feed_data` (`src/tsa.c`): cutting an arbitrary byte stream into 188-byte packets.

  One call walks its chunk with an index `processed`: the BUFFERED path completes the carried-over
  packet, the IN-PLACE path takes packets from the caller's memory, and the rest is carried over.

  * The chunk is read from the caller's memory AS IT STANDS (`Host.data`): `tsa_process_packet` can
    change it in the middle of the loop.  What the loop does outside its fields goes through `Host`.
  * `sync_buffer` is its used prefix; the host is told of every write.  A `memcpy` that would leave
    the 188 bytes is a `Fault`.
  * `size_t`/`uint64_t` sums are reduced modulo `2^64`, the `uint32_t` counter modulo `2^32`.
-/
import Mathlib

namespace TsAnalyzer.Sync

def tsPacketSize : Nat := 188

def tsSyncByte : UInt8 := 0x47

inductive SyncState where
  | hunting
  | confirming
  | locked
  deriving DecidableEq

/-- The fields of `struct tsa_handle` that `tsa_feed_data` owns. -/
structure Feeder where
  syncState : SyncState
  /-- `sync_confirm_count`, a `uint32_t` that is never reset. -/
  syncConfirmCount : Nat
  /-- `sync_buffer[0 .. sync_buffer_len)`. -/
  syncBuffer : List UInt8
  processedBytes : Nat
  deriving DecidableEq

namespace Feeder

def syncBufferLen (f : Feeder) : Nat := f.syncBuffer.length

/-- The `calloc`ed handle of `tsa_create` (`TS_SYNC_HUNTING` is the zero of its enum). -/
def fresh : Feeder := ⟨.hunting, 0, [], 0⟩

end Feeder

/-- A `memcpy` into `sync_buffer` that leaves the array. -/
inductive Fault where
  | syncBufferOverflow (offset len : Nat)
  deriving DecidableEq

/-- What `tsa_feed_data` uses of the rest of the handle and of the caller's memory. -/
structure Host (σ : Type) where
  /-- `data[i]`, read now. -/
  data : σ → Nat → UInt8
  /-- `current_packet_offset = offset; tsa_process_packet(h, data + i, now_ns)`. -/
  packetInPlace : σ → Nat → Nat → σ
  /-- `current_packet_offset = offset; tsa_process_packet(h, sync_buffer, now_ns)`. -/
  packetBuffered : σ → List UInt8 → Nat → σ
  /-- `h->signal_lock = false`. -/
  dropLock : σ → σ
  /-- These bytes now stand in `sync_buffer` from the given index on. -/
  syncBufferWrite : σ → Nat → List UInt8 → σ

variable {σ : Type}

/-- The bytes `data[i .. i + n)`. -/
def Host.window (H : Host σ) (s : σ) (i n : Nat) : List UInt8 :=
  (List.range n).map fun k => H.data s (i + k)

/-- `find_sync` (`find_sync_scalar`; the SSE4.2 and AVX2 versions return the same first index):
    the first sync byte among `buf[0 .. len)`, `none` for the `-1` of the source. -/
def findSyncScalar (buf : Nat → UInt8) (len : Nat) : Option Nat :=
  (List.range len).find? fun i => buf i == tsSyncByte

/-- `memcpy(sync_buffer + sync_buffer_len, bytes, n); sync_buffer_len += n`. -/
def Feeder.copyIn (f : Feeder) (bytes : List UInt8) : Except Fault Feeder :=
  if f.syncBuffer.length + bytes.length ≤ tsPacketSize then
    .ok { f with syncBuffer := f.syncBuffer ++ bytes }
  else .error (.syncBufferOverflow f.syncBuffer.length bytes.length)

theorem copyIn_ok {f f' : Feeder} {bytes : List UInt8} (h : f.copyIn bytes = .ok f') :
    f' = { f with syncBuffer := f.syncBuffer ++ bytes } ∧
      f.syncBuffer.length + bytes.length ≤ tsPacketSize := by
  unfold Feeder.copyIn at h
  split at h
  · rename_i hle
    injection h with h
    exact ⟨h.symm, hle⟩
  · cases h

/-- The in-place loop `while (processed + 188 <= len)`.  Unlocked, a sync byte parks its packet in
    `sync_buffer` and BREAKS; a non-sync byte drops the lock and jumps to the next sync byte of
    the chunk, or to its end. -/
def inPlaceLoop (H : Host σ) (len : Nat) (f : Feeder) (s : σ) (processed : Nat) :
    Feeder × σ × Nat :=
  if processed + tsPacketSize ≤ len then
    if H.data s processed = tsSyncByte then
      if f.syncState = .locked then
        inPlaceLoop H len f (H.packetInPlace s processed ((f.processedBytes + processed) % 2 ^ 64))
          (processed + tsPacketSize)
      else
        let bytes := H.window s processed tsPacketSize
        ({ f with syncBuffer := bytes }, H.syncBufferWrite s 0 bytes, processed + tsPacketSize)
    else
      match hk : findSyncScalar (fun i => H.data (H.dropLock s) (processed + 1 + i))
          (len - (processed + 1)) with
      | some k => inPlaceLoop H len { f with syncState := .hunting } (H.dropLock s)
          (processed + (k + 1))
      | none => ({ f with syncState := .hunting }, H.dropLock s, len)
  else (f, s, processed)
  termination_by len - processed
  decreasing_by
  all_goals simp only [tsPacketSize] at *; omega

/-- The rest of an outer iteration: the in-place loop, then the tail copy.  Both ways out leave
    `processed = len`, so the outer loop ends and `processed_bytes` is advanced. -/
def feedTail (H : Host σ) (len : Nat) (f : Feeder) (s : σ) (processed : Nat) :
    Except Fault (Feeder × σ) :=
  match inPlaceLoop H len f s processed with
  | (f1, s1, processed1) =>
    if processed1 < len then
      let bytes := H.window s1 processed1 (len - processed1)
      match f1.copyIn bytes with
      | .error e => .error e
      | .ok f2 => .ok ({ f2 with processedBytes := (f2.processedBytes + len) % 2 ^ 64 },
          H.syncBufferWrite s1 f1.syncBuffer.length bytes)
    else .ok ({ f1 with processedBytes := (f1.processedBytes + len) % 2 ^ 64 }, s1)

/-- A complete `sync_buffer` that starts with a sync byte: delivered when LOCKED, otherwise
    counted towards the lock.  `processed` is the index after the copy. -/
def takeBuffered (H : Host σ) (f : Feeder) (s : σ) (processed : Nat) : Feeder × σ :=
  if f.syncState = .locked then
    ({ f with syncBuffer := [] },
      H.packetBuffered s f.syncBuffer ((f.processedBytes + processed + (2 ^ 64 - 188)) % 2 ^ 64))
  else
    let count := (f.syncConfirmCount + 1) % 2 ^ 32
    ({ f with syncState := if 5 ≤ count then .locked else f.syncState
              syncConfirmCount := count
              syncBuffer := [] }, s)

/-- The outer loop `while (processed < len)`.  The `continue` of the source is the recursive call;
    the `return` in the middle skips the final `processed_bytes += len`. -/
def feedLoop (H : Host σ) (len : Nat) (f : Feeder) (s : σ) (processed : Nat) :
    Except Fault (Feeder × σ) :=
  if processed < len then
    if 0 < f.syncBuffer.length then
      let toCopy := min (len - processed) (tsPacketSize - f.syncBuffer.length)
      match _hc : f.copyIn (H.window s processed toCopy) with
      | .error e => .error e
      | .ok f1 =>
        let s1 := H.syncBufferWrite s f.syncBuffer.length (H.window s processed toCopy)
        if f1.syncBuffer.length < tsPacketSize then .ok (f1, s1)
        else if f1.syncBuffer.head? = some tsSyncByte then
          let r := takeBuffered H f1 s1 (processed + toCopy)
          feedTail H len r.1 r.2 (processed + toCopy)
        else
          -- memmove(sync_buffer, sync_buffer + 1, sync_buffer_len - 1)
          feedLoop H len { f1 with syncState := .hunting, syncBuffer := f1.syncBuffer.tail }
            (H.syncBufferWrite (H.dropLock s1) 0 f1.syncBuffer.tail) (processed + toCopy)
    else feedTail H len f s processed
  else .ok ({ f with processedBytes := (f.processedBytes + len) % 2 ^ 64 }, s)
  termination_by (len - processed) + f.syncBuffer.length
  decreasing_by
  have hc := _hc
  unfold Feeder.copyIn at hc
  split at hc
  · injection hc with hc
    subst hc
    simp only [List.length_tail, List.length_append, Host.window, List.length_map,
      List.length_range]
    omega
  · cases hc

/-- `tsa_feed_data` on a handle and a chunk of `len` bytes (`len = 0` returns at once). -/
def tsaFeedData (H : Host σ) (f : Feeder) (s : σ) (len : Nat) : Except Fault (Feeder × σ) :=
  if len = 0 then .ok (f, s) else feedLoop H len f s 0

/-! ## What every host operation keeps, a call keeps -/

/-- `P` survives everything a call does to the host. -/
structure Host.Keeps (H : Host σ) (P : σ → Prop) : Prop where
  packetInPlace : ∀ s i offset, P s → P (H.packetInPlace s i offset)
  packetBuffered : ∀ s bytes offset, P s → P (H.packetBuffered s bytes offset)
  dropLock : ∀ s, P s → P (H.dropLock s)
  syncBufferWrite : ∀ s i bytes, P s → P (H.syncBufferWrite s i bytes)

section Keeps

variable {H : Host σ} {P : σ → Prop} (hH : H.Keeps P)
include hH

theorem inPlaceLoop_keeps (len : Nat) (f : Feeder) (s : σ) (processed : Nat) (hs : P s) :
    P (inPlaceLoop H len f s processed).2.1 := by
  fun_induction inPlaceLoop H len f s processed with
  | case1 f s processed _ _ _ ih => exact ih (hH.packetInPlace _ _ _ hs)
  | case2 => exact hH.syncBufferWrite _ _ _ hs
  | case3 f s processed _ _ k _ ih => exact ih (hH.dropLock _ hs)
  | case4 => exact hH.dropLock _ hs
  | case5 => exact hs

variable {s' : σ} {f' : Feeder} (f : Feeder) (s : σ) (processed : Nat)

theorem feedTail_keeps {len : Nat} (hs : P s) (h : feedTail H len f s processed = .ok (f', s')) :
    P s' := by
  have hloop := inPlaceLoop_keeps hH len f s processed hs
  unfold feedTail at h
  obtain ⟨f1, s1, processed1⟩ := inPlaceLoop H len f s processed
  simp only at h hloop
  split at h
  · split at h
    · cases h
    · injection h with h
      injection h with _ h
      exact h ▸ hH.syncBufferWrite _ _ _ hloop
  · injection h with h
    injection h with _ h
    exact h ▸ hloop

theorem takeBuffered_keeps (hs : P s) : P (takeBuffered H f s processed).2 := by
  unfold takeBuffered
  split
  · exact hH.packetBuffered _ _ _ hs
  · exact hs

/-- **The rule for a call**: what the host operations keep, the outer loop keeps. -/
theorem feedLoop_keeps {len : Nat} (hs : P s) (h : feedLoop H len f s processed = .ok (f', s')) :
    P s' := by
  fun_induction feedLoop H len f s processed with
  | case1 => cases h
  | case2 =>
    injection h with h
    injection h with _ h
    exact h ▸ hH.syncBufferWrite _ _ _ hs
  | case3 =>
    exact feedTail_keeps hH _ _ _ (takeBuffered_keeps hH _ _ _ (hH.syncBufferWrite _ _ _ hs)) h
  | case4 _ _ _ _ _ _ _ _ _ _ _ ih =>
    exact ih (hH.syncBufferWrite _ _ _ (hH.dropLock _ (hH.syncBufferWrite _ _ _ hs))) h
  | case5 => exact feedTail_keeps hH _ _ _ hs h
  | case6 =>
    injection h with h
    injection h with _ h
    exact h ▸ hs

theorem tsaFeedData_keeps (len : Nat) (hs : P s) (h : tsaFeedData H f s len = .ok (f', s')) :
    P s' := by
  unfold tsaFeedData at h
  split at h
  · injection h with h
    injection h with _ h
    exact h ▸ hs
  · exact feedLoop_keeps hH f s 0 hs h

end Keeps

end TsAnalyzer.Sync
