/-
  One `tsa_feed_data` call, read as a function of the BYTES it sees.

  On a chunk that nobody changes (`traceHost`) all that matters of a call is `sync_buffer ++ chunk`:
  the loop computes `SyncCore.call`, and faults exactly where it is `none` (`feedChunk_call`).
-/
import TsAnalyzer.Lib.Run
import TsAnalyzer.Sync.Feed

namespace TsAnalyzer.Sync

open Lib List

/-! ## The static host: record what a call does -/

/-- What a call does to the rest of the handle, in order. -/
inductive FeedOut where
  /-- `tsa_process_packet` on these bytes, `current_packet_offset` being `offset`. -/
  | packet (bytes : List UInt8) (offset : Nat)
  /-- `signal_lock = false`. -/
  | unlock
  deriving DecidableEq

/-- The packets among the outputs with their offsets, in delivery order. -/
def deliveries : List FeedOut → List (List UInt8 × Nat)
  | [] => []
  | .packet bytes offset :: outs => (bytes, offset) :: deliveries outs
  | .unlock :: outs => deliveries outs

@[simp] theorem deliveries_append (xs ys : List FeedOut) :
    deliveries (xs ++ ys) = deliveries xs ++ deliveries ys := by
  induction xs with
  | nil => rfl
  | cons x xs ih => cases x <;> simp [deliveries, ih]

def packetsOf (outs : List FeedOut) : List (List UInt8) := (deliveries outs).map Prod.fst

def offsetsOf (outs : List FeedOut) : List Nat := (deliveries outs).map Prod.snd

theorem packetsOf_append (xs ys : List FeedOut) :
    packetsOf (xs ++ ys) = packetsOf xs ++ packetsOf ys := by
  simp [packetsOf]

/-- The host of a chunk `d` whose bytes nobody changes: it records the calls made to it. -/
def traceHost (d : List UInt8) : Host (List FeedOut) where
  data _ i := d.getD i 0
  packetInPlace s i offset := s ++ [.packet ((d.drop i).take tsPacketSize) offset]
  packetBuffered s bytes offset := s ++ [.packet bytes offset]
  dropLock s := s ++ [.unlock]
  syncBufferWrite s _ _ := s

/-- `tsa_feed_data` on the chunk `d`. -/
def feedChunk (f : Feeder) (d : List UInt8) : Except Fault (Feeder × List FeedOut) :=
  tsaFeedData (traceHost d) f [] d.length

/-! ## Reading the chunk by index is reading a suffix of it -/

theorem window_eq (d : List UInt8) (s : List FeedOut) {i n : Nat} (h : i + n ≤ d.length) :
    (traceHost d).window s i n = (d.drop i).take n := by
  apply ext_getElem
  · simp [Host.window]; omega
  · intro k hk _
    have hk' : i + k < d.length := by simp [Host.window] at hk; omega
    simp [Host.window, traceHost, getD_eq_getElem?_getD, getElem?_eq_getElem hk']

theorem data_eq_head (d : List UInt8) (s : List FeedOut) {i : Nat} (h : i < d.length) :
    (traceHost d).data s i = tsSyncByte ↔ (d.drop i).head? = some tsSyncByte := by
  simp [traceHost, getD_eq_getElem?_getD, getElem?_eq_getElem h, head?_drop]

def hunt (r : List UInt8) : List UInt8 := r.dropWhile fun b => b != tsSyncByte

variable {b : UInt8} {r : List UInt8}

theorem hunt_cons_sync (h : b = tsSyncByte) :
    hunt (b :: r) = b :: r := by simp [hunt, h]

theorem hunt_cons_junk (h : b ≠ tsSyncByte) :
    hunt (b :: r) = hunt r := by simp [hunt, h]

theorem hunt_of_head (h : r.head? = some tsSyncByte) : hunt r = r := by
  cases r with
  | nil => rfl
  | cons b r => exact hunt_cons_sync (by simpa using h)

theorem hunt_length_le (r : List UInt8) : (hunt r).length ≤ r.length :=
  (dropWhile_sublist _).length_le

theorem hunt_head (h : hunt r ≠ []) : (hunt r).head? = some tsSyncByte := by
  induction r with
  | nil => exact absurd rfl h
  | cons b r ih =>
    by_cases hb : b = tsSyncByte
    · rw [hunt_cons_sync hb, hb]; rfl
    · rw [hunt_cons_junk hb] at h ⊢; exact ih h

theorem drop_hunt (r : List UInt8) : r.drop (r.length - (hunt r).length) = hunt r := by
  induction r with
  | nil => rfl
  | cons b r ih =>
    by_cases hb : b = tsSyncByte
    · rw [hunt_cons_sync hb]; simp
    · have hle := hunt_length_le r
      rw [hunt_cons_junk hb, length_cons,
        show r.length + 1 - (hunt r).length = (r.length - (hunt r).length) + 1 from by omega,
        drop_succ_cons, ih]

/-- `find_sync` in terms of `hunt`: it finds the index at which `hunt r` starts, or nothing when
    there is no sync byte. -/
theorem findSyncScalar_eq (buf : Nat → UInt8) : ∀ (r : List UInt8),
    (∀ i, i < r.length → buf i = r.getD i 0) →
    findSyncScalar buf r.length =
      if hunt r = [] then none else some (r.length - (hunt r).length) := by
  intro r hbuf
  induction r generalizing buf with
  | nil => rfl
  | cons b r ih =>
    have h0 : buf 0 = b := by simpa using hbuf 0 (by simp)
    have hsucc : ∀ i, i < r.length → (fun i => buf (i + 1)) i = r.getD i 0 := by
      intro i hi; simpa using hbuf (i + 1) (by simpa using hi)
    have hrec := ih (fun i => buf (i + 1)) hsucc
    simp only [findSyncScalar] at hrec ⊢
    rw [length_cons, range_succ_eq_map, find?_cons, h0]
    by_cases hb : b = tsSyncByte
    · rw [hunt_cons_sync hb]; simp [hb]
    · rw [hunt_cons_junk hb]
      have hbf : (b == tsSyncByte) = false := by simpa using hb
      rw [hbf, find?_map]
      simp only [Function.comp_def, Nat.succ_eq_add_one, hrec]
      have hle := hunt_length_le r
      split
      · rfl
      · simp only [Option.map_some, Option.some.injEq]; omega

/-! ## The in-place scan -/

/-- A packet at the front of `r`: complete, and starting with a sync byte. -/
def PacketAhead (r : List UInt8) : Prop :=
  tsPacketSize ≤ r.length ∧ r.head? = some tsSyncByte
deriving Decidable

theorem PacketAhead.drop_lt (h : PacketAhead r) : (r.drop tsPacketSize).length < r.length := by
  have hlen := h.1
  simp only [length_drop, tsPacketSize] at hlen ⊢
  omega

theorem not_packetAhead_of_short (h : r.length < tsPacketSize) :
    ¬ PacketAhead r := fun hp => by have := hp.1; omega

/-- A packet, with the number of bytes from its first one to the end of the chunk. -/
structure Cut where
  front : Nat
  bytes : List UInt8

/-- The offset that a call on `len` bytes gives to the packet with this front, when
    `processed_bytes` is `base`. -/
def offsetAt (base len n : Nat) : Nat := (((base : Int) + len - n) % 2 ^ 64).toNat

/-- How such a call delivers a packet. -/
def Cut.delivered (base len : Nat) (x : Cut) : List UInt8 × Nat :=
  (x.bytes, offsetAt base len x.front)

/-- The packets a LOCKED handle takes in place from the front of `r`. -/
def lockedPackets (r : List UInt8) : List Cut :=
  if _ : PacketAhead r then
    ⟨r.length, r.take tsPacketSize⟩ :: lockedPackets (r.drop tsPacketSize)
  else []
  termination_by r.length
  decreasing_by exact PacketAhead.drop_lt ‹_›

/-- What a LOCKED handle leaves of `r` once it has taken the packets at its front. -/
def lockedRest (r : List UInt8) : List UInt8 :=
  if _ : PacketAhead r then lockedRest (r.drop tsPacketSize) else r
  termination_by r.length
  decreasing_by exact PacketAhead.drop_lt ‹_›

theorem lockedPackets_cons (h : PacketAhead r) :
    lockedPackets r = ⟨r.length, r.take tsPacketSize⟩ :: lockedPackets (r.drop tsPacketSize) := by
  rw [lockedPackets, dif_pos h]

theorem lockedPackets_done (h : ¬ PacketAhead r) : lockedPackets r = [] := by
  rw [lockedPackets, dif_neg h]

theorem lockedRest_cons (h : PacketAhead r) : lockedRest r = lockedRest (r.drop tsPacketSize) := by
  rw [lockedRest, dif_pos h]

theorem lockedRest_done (h : ¬ PacketAhead r) : lockedRest r = r := by
  rw [lockedRest, dif_neg h]

/-- The handle's sync fields, less the byte accounting. -/
structure SyncCore where
  st : SyncState
  count : Nat
  buf : List UInt8
  deriving DecidableEq

/-- The sync fields of a handle. -/
def Feeder.core (f : Feeder) : SyncCore := ⟨f.syncState, f.syncConfirmCount, f.syncBuffer⟩

namespace SyncCore

/-- What the in-place scan has left of `r` after the packets it delivers. -/
def scanRest (c : SyncCore) (r : List UInt8) : List UInt8 :=
  if c.st = .locked then lockedRest r else r

/-- The in-place scan of `r`, with the tail copy, from an empty buffer: `none` when the tail copy
    would leave the buffer. -/
def tail (c : SyncCore) (r : List UInt8) : Option (SyncCore × List Cut) :=
  let packets := if c.st = .locked then lockedPackets r else []
  let rest := c.scanRest r
  if rest.length < tsPacketSize then some ({ c with buf := rest }, packets)
  else if (hunt rest).length ≤ tsPacketSize then
    some ({ c with st := if rest.head? = some tsSyncByte then c.st else .hunting
                   buf := hunt rest }, packets)
  else none

/-- An unlocked complete packet is counted towards the lock. -/
def confirm (c : SyncCore) : SyncCore :=
  let count := (c.count + 1) % 2 ^ 32
  { st := if 5 ≤ count then .locked else c.st, count := count, buf := [] }

/-- A complete packet `p` that starts with a sync byte: delivered when LOCKED, else counted. -/
def accept {α : Type} (c : SyncCore) (p : α) : SyncCore × List α :=
  if c.st = .locked then ({ c with buf := [] }, [p]) else (c.confirm, [])

/-- The buffered path on `s = sync_buffer ++ chunk`. -/
def scan (c : SyncCore) : List UInt8 → Option (SyncCore × List Cut)
  | [] => some ({ c with buf := [] }, [])
  | b :: bs =>
    if (b :: bs).length < tsPacketSize then some ({ c with buf := b :: bs }, [])
    else if b = tsSyncByte then
      let q := c.accept (Cut.mk (b :: bs).length ((b :: bs).take tsPacketSize))
      (q.1.tail ((b :: bs).drop tsPacketSize)).map fun r => (r.1, q.2 ++ r.2)
    else scan { c with st := .hunting } bs

theorem scan_buf (c : SyncCore) (buf s : List UInt8) :
    ({ c with buf := buf } : SyncCore).scan s = c.scan s := by
  induction s generalizing c with
  | nil => rfl
  | cons b bs ih => simp only [scan, accept, confirm, ih { c with st := .hunting }]

/-- One `tsa_feed_data` call on the chunk `d`. -/
def call (c : SyncCore) (d : List UInt8) : Option (SyncCore × List Cut) :=
  if d = [] then some (c, [])
  else if c.buf = [] then c.tail d
  else c.scan (c.buf ++ d)

end SyncCore

/-! ## The in-place loop computes the in-place scan -/

variable {p : Nat}

theorem inPlaceLoop_short (d : List UInt8) (f : Feeder) (s : List FeedOut)
    (h : (d.drop p).length < tsPacketSize) (hp : p ≤ d.length) :
    inPlaceLoop (traceHost d) d.length f s p = (f, s, p) := by
  rw [inPlaceLoop, if_neg]
  rw [length_drop] at h
  omega

theorem inPlaceLoop_packet (d : List UInt8) (f : Feeder) (s : List FeedOut)
    (hlock : f.syncState = .locked) (hlen : tsPacketSize ≤ (d.drop p).length)
    (hsync : (d.drop p).head? = some tsSyncByte) :
    inPlaceLoop (traceHost d) d.length f s p =
      inPlaceLoop (traceHost d) d.length f
        (s ++ [.packet ((d.drop p).take tsPacketSize) ((f.processedBytes + p) % 2 ^ 64)])
        (p + tsPacketSize) := by
  rw [length_drop] at hlen
  have hp : p < d.length := by simp only [tsPacketSize] at hlen; omega
  rw [inPlaceLoop, if_pos (by omega), if_pos ((data_eq_head d s hp).mpr hsync), if_pos hlock]
  rfl

/-- Not LOCKED, with a packet at the front: it is parked in `sync_buffer`. -/
theorem inPlaceLoop_park (d : List UInt8) (f : Feeder) (s : List FeedOut)
    (hlock : f.syncState ≠ .locked) (hlen : tsPacketSize ≤ (d.drop p).length)
    (hsync : (d.drop p).head? = some tsSyncByte) :
    inPlaceLoop (traceHost d) d.length f s p =
      ({ f with syncBuffer := (d.drop p).take tsPacketSize }, s, p + tsPacketSize) := by
  rw [length_drop] at hlen
  have hp : p < d.length := by simp only [tsPacketSize] at hlen; omega
  rw [inPlaceLoop, if_pos (by omega), if_pos ((data_eq_head d s hp).mpr hsync), if_neg hlock,
    window_eq d s (by omega)]
  rfl

theorem inPlaceLoop_junk (d : List UInt8) (f : Feeder) (s : List FeedOut)
    (hlen : tsPacketSize ≤ (d.drop p).length) (hjunk : (d.drop p).head? ≠ some tsSyncByte) :
    inPlaceLoop (traceHost d) d.length f s p =
      inPlaceLoop (traceHost d) d.length { f with syncState := .hunting } (s ++ [.unlock])
        (d.length - (hunt (d.drop p)).length) := by
  rw [length_drop] at hlen
  have hp : p < d.length := by simp only [tsPacketSize] at hlen; omega
  have hcons : d.drop p = d[p] :: d.drop (p + 1) := drop_eq_getElem_cons hp
  have hb : d[p] ≠ tsSyncByte := fun h => hjunk (by rw [hcons, h]; rfl)
  have hfind : findSyncScalar
      (fun i => (traceHost d).data ((traceHost d).dropLock s) (p + 1 + i)) (d.length - (p + 1)) =
      if hunt (d.drop (p + 1)) = [] then none
      else some ((d.drop (p + 1)).length - (hunt (d.drop (p + 1))).length) := by
    rw [← length_drop]
    apply findSyncScalar_eq
    intro i _
    simp [traceHost, getD_eq_getElem?_getD, getElem?_drop]
  have hle := hunt_length_le (d.drop (p + 1))
  rw [length_drop] at hle
  rw [hcons, hunt_cons_junk hb, inPlaceLoop, if_pos (by omega),
    if_neg (fun h => hjunk ((data_eq_head d s hp).mp h))]
  by_cases hnil : hunt (d.drop (p + 1)) = []
  · rw [if_pos hnil] at hfind
    rw [hnil]
    -- no sync byte left: both sides stop at the end of the chunk
    rw [length_nil, Nat.sub_zero,
      inPlaceLoop_short d _ _ (by rw [length_drop, Nat.sub_self]; decide) (Nat.le_refl _)]
    split
    · rename_i k hk; rw [hfind] at hk; cases hk
    · rfl
  · rw [if_neg hnil] at hfind
    split
    · rename_i k hk
      rw [hfind, length_drop, Option.some.injEq] at hk
      rw [show p + (k + 1) = d.length - (hunt (d.drop (p + 1))).length from by omega]
      rfl
    · rename_i hk; rw [hfind] at hk; cases hk

/-- Dropping `k` bytes of the suffix at `p`. -/
theorem drop_suffix (d : List UInt8) {t : List UInt8} (hp : p ≤ d.length)
    (ht : ∃ k, k ≤ (d.drop p).length ∧ t = (d.drop p).drop k) :
    d.drop (d.length - t.length) = t := by
  obtain ⟨k, hk, rfl⟩ := ht
  rw [drop_drop, length_drop]
  rw [length_drop] at hk
  congr 1
  omega

theorem lockedRest_suffix (r : List UInt8) : ∃ k, k ≤ r.length ∧ lockedRest r = r.drop k := by
  induction hn : r.length using Nat.strongRecOn generalizing r with
  | ind n ih =>
    subst hn
    by_cases h : PacketAhead r
    · have hlen := h.1
      obtain ⟨k, hk, he⟩ := ih _ h.drop_lt _ rfl
      rw [length_drop] at hk
      exact ⟨tsPacketSize + k, by omega, by rw [lockedRest_cons h, he, drop_drop]⟩
    · exact ⟨0, Nat.zero_le _, lockedRest_done h⟩

theorem lockedRest_not_packetAhead (r : List UInt8) : ¬ PacketAhead (lockedRest r) := by
  induction hn : r.length using Nat.strongRecOn generalizing r with
  | ind n ih =>
    subst hn
    by_cases h : PacketAhead r
    · rw [lockedRest_cons h]
      exact ih _ h.drop_lt _ rfl
    · rwa [lockedRest_done h]

/-- What a call does with packets. -/
def delivering (base len : Nat) (xs : List Cut) : List FeedOut :=
  xs.map fun x => .packet x.bytes (offsetAt base len x.front)

theorem deliveries_delivering (base len : Nat) (xs : List Cut) :
    deliveries (delivering base len xs) = xs.map (Cut.delivered base len) := by
  induction xs with
  | nil => rfl
  | cons x xs ih => exact congrArg (_ :: ·) ih

theorem inPlaceLoop_locked (d : List UInt8) (f : Feeder) (hlock : f.syncState = .locked)
    (n p : Nat) (s : List FeedOut) (hn : d.length - p ≤ n) (hp : p ≤ d.length) :
    inPlaceLoop (traceHost d) d.length f s p =
      inPlaceLoop (traceHost d) d.length f
        (s ++ delivering f.processedBytes d.length (lockedPackets (d.drop p)))
        (d.length - (lockedRest (d.drop p)).length) := by
  induction n generalizing p s with
  | zero =>
    have hd : d.drop p = [] := drop_eq_nil_of_le (by omega)
    have hno : ¬ PacketAhead (d.drop p) := not_packetAhead_of_short (by rw [hd]; decide)
    rw [lockedPackets_done hno, lockedRest_done hno, hd, delivering, map_nil, append_nil,
      length_nil, show p = d.length - 0 from by omega]
  | succ n ih =>
    by_cases h : PacketAhead (d.drop p)
    · have hlen := h.1
      rw [length_drop] at hlen
      have hoffset : (f.processedBytes + p) % 2 ^ 64 =
          offsetAt f.processedBytes d.length (d.drop p).length := by
        rw [offsetAt, length_drop]
        omega
      rw [inPlaceLoop_packet d f s hlock h.1 h.2,
        ih (p + tsPacketSize) _ (by simp only [tsPacketSize] at hlen ⊢; omega) (by omega),
        lockedRest_cons h, lockedPackets_cons h, hoffset, drop_drop, append_assoc]
      rfl
    · rw [lockedPackets_done h, lockedRest_done h, delivering, map_nil, append_nil, length_drop,
        show d.length - (d.length - p) = p from by omega]

/-! ## The tail copy, and the refinement of one call -/

/-- `Computes base len r s o`: the result `r` of a call on `len` bytes, started with the trace `s`
    and `processed_bytes` being `base`, is the list-level result `o` — a fault where `o` is `none`,
    and otherwise the same sync fields and packets. -/
def Computes (base len : Nat) (r : Except Fault (Feeder × List FeedOut)) (s : List FeedOut) :
    Option (SyncCore × List Cut) → Prop
  | none => ∃ e, r = .error e
  | some (c, cuts) =>
    ∃ f outs, r = .ok (f, s ++ outs) ∧ f.core = c ∧
      deliveries outs = cuts.map (Cut.delivered base len)

variable {s : List FeedOut} {base len : Nat}

theorem Computes.of_unlock {r : Except Fault (Feeder × List FeedOut)}
    {o : Option (SyncCore × List Cut)} (h : Computes base len r (s ++ [.unlock]) o) :
    Computes base len r s o := by
  cases o with
  | none => exact h
  | some r =>
    obtain ⟨f, outs, hr, hc, hpk⟩ := h
    exact ⟨f, .unlock :: outs, by rw [hr, ← append_cons], hc, hpk⟩

variable {d : List UInt8} {f : Feeder}

theorem feedTail_of_short {f1 : Feeder} {s1 : List FeedOut} {p1 : Nat}
    (hloop : inPlaceLoop (traceHost d) d.length f s p = (f1, s1, p1)) (hbuf : f1.syncBuffer = [])
    (hp1 : p1 ≤ d.length) (hshort : (d.drop p1).length < tsPacketSize) :
    ∃ f', feedTail (traceHost d) d.length f s p = .ok (f', s1) ∧
      f'.core = { f1.core with buf := d.drop p1 } := by
  simp only [feedTail, hloop]
  by_cases hlt : p1 < d.length
  · have hwin : (traceHost d).window s1 p1 (d.length - p1) = d.drop p1 := by
      rw [window_eq d s1 (by omega), take_of_length_le (Nat.le_of_eq length_drop)]
    rw [if_pos hlt, hwin, Feeder.copyIn,
      if_pos (by rw [hbuf, length_nil, Nat.zero_add]; exact Nat.le_of_lt hshort)]
    exact ⟨_, rfl, by simp [Feeder.core, hbuf]⟩
  · rw [if_neg hlt]
    exact ⟨_, rfl, by rw [drop_eq_nil_of_le (by omega)]; simp [Feeder.core, hbuf]⟩

theorem feedTail_of_park (base len : Nat) {f1 : Feeder} {s1 : List FeedOut} {p1 : Nat}
    (hloop : inPlaceLoop (traceHost d) d.length f s p =
      ({ f1 with syncBuffer := (d.drop p1).take tsPacketSize }, s1, p1 + tsPacketSize))
    (hlen : tsPacketSize ≤ (d.drop p1).length) :
    Computes base len (feedTail (traceHost d) d.length f s p) s1
      (if (d.drop p1).length ≤ tsPacketSize then some ({ f1.core with buf := d.drop p1 }, [])
       else none) := by
  simp only [feedTail, hloop]
  have hfull : ((d.drop p1).take tsPacketSize).length = tsPacketSize := by
    rw [length_take]; omega
  rw [length_drop] at hlen
  by_cases hle : (d.drop p1).length ≤ tsPacketSize
  · have hnlt : ¬ p1 + tsPacketSize < d.length := by rw [length_drop] at hle; omega
    rw [if_pos hle, if_neg hnlt]
    exact ⟨_, [], by rw [append_nil], by simp [Feeder.core, take_of_length_le hle], rfl⟩
  · have hlt : p1 + tsPacketSize < d.length := by rw [length_drop] at hle; omega
    rw [if_neg hle, if_pos hlt, Feeder.copyIn, if_neg]
    · exact ⟨_, rfl⟩
    · rw [window_eq d s1 (by omega)]
      simp only [hfull, length_take, length_drop]
      omega

/-- The in-place scan of a call refines `SyncCore.tail`. -/
theorem feedTail_computes (d : List UInt8) (f : Feeder) (s : List FeedOut)
    (hbuf : f.syncBuffer = []) (hp : p ≤ d.length) :
    Computes f.processedBytes d.length (feedTail (traceHost d) d.length f s p) s
      (f.core.tail (d.drop p)) := by
  -- the packets a LOCKED handle delivers first
  obtain ⟨cuts, hcuts⟩ :
      ∃ cuts, (if f.core.st = .locked then lockedPackets (d.drop p) else []) = cuts := ⟨_, rfl⟩
  obtain ⟨outs, p1, hpk, hp1, hdrop, hfront, htail⟩ :
      ∃ outs p1, deliveries outs = cuts.map (Cut.delivered f.processedBytes d.length) ∧
        p1 ≤ d.length ∧ d.drop p1 = f.core.scanRest (d.drop p) ∧
        (PacketAhead (d.drop p1) → f.syncState ≠ .locked) ∧
        feedTail (traceHost d) d.length f s p =
          feedTail (traceHost d) d.length f (s ++ outs) p1 := by
    by_cases hlock : f.syncState = .locked
    · have hloop := inPlaceLoop_locked d f hlock _ p s (Nat.le_refl _) hp
      have hd := drop_suffix d hp (lockedRest_suffix (d.drop p))
      have hc : f.core.st = .locked := hlock
      rw [if_pos hc] at hcuts
      refine ⟨_, d.length - (lockedRest (d.drop p)).length, deliveries_delivering _ _ cuts,
        Nat.sub_le _ _, ?_, ?_, ?_⟩
      · rw [hd, SyncCore.scanRest, if_pos hc]
      · intro h; rw [hd] at h; exact absurd h (lockedRest_not_packetAhead _)
      · simp only [feedTail, hloop, hcuts]
    · have hc : ¬ f.core.st = .locked := hlock
      rw [if_neg hc] at hcuts
      exact ⟨[], p, by rw [← hcuts]; rfl, hp, by rw [SyncCore.scanRest, if_neg hc],
        fun _ => hlock, by rw [append_nil]⟩
  rw [htail]
  simp only [SyncCore.tail, ← hdrop, hcuts]
  by_cases hshort : (d.drop p1).length < tsPacketSize
  · rw [if_pos hshort]
    obtain ⟨f', hf', hcore⟩ := feedTail_of_short
      (inPlaceLoop_short d f (s ++ outs) hshort hp1) hbuf hp1 hshort
    exact ⟨f', outs, hf', hcore, hpk⟩
  · rw [if_neg hshort]
    have hlen : tsPacketSize ≤ (d.drop p1).length := Nat.le_of_not_lt hshort
    by_cases hsync : (d.drop p1).head? = some tsSyncByte
    · have hpark := feedTail_of_park f.processedBytes d.length
        (inPlaceLoop_park d f (s ++ outs) (hfront ⟨hlen, hsync⟩) hlen hsync) hlen
      rw [hunt_of_head hsync, if_pos hsync]
      split at hpark
      · rename_i hle
        obtain ⟨f', o, hf', hcore, ho⟩ := hpark
        rw [if_pos hle]
        exact ⟨f', outs ++ o, by rw [hf', append_assoc], hcore, by simp [ho, hpk]⟩
      · rename_i hle; rw [if_neg hle]; exact hpark
    · rw [if_neg hsync]
      have hjunk := inPlaceLoop_junk d f (s ++ outs) hlen hsync
      have hp2 : d.drop (d.length - (hunt (d.drop p1)).length) = hunt (d.drop p1) :=
        drop_suffix d hp1 ⟨_, Nat.sub_le _ _, (drop_hunt _).symm⟩
      by_cases hshort2 : (hunt (d.drop p1)).length < tsPacketSize
      · rw [if_pos (Nat.le_of_lt hshort2)]
        obtain ⟨f', hf', hcore⟩ := feedTail_of_short
          (hjunk.trans (inPlaceLoop_short d _ _ (by rw [hp2]; exact hshort2) (Nat.sub_le _ _)))
          hbuf (Nat.sub_le _ _) (by rw [hp2]; exact hshort2)
        refine ⟨f', outs ++ [.unlock], by rw [hf', append_assoc], ?_, by simp [deliveries, hpk]⟩
        rw [hcore, hp2]; rfl
      · have hlen2 : tsPacketSize ≤ (hunt (d.drop p1)).length := Nat.le_of_not_lt hshort2
        have hne : hunt (d.drop p1) ≠ [] := by
          intro h; rw [h] at hlen2; exact absurd hlen2 (by decide)
        have hpark := feedTail_of_park f.processedBytes d.length
          (hjunk.trans (inPlaceLoop_park d { f with syncState := .hunting } _ (by simp)
            (by rw [hp2]; exact hlen2) (by rw [hp2]; exact hunt_head hne)))
          (by rw [hp2]; exact hlen2)
        rw [hp2] at hpark
        split at hpark
        · rename_i hle
          obtain ⟨f', o, hf', hcore, ho⟩ := hpark
          rw [if_pos hle]
          exact ⟨f', outs ++ ([.unlock] ++ o), by rw [hf']; simp [append_assoc], hcore,
            by simp [ho, deliveries, hpk]⟩
        · rename_i hle; rw [if_neg hle]; exact hpark

theorem feedLoop_round {σ : Type} {H : Host σ} {len : Nat} {s : σ} {f1 : Feeder} (hp : p < len)
    (hbuf : 0 < f.syncBuffer.length) {n : Nat}
    (hn : n = min (len - p) (tsPacketSize - f.syncBuffer.length))
    (hc : f.copyIn (H.window s p n) = .ok f1) :
    feedLoop H len f s p =
      let s1 := H.syncBufferWrite s f.syncBuffer.length (H.window s p n)
      if f1.syncBuffer.length < tsPacketSize then .ok (f1, s1)
      else if f1.syncBuffer.head? = some tsSyncByte then
        let r := takeBuffered H f1 s1 (p + n)
        feedTail H len r.1 r.2 (p + n)
      else
        feedLoop H len { f1 with syncState := .hunting, syncBuffer := f1.syncBuffer.tail }
          (H.syncBufferWrite (H.dropLock s1) 0 f1.syncBuffer.tail) (p + n) := by
  subst hn
  rw [feedLoop, if_pos hp, if_pos hbuf]
  simp only
  split
  · next e he => cases hc.symm.trans he
  · next f2 he =>
    cases hc.symm.trans he
    rfl

/-- The index at which the chunk goes on behind the first 188 bytes of `sync_buffer ++ rest`. -/
theorem drop_behind {buf s : List UInt8} (hp : p ≤ d.length)
    (hle : buf.length ≤ tsPacketSize) (hs : buf ++ d.drop p = s) (hlen : tsPacketSize ≤ s.length) :
    d.drop (d.length - (s.length - tsPacketSize)) = s.drop tsPacketSize := by
  have hbytes : s.length = buf.length + (d.length - p) := by
    rw [← hs, length_append, length_drop]
  have hindex : d.length - (s.length - tsPacketSize) = p + (tsPacketSize - buf.length) := by omega
  rw [hindex, ← hs, drop_append, drop_eq_nil_of_le hle, nil_append, drop_drop]

theorem feedLoop_bytes (s : List FeedOut)
    {bs : List UInt8} (hp : p < d.length) (hne : f.syncBuffer ≠ [])
    (hle : f.syncBuffer.length ≤ tsPacketSize) (hs : f.syncBuffer ++ d.drop p = b :: bs) :
    feedLoop (traceHost d) d.length f s p =
      if (b :: bs).length < tsPacketSize then .ok ({ f with syncBuffer := b :: bs }, s)
      else if b = tsSyncByte then
        let p1 := d.length - ((b :: bs).length - tsPacketSize)
        let r := takeBuffered (traceHost d)
          { f with syncBuffer := (b :: bs).take tsPacketSize } s p1
        feedTail (traceHost d) d.length r.1 r.2 p1
      else
        feedLoop (traceHost d) d.length
          { f with syncState := .hunting, syncBuffer := ((b :: bs).take tsPacketSize).tail }
          (s ++ [.unlock]) (d.length - ((b :: bs).length - tsPacketSize)) := by
  obtain ⟨k, hk⟩ : ∃ k, k = min (d.length - p) (tsPacketSize - f.syncBuffer.length) := ⟨_, rfl⟩
  have htake : f.syncBuffer ++ (d.drop p).take k = (b :: bs).take tsPacketSize := by
    rw [← hs, take_append, take_of_length_le hle, hk, ← length_drop, Nat.min_comm,
      ← take_eq_take_min]
  have hcopy : f.copyIn ((traceHost d).window s p k) =
      .ok { f with syncBuffer := (b :: bs).take tsPacketSize } := by
    rw [Feeder.copyIn, window_eq d s (by omega), htake,
      if_pos (by rw [length_take, length_drop]; omega)]
  have hbytes : (b :: bs).length = f.syncBuffer.length + (d.length - p) := by
    rw [← hs, length_append, length_drop]
  rw [feedLoop_round hp (length_pos_iff.mpr hne) hk hcopy]
  simp only [traceHost]
  by_cases hshort : (b :: bs).length < tsPacketSize
  · rw [if_pos hshort, if_pos (by rw [length_take]; omega),
      take_of_length_le (Nat.le_of_lt hshort)]
  · have hp1 : p + k = d.length - ((b :: bs).length - tsPacketSize) := by omega
    rw [if_neg hshort, if_neg (by rw [length_take]; omega), hp1]
    by_cases hb : b = tsSyncByte
    · rw [if_pos hb, if_pos (by simp [tsPacketSize, hb])]
    · rw [if_neg hb, if_neg (by simp [tsPacketSize, hb])]

theorem takeBuffered_computes (d : List UInt8) (f : Feeder) (s : List FeedOut) {bs : List UInt8}
    (hp : p = d.length - ((b :: bs).length - tsPacketSize))
    (hd : (b :: bs).length - tsPacketSize ≤ d.length)
    (hbuf : f.syncBuffer = (b :: bs).take tsPacketSize)
    (hdrop : d.drop p = (b :: bs).drop tsPacketSize) (hlen : ¬ (b :: bs).length < tsPacketSize)
    (hb : b = tsSyncByte) :
    Computes f.processedBytes d.length
      (feedTail (traceHost d) d.length (takeBuffered (traceHost d) f s p).1
        (takeBuffered (traceHost d) f s p).2 p) s (f.core.scan (b :: bs)) := by
  rw [SyncCore.scan, if_neg hlen, if_pos hb, ← hdrop, ← hbuf]
  -- what `takeBuffered` does to the handle and to the trace is what `accept` says
  obtain ⟨f1, outs1, htake, hbuf1, hbase, hcore1, hpk1⟩ :
      ∃ f1 outs1, takeBuffered (traceHost d) f s p = (f1, s ++ outs1) ∧ f1.syncBuffer = [] ∧
        f1.processedBytes = f.processedBytes ∧
        f1.core = (f.core.accept (Cut.mk (b :: bs).length f.syncBuffer)).1 ∧
        deliveries outs1 = (f.core.accept (Cut.mk (b :: bs).length f.syncBuffer)).2.map
          (Cut.delivered f.processedBytes d.length) := by
    by_cases hlock : f.syncState = .locked
    · have hc : f.core.st = .locked := hlock
      have hoffset : (f.processedBytes + p + (2 ^ 64 - 188)) % 2 ^ 64 =
          offsetAt f.processedBytes d.length (b :: bs).length := by
        simp only [offsetAt, tsPacketSize] at hp hd hlen ⊢
        omega
      rw [takeBuffered, if_pos hlock, SyncCore.accept, if_pos hc, hoffset]
      exact ⟨_, [.packet _ _], rfl, rfl, rfl, rfl, rfl⟩
    · have hc : ¬ f.core.st = .locked := hlock
      rw [takeBuffered, if_neg hlock, SyncCore.accept, if_neg hc]
      exact ⟨_, [], Prod.ext rfl (append_nil s).symm, rfl, rfl, rfl, rfl⟩
  have h := feedTail_computes d f1 (s ++ outs1) hbuf1 (hp ▸ Nat.sub_le _ _)
  rw [hbase] at h
  simp only [htake, ← hcore1]
  cases hr : f1.core.tail (d.drop p) with
  | none => rw [hr] at h; exact h
  | some r =>
    rw [hr] at h
    obtain ⟨f', outs, hf', hc', hpk⟩ := h
    exact ⟨f', outs1 ++ outs, by rw [hf', append_assoc], hc', by simp [hpk, hpk1]⟩

/-- The buffered path of a call refines `SyncCore.scan`. -/
theorem feedLoop_computes (d : List UInt8) (n : Nat) (f : Feeder) (s : List FeedOut) (p : Nat)
    (hn : f.syncBuffer.length + (d.length - p) ≤ n) (hp : p ≤ d.length) (hne : f.syncBuffer ≠ [])
    (hle : f.syncBuffer.length ≤ tsPacketSize)
    (hend : p = d.length → f.syncBuffer.length < tsPacketSize) :
    Computes f.processedBytes d.length (feedLoop (traceHost d) d.length f s p) s
      (f.core.scan (f.syncBuffer ++ d.drop p)) := by
  -- the measure of the loop: each junk byte shortens `sync_buffer ++ rest` by one
  induction n generalizing f s p with
  | zero => exact absurd (length_eq_zero_iff.mp (by omega)) hne
  | succ n ih =>
    cases hs : f.syncBuffer ++ d.drop p with
    | nil => exact absurd (append_eq_nil_iff.mp hs).1 hne
    | cons b bs =>
      have hbytes : (b :: bs).length = f.syncBuffer.length + (d.length - p) := by
        rw [← hs, length_append, length_drop]
      by_cases hlt : p < d.length
      · rw [feedLoop_bytes s hlt hne hle hs]
        by_cases hshort : (b :: bs).length < tsPacketSize
        · rw [if_pos hshort, SyncCore.scan, if_pos hshort]
          exact ⟨_, [], by rw [append_nil], rfl, rfl⟩
        · have hdrop := drop_behind hp hle hs (Nat.le_of_not_lt hshort)
          have hpos : 0 < tsPacketSize := by decide
          rw [if_neg hshort]
          by_cases hb : b = tsSyncByte
          · rw [if_pos hb, ← SyncCore.scan_buf f.core ((b :: bs).take tsPacketSize)]
            exact takeBuffered_computes d { f with syncBuffer := (b :: bs).take tsPacketSize } s
              rfl (by omega) rfl hdrop hshort hb
          · have htail : ((b :: bs).take tsPacketSize).tail ++
                d.drop (d.length - ((b :: bs).length - tsPacketSize)) = bs := by
              rw [hdrop]
              simp [tsPacketSize]
            have hlen : ((b :: bs).take tsPacketSize).tail.length = tsPacketSize - 1 := by
              rw [length_tail, length_take]
              omega
            have hrec := ih { f with syncState := .hunting
                                     syncBuffer := ((b :: bs).take tsPacketSize).tail }
              (s ++ [.unlock]) (d.length - ((b :: bs).length - tsPacketSize))
              (by simp only [hlen]; omega) (Nat.sub_le _ _)
              (by intro h
                  simp only at h
                  rw [h] at hlen
                  exact absurd hlen (by decide))
              (by simp only [hlen]; omega) (by intro _; simp only [hlen]; decide)
            rw [htail] at hrec
            rw [if_neg hb, SyncCore.scan, if_neg hshort, if_neg hb,
              ← SyncCore.scan_buf _ ((b :: bs).take tsPacketSize).tail]
            exact hrec.of_unlock
      · rw [drop_eq_nil_of_le (by omega), append_nil] at hs
        rw [feedLoop, if_neg hlt, SyncCore.scan, if_pos (hs ▸ hend (by omega)), ← hs]
        exact ⟨{ f with processedBytes := (f.processedBytes + d.length) % 2 ^ 64 }, [],
          by rw [append_nil], rfl, rfl⟩

/-- **Refinement of one call.**  On a handle whose buffer is in bounds, `tsa_feed_data` computes
    `SyncCore.call`. -/
theorem feedChunk_call (hf : f.syncBufferLen ≤ tsPacketSize) (d : List UInt8) :
    Computes f.processedBytes d.length (feedChunk f d) [] (f.core.call d) := by
  rw [feedChunk, tsaFeedData, SyncCore.call]
  by_cases hd : d = []
  · subst hd
    exact ⟨f, [], rfl, rfl, rfl⟩
  · have hpos : 0 < d.length := length_pos_iff.mpr hd
    rw [if_neg (by omega), if_neg hd]
    by_cases hbuf : f.syncBuffer = []
    · have hc : f.core.buf = [] := hbuf
      rw [if_pos hc, feedLoop, if_pos hpos, if_neg (by simp [hbuf])]
      exact feedTail_computes d f [] hbuf (Nat.zero_le _)
    · have hc : ¬ f.core.buf = [] := hbuf
      rw [if_neg hc]
      exact feedLoop_computes d _ f [] 0 (Nat.le_refl _) (Nat.zero_le _) hbuf hf (by omega)

end TsAnalyzer.Sync
