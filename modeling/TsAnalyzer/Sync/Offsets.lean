/-
  Is `current_packet_offset` the offset of the packet in the stream?

  The offset is `processed_bytes`, the bytes of the calls BEFORE this one, plus an index into the
  chunk.  A call that only adds to an incomplete carried-over packet never counts its bytes.
-/
import TsAnalyzer.Sync.Bounds

namespace TsAnalyzer.Sync

open Lib List

/-! ## Where the packets stand -/

/-- The packet with this front. -/
def packetAt (s : List UInt8) (n : Nat) : List UInt8 := (s.drop (s.length - n)).take tsPacketSize

theorem packetAt_length (s : List UInt8) : packetAt s s.length = s.take tsPacketSize := by
  rw [packetAt, Nat.sub_self, drop_zero]

theorem packetAt_suffix {s t : List UInt8} (h : t <:+ s) {n : Nat} (hn : n ≤ t.length) :
    packetAt t n = packetAt s n := by
  obtain ⟨u, rfl⟩ := h
  rw [packetAt, packetAt, length_append,
    show u.length + t.length - n = u.length + (t.length - n) from by omega,
    drop_length_add_append]

/-- The packet stands in `s`. -/
def Cut.Of (s : List UInt8) (x : Cut) : Prop := x.bytes = packetAt s x.front ∧ x.front ≤ s.length

theorem Cut.Of.of_suffix {s t : List UInt8} {x : Cut} (h : x.Of t) (hts : t <:+ s) : x.Of s :=
  ⟨h.1.trans (packetAt_suffix hts h.2), Nat.le_trans h.2 hts.length_le⟩

theorem Cut.of_front (s : List UInt8) : Cut.Of s ⟨s.length, s.take tsPacketSize⟩ :=
  ⟨(packetAt_length s).symm, Nat.le_refl _⟩

theorem lockedPackets_of (r : List UInt8) : ∀ x ∈ lockedPackets r, x.Of r := by
  induction hn : r.length using Nat.strongRecOn generalizing r with
  | ind n ih =>
    subst hn
    intro x hx
    by_cases h : PacketAhead r
    · rw [lockedPackets_cons h] at hx
      rcases mem_cons.mp hx with rfl | hx
      · exact Cut.of_front r
      · exact (ih _ h.drop_lt _ rfl x hx).of_suffix (List.drop_suffix tsPacketSize r)
    · rw [lockedPackets_done h] at hx
      cases hx

/-- What comes out of `s`: packets that stand in it, and its last bytes. -/
def Within (s : List UInt8) (o : Option (SyncCore × List Cut)) : Prop :=
  ∀ q, o = some q → (∀ x ∈ q.2, x.Of s) ∧ q.1.buf <:+ s

theorem Within.of_suffix {s t : List UInt8} {o : Option (SyncCore × List Cut)} (h : Within t o)
    (hts : t <:+ s) : Within s o :=
  fun q hq => ⟨fun x hx => ((h q hq).1 x hx).of_suffix hts, (h q hq).2.trans hts⟩

namespace SyncCore

theorem scanRest_suffix (c : SyncCore) (r : List UInt8) : c.scanRest r <:+ r := by
  unfold scanRest
  split
  · obtain ⟨k, -, h⟩ := lockedRest_suffix r
    rw [h]
    exact List.drop_suffix k r
  · exact suffix_refl r

theorem tail_within (c : SyncCore) (r : List UInt8) : Within r (c.tail r) := by
  have hpackets : ∀ x ∈ (if c.st = .locked then lockedPackets r else []), x.Of r := by
    split
    · exact lockedPackets_of r
    · exact fun x hx => absurd hx not_mem_nil
  have hrest := c.scanRest_suffix r
  intro q hq
  unfold tail at hq
  simp only at hq
  split at hq
  · cases hq
    exact ⟨hpackets, hrest⟩
  split at hq
  · cases hq
    exact ⟨hpackets, (dropWhile_suffix _).trans hrest⟩
  · cases hq

theorem scan_within (c : SyncCore) (s : List UInt8) : Within s (c.scan s) := by
  induction s generalizing c with
  | nil =>
    rintro q hq
    cases hq
    exact ⟨fun x hx => absurd hx not_mem_nil, suffix_refl _⟩
  | cons b bs ih =>
    rw [scan]
    split
    · rintro q hq
      cases hq
      exact ⟨fun x hx => absurd hx not_mem_nil, suffix_refl _⟩
    split
    · -- the packet at the front of the bytes, then those behind it
      intro q hq
      obtain ⟨r, hr, rfl⟩ := Option.map_eq_some_iff.mp hq
      obtain ⟨hof, hbuf⟩ :=
        (tail_within _ _).of_suffix (List.drop_suffix tsPacketSize (b :: bs)) r hr
      refine ⟨fun x hx => ?_, hbuf⟩
      rcases mem_append.mp hx with hx | hx
      · unfold accept at hx
        split at hx
        · rw [mem_singleton.mp hx]
          exact Cut.of_front _
        · cases hx
      · exact hof x hx
    · exact (ih { c with st := .hunting }).of_suffix (suffix_cons b bs)

/-- **What a call delivers stands in the bytes it saw**, and what it keeps are the last of them. -/
theorem call_within (c : SyncCore) (d : List UInt8) : Within (c.buf ++ d) (c.call d) := by
  rw [call]
  split
  · rename_i hd
    rintro q hq
    cases hq
    exact ⟨fun x hx => absurd hx not_mem_nil, by rw [hd, append_nil]⟩
  split
  · exact (c.tail_within d).of_suffix (suffix_append _ _)
  · exact c.scan_within (c.buf ++ d)

end SyncCore

/-! ## What `processed_bytes` counts -/

/-- The call only adds to an incomplete packet, and returns in the middle of the loop. -/
def Feeder.ReturnsEarly (f : Feeder) (len : Nat) : Prop :=
  0 < f.syncBuffer.length ∧ f.syncBuffer.length + len < tsPacketSize
deriving Decidable

section Counter

variable {σ : Type} (H : Host σ) {len : Nat} {f : Feeder}

theorem inPlaceLoop_processedBytes (len : Nat) (f : Feeder) (s : σ) (processed : Nat) :
    (inPlaceLoop H len f s processed).1.processedBytes = f.processedBytes := by
  fun_induction inPlaceLoop H len f s processed with
  | case1 _ _ _ _ _ _ ih => exact ih
  | case2 | case4 | case5 => rfl
  | case3 _ _ _ _ _ _ _ ih => exact ih

theorem feedTail_processedBytes {f' : Feeder} {s s' : σ} {processed : Nat}
    (h : feedTail H len f s processed = .ok (f', s')) :
    f'.processedBytes = (f.processedBytes + len) % 2 ^ 64 := by
  have hloop := inPlaceLoop_processedBytes H len f s processed
  unfold feedTail at h
  generalize inPlaceLoop H len f s processed = r at h hloop
  obtain ⟨f1, s1, processed1⟩ := r
  simp only at h hloop
  split at h
  · split at h
    · cases h
    · rename_i f2 hcopy
      cases h
      rw [(copyIn_ok hcopy).1]
      show (f1.processedBytes + len) % 2 ^ 64 = _
      rw [hloop]
  · cases h
    show (f1.processedBytes + len) % 2 ^ 64 = _
    rw [hloop]

theorem takeBuffered_processedBytes (f : Feeder) (s : σ) (processed : Nat) :
    (takeBuffered H f s processed).1.processedBytes = f.processedBytes := by
  unfold takeBuffered
  split
  · rfl
  · rfl

theorem feedLoop_processedBytes {f' : Feeder} {s s' : σ} {processed : Nat}
    (hp : processed < len) (h : feedLoop H len f s processed = .ok (f', s')) :
    f'.processedBytes = if f.ReturnsEarly (len - processed) then f.processedBytes
      else (f.processedBytes + len) % 2 ^ 64 := by
  fun_induction feedLoop H len f s processed with
  | case1 => cases h
  | case2 f s processed hlt hpos toCopy f1 hc s1 hshort =>
    obtain ⟨rfl, -⟩ := copyIn_ok hc
    injection h with h
    injection h with hf
    subst hf
    have hwindow : (H.window s processed toCopy).length = toCopy := by simp [Host.window]
    simp only [length_append, hwindow] at hshort
    rw [if_pos ⟨hpos, by omega⟩]
  | case3 f s processed hlt hpos toCopy f1 hc s1 hfull hsync r =>
    obtain ⟨rfl, -⟩ := copyIn_ok hc
    have hwindow : (H.window s processed toCopy).length = toCopy := by simp [Host.window]
    simp only [length_append, hwindow] at hfull
    have hlate : ¬ f.ReturnsEarly (len - processed) := fun hearly => by
      have := hearly.2
      omega
    rw [if_neg hlate, feedTail_processedBytes H h, takeBuffered_processedBytes]
  | case4 f s processed hlt hpos toCopy f1 hc s1 hfull hsync ih =>
    obtain ⟨rfl, hbound⟩ := copyIn_ok hc
    have hwindow : (H.window s processed toCopy).length = toCopy := by simp [Host.window]
    simp only [length_append, hwindow] at hfull hbound
    have hlate : ¬ f.ReturnsEarly (len - processed) := fun hearly => by
      have := hearly.2
      omega
    rw [if_neg hlate]
    by_cases hmore : processed + toCopy < len
    · -- the buffer lacks one byte, and there is one
      have hlate' : ¬ Feeder.ReturnsEarly
          { f with syncState := .hunting
                   syncBuffer := (f.syncBuffer ++ H.window s processed toCopy).tail }
          (len - (processed + toCopy)) := by
        rintro ⟨-, hearly⟩
        simp only [length_tail, length_append, hwindow] at hearly
        omega
      have hrec := ih hmore h
      rw [if_neg hlate'] at hrec
      exact hrec
    · rw [feedLoop, if_neg hmore] at h
      cases h
      rfl
  | case5 f s processed hlt hempty =>
    rw [if_neg (fun hearly => hempty hearly.1), feedTail_processedBytes H h]
  | case6 f s processed hge => exact absurd hp hge

end Counter

/-- The bytes of a call that are not counted. -/
def Feeder.skipped (f : Feeder) (len : Nat) : Nat := if f.ReturnsEarly len then len else 0

section Runs

variable {σ : Type} {q q' : Feeder × σ} {c : Feed σ} {cs : List (Feed σ)} {s : σ}
variable {outs : List FeedOut}

theorem feedStep_processedBytes (h : feedStep q c = .ok (q', outs)) :
    (q'.1.processedBytes + q.1.skipped c.bytes.length) % 2 ^ 64 =
      (q.1.processedBytes + c.bytes.length) % 2 ^ 64 := by
  unfold feedStep tsaFeedData at h
  unfold Feeder.skipped
  split at h
  · rename_i hd
    cases h
    rw [hd, ite_self]
  · rename_i hd
    cases hloop : feedLoop c.host.record c.bytes.length q.1 (c.enter q.2, []) 0 with
    | error e => rw [hloop] at h; cases h
    | ok r =>
      rw [hloop] at h
      cases h
      rw [feedLoop_processedBytes c.host.record (by omega) hloop, Nat.sub_zero]
      split
      · rfl
      · rw [Nat.add_zero, Nat.mod_mod]

/-- What `processed_bytes` lacks after these calls. -/
def skippedBytes (q : Feeder × σ) : List (Feed σ) → Nat
  | [] => 0
  | c :: cs =>
    q.1.skipped c.bytes.length + match feedStep q c with
      | .ok r => skippedBytes r.1 cs
      | .error _ => 0

theorem feed_processedBytes (h : runE feedStep q cs = .ok (q', outs)) :
    (q'.1.processedBytes + skippedBytes q cs) % 2 ^ 64 =
      (q.1.processedBytes + (cs.flatMap Feed.bytes).length) % 2 ^ 64 := by
  induction cs generalizing q q' outs with
  | nil =>
    cases h
    rfl
  | cons c cs ih =>
    obtain ⟨t, out, rest, hc, hrest, -⟩ := runE_cons_iff.mp h
    have hcall := feedStep_processedBytes hc
    have hrec := ih hrest
    simp only [skippedBytes, hc, flatMap_cons, length_append]
    omega

/-! ## Whole runs -/

theorem feedChunk_ok_call {f f' : Feeder} {d : List UInt8} (hbound : f.syncBufferLen ≤ tsPacketSize)
    (h : feedChunk f d = .ok (f', outs)) :
    ∃ cuts, f.core.call d = some (f'.core, cuts) ∧
      deliveries outs = cuts.map (Cut.delivered f.processedBytes d.length) := by
  have hcomp := feedChunk_call hbound d
  rw [h] at hcomp
  cases ho : f.core.call d with
  | none =>
    rw [ho] at hcomp
    obtain ⟨e, he⟩ := hcomp
    cases he
  | some o =>
    rw [ho] at hcomp
    obtain ⟨f1, outs1, hf1, hcore, hcuts⟩ := hcomp
    cases hf1
    exact ⟨o.2, by rw [hcore], hcuts⟩

/-- The carried-over bytes are the last ones seen. -/
theorem feed_buffer (h : runE feedStep (Feeder.fresh, s) cs = .ok (q, outs)) :
    q.1.syncBufferLen ≤ tsPacketSize ∧ q.1.syncBuffer <:+ seenStream (Feeder.fresh, s) cs := by
  induction cs using reverseRecOn generalizing q outs with
  | nil =>
    cases h
    exact ⟨Nat.zero_le _, suffix_refl _⟩
  | append_singleton cs c ih =>
    obtain ⟨t, out, rest, ht, hlast, -⟩ := runE_append_iff.mp h
    obtain ⟨r, out1, rest1, hc, hend, -⟩ := runE_cons_iff.mp hlast
    cases hend
    obtain ⟨hbound, hsuf⟩ := ih ht
    rw [seenStream_append [c] ht, seenStream_singleton]
    refine ⟨feedStep_inv t c _ _ hbound hc, ?_⟩
    obtain ⟨cuts, hcall, -⟩ := feedChunk_ok_call hbound (feedStep_ok hbound hc)
    obtain ⟨u, hu⟩ := hsuf
    rw [← hu, append_assoc]
    exact (t.1.core.call_within _ _ hcall).2.trans (suffix_append _ _)

/-- The packets that a call on `d` takes. -/
def SyncCore.cuts (c : SyncCore) (d : List UInt8) : List Cut := ((c.call d).map Prod.snd).getD []

/-- The offsets in the whole stream, that of `cs` and then `c`, of the packets that the call `c`
    delivers. -/
def positions (q : Feeder × σ) (cs : List (Feed σ)) (c : Feed σ) : List Nat :=
  (q.1.core.cuts (c.seen q)).map fun x => ((cs ++ [c]).flatMap Feed.bytes).length - x.front

/-- **`current_packet_offset` is right, exactly while no byte went uncounted**: in any run of calls
    on a new handle, on every host, a call delivers the packets that stand at `positions` in the
    stream it has seen; it gives them these offsets iff it has no packet, or these offsets fit 64
    bits and the calls before that returned early make up a multiple of 2^64 bytes. -/
theorem offsets_iff {out : List FeedOut}
    (hrun : runE feedStep (Feeder.fresh, s) cs = .ok (q, out))
    (hcall : feedStep q c = .ok (q', outs)) :
    packetsOf outs = (positions q cs c).map (fun p =>
        ((seenStream (Feeder.fresh, s) (cs ++ [c])).drop p).take tsPacketSize) ∧
      (offsetsOf outs = positions q cs c ↔ ∀ p ∈ positions q cs c,
        p < 2 ^ 64 ∧ skippedBytes (Feeder.fresh, s) cs % 2 ^ 64 = 0) := by
  obtain ⟨hbound, hsuf⟩ := feed_buffer hrun
  have hcount := feed_processedBytes hrun
  have hchunk := feedStep_ok hbound hcall
  obtain ⟨cuts, htaken, hcuts⟩ := feedChunk_ok_call hbound hchunk
  have hof := (q.1.core.call_within _ _ htaken).1
  have hlength : (seenStream (Feeder.fresh, s) (cs ++ [c])).length =
      ((cs ++ [c]).flatMap Feed.bytes).length := by
    rw [seenStream_append [c] hrun, seenStream_singleton, length_append, seenStream_length hrun,
      c.seen_length, flatMap_append, length_append, flatMap_singleton]
  have hstream : q.1.syncBuffer ++ c.seen q <:+ seenStream (Feeder.fresh, s) (cs ++ [c]) := by
    obtain ⟨u, hu⟩ := hsuf
    rw [seenStream_append [c] hrun, seenStream_singleton, ← hu, append_assoc]
    exact suffix_append _ _
  have hstands : ∀ x ∈ cuts, x.Of (seenStream (Feeder.fresh, s) (cs ++ [c])) :=
    fun x hx => (hof x hx).of_suffix hstream
  rw [positions, show q.1.core.cuts (c.seen q) = cuts by rw [SyncCore.cuts, htaken]; rfl]
  rw [packetsOf, offsetsOf, hcuts, map_map, map_map, map_map, ← hlength, c.seen_length]
  constructor
  · exact map_congr_left fun x hx => (hstands x hx).1
  · rw [map_inj_left, forall_mem_map]
    refine forall₂_congr fun x hx => ?_
    have hn := (hstands x hx).2
    have hfresh : Feeder.fresh.processedBytes = 0 := rfl
    rw [hfresh, Nat.zero_add] at hcount
    rw [hlength, flatMap_append, flatMap_singleton, length_append] at hn ⊢
    show offsetAt _ _ _ = _ ↔ _
    unfold offsetAt
    omega

end Runs

end TsAnalyzer.Sync
