/-
  `tsa_feed_data` on a chunk that changes under it.

  `tsa_process_packet` counts references behind the packets it keeps, so a call can change the part
  of its chunk that is still to come.  A byte is SEEN as it stands when the loop has got to its
  packet.  On every host a call does what it does on the bytes it sees, if nobody changed these
  (`tsaFeedData_seen`).  A run of calls (`feedStep`) is read off the bytes that it sees.
-/
import TsAnalyzer.Sync.Scan

namespace TsAnalyzer.Sync

open Lib List

variable {σ : Type}

/-- The host, with a record of what the call does. -/
def Host.record (H : Host σ) : Host (σ × List FeedOut) where
  data w := H.data w.1
  packetInPlace w i offset :=
    (H.packetInPlace w.1 i offset, w.2 ++ [.packet (H.window w.1 i tsPacketSize) offset])
  packetBuffered w bytes offset :=
    (H.packetBuffered w.1 bytes offset, w.2 ++ [.packet bytes offset])
  dropLock w := (H.dropLock w.1, w.2 ++ [.unlock])
  syncBufferWrite w i bytes := (H.syncBufferWrite w.1 i bytes, w.2)

/-- Only packets change the chunk. -/
structure Host.Steady (H : Host σ) : Prop where
  dropLock : ∀ s, H.data (H.dropLock s) = H.data s
  syncBufferWrite : ∀ s i bytes, H.data (H.syncBufferWrite s i bytes) = H.data s

/-! ## The bytes a call sees -/

/-- What the in-place loop sees from `processed` on: packet by packet while it delivers them. -/
def seenTail (H : Host σ) (len : Nat) (f : Feeder) (s : σ) (processed : Nat) : List UInt8 :=
  if processed + tsPacketSize ≤ len ∧ H.data s processed = tsSyncByte ∧ f.syncState = .locked then
    H.window s processed tsPacketSize ++
      seenTail H len f (H.packetInPlace s processed ((f.processedBytes + processed) % 2 ^ 64))
        (processed + tsPacketSize)
  else H.window s processed (len - processed)
  termination_by len - processed
  decreasing_by
  simp only [tsPacketSize] at *
  omega

/-- What the outer loop sees from `processed` on. -/
def seenLoop (H : Host σ) (len : Nat) (f : Feeder) (s : σ) (processed : Nat) : List UInt8 :=
  if processed < len ∧ 0 < f.syncBuffer.length then
    let toCopy := min (len - processed) (tsPacketSize - f.syncBuffer.length)
    let bytes := H.window s processed toCopy
    let s1 := H.syncBufferWrite s f.syncBuffer.length bytes
    let f1 := { f with syncBuffer := f.syncBuffer ++ bytes }
    if f1.syncBuffer.length < tsPacketSize then bytes
    else if f1.syncBuffer.head? = some tsSyncByte then
      let r := takeBuffered H f1 s1 (processed + toCopy)
      bytes ++ seenTail H len r.1 r.2 (processed + toCopy)
    else
      bytes ++ seenLoop H len { f1 with syncState := .hunting, syncBuffer := f1.syncBuffer.tail }
        (H.syncBufferWrite (H.dropLock s1) 0 f1.syncBuffer.tail) (processed + toCopy)
  else seenTail H len f s processed
  termination_by (len - processed) + f.syncBuffer.length
  decreasing_by
  simp only [List.length_tail, List.length_append, Host.window, List.length_map,
    List.length_range]
  omega

section Seen

variable {H : Host σ} {len p : Nat} {f : Feeder} {s : σ}

@[simp] theorem window_length (H : Host σ) (s : σ) (i n : Nat) : (H.window s i n).length = n := by
  simp [Host.window]

theorem window_append (H : Host σ) (s : σ) (i n k : Nat) :
    H.window s i (n + k) = H.window s i n ++ H.window s (i + n) k := by
  simp [Host.window, range_add, Function.comp_def, Nat.add_assoc]

theorem window_congr {s' : σ} (h : H.data s' = H.data s) (i n : Nat) :
    H.window s' i n = H.window s i n := by
  simp [Host.window, h]

theorem seenTail_length (hp : p ≤ len) : (seenTail H len f s p).length = len - p := by
  fun_induction seenTail H len f s p with
  | case1 s p h ih =>
    rw [length_append, window_length, ih h.1]
    have := h.1
    omega
  | case2 => exact window_length ..

theorem seenLoop_length (hp : p ≤ len) : (seenLoop H len f s p).length = len - p := by
  fun_induction seenLoop H len f s p with
  | case1 f s p h toCopy bytes f1 hshort =>
    simp only [f1, bytes, length_append, window_length] at hshort
    rw [window_length]
    omega
  | case2 f s p h toCopy bytes s1 f1 _ _ r =>
    rw [length_append, window_length, seenTail_length (by omega)]
    omega
  | case3 f s p h toCopy bytes s1 f1 _ _ ih =>
    rw [length_append, window_length, ih (by omega)]
    omega
  | case4 => exact seenTail_length hp

end Seen

/-! ## A call does what it does on the bytes it sees -/

section Simulation

variable {H : Host σ} {len : Nat} {d : List UInt8} {f : Feeder} {s : σ} {p : Nat}

variable {n : Nat} {r : List UInt8} {t : List FeedOut}

theorem traceHost_data (hd : d.drop p = H.window s p n ++ r) {i : Nat} (hi : i < n) :
    (traceHost d).data t (p + i) = H.data s (p + i) := by
  have hbyte : (d.drop p)[i]? = some (H.data s (p + i)) := by
    rw [hd, getElem?_append_left (by simpa using hi)]
    simp [Host.window, hi]
  rw [getElem?_drop] at hbyte
  simp [traceHost, hbyte]

theorem traceHost_window (hd : d.drop p = H.window s p n ++ r) :
    (traceHost d).window t p n = H.window s p n := by
  refine map_congr_left fun i hi => traceHost_data hd (mem_range.mp hi)

theorem take_of_window (hd : d.drop p = H.window s p n ++ r) :
    (d.drop p).take n = H.window s p n := by
  rw [hd, take_append_of_le_length (by simp), take_of_length_le (by simp)]

theorem seenTail_front (hp : p + tsPacketSize ≤ len) (hd : d.drop p = seenTail H len f s p) :
    ∃ r, d.drop p = H.window s p tsPacketSize ++ r := by
  rw [hd, seenTail]
  split
  · exact ⟨_, rfl⟩
  · rw [show len - p = tsPacketSize + (len - p - tsPacketSize) from by omega, window_append]
    exact ⟨_, rfl⟩

theorem seenTail_still (h : ¬ (H.data s p = tsSyncByte ∧ f.syncState = .locked)) :
    seenTail H len f s p = H.window s p (len - p) := by
  rw [seenTail, if_neg fun hand => h hand.2]

theorem junk_still (hp : p + tsPacketSize ≤ len) (hd : d.drop p = H.window s p (len - p))
    (h : H.data s p ≠ tsSyncByte) : (traceHost d).data t p ≠ tsSyncByte := by
  rw [← append_nil (H.window ..)] at hd
  have hdata := traceHost_data (t := t) hd (i := 0) (by simp only [tsPacketSize] at hp; omega)
  exact fun hsync => h (hdata.symm.trans hsync)

theorem findSync_still (hH : H.Steady) (hd : d.drop p = H.window s p (len - p)) :
    findSyncScalar (fun i => (traceHost d).data ((traceHost d).dropLock t) (p + 1 + i))
        (len - (p + 1)) =
      findSyncScalar (fun i => H.data (H.dropLock s) (p + 1 + i)) (len - (p + 1)) := by
  refine find?_congr fun i hi => congrArg (· == tsSyncByte) ?_
  have hlt := mem_range.mp hi
  rw [← append_nil (H.window ..)] at hd
  show (traceHost d).data _ (p + 1 + i) = H.data (H.dropLock s) (p + 1 + i)
  rw [hH.dropLock, Nat.add_assoc, traceHost_data hd (by omega)]

theorem findSync_lt {buf : Nat → UInt8} {n k : Nat} (h : findSyncScalar buf n = some k) : k < n :=
  mem_range.mp (mem_of_find?_eq_some h)

/-- What the loop has not got to yet. -/
theorem window_rest (hd : d.drop p = H.window s p (len - p)) {q : Nat} (hpq : p ≤ q)
    (hq : q ≤ len) : d.drop q = H.window s q (len - q) := by
  rw [show q = p + (q - p) from by omega, ← drop_drop, hd,
    show len - p = (q - p) + (len - (p + (q - p))) from by omega, window_append,
    drop_left' (window_length ..)]

/-- The in-place loop, on the bytes it sees; what it leaves of the chunk is still to be seen. -/
theorem inPlaceLoop_seen (hH : H.Steady) (w : σ × List FeedOut) (hp : p ≤ len)
    (hd : d.drop p = seenTail H len f w.1 p) :
    let r := inPlaceLoop H.record len f w p
    inPlaceLoop (traceHost d) len f w.2 p = (r.1, r.2.1.2, r.2.2) ∧ r.2.2 ≤ len ∧
      d.drop r.2.2 = H.window r.2.1.1 r.2.2 (len - r.2.2) := by
  fun_induction inPlaceLoop H.record len f w p with
  | case1 f w p hle hsync hlock ih =>
    obtain ⟨r, hfront⟩ := seenTail_front hle hd
    have hdata : (traceHost d).data w.2 p = tsSyncByte :=
      (traceHost_data hfront (by decide : 0 < tsPacketSize)).trans hsync
    have hstep : inPlaceLoop (traceHost d) len f w.2 p = inPlaceLoop (traceHost d) len f
        (H.record.packetInPlace w p ((f.processedBytes + p) % 2 ^ 64)).2 (p + tsPacketSize) := by
      rw [inPlaceLoop, if_pos hle, if_pos hdata, if_pos hlock]
      simp only [traceHost, take_of_window hfront, Host.record]
    rw [seenTail, if_pos ⟨hle, hsync, hlock⟩] at hd
    rw [hstep]
    exact ih hle (by rw [← drop_drop, hd, drop_left' (window_length ..)]; rfl)
  | case2 f w p hle hsync hlock bytes =>
    have hstill := hd.trans (seenTail_still fun h => hlock h.2)
    obtain ⟨r, hfront⟩ := seenTail_front hle hd
    have hdata : (traceHost d).data w.2 p = tsSyncByte :=
      (traceHost_data hfront (by decide : 0 < tsPacketSize)).trans hsync
    refine ⟨?_, hle, ?_⟩
    · rw [inPlaceLoop, if_pos hle, if_pos hdata, if_neg hlock, traceHost_window hfront]
      rfl
    · exact (window_rest hstill (Nat.le_add_right p _) hle).trans
        (window_congr (hH.syncBufferWrite w.1 0 bytes).symm _ _)
  | case3 f w p hle hsync k hk ih =>
    have hstill := hd.trans (seenTail_still fun h => hsync h.1)
    have hfind := (findSync_still (t := w.2) hH hstill).trans hk
    have hq : p + (k + 1) ≤ len := by
      have hlt := findSync_lt hk
      omega
    have hstep : inPlaceLoop (traceHost d) len f w.2 p = inPlaceLoop (traceHost d) len
        { f with syncState := .hunting } (H.record.dropLock w).2 (p + (k + 1)) := by
      rw [inPlaceLoop, if_pos hle, if_neg (junk_still hle hstill hsync)]
      split
      · next k' hk' =>
        cases hfind.symm.trans hk'
        rfl
      · next hk' => cases hfind.symm.trans hk'
    rw [hstep]
    refine ih hq ?_
    rw [seenTail_still fun h => (by cases h.2)]
    exact (window_rest hstill (Nat.le_add_right p _) hq).trans
      (window_congr (hH.dropLock w.1).symm _ _)
  | case4 f w p hle hsync hk =>
    have hstill := hd.trans (seenTail_still fun h => hsync h.1)
    have hfind := (findSync_still (t := w.2) hH hstill).trans hk
    refine ⟨?_, Nat.le_refl _, ?_⟩
    · rw [inPlaceLoop, if_pos hle, if_neg (junk_still hle hstill hsync)]
      split
      · next hk' => cases hfind.symm.trans hk'
      · rfl
    · rw [Nat.sub_self, drop_eq_nil_of_le]
      · rfl
      · have hlength := congrArg length hstill
        simp only [length_drop, window_length, tsPacketSize] at hlength hle ⊢
        omega
  | case5 f w p hle =>
    refine ⟨?_, hp, ?_⟩
    · rw [inPlaceLoop, if_neg hle]
    · rw [hd, seenTail, if_neg fun hand => hle hand.1]

/-- What the record keeps of a call. -/
def recorded (r : Except Fault (Feeder × σ × List FeedOut)) :
    Except Fault (Feeder × List FeedOut) :=
  r.map fun q => (q.1, q.2.2)

theorem feedTail_seen (hH : H.Steady) (w : σ × List FeedOut) (hp : p ≤ len)
    (hd : d.drop p = seenTail H len f w.1 p) :
    recorded (feedTail H.record len f w p) = feedTail (traceHost d) len f w.2 p := by
  obtain ⟨hloop, -, hrest⟩ := inPlaceLoop_seen hH w hp hd
  unfold feedTail
  rw [hloop]
  generalize inPlaceLoop H.record len f w p = r at hrest ⊢
  obtain ⟨f1, w1, q⟩ := r
  rw [← append_nil (H.window ..)] at hrest
  simp only [traceHost_window hrest]
  split
  · rw [show H.record.window w1 q (len - q) = H.window w1.1 q (len - q) from rfl]
    cases f1.copyIn (H.window w1.1 q (len - q)) with
    | error e => rfl
    | ok f2 => rfl
  · rfl

theorem takeBuffered_record (H : Host σ) (f : Feeder) (w : σ × List FeedOut) (p : Nat) :
    (takeBuffered H.record f w p).1 = (takeBuffered H f w.1 p).1 ∧
      (takeBuffered H.record f w p).2.1 = (takeBuffered H f w.1 p).2 ∧
      takeBuffered (traceHost d) f w.2 p =
        ((takeBuffered H f w.1 p).1, (takeBuffered H.record f w p).2.2) := by
  unfold takeBuffered
  split
  · exact ⟨rfl, rfl, rfl⟩
  · exact ⟨rfl, rfl, rfl⟩

theorem seenLoop_round {f1 : Feeder} (hp : p < len) (hbuf : 0 < f.syncBuffer.length)
    (hn : n = min (len - p) (tsPacketSize - f.syncBuffer.length))
    (hf1 : f1 = { f with syncBuffer := f.syncBuffer ++ H.window s p n }) :
    seenLoop H len f s p = H.window s p n ++
      let s1 := H.syncBufferWrite s f.syncBuffer.length (H.window s p n)
      if f1.syncBuffer.length < tsPacketSize then []
      else if f1.syncBuffer.head? = some tsSyncByte then
        let r := takeBuffered H f1 s1 (p + n)
        seenTail H len r.1 r.2 (p + n)
      else
        seenLoop H len { f1 with syncState := .hunting, syncBuffer := f1.syncBuffer.tail }
          (H.syncBufferWrite (H.dropLock s1) 0 f1.syncBuffer.tail) (p + n) := by
  subst hn hf1
  rw [seenLoop, if_pos ⟨hp, hbuf⟩]
  dsimp only
  split
  · exact (append_nil _).symm
  split
  · rfl
  · rfl

theorem feedLoop_seen (hH : H.Steady) (w : σ × List FeedOut) (hp : p ≤ len)
    (hbuf : f.syncBuffer.length ≤ tsPacketSize) (hd : d.drop p = seenLoop H len f w.1 p) :
    recorded (feedLoop H.record len f w p) = feedLoop (traceHost d) len f w.2 p := by
  fun_induction feedLoop H.record len f w p with
  | case1 f w p hlt hpos toCopy e he =>
    unfold Feeder.copyIn at he
    rw [if_pos] at he
    · cases he
    · rw [window_length]
      omega
  | case2 f w p hlt hpos toCopy f1 hc w1 hshort =>
    have hseen := hd.trans (seenLoop_round hlt hpos rfl (copyIn_ok hc).1)
    rw [feedLoop_round hlt hpos rfl ((congrArg f.copyIn (traceHost_window hseen)).trans hc)]
    exact (if_pos hshort).symm
  | case3 f w p hlt hpos toCopy f1 hc w1 hfull hsync r =>
    have hseen := hd.trans (seenLoop_round hlt hpos rfl (copyIn_ok hc).1)
    rw [feedLoop_round hlt hpos rfl ((congrArg f.copyIn (traceHost_window hseen)).trans hc)]
    obtain ⟨h1, h2, htake⟩ := takeBuffered_record (d := d) H f1 w1 (p + toCopy)
    have hrest : d.drop (p + toCopy) = seenTail H len r.1 r.2.1 (p + toCopy) := by
      rw [← drop_drop, hseen, drop_left' (window_length ..)]
      simp only [if_neg hfull, if_pos hsync]
      rw [h1, h2]
      rfl
    rw [feedTail_seen hH r.2 (by omega) hrest]
    simp only [if_neg hfull, if_pos hsync]
    show _ = feedTail (traceHost d) len (takeBuffered (traceHost d) f1 w1.2 (p + toCopy)).1
      (takeBuffered (traceHost d) f1 w1.2 (p + toCopy)).2 (p + toCopy)
    rw [htake, ← h1]
  | case4 f w p hlt hpos toCopy f1 hc w1 hfull hsync ih =>
    have hseen := hd.trans (seenLoop_round hlt hpos rfl (copyIn_ok hc).1)
    rw [feedLoop_round hlt hpos rfl ((congrArg f.copyIn (traceHost_window hseen)).trans hc)]
    obtain ⟨hf1, hlen⟩ := copyIn_ok hc
    simp only [if_neg hfull, if_neg hsync]
    refine ih (by omega) ?_ ?_
    · show f1.syncBuffer.tail.length ≤ _
      rw [hf1, length_tail, length_append]
      exact Nat.le_trans (Nat.sub_le _ _) hlen
    · rw [← drop_drop, hseen, drop_left' (window_length ..)]
      simp only [if_neg hfull, if_neg hsync]
      rfl
  | case5 f w p hlt hempty =>
    rw [seenLoop, if_neg fun h => hempty h.2] at hd
    rw [feedTail_seen hH w hp hd, feedLoop, if_pos hlt, if_neg hempty]
  | case6 f w p hge =>
    rw [feedLoop, if_neg hge]
    rfl

/-- The bytes that a call on `len` bytes sees. -/
def Host.seen (H : Host σ) (f : Feeder) (s : σ) (len : Nat) : List UInt8 := seenLoop H len f s 0

theorem seen_length (H : Host σ) (f : Feeder) (s : σ) (len : Nat) :
    (H.seen f s len).length = len := seenLoop_length (Nat.zero_le len)

/-- **A call on any host** does to the handle, and delivers, what it does on the bytes it sees. -/
theorem tsaFeedData_seen (hH : H.Steady) (hbuf : f.syncBuffer.length ≤ tsPacketSize) (s : σ)
    (len : Nat) :
    recorded (tsaFeedData H.record f (s, []) len) = feedChunk f (H.seen f s len) := by
  rw [feedChunk, tsaFeedData, tsaFeedData, seen_length]
  split
  · rfl
  · exact feedLoop_seen hH (s, []) (Nat.zero_le len) hbuf rfl

end Simulation

/-! ## The record changes nothing -/

theorem inPlaceLoop_record (H : Host σ) (len : Nat) (f : Feeder) (w : σ × List FeedOut) (p : Nat) :
    inPlaceLoop H len f w.1 p =
      let r := inPlaceLoop H.record len f w p
      (r.1, r.2.1.1, r.2.2) := by
  fun_induction inPlaceLoop H.record len f w p with
  | case1 f w p hle hsync hlock ih =>
    have hdata : H.data w.1 p = tsSyncByte := hsync
    rw [inPlaceLoop, if_pos hle, if_pos hdata, if_pos hlock]
    exact ih
  | case2 f w p hle hsync hlock bytes =>
    have hdata : H.data w.1 p = tsSyncByte := hsync
    rw [inPlaceLoop, if_pos hle, if_pos hdata, if_neg hlock]
    rfl
  | case3 f w p hle hsync k hk ih =>
    have hdata : ¬ H.data w.1 p = tsSyncByte := hsync
    rw [inPlaceLoop, if_pos hle, if_neg hdata]
    split
    · next k' hk' =>
      cases hk'.symm.trans hk
      exact ih
    · next hk' => cases hk'.symm.trans hk
  | case4 f w p hle hsync hk =>
    have hdata : ¬ H.data w.1 p = tsSyncByte := hsync
    rw [inPlaceLoop, if_pos hle, if_neg hdata]
    split
    · next hk' => cases hk'.symm.trans hk
    · rfl
  | case5 f w p hle => rw [inPlaceLoop, if_neg hle]

/-- What a call does without the record. -/
def unrecorded (r : Except Fault (Feeder × σ × List FeedOut)) : Except Fault (Feeder × σ) :=
  r.map fun q => (q.1, q.2.1)

theorem feedTail_record (H : Host σ) (len : Nat) (f : Feeder) (w : σ × List FeedOut) (p : Nat) :
    unrecorded (feedTail H.record len f w p) = feedTail H len f w.1 p := by
  unfold feedTail
  rw [inPlaceLoop_record]
  generalize inPlaceLoop H.record len f w p = r
  obtain ⟨f1, w1, q⟩ := r
  simp only
  split
  · rw [show H.record.window w1 q (len - q) = H.window w1.1 q (len - q) from rfl]
    cases f1.copyIn (H.window w1.1 q (len - q)) with
    | error e => rfl
    | ok f2 => rfl
  · rfl

theorem feedLoop_record (H : Host σ) (len : Nat) (f : Feeder) (w : σ × List FeedOut) (p : Nat) :
    unrecorded (feedLoop H.record len f w p) = feedLoop H len f w.1 p := by
  fun_induction feedLoop H.record len f w p with
  | case1 f w p hlt hpos toCopy e he =>
    have hc : f.copyIn (H.window w.1 p toCopy) = .error e := he
    rw [feedLoop, if_pos hlt, if_pos hpos]
    dsimp only
    split
    · next e' he' =>
      cases he'.symm.trans hc
      rfl
    · next he' => cases he'.symm.trans hc
  | case2 f w p hlt hpos toCopy f1 hc w1 hshort =>
    have hcopy : f.copyIn (H.window w.1 p toCopy) = .ok f1 := hc
    rw [feedLoop_round hlt hpos rfl hcopy]
    exact (if_pos hshort).symm
  | case3 f w p hlt hpos toCopy f1 hc w1 hfull hsync r =>
    have hcopy : f.copyIn (H.window w.1 p toCopy) = .ok f1 := hc
    obtain ⟨h1, h2, -⟩ := takeBuffered_record (d := []) H f1 w1 (p + toCopy)
    rw [feedLoop_round hlt hpos rfl hcopy, feedTail_record]
    simp only [if_neg hfull, if_pos hsync]
    rw [h1, h2]
    rfl
  | case4 f w p hlt hpos toCopy f1 hc w1 hfull hsync ih =>
    have hcopy : f.copyIn (H.window w.1 p toCopy) = .ok f1 := hc
    rw [feedLoop_round hlt hpos rfl hcopy, ih]
    simp only [if_neg hfull, if_neg hsync]
    rfl
  | case5 f w p hlt hempty => rw [feedTail_record, feedLoop, if_pos hlt, if_neg hempty]
  | case6 f w p hge =>
    rw [feedLoop, if_neg hge]
    rfl

/-- The record changes nothing. -/
theorem tsaFeedData_record (H : Host σ) (f : Feeder) (s : σ) (len : Nat) :
    unrecorded (tsaFeedData H.record f (s, []) len) = tsaFeedData H f s len := by
  unfold tsaFeedData
  split
  · rfl
  · exact feedLoop_record H len f (s, []) 0

/-! ## Calls -/

/-- A call: the bytes that the caller passes, and the host that reads them. -/
structure Feed (σ : Type) where
  bytes : List UInt8
  host : Host σ
  /-- The caller has put the bytes into place. -/
  enter : σ → σ
  given : ∀ s, host.window (enter s) 0 bytes.length = bytes
  steady : host.Steady

/-- The bytes that the call sees. -/
def Feed.seen (c : Feed σ) (q : Feeder × σ) : List UInt8 :=
  c.host.seen q.1 (c.enter q.2) c.bytes.length

/-- `tsa_feed_data`, with what it does to the rest of the handle. -/
def feedStep (q : Feeder × σ) (c : Feed σ) : Except Fault ((Feeder × σ) × List FeedOut) :=
  (tsaFeedData c.host.record q.1 (c.enter q.2, []) c.bytes.length).map
    fun r => ((r.1, r.2.1), r.2.2)

variable {q q' : Feeder × σ} {c : Feed σ} {cs : List (Feed σ)} {outs : List FeedOut}

theorem Feed.seen_length (c : Feed σ) (q : Feeder × σ) : (c.seen q).length = c.bytes.length :=
  Sync.seen_length c.host q.1 (c.enter q.2) c.bytes.length

theorem feedStep_seen (hbuf : q.1.syncBufferLen ≤ tsPacketSize) (c : Feed σ) :
    (feedStep q c).map (fun r => (r.1.1, r.2)) = feedChunk q.1 (c.seen q) := by
  rw [Feed.seen, ← tsaFeedData_seen c.steady hbuf, feedStep]
  cases tsaFeedData c.host.record q.1 (c.enter q.2, []) c.bytes.length with
  | error e => rfl
  | ok r => rfl

theorem feedStep_ok (hbuf : q.1.syncBufferLen ≤ tsPacketSize)
    (h : feedStep q c = .ok (q', outs)) : feedChunk q.1 (c.seen q) = .ok (q'.1, outs) := by
  rw [← feedStep_seen hbuf, h]
  rfl

theorem feedStep_ok_iff (hbuf : q.1.syncBufferLen ≤ tsPacketSize) (c : Feed σ) :
    (∃ r, feedStep q c = .ok r) ↔ ∃ r, feedChunk q.1 (c.seen q) = .ok r := by
  rw [← feedStep_seen hbuf]
  cases feedStep q c with
  | error e => exact ⟨(fun h => by cases h.choose_spec), fun h => by cases h.choose_spec⟩
  | ok r => exact ⟨fun _ => ⟨_, rfl⟩, fun _ => ⟨_, rfl⟩⟩

/-- What a run of calls sees. -/
def seenStream (q : Feeder × σ) : List (Feed σ) → List UInt8
  | [] => []
  | c :: cs =>
    c.seen q ++ match feedStep q c with
      | .ok r => seenStream r.1 cs
      | .error _ => []

theorem seenStream_append (ds : List (Feed σ)) (h : runE feedStep q cs = .ok (q', outs)) :
    seenStream q (cs ++ ds) = seenStream q cs ++ seenStream q' ds := by
  induction cs generalizing q outs with
  | nil =>
    cases h
    rfl
  | cons c cs ih =>
    obtain ⟨t, out, rest, hc, hrest, -⟩ := runE_cons_iff.mp h
    simp only [cons_append, seenStream, hc, append_assoc, ih hrest]

theorem seenStream_singleton (q : Feeder × σ) (c : Feed σ) : seenStream q [c] = c.seen q := by
  rw [seenStream]
  split
  · exact append_nil _
  · exact append_nil _

theorem seenStream_length (h : runE feedStep q cs = .ok (q', outs)) :
    (seenStream q cs).length = (cs.flatMap Feed.bytes).length := by
  induction cs using reverseRecOn generalizing q' outs with
  | nil => rfl
  | append_singleton cs c ih =>
    obtain ⟨t, out, rest, ht, -, -⟩ := runE_append_iff.mp h
    rw [seenStream_append [c] ht, seenStream_singleton, length_append, ih ht, c.seen_length,
      flatMap_append, length_append, flatMap_singleton]

end TsAnalyzer.Sync
