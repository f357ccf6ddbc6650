/-
  Does the way a stream is cut into chunks matter to `tsa_feed_data`?

  IT DOES.  The reference is the stream fed ONE BYTE AT A TIME (`SyncCore.push`), where only the
  buffered path runs and a call sees what it was given.  The in-place path of longer chunks differs
  from it twice: outside LOCKED it PARKS a packet at full length, not yet counted, and it trims junk
  up to the next sync byte.
-/
import TsAnalyzer.Sync.Bounds

namespace TsAnalyzer.Sync

open Lib List

/-! ## The byte-wise machine -/

namespace SyncCore

/-- One byte on the buffered path. -/
def push (c : SyncCore) (b : UInt8) : SyncCore × List (List UInt8) :=
  if (c.buf ++ [b]).length < tsPacketSize then ({ c with buf := c.buf ++ [b] }, [])
  else if (c.buf ++ [b]).head? = some tsSyncByte then c.accept (c.buf ++ [b])
  else ({ c with st := .hunting, buf := (c.buf ++ [b]).tail }, [])

/-- The sync fields and the packets alone. -/
def bytesOf (q : SyncCore × List Cut) : SyncCore × List (List UInt8) := (q.1, q.2.map Cut.bytes)

theorem accept_bytes (c : SyncCore) (x : Cut) : bytesOf (c.accept x) = c.accept x.bytes := by
  unfold accept
  split <;> rfl

theorem accept_buf {α : Type} (c : SyncCore) (p : α) : (c.accept p).1.buf = [] := by
  unfold accept
  split <;> rfl

theorem accept_of_buf (c : SyncCore) (buf p : List UInt8) :
    ({ c with buf := buf } : SyncCore).accept p = c.accept p := rfl

variable {b : UInt8} {s : List UInt8} {q : SyncCore × List Cut} {c : SyncCore}

theorem push_buf_lt (hc : c.buf.length < tsPacketSize) (b : UInt8) :
    (c.push b).1.buf.length < tsPacketSize := by
  unfold push
  split
  · rename_i h; exact h
  · split
    · rw [accept_buf]; decide
    · simp only [length_tail, length_append, length_singleton]; omega

theorem run_push_buf_lt (xs : List UInt8) {c : SyncCore} (hc : c.buf.length < tsPacketSize) :
    (run push c xs).1.buf.length < tsPacketSize := by
  induction xs generalizing c with
  | nil => exact hc
  | cons b xs ih => exact ih (push_buf_lt hc b)

theorem run_push_fill (xs : List UInt8) (c : SyncCore)
    (h : c.buf.length + xs.length < tsPacketSize) :
    run push c xs = ({ c with buf := c.buf ++ xs }, []) := by
  induction xs generalizing c with
  | nil => rw [run, append_nil]
  | cons b xs ih =>
    rw [length_cons] at h
    have hpush : c.push b = ({ c with buf := c.buf ++ [b] }, []) := by
      rw [push, if_pos]
      rw [length_append, length_singleton]
      omega
    rw [run, hpush, ih _ (by simp only [length_append, length_singleton]; omega)]
    simp

theorem run_push_complete (hc : c.buf = []) {xs : List UInt8} (hxs : xs.length + 1 = tsPacketSize)
    (ys : List UInt8) :
    run push c (xs ++ b :: ys) =
      ((run push (push { c with buf := xs } b).1 ys).1,
        (push { c with buf := xs } b).2 ++ (run push (push { c with buf := xs } b).1 ys).2) := by
  rw [run_append, run_push_fill xs c (by rw [hc, length_nil]; omega), hc]
  rfl

theorem cut_packet (h : tsPacketSize ≤ s.length) :
    ∃ xs b ys, s = xs ++ b :: ys ∧ xs.length + 1 = tsPacketSize ∧
      s.take tsPacketSize = xs ++ [b] ∧ s.drop tsPacketSize = ys := by
  have hlt : tsPacketSize - 1 < s.length := by simp only [tsPacketSize] at h ⊢; omega
  refine ⟨s.take (tsPacketSize - 1), s[tsPacketSize - 1], s.drop tsPacketSize, ?_, ?_, ?_, rfl⟩
  · have hcons := drop_eq_getElem_cons hlt
    exact (take_append_drop (tsPacketSize - 1) s).symm.trans (by rw [hcons]; rfl)
  · rw [length_take, Nat.min_eq_left (Nat.le_of_lt hlt)]; rfl
  · rw [← take_succ_eq_append_getElem hlt]; rfl

theorem run_push_packet (hc : c.buf = []) (h : PacketAhead s) :
    run push c s =
      ((run push (c.accept (s.take tsPacketSize)).1 (s.drop tsPacketSize)).1,
        (c.accept (s.take tsPacketSize)).2 ++
          (run push (c.accept (s.take tsPacketSize)).1 (s.drop tsPacketSize)).2) := by
  obtain ⟨xs, b, ys, hs, hxs, htake, hdrop⟩ := cut_packet h.1
  have hhead : (xs ++ [b]).head? = some tsSyncByte := by
    rw [← htake, head?_take, if_neg (by decide)]; exact h.2
  have hpush : push { c with buf := xs } b = c.accept (xs ++ [b]) := by
    rw [push, if_neg (by simp only [length_append, length_singleton]; omega),
      if_pos hhead, accept_of_buf]
  rw [htake, hdrop, hs, run_push_complete hc hxs, hpush]

theorem run_push_junk (hc : c.buf = []) {bs : List UInt8} (hb : b ≠ tsSyncByte)
    (hlen : tsPacketSize ≤ (b :: bs).length) :
    run push c (b :: bs) = run push { c with st := .hunting } bs := by
  obtain ⟨xs, e, ys, hs, hxs, htake, hdrop⟩ := cut_packet hlen
  cases xs with
  | nil => exact absurd hxs (by decide)
  | cons x xs =>
    rw [cons_append, List.cons.injEq] at hs
    obtain ⟨rfl, hbs⟩ := hs
    have hpush : push { c with buf := b :: xs } e =
        ({ c with st := .hunting, buf := xs ++ [e] }, []) := by
      rw [push, if_neg (by simp only [length_append, length_singleton]; omega),
        if_neg (by simpa using hb)]
      rfl
    rw [show b :: bs = (b :: xs) ++ e :: ys from by rw [hbs]; rfl, run_push_complete hc hxs, hpush,
      hbs, show xs ++ e :: ys = (xs ++ [e]) ++ ys from by rw [append_assoc]; rfl, run_append,
      run_push_fill (xs ++ [e]) { c with st := .hunting }
        (by simp only [hc, length_nil, length_append, length_cons] at hxs ⊢
            omega)]
    simp [hc]

theorem run_push_hunt (r : List UInt8) {c : SyncCore} (hc : c.buf = [])
    (hlen : tsPacketSize ≤ r.length) :
    (hunt r).length < tsPacketSize →
      run push c r =
        ({ c with st := .hunting, buf := r.drop (r.length - (tsPacketSize - 1)) }, []) := by
  induction r generalizing c with
  | nil => exact absurd hlen (by decide)
  | cons b bs ih =>
    intro hhunt
    rcases Decidable.em (b = tsSyncByte) with hb | hb
    · rw [hunt_cons_sync hb] at hhunt; omega
    · rw [hunt_cons_junk hb] at hhunt
      rw [run_push_junk hc hb hlen]
      rcases Nat.lt_or_ge bs.length tsPacketSize with hshort | hlong
      · have hlen' : bs.length + 1 = tsPacketSize := by rw [length_cons] at hlen; omega
        rw [run_push_fill bs _ (by rw [show ({ c with st := .hunting } : SyncCore).buf = [] from hc]
                                   simpa using hshort)]
        rw [show (b :: bs).length - (tsPacketSize - 1) = 1 from by rw [length_cons]; omega]
        simp [hc]
      · rw [ih (c := { c with st := .hunting }) hc hlong hhunt]
        have hn : (b :: bs).length - (tsPacketSize - 1) = (bs.length - (tsPacketSize - 1)) + 1 := by
          rw [length_cons]
          simp only [tsPacketSize] at hlong ⊢
          omega
        rw [hn, drop_succ_cons]

theorem run_push_locked (hc : c.buf = []) (hlock : c.st = .locked) (r : List UInt8) :
    run push c r =
      ((run push c (lockedRest r)).1,
        (lockedPackets r).map Cut.bytes ++ (run push c (lockedRest r)).2) := by
  induction hn : r.length using Nat.strongRecOn generalizing r with
  | ind n ih =>
    subst hn
    rcases Decidable.em (PacketAhead r) with h | h
    · have hacc : c.accept (r.take tsPacketSize) = (c, [r.take tsPacketSize]) := by
        rw [accept, if_pos hlock, ← hc]
      rw [run_push_packet hc h, hacc, lockedRest_cons h, lockedPackets_cons h,
        ih _ h.drop_lt _ rfl]
      rfl
    · rw [lockedRest_done h, lockedPackets_done h]
      rfl

theorem run_push_scanRest (hc : c.buf = []) (r : List UInt8) :
    run push c r =
      ((run push c (c.scanRest r)).1,
        (if c.st = .locked then lockedPackets r else []).map Cut.bytes ++
          (run push c (c.scanRest r)).2) := by
  rw [scanRest]
  split
  · rename_i hlock; exact run_push_locked hc hlock r
  · rfl

/-! ## Smooth and rough calls -/

/-- What is left over for the in-place scan is treated as the byte-wise machine treats it. -/
def Smooth (rest : List UInt8) : Prop :=
  rest.length < tsPacketSize ∨ (hunt rest).length = tsPacketSize - 1
deriving Decidable

theorem tail_smooth (hc : c.buf = []) {r : List UInt8} (h : Smooth (c.scanRest r)) :
    (c.tail r).map bytesOf = some (run push c r) := by
  rw [run_push_scanRest hc, tail]
  rcases Nat.lt_or_ge (c.scanRest r).length tsPacketSize with hshort | hlong
  · rw [if_pos hshort, run_push_fill _ c (by rw [hc, length_nil, Nat.zero_add]; exact hshort),
      hc]
    simp [bytesOf]
  · have hhunt : (hunt (c.scanRest r)).length = tsPacketSize - 1 := by
      rcases h with h | h
      · omega
      · exact h
    have hlt : (hunt (c.scanRest r)).length < tsPacketSize := by rw [hhunt]; decide
    have hjunk : (c.scanRest r).head? ≠ some tsSyncByte := fun hs => by
      rw [hunt_of_head hs] at hlt; omega
    rw [if_neg (by omega), if_pos (Nat.le_of_lt hlt), if_neg hjunk, run_push_hunt _ hc hlong hlt,
      ← hhunt, drop_hunt]
    simp [bytesOf]

theorem tail_rough (hc : c.buf = []) {r : List UInt8} (h : ¬ Smooth (c.scanRest r))
    (hq : c.tail r = some q) : q.1.buf ≠ (run push c r).1.buf := by
  have hlong : tsPacketSize ≤ (c.scanRest r).length := Nat.le_of_not_lt fun hlt => h (.inl hlt)
  have hne : (hunt (c.scanRest r)).length ≠ tsPacketSize - 1 := fun he => h (.inr he)
  rw [tail, if_neg (by omega)] at hq
  split at hq
  · rename_i hle
    injection hq with hq
    subst hq
    rw [run_push_scanRest hc]
    intro heq
    have hlen := congrArg List.length heq
    rcases Nat.lt_or_ge (hunt (c.scanRest r)).length tsPacketSize with hlt | hge
    · -- trimmed further than the byte-wise machine, which keeps 187 bytes
      rw [run_push_hunt _ hc hlong hlt] at hlen
      simp only [length_drop] at hlen
      omega
    · -- a parked packet
      have hrun := run_push_buf_lt (c.scanRest r) (c := c) (by rw [hc]; decide)
      simp only at hlen
      omega
  · cases hq

theorem run_push_accept (c : SyncCore) {bs : List UInt8} (hb : b = tsSyncByte)
    (hlen : ¬ (b :: bs).length < tsPacketSize) :
    let q := bytesOf (c.accept (Cut.mk (b :: bs).length ((b :: bs).take tsPacketSize)))
    let r := run push q.1 ((b :: bs).drop tsPacketSize)
    run push { c with buf := [] } (b :: bs) = (r.1, q.2 ++ r.2) := by
  have h : PacketAhead (b :: bs) := ⟨Nat.le_of_not_lt hlen, by rw [hb]; rfl⟩
  rw [run_push_packet rfl h, accept_of_buf, accept_bytes]

theorem scan_smooth (c : SyncCore) (h : Smooth (c.scanBehind s)) :
    (c.scan s).map bytesOf = some (run push { c with buf := [] } s) := by
  induction s generalizing c with
  | nil => rfl
  | cons b bs ih =>
    rcases Nat.lt_or_ge (b :: bs).length tsPacketSize with hlen | hlen
    · rw [scan, if_pos hlen, run_push_fill _ _ (by simpa using hlen)]
      rfl
    · have hlen' := Nat.not_lt.mpr hlen
      rcases Decidable.em (b = tsSyncByte) with hb | hb
      · rw [← scanRest_accept c hb hlen' (Cut.mk (b :: bs).length ((b :: bs).take tsPacketSize))]
          at h
        obtain ⟨r, hr, hrun⟩ := Option.map_eq_some_iff.mp (tail_smooth (accept_buf c _) h)
        rw [scan_packet c hb hlen', hr, run_push_accept c hb hlen']
        simp only [bytesOf] at hrun ⊢
        rw [← hrun, Option.map_some, Option.map_some, bytesOf, map_append]
      · rw [← scanBehind_junk c hb hlen'] at h
        rw [scan, if_neg hlen', if_neg hb, ih _ h, run_push_junk rfl hb hlen]

theorem scan_rough (c : SyncCore) (h : ¬ Smooth (c.scanBehind s)) (hq : c.scan s = some q) :
    q.1.buf ≠ (run push { c with buf := [] } s).1.buf := by
  induction s generalizing c with
  | nil => exact absurd (.inl (show 0 < tsPacketSize by decide)) h
  | cons b bs ih =>
    rcases Nat.lt_or_ge (b :: bs).length tsPacketSize with hlen | hlen
    · refine absurd (.inl ?_) h
      rw [scanBehind, skipJunk_short hlen, if_pos hlen]
      decide
    · have hlen' := Nat.not_lt.mpr hlen
      rcases Decidable.em (b = tsSyncByte) with hb | hb
      · rw [← scanRest_accept c hb hlen' (Cut.mk (b :: bs).length ((b :: bs).take tsPacketSize))]
          at h
        rw [scan_packet c hb hlen', Option.map_eq_some_iff] at hq
        obtain ⟨r, hr, rfl⟩ := hq
        rw [run_push_accept c hb hlen']
        have hne := tail_rough (accept_buf c _) h hr
        exact hne
      · rw [← scanBehind_junk c hb hlen'] at h
        rw [scan, if_neg hlen', if_neg hb] at hq
        rw [run_push_junk rfl hb hlen]
        exact ih _ h hq

theorem run_push_buffered (hc : c.buf.length < tsPacketSize) (d : List UInt8) :
    run push { c with buf := [] } (c.buf ++ d) = run push c d := by
  rw [run_append, run_push_fill c.buf _ (by simpa using hc)]
  rfl

theorem call_smooth (hc : c.buf.length < tsPacketSize) {d : List UInt8}
    (h : d = [] ∨ Smooth (c.leftOver d)) : (c.call d).map bytesOf = some (run push c d) := by
  rw [call]
  split
  · rename_i hd; subst hd; rfl
  · rename_i hd
    have hs : Smooth (c.leftOver d) := h.resolve_left hd
    rw [leftOver] at hs
    split
    · rename_i hbuf; rw [if_pos hbuf] at hs; exact tail_smooth hbuf hs
    · rename_i hbuf
      rw [if_neg hbuf] at hs
      rw [scan_smooth c hs, run_push_buffered hc]

theorem call_rough (hc : c.buf.length < tsPacketSize) {d : List UInt8}
    (h : ¬ (d = [] ∨ Smooth (c.leftOver d))) (hq : c.call d = some q) :
    q.1.buf ≠ (run push c d).1.buf := by
  have hd : d ≠ [] := fun hd => h (.inl hd)
  have hs : ¬ Smooth (c.leftOver d) := fun hs => h (.inr hs)
  rw [call, if_neg hd] at hq
  rw [leftOver] at hs
  split at hq
  · rename_i hbuf; rw [if_pos hbuf] at hs; exact tail_rough hbuf hs hq
  · rename_i hbuf
    rw [if_neg hbuf] at hs
    rw [← run_push_buffered hc]
    exact scan_rough c hs hq

end SyncCore

/-! ## Runs -/

/-- **The condition on one call**: what is left over for the in-place scan is smooth. -/
def SmoothCall (f : Feeder) (d : List UInt8) : Prop :=
  d = [] ∨ SyncCore.Smooth (f.core.leftOver d)
deriving Decidable

theorem feedChunk_smooth (f : Feeder) (d : List UInt8) (hf : f.syncBufferLen < tsPacketSize)
    (h : SmoothCall f d) :
    ∃ f' outs, feedChunk f d = .ok (f', outs) ∧ f'.syncBufferLen < tsPacketSize ∧
      (f'.core, packetsOf outs) = run SyncCore.push f.core d := by
  have hcall := feedChunk_call (Nat.le_of_lt hf) d
  obtain ⟨q, hq, hrun⟩ := Option.map_eq_some_iff.mp (SyncCore.call_smooth (c := f.core) hf h)
  rw [hq] at hcall
  obtain ⟨f', outs, hok, hcore, hpk⟩ := hcall
  have hsame : (f'.core, packetsOf outs) = run SyncCore.push f.core d := by
    rw [← hrun, hcore, packetsOf, hpk, map_map]
    rfl
  refine ⟨f', outs, hok, ?_, hsame⟩
  show f'.core.buf.length < tsPacketSize
  rw [show f'.core = _ from congrArg Prod.fst hsame]
  exact SyncCore.run_push_buf_lt d (c := f.core) hf

section Runs

variable {σ τ : Type} {s : σ} {t : τ} {cs pre : List (Feed σ)} {ds : List (Feed τ)}

/-- The call sees the bytes it was given: no packet of the call was counted behind in the part of
    the chunk that was still to come. -/
def Feed.Still (c : Feed σ) (q : Feeder × σ) : Prop := c.seen q = c.bytes
deriving Decidable

/-- The call sees the bytes it was given, and is smooth. -/
def Feed.Smooth (q : Feeder × σ) (c : Feed σ) : Prop := c.Still q ∧ SmoothCall q.1 c.bytes
deriving Decidable

theorem feedStep_smooth (q : Feeder × σ) (c : Feed σ) (hq : q.1.syncBufferLen < tsPacketSize)
    (h : Feed.Smooth q c) :
    ∃ q' outs, feedStep q c = .ok (q', outs) ∧ q'.1.syncBufferLen < tsPacketSize ∧
      (q'.1.core, packetsOf outs) = run SyncCore.push q.1.core c.bytes := by
  obtain ⟨hstill, hsmooth⟩ := h
  rw [← hstill] at hsmooth
  obtain ⟨f', outs, hchunk, hlt, hcore⟩ := feedChunk_smooth q.1 (c.seen q) hq hsmooth
  obtain ⟨r, hr⟩ := (feedStep_ok_iff (Nat.le_of_lt hq) c).mpr ⟨_, hchunk⟩
  have hsame := (feedStep_ok (Nat.le_of_lt hq) hr).symm.trans hchunk
  injection hsame with hsame
  injection hsame with hf houts
  exact ⟨r.1, r.2, hr, by rw [hf]; exact hlt, by rw [hf, houts, hcore, hstill]⟩

theorem feed_smooth (h : AlongE Feed.Smooth feedStep (Feeder.fresh, s) cs) :
    ∃ q outs, runE feedStep (Feeder.fresh, s) cs = .ok (q, outs) ∧
      q.1.syncBufferLen < tsPacketSize ∧
      (q.1.core, packetsOf outs) =
        run SyncCore.push Feeder.fresh.core (cs.flatMap Feed.bytes) :=
  runE_refines_run rfl packetsOf_append feedStep_smooth cs (Feeder.fresh, s)
    (show Feeder.fresh.syncBufferLen < tsPacketSize by decide) h

/-- A call with one byte sees it as it was given. -/
theorem still_of_one {c : Feed σ} {q : Feeder × σ} (hone : c.bytes.length = 1)
    (hq : q.1.syncBufferLen < tsPacketSize) : c.Still q := by
  have hgiven := c.given q.2
  have hlength := c.seen_length q
  unfold Feed.Still
  unfold Feed.seen Host.seen at hlength ⊢
  rw [hone] at hgiven hlength ⊢
  by_cases hpos : 0 < q.1.syncBuffer.length
  · have hfits : 1 = min (1 - 0) (tsPacketSize - q.1.syncBuffer.length) := by
      simp only [Feeder.syncBufferLen] at hq
      omega
    have hround := seenLoop_round (H := c.host) (s := c.enter q.2) Nat.one_pos hpos hfits rfl
    -- the byte is all there is
    rw [hround, length_append, window_length, Nat.add_eq_left, length_eq_zero_iff] at hlength
    rw [hround, hlength, append_nil, hgiven]
  · rw [seenLoop, if_neg fun h => hpos h.2, seenTail, if_neg fun h => absurd h.1 (by decide),
      Nat.sub_zero, hgiven]

/-- **One byte at a time** every call is smooth, on every host. -/
theorem singles_smooth (q : Feeder × σ) (cs : List (Feed σ))
    (hq : q.1.syncBufferLen < tsPacketSize) (hone : ∀ c ∈ cs, c.bytes.length = 1) :
    AlongE Feed.Smooth feedStep q cs := by
  induction cs generalizing q with
  | nil => trivial
  | cons c cs ih =>
    have hlength := hone c mem_cons_self
    have hsmooth : Feed.Smooth q c := by
      refine ⟨still_of_one hlength hq, .inr (.inl ?_)⟩
      have hle := SyncCore.leftOver_length_le (c := q.1.core) (Nat.le_of_lt hq) c.bytes
      rw [hlength] at hle
      exact Nat.lt_of_le_of_lt hle (by decide)
    refine ⟨hsmooth, fun q' outs h => ih q' ?_ fun d hd => hone d (mem_cons_of_mem c hd)⟩
    obtain ⟨q1, outs1, hok, hlt, -⟩ := feedStep_smooth q c hq hsmooth
    rw [h] at hok
    cases hok
    exact hlt

/-- A chunk that nobody changes. -/
def Feed.constant (d : List UInt8) : Feed (List FeedOut) where
  bytes := d
  host := traceHost d
  enter s := s
  given s := by rw [window_eq d s (by omega), drop_zero, take_length]
  steady := ⟨fun _ => rfl, fun _ _ _ => rfl⟩

/-- These bytes, one at a time. -/
def bytewise (bytes : List UInt8) : List (Feed (List FeedOut)) :=
  bytes.map fun b => .constant [b]

theorem bytewise_bytes (bytes : List UInt8) : (bytewise bytes).flatMap Feed.bytes = bytes := by
  rw [bytewise, flatMap_map]
  exact flatMap_singleton' bytes

theorem bytewise_smooth (bytes : List UInt8) :
    AlongE Feed.Smooth feedStep (Feeder.fresh, []) (bytewise bytes) := by
  have hfresh : Feeder.fresh.syncBufferLen < tsPacketSize := by decide
  refine singles_smooth _ _ hfresh fun c hc => ?_
  obtain ⟨b, -, rfl⟩ := mem_map.mp hc
  rfl

/-- Two cuttings have the same outcome: both return, with the same packets delivered, the same
    `sync_state` and the same unconsumed bytes. -/
def SameOutcome (s : σ) (cs : List (Feed σ)) (t : τ) (ds : List (Feed τ)) : Prop :=
  ∃ q outs r outs', runE feedStep (Feeder.fresh, s) cs = .ok (q, outs) ∧
    runE feedStep (Feeder.fresh, t) ds = .ok (r, outs') ∧ packetsOf outs = packetsOf outs' ∧
    q.1.syncState = r.1.syncState ∧ q.1.syncBuffer = r.1.syncBuffer

theorem sameOutcome_of_smooth (hbytes : ds.flatMap Feed.bytes = cs.flatMap Feed.bytes)
    (hcs : AlongE Feed.Smooth feedStep (Feeder.fresh, s) cs)
    (hds : AlongE Feed.Smooth feedStep (Feeder.fresh, t) ds) : SameOutcome s cs t ds := by
  obtain ⟨q, outs, hq, -, hcore⟩ := feed_smooth hcs
  obtain ⟨r, outs', hr, -, hcore'⟩ := feed_smooth hds
  rw [hbytes, ← hcore, Prod.mk.injEq] at hcore'
  exact ⟨q, outs, r, outs', hq, hr, hcore'.2.symm, congrArg SyncCore.st hcore'.1.symm,
    congrArg SyncCore.buf hcore'.1.symm⟩

theorem smoothCall_of_sameOutcome {c : Feed σ} {q : Feeder × σ} {outs : List FeedOut}
    (hpre : AlongE Feed.Smooth feedStep (Feeder.fresh, s) pre)
    (hrun : runE feedStep (Feeder.fresh, s) pre = .ok (q, outs)) (hstill : c.Still q)
    (hsame : SameOutcome s (pre ++ [c]) [] (bytewise ((pre ++ [c]).flatMap Feed.bytes))) :
    SmoothCall q.1 c.bytes := by
  obtain ⟨q0, outs0, hq0, hlt, hcore⟩ := feed_smooth hpre
  rw [hrun] at hq0
  cases hq0
  obtain ⟨r, o, r', o', hr, hr', -, -, hbuf⟩ := hsame
  -- the last call of the cutting, from the state the smooth calls left
  obtain ⟨q1, out1, rest1, hq1, hlast, -⟩ := runE_append_iff.mp hr
  cases hrun.symm.trans hq1
  obtain ⟨p, out2, rest2, hstep, hend, -⟩ := runE_cons_iff.mp hlast
  cases hend
  obtain ⟨k, outsk, hk, -, hpush⟩ := feed_smooth
    (bytewise_smooth ((pre ++ [c]).flatMap Feed.bytes))
  rw [hr'] at hk
  cases hk
  -- the byte-wise run ends where it would from that same state
  rw [bytewise_bytes, flatMap_append, flatMap_singleton, run_append, ← hcore] at hpush
  have hbyte : (run SyncCore.push q.1.core c.bytes).1.buf = r.1.core.buf :=
    (congrArg (fun r => r.1.buf) hpush).symm.trans hbuf.symm
  have hchunk := feedStep_ok (Nat.le_of_lt hlt) hstep
  rw [hstill] at hchunk
  have hcall := feedChunk_call (Nat.le_of_lt hlt) c.bytes
  rcases Decidable.em (SmoothCall q.1 c.bytes) with h | h
  · exact h
  · cases hc : q.1.core.call c.bytes with
    | none =>
      rw [hc, hchunk] at hcall
      obtain ⟨e, he⟩ := hcall
      cases he
    | some o =>
      rw [hc, hchunk] at hcall
      obtain ⟨f1, outs1, hok, hcore1, -⟩ := hcall
      cases hok
      refine absurd ?_ (SyncCore.call_rough (c := q.1.core) hlt h hc)
      rw [hbyte, ← hcore1]

/-- **Chunking**: a cutting of the stream whose calls see the bytes they are given agrees, after
    every call, with all the smooth cuttings of the bytes fed so far, on whatever host, exactly when
    every one of its own calls is smooth.  In particular any two cuttings whose calls are all smooth
    agree. -/
theorem feed_chunking_iff (s : σ) (cs : List (Feed σ))
    (hstill : AlongE (fun q c => c.Still q) feedStep (Feeder.fresh, s) cs) :
    (∀ pre, pre <+: cs → ∀ (τ : Type) (t : τ) (ds : List (Feed τ)),
      ds.flatMap Feed.bytes = pre.flatMap Feed.bytes →
      AlongE Feed.Smooth feedStep (Feeder.fresh, t) ds → SameOutcome s pre t ds) ↔
      AlongE Feed.Smooth feedStep (Feeder.fresh, s) cs := by
  constructor
  · intro h
    -- call by call, comparing with single bytes
    have hpre : ∀ n, AlongE Feed.Smooth feedStep (Feeder.fresh, s) (cs.take n) := by
      intro n
      induction n with
      | zero => trivial
      | succ n ih =>
        rcases Nat.lt_or_ge n cs.length with hn | hn
        · have hsucc := take_succ_eq_append_getElem hn
          have hprefix : cs.take n ++ [cs.get ⟨n, hn⟩] <+: cs := by
            rw [get_eq_getElem, ← hsucc]
            exact take_prefix _ _
          obtain ⟨post, hpost⟩ := hprefix
          rw [hsucc]
          refine alongE_append_iff.mpr ⟨ih, fun q outs hrun => ⟨?_, fun _ _ _ => trivial⟩⟩
          have hlast : (cs.get ⟨n, hn⟩).Still q := by
            rw [← hpost] at hstill
            exact ((alongE_append_iff.mp (alongE_append_iff.mp hstill).1).2 q outs hrun).1
          exact ⟨hlast, smoothCall_of_sameOutcome ih hrun hlast
            (h _ ⟨post, hpost⟩ _ [] _ (bytewise_bytes _) (bytewise_smooth _))⟩
        · rw [take_of_length_le (by omega)]
          rwa [take_of_length_le hn] at ih
    have hall := hpre cs.length
    rwa [take_length] at hall
  · rintro hcs pre ⟨post, rfl⟩ τ t ds hbytes hds
    exact sameOutcome_of_smooth hbytes (alongE_append_iff.mp hcs).1 hds

end Runs

end TsAnalyzer.Sync
