/-
  Does `tsa_feed_data` stay inside its 188-byte carry-over buffer?

  NOT ALWAYS.  Outside LOCKED, the in-place loop parks a packet in `sync_buffer` and breaks, and the
  tail copy then appends the rest of the chunk at offset 188.  Which calls do is read off the bytes
  as the call sees them, on every host.
-/
import TsAnalyzer.Sync.Seen

namespace TsAnalyzer.Sync

open Lib

/-! ## The bytes a call is left with -/

/-- The junk the buffered path drops: leading non-sync bytes, while a whole packet's worth of
    bytes is there. -/
def skipJunk : List UInt8 → List UInt8
  | [] => []
  | b :: bs =>
    if b = tsSyncByte ∨ (b :: bs).length < tsPacketSize then b :: bs else skipJunk bs

theorem skipJunk_short {s : List UInt8} (h : s.length < tsPacketSize) : skipJunk s = s := by
  cases s with
  | nil => rfl
  | cons b bs => rw [skipJunk, if_pos (Or.inr h)]

variable {b : UInt8} {bs : List UInt8}

theorem skipJunk_junk (hb : b ≠ tsSyncByte)
    (hlen : ¬ (b :: bs).length < tsPacketSize) : skipJunk (b :: bs) = skipJunk bs := by
  rw [skipJunk, if_neg]
  rintro (h | h)
  · exact hb h
  · exact hlen h

theorem skipJunk_length_le (s : List UInt8) : (skipJunk s).length ≤ s.length := by
  induction s with
  | nil => exact Nat.le_refl _
  | cons b bs ih =>
    rw [skipJunk]
    split
    · exact Nat.le_refl _
    · exact Nat.le_succ_of_le ih

namespace SyncCore

/-- Is the handle LOCKED behind the first buffered packet of `s`?  Either it was, and `s` starts
    with that packet, or the packet is the one that completes the confirmation. -/
def LockedBehind (c : SyncCore) (s : List UInt8) : Prop :=
  (c.st = .locked ∧ s.head? = some tsSyncByte) ∨ 5 ≤ (c.count + 1) % 2 ^ 32
deriving Decidable

/-- What the in-place scan is left with, the buffered path having seen `s`. -/
def scanBehind (c : SyncCore) (s : List UInt8) : List UInt8 :=
  if (skipJunk s).length < tsPacketSize then []
  else if c.LockedBehind s then lockedRest ((skipJunk s).drop tsPacketSize)
  else (skipJunk s).drop tsPacketSize

/-- The bytes of the call on `d` that are neither needed to complete the carried-over packet nor
    taken in place by a LOCKED handle. -/
def leftOver (c : SyncCore) (d : List UInt8) : List UInt8 :=
  if c.buf = [] then c.scanRest d else c.scanBehind (c.buf ++ d)

variable (c : SyncCore)

theorem tail_eq_none_iff (r : List UInt8) :
    c.tail r = none ↔ tsPacketSize < (hunt (c.scanRest r)).length := by
  have hle := hunt_length_le (c.scanRest r)
  rw [tail]
  split
  · exact ⟨(fun h => by cases h), fun h => by omega⟩
  · split
    · exact ⟨(fun h => by cases h), fun h => by omega⟩
    · exact ⟨fun _ => by omega, fun _ => rfl⟩

theorem scan_packet (hb : b = tsSyncByte) (hlen : ¬ (b :: bs).length < tsPacketSize) :
    let q := c.accept (Cut.mk (b :: bs).length ((b :: bs).take tsPacketSize))
    c.scan (b :: bs) =
      (q.1.tail ((b :: bs).drop tsPacketSize)).map fun r => (r.1, q.2 ++ r.2) := by
  rw [scan, if_neg hlen, if_pos hb]

/-- The handle is LOCKED after that packet exactly when `LockedBehind` says so. -/
theorem scanRest_accept {α : Type} (hb : b = tsSyncByte)
    (hlen : ¬ (b :: bs).length < tsPacketSize) (p : α) :
    (c.accept p).1.scanRest ((b :: bs).drop tsPacketSize) = c.scanBehind (b :: bs) := by
  have hskip : skipJunk (b :: bs) = b :: bs := by rw [skipJunk, if_pos (.inl hb)]
  have hhead : (b :: bs).head? = some tsSyncByte := by rw [hb]; rfl
  have hiff : (c.accept p).1.st = .locked ↔ c.LockedBehind (b :: bs) := by
    by_cases hlock : c.st = .locked
    · simp [accept, LockedBehind, hlock, hhead]
    · rw [accept, if_neg hlock]
      by_cases hcount : 5 ≤ (c.count + 1) % 2 ^ 32
      · exact ⟨fun _ => .inr hcount, fun _ => if_pos hcount⟩
      · have hst : c.confirm.st = c.st := if_neg hcount
        rw [hst]
        exact ⟨fun h => absurd h hlock, fun h => h.elim (fun h => h.1) (fun h => absurd h hcount)⟩
  rw [scanBehind, hskip, if_neg hlen, scanRest]
  by_cases hbehind : c.LockedBehind (b :: bs)
  · rw [if_pos hbehind, if_pos (hiff.mpr hbehind)]
  · rw [if_neg hbehind, if_neg (fun h => hbehind (hiff.mp h))]

theorem scanBehind_junk (hb : b ≠ tsSyncByte) (hlen : ¬ (b :: bs).length < tsPacketSize) :
    ({ c with st := .hunting } : SyncCore).scanBehind bs = c.scanBehind (b :: bs) := by
  simp [scanBehind, skipJunk_junk hb hlen, LockedBehind, hb]

theorem scan_eq_none_iff (s : List UInt8) :
    c.scan s = none ↔ tsPacketSize < (hunt (c.scanBehind s)).length := by
  -- along the recursion of `scan`: one junk byte a step, until a packet or too few bytes
  induction s generalizing c with
  | nil =>
    have hnil : c.scanBehind [] = [] := rfl
    rw [hnil]
    exact ⟨(fun h => by cases h), fun h => absurd h (by decide)⟩
  | cons b bs ih =>
    by_cases hlen : (b :: bs).length < tsPacketSize
    · rw [scan, if_pos hlen, scanBehind, skipJunk_short hlen, if_pos hlen]
      exact ⟨(fun h => by cases h), fun h => absurd h (by decide)⟩
    · by_cases hb : b = tsSyncByte
      · rw [scan_packet c hb hlen, Option.map_eq_none_iff, tail_eq_none_iff,
          scanRest_accept c hb hlen]
      · rw [scan, if_neg hlen, if_neg hb, ih, scanBehind_junk c hb hlen]

/-- **Where a call is undefined**: more than 188 bytes are left over from a sync byte on. -/
theorem call_eq_none_iff {d : List UInt8} (hd : d ≠ []) :
    c.call d = none ↔ tsPacketSize < (hunt (c.leftOver d)).length := by
  rw [call, if_neg hd, leftOver]
  split
  · exact tail_eq_none_iff c d
  · exact scan_eq_none_iff c _

end SyncCore

/-! ## Which calls, and which runs, stay in bounds -/

/-- **The condition on one call**: at most 188 bytes are left over from the next sync byte on. -/
def SafeCall (f : Feeder) (d : List UInt8) : Prop :=
  d = [] ∨ (hunt (f.core.leftOver d)).length ≤ tsPacketSize
deriving Decidable

theorem feedChunk_ok_iff {f : Feeder} (hf : f.syncBufferLen ≤ tsPacketSize) (d : List UInt8) :
    (∃ r, feedChunk f d = .ok r) ↔ SafeCall f d := by
  have hcall := feedChunk_call hf d
  by_cases hd : d = []
  · subst hd
    exact ⟨fun _ => .inl rfl, fun _ => ⟨_, rfl⟩⟩
  · have hnone := SyncCore.call_eq_none_iff f.core hd
    cases hc : f.core.call d with
    | none =>
      rw [hc] at hcall
      obtain ⟨e, he⟩ := hcall
      have hlt := hnone.mp hc
      constructor
      · rintro ⟨r, hr⟩; rw [he] at hr; cases hr
      · rintro (h | h)
        · exact absurd h hd
        · omega
    | some q =>
      rw [hc] at hcall
      obtain ⟨f', outs, hok, -, -⟩ := hcall
      have hle : ¬ tsPacketSize < _ := fun h => by rw [hnone.mpr h] at hc; cases hc
      exact ⟨fun _ => .inr (Nat.le_of_not_lt hle), fun _ => ⟨_, hok⟩⟩

theorem SyncCore.tail_buf_le {c : SyncCore} {r : List UInt8} {q : SyncCore × List Cut}
    (h : c.tail r = some q) : q.1.buf.length ≤ tsPacketSize := by
  rw [tail] at h
  split at h
  · rename_i hlt
    injection h with h
    subst h
    exact Nat.le_of_lt hlt
  · split at h
    · rename_i hle
      injection h with h
      subst h
      exact hle
    · cases h

theorem SyncCore.scan_buf_le {c : SyncCore} {s : List UInt8} {q : SyncCore × List Cut}
    (h : c.scan s = some q) : q.1.buf.length ≤ tsPacketSize := by
  induction s generalizing c with
  | nil =>
    injection h with h
    subst h
    exact Nat.zero_le _
  | cons b bs ih =>
    by_cases hlen : (b :: bs).length < tsPacketSize
    · rw [scan, if_pos hlen] at h
      injection h with h
      subst h
      exact Nat.le_of_lt hlen
    · by_cases hb : b = tsSyncByte
      · rw [scan_packet c hb hlen, Option.map_eq_some_iff] at h
        obtain ⟨r, hr, rfl⟩ := h
        have hle := tail_buf_le hr
        exact hle
      · rw [scan, if_neg hlen, if_neg hb] at h
        exact ih h

/-- A call that goes through leaves `sync_buffer_len` at most 188. -/
theorem feedChunk_inv (f : Feeder) (d : List UInt8) (f' : Feeder) (outs : List FeedOut)
    (hf : f.syncBufferLen ≤ tsPacketSize) (h : feedChunk f d = .ok (f', outs)) :
    f'.syncBufferLen ≤ tsPacketSize := by
  have hcall := feedChunk_call hf d
  cases hc : f.core.call d with
  | none =>
    rw [hc, h] at hcall
    obtain ⟨e, he⟩ := hcall
    cases he
  | some q =>
    rw [hc, h] at hcall
    obtain ⟨f'', outs', hok, hcore, -⟩ := hcall
    injection hok with hok
    injection hok with hf' _
    subst hf'
    have hbuf : f'.syncBufferLen = q.1.buf.length := by rw [← hcore]; rfl
    rw [hbuf]
    rw [SyncCore.call] at hc
    split at hc
    · injection hc with hc
      subst hc
      exact hf
    · split at hc
      · exact SyncCore.tail_buf_le hc
      · exact SyncCore.scan_buf_le hc

section Runs

variable {σ : Type}

theorem feedStep_inv (q : Feeder × σ) (c : Feed σ) (q' : Feeder × σ) (outs : List FeedOut)
    (hq : q.1.syncBufferLen ≤ tsPacketSize) (h : feedStep q c = .ok (q', outs)) :
    q'.1.syncBufferLen ≤ tsPacketSize :=
  feedChunk_inv q.1 (c.seen q) q'.1 outs hq (feedStep_ok hq h)

/-- **Every run from a fresh handle**, on every host: all calls of the sequence return, each leaving
    `sync_buffer_len ≤ 188`, exactly when every call is safe in the state it is made in, for the
    bytes that it sees. -/
theorem feed_in_bounds_iff (s : σ) (cs : List (Feed σ)) :
    (∀ pre, pre <+: cs → ∃ q outs, runE feedStep (Feeder.fresh, s) pre = .ok (q, outs) ∧
      q.1.syncBufferLen ≤ tsPacketSize) ↔
      AlongE (fun q c => SafeCall q.1 (c.seen q)) feedStep (Feeder.fresh, s) cs := by
  have hfresh : Feeder.fresh.syncBufferLen ≤ tsPacketSize := by decide
  have hiff := runE_ok_iff_along (P := fun q c => SafeCall q.1 (c.seen q)) feedStep_inv
    (fun q c hq => (feedStep_ok_iff hq c).trans (feedChunk_ok_iff hq _)) cs (Feeder.fresh, s) hfresh
  rw [← hiff]
  constructor
  · intro h
    obtain ⟨q, outs, hrun, -⟩ := h cs (List.prefix_refl cs)
    exact ⟨_, hrun⟩
  · rintro ⟨r, hrun⟩ pre ⟨post, rfl⟩
    obtain ⟨q, outs, -, hpre, -, -⟩ := runE_append_iff.mp hrun
    exact ⟨q, outs, hpre, runE_inv feedStep_inv _ _ _ hfresh hpre⟩

end Runs

/-! ## A call is left with no more than its chunk -/

theorem lockedRest_length_le (r : List UInt8) : (lockedRest r).length ≤ r.length := by
  obtain ⟨k, -, h⟩ := lockedRest_suffix r
  rw [h, List.length_drop]
  exact Nat.sub_le _ _

theorem SyncCore.leftOver_length_le {c : SyncCore} (hc : c.buf.length ≤ tsPacketSize)
    (d : List UInt8) : (c.leftOver d).length ≤ d.length := by
  rw [leftOver]
  split
  · rw [scanRest]
    split
    · exact lockedRest_length_le d
    · exact Nat.le_refl _
  · have hskip := skipJunk_length_le (c.buf ++ d)
    have hdrop : ((skipJunk (c.buf ++ d)).drop tsPacketSize).length ≤ d.length := by
      rw [List.length_append] at hskip
      rw [List.length_drop]
      omega
    rw [scanBehind]
    split
    · exact Nat.zero_le _
    · split
      · exact Nat.le_trans (lockedRest_length_le _) hdrop
      · exact hdrop

end TsAnalyzer.Sync
