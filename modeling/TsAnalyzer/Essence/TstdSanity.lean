/-
  T-STD sanity of one track: fills stay non-negative, and EB stays within its size.

  The leak of a gap `dt` is `((int128)rate * dt) << 64 / 10^9`: the shift throws away all but 64
  bits and makes bit 63 the SIGN; at 101 Mbit/s a gap of 92 s leaks a negative amount.  Where bit 63
  is clear, and TB and MB together are not within one packet of the 128-bit range, every stage keeps
  the fills sane (`flow_sane`, `drain_sane`, `onTs_sane`).  `drainLoop_done` justifies the 32 rounds
  of the drain.
-/
import TsAnalyzer.Essence.Track

namespace TsAnalyzer.Essence

open Lib Packet

/-! ## The leak -/

/-- The fills are non-negative, and EB holds at most `size` bits. -/
structure Tstd.Sane (size : Nat) (t : Tstd) : Prop where
  tb : 0 ≤ t.tbFill
  mb : 0 ≤ t.mbFill
  eb : 0 ≤ t.ebFill
  ebLe : t.ebFill ≤ size * 2 ^ 64

theorem ebSize_le (streamType : UInt8) : ebSize streamType ≤ 2 ^ 22 := by
  unfold ebSize
  split <;> decide

variable {size dt : Nat} {t : Tstd} {b : Bitrates}

/-- The leak of a gap is not negative as long as bit 63 of `rate * dt` is clear. -/
theorem leakQ64_nonneg {rate : Nat} (h : rate * dt % 2 ^ 64 < 2 ^ 63) : 0 ≤ leakQ64 rate dt := by
  have hq : 0 ≤ toQ64 (wrap128 ((rate * dt : Nat) : Int)) := toQ64_wrap128_nonneg h
  rw [Int.natCast_mul] at hq
  exact Int.tdiv_nonneg hq (by decide)

theorem tbLeaked_range (htb : 0 ≤ t.tbFill) (hrx : rateRx b t * dt % 2 ^ 64 < 2 ^ 63) :
    0 ≤ tbLeaked b t dt ∧ tbLeaked b t dt ≤ t.tbFill := by
  have hleak := leakQ64_nonneg hrx
  rw [tbLeaked]
  omega

theorem leakToEb_moves (hsize : size ≤ 2 ^ 22) (hmb : -(2 ^ 127) ≤ t.mbFill)
    (hmb1 : t.mbFill < 2 ^ 127) (heb : 0 ≤ t.ebFill) (hrbx : rateRbx b t * dt % 2 ^ 64 < 2 ^ 63) :
    ∃ x, leakToEb size b dt t = { t with mbFill := t.mbFill - x, ebFill := t.ebFill + x } ∧
      (0 ≤ t.mbFill → 0 ≤ x ∧ x ≤ t.mbFill) ∧ (x = 0 ∨ t.ebFill + x ≤ size * 2 ^ 64) := by
  have hq : toQ64 (size : Int) = size * 2 ^ 64 := toQ64_of_range (by omega) (by omega)
  have hleak := leakQ64_nonneg hrbx
  unfold leakToEb
  split
  · exact ⟨0, by rw [Int.sub_zero, Int.add_zero], by omega, .inl rfl⟩
  · rename_i hfull
    rw [hq] at hfull ⊢
    have hfree : wrap128 ((size : Int) * 2 ^ 64 - t.ebFill) = size * 2 ^ 64 - t.ebFill :=
      wrap128_of_range (by omega) (by omega)
    rw [hfree]
    obtain ⟨x, hx⟩ : ∃ x, x = min (min (leakQ64 (rateRbx b t) dt) t.mbFill)
      ((size : Int) * 2 ^ 64 - t.ebFill) := ⟨_, rfl⟩
    simp only [← hx]
    have hm : wrap128 (t.mbFill - x) = t.mbFill - x := wrap128_of_range (by omega) (by omega)
    have he : wrap128 (t.ebFill + x) = t.ebFill + x := wrap128_of_range (by omega) (by omega)
    rw [hm, he]
    exact ⟨x, rfl, by omega, by omega⟩

theorem leakToEb_sane (dt : Nat) (hsize : size ≤ 2 ^ 22) (hs : t.Sane size)
    (hmb : t.mbFill < 2 ^ 127) (hrbx : rateRbx b t * dt % 2 ^ 64 < 2 ^ 63) :
    (leakToEb size b dt t).Sane size ∧ (leakToEb size b dt t).mbFill ≤ t.mbFill ∧
      (leakToEb size b dt t).tbFill = t.tbFill := by
  obtain ⟨htb, hmb0, heb, heb1⟩ := hs
  obtain ⟨x, heq, hx, hroom⟩ := leakToEb_moves hsize (by omega) hmb heb hrbx
  obtain ⟨hx0, hx1⟩ := hx hmb0
  rw [heq]
  refine ⟨⟨htb, ?_, ?_, ?_⟩, ?_, rfl⟩
  · show 0 ≤ t.mbFill - x; omega
  · show 0 ≤ t.ebFill + x; omega
  · show t.ebFill + x ≤ _; omega
  · show t.mbFill - x ≤ t.mbFill; omega

/-- Bit 63 of `rate * dt` is clear, for the rates that leak. -/
def GapOk (streamType : UInt8) (b : Bitrates) (dt : Nat) (t : Tstd) : Prop :=
  rateRx b t * dt % 2 ^ 64 < 2 ^ 63 ∧
    (tsaIsVideo streamType → rateRbx b t * dt % 2 ^ 64 < 2 ^ 63)

/-- **The flow of a gap** keeps the fills sane, and brings nothing new into TB and MB. -/
theorem flow_sane {streamType : UInt8} (hs : t.Sane (ebSize streamType))
    (hroom : t.tbFill + t.mbFill < 2 ^ 127) (hgap : GapOk streamType b dt t) :
    (flow streamType b dt t).Sane (ebSize streamType) ∧
      (flow streamType b dt t).tbFill + (flow streamType b dt t).mbFill ≤ t.tbFill + t.mbFill := by
  obtain ⟨htb, hmb, heb, heb1⟩ := hs
  obtain ⟨hrx, hrbx⟩ := hgap
  have hsize := ebSize_le streamType
  obtain ⟨hx0, hx1⟩ := tbLeaked_range htb hrx
  obtain ⟨x, hx⟩ : ∃ x, x = tbLeaked b t dt := ⟨_, rfl⟩
  rw [← hx] at hx0 hx1
  have ht : wrap128 (t.tbFill - x) = t.tbFill - x := wrap128_of_range (by omega) (by omega)
  unfold flow
  simp only [← hx]
  rw [ht]
  by_cases hvideo : tsaIsVideo streamType
  · rw [if_pos hvideo]
    have hm : wrap128 (t.mbFill + x) = t.mbFill + x := wrap128_of_range (by omega) (by omega)
    rw [hm]
    obtain ⟨hs', hle, htb'⟩ := leakToEb_sane dt (b := b)
      (t := { t with tbFill := t.tbFill - x, mbFill := t.mbFill + x }) hsize
      ⟨by show 0 ≤ t.tbFill - x; omega, by show 0 ≤ t.mbFill + x; omega, heb, heb1⟩
      (by show t.mbFill + x < 2 ^ 127; omega) (hrbx hvideo)
    refine ⟨hs', ?_⟩
    rw [htb']
    have hle' : (leakToEb (ebSize streamType) b dt
      { t with tbFill := t.tbFill - x, mbFill := t.mbFill + x }).mbFill ≤ t.mbFill + x := hle
    show t.tbFill - x + _ ≤ _
    omega
  · rw [if_neg hvideo]
    have hq : toQ64 (ebSize streamType : Int) = ebSize streamType * 2 ^ 64 :=
      toQ64_of_range (by omega) (by omega)
    have hfree : wrap128 ((ebSize streamType : Int) * 2 ^ 64 - t.ebFill) =
        ebSize streamType * 2 ^ 64 - t.ebFill := wrap128_of_range (by omega) (by omega)
    rw [hq, hfree]
    obtain ⟨y, hy⟩ : ∃ y, y = min x ((ebSize streamType : Int) * 2 ^ 64 - t.ebFill) := ⟨_, rfl⟩
    have he : wrap128 (t.ebFill + y) = t.ebFill + y := wrap128_of_range (by omega) (by omega)
    rw [← hy, he]
    refine ⟨⟨?_, hmb, ?_, ?_⟩, ?_⟩
    · show 0 ≤ t.tbFill - x; omega
    · show 0 ≤ t.ebFill + y; omega
    · show t.ebFill + y ≤ _; omega
    · show t.tbFill - x + t.mbFill ≤ _; omega

/-- The gap `tsa_tstd_update_leak` looks at, if there is one. -/
def LeakOk (streamType : UInt8) (b : Bitrates) (nowVstc : Nat) (t : Tstd) : Prop :=
  t.lastLeakVstc ≠ 0 → t.lastLeakVstc < nowVstc →
    GapOk streamType b (nowVstc - t.lastLeakVstc) t

theorem tsaTstdUpdateLeak_sane {streamType : UInt8} {q : AuQueue} {nowVstc : Nat}
    (hs : t.Sane (ebSize streamType)) (hroom : t.tbFill + t.mbFill < 2 ^ 127)
    (hleak : LeakOk streamType b nowVstc t) :
    (tsaTstdUpdateLeak streamType b q nowVstc t).1.Sane (ebSize streamType) ∧
      (tsaTstdUpdateLeak streamType b q nowVstc t).1.tbFill +
        (tsaTstdUpdateLeak streamType b q nowVstc t).1.mbFill ≤ t.tbFill + t.mbFill := by
  unfold tsaTstdUpdateLeak
  split
  · exact ⟨⟨hs.tb, hs.mb, hs.eb, hs.ebLe⟩, Int.le_refl _⟩
  · rename_i hfirst
    split
    · exact ⟨hs, Int.le_refl _⟩
    · rename_i hlater
      obtain ⟨hs', hle⟩ := flow_sane hs hroom (hleak hfirst (by omega))
      exact ⟨⟨hs'.tb, hs'.mb, hs'.eb, hs'.ebLe⟩, hle⟩

/-! ## The drain -/

/-- Every access unit has a 32-bit size. -/
def AuQueue.Sized (q : AuQueue) : Prop := ∀ i, (q.queue i).size < 2 ^ 32

theorem AuQueue.push_sized {q : AuQueue} (hq : q.Sized) {au : AccessUnit}
    (hau : au.size < 2 ^ 32) : (q.push au).Sized := by
  unfold AuQueue.push
  split
  · exact hq
  · intro i
    show (Function.update q.queue q.tail au i).size < 2 ^ 32
    by_cases hi : i = q.tail
    · rw [hi, Function.update_self]; exact hau
    · rw [Function.update_of_ne hi]; exact hq i

theorem drainLoop_sane {stcNs : Nat} (hsize : size ≤ 2 ^ 22) (fuel : Nat) (q : AuQueue) (t : Tstd)
    (hq : q.Sized) (hs : t.Sane size) :
    (drainLoop stcNs fuel (q, t)).1.Sized ∧ (drainLoop stcNs fuel (q, t)).2.Sane size := by
  induction fuel generalizing q t with
  | zero => exact ⟨hq, hs⟩
  | succ fuel ih =>
    rw [drainLoop]
    split
    · exact ⟨hq, hs⟩
    · split
      · refine ih _ _ hq ?_
        obtain ⟨htb, hmb, heb, heb1⟩ := hs
        have hau := hq q.head
        have hsz : toQ64 ((q.queue q.head).size : Int) = (q.queue q.head).size * 2 ^ 64 :=
          toQ64_of_range (by omega) (by omega)
        have hfill : wrap128 (t.ebFill - toQ64 (q.queue q.head).size) =
            t.ebFill - (q.queue q.head).size * 2 ^ 64 := by
          rw [hsz]
          exact wrap128_of_range (by omega) (by omega)
        refine ⟨htb, hmb, ?_, ?_⟩
        · exact Int.le_max_right _ _
        · show max _ 0 ≤ _
          rw [hfill]
          omega
      · exact ⟨hq, hs⟩

/-- The loop of the source has ended: the queue is empty, or its next unit is not due. -/
def Drained (stcNs : Nat) (q : AuQueue) : Prop :=
  q.head = q.tail ∨ stcNs < (q.queue q.head).dtsNs

/-- One round takes one unit off a ring that holds `tail - head` of them, so as many rounds as
    there are units end the loop. -/
theorem drainLoop_done (stcNs : Nat) (fuel : Nat) (q : AuQueue) (t : Tstd)
    (h : (q.tail - q.head).val ≤ fuel) : Drained stcNs (drainLoop stcNs fuel (q, t)).1 := by
  induction fuel generalizing q t with
  | zero =>
    left
    show q.head = q.tail
    omega
  | succ fuel ih =>
    rw [drainLoop]
    split
    · rename_i hempty
      exact .inl hempty
    · split
      · rename_i hne hdue
        refine ih _ _ ?_
        show (q.tail - (q.head + 1)).val ≤ fuel
        omega
      · rename_i hdue
        exact .inr (Nat.lt_of_not_le hdue)

/-- The 32 rounds of `tsaTstdDrain` are enough. -/
theorem tsaTstdDrain_done {stcNs : Nat} (hstc : stcNs ≠ 0) (q : AuQueue) (t : Tstd) :
    Drained stcNs (tsaTstdDrain stcNs q t).1 := by
  rw [tsaTstdDrain, if_neg hstc]
  exact drainLoop_done stcNs 32 q t (by omega)

/-! ## The track -/

namespace EsTrack

/-- The track's fills are sane, and its access units have 32-bit sizes. -/
def Sane (es : EsTrack) : Prop := es.tstd.Sane (ebSize es.streamType) ∧ es.auQ.Sized

/-- What a packet must find for the fills to stay sane: no gap whose leak overflows, and TB and MB
    not within one packet of the end of the 128-bit range. -/
def FillOk (b : Bitrates) (stcNs : Nat) (es : EsTrack) : Prop :=
  LeakOk es.streamType b stcNs es.tstd ∧
    es.tstd.tbFill + es.tstd.mbFill + 188 * 8 * 2 ^ 64 < 2 ^ 127

theorem fresh_sane (streamType : UInt8) : Sane { fresh with streamType := streamType } :=
  ⟨⟨Int.le_refl _, Int.le_refl _, Int.le_refl _, by show (0 : Int) ≤ _; omega⟩,
    fun _ => by show 0 < 2 ^ 32; decide⟩

variable {es : EsTrack}

theorem reset_sane (hs : es.Sane) : es.reset.Sane :=
  ⟨⟨Int.le_refl _, Int.le_refl _, Int.le_refl _, by show (0 : Int) ≤ _; omega⟩, hs.2⟩

theorem fill_sane {b : Bitrates} {stcNs : Nat} (hs : es.Sane) (hok : es.FillOk b stcNs) :
    (es.fill b stcNs).Sane := by
  obtain ⟨hleak, hroom⟩ := hok
  obtain ⟨hs', hle⟩ := tsaTstdUpdateLeak_sane (q := es.auQ) hs.1 (by omega) hleak
  have htb : es.tbFilled b stcNs = (es.leak b stcNs).1.tbFill + 188 * 8 * 2 ^ 64 := by
    have hmb := hs'.mb
    have htb := hs'.tb
    have hq : toQ64 (188 * 8) = 188 * 8 * 2 ^ 64 := by decide
    rw [tbFilled, hq]
    refine wrap128_of_range ?_ ?_
    · show _ ≤ (tsaTstdUpdateLeak _ _ _ _ _).1.tbFill + _; omega
    · show (tsaTstdUpdateLeak _ _ _ _ _).1.tbFill + _ < _; omega
  have hpos : 0 ≤ es.tbFilled b stcNs := by
    rw [htb]
    have := hs'.tb
    show 0 ≤ (tsaTstdUpdateLeak _ _ _ _ _).1.tbFill + _
    omega
  refine ⟨?_, hs.2⟩
  unfold fill
  simp only
  split
  · exact ⟨hpos, hs'.mb, hs'.eb, hs'.ebLe⟩
  · exact ⟨hpos, hs'.mb, hs'.eb, hs'.ebLe⟩

theorem finish_sane (hs : es.Sane) (rates : Option (Nat × Nat)) : (es.finish rates).Sane := by
  unfold finish
  split
  · exact hs
  · refine ⟨?_, ?_⟩
    · cases rates with
      | none => exact hs.1
      | some r => exact ⟨hs.1.tb, hs.1.mb, hs.1.eb, hs.1.ebLe⟩
    · show (if 0 < es.pes.pendingDtsNs then _ else es.auQ).Sized
      split
      · exact AuQueue.push_sized hs.2 (Nat.mod_lt _ (by decide))
      · exact hs.2

theorem stamp_sane (hs : es.Sane) (res : DecodeResult) : (es.stamp res).Sane := by
  unfold stamp
  split
  · exact hs
  · exact hs

theorem push_sane (hs : es.Sane) (rates : Option (Nat × Nat)) (pkt : PacketPtr)
    (res : DecodeResult) : (es.push rates pkt res).Sane := by
  unfold push
  split
  · exact hs
  · split
    · exact stamp_sane (finish_sane hs rates) res
    · exact hs

theorem drain_sane (hs : es.Sane) (stcNs : Nat) : (es.drain stcNs).Sane := by
  have hdrain : (tsaTstdDrain stcNs es.auQ es.tstd).1.Sized ∧
      (tsaTstdDrain stcNs es.auQ es.tstd).2.Sane (ebSize es.streamType) := by
    unfold tsaTstdDrain
    split
    · exact ⟨hs.2, hs.1⟩
    · exact drainLoop_sane (ebSize_le _) 32 es.auQ es.tstd hs.2 hs.1
  exact ⟨hdrain.2, hdrain.1⟩

/-- **One packet** keeps a track sane, whatever it is, unless it meets an overflowing gap. -/
theorem onTs_sane {env : TrackEnv} {res : DecodeResult} (hs : es.Sane)
    (hok : ¬ (res.hasDiscontinuity ∨ env.latched) → es.FillOk env.bitrates env.stcNs)
    (pkt : PacketPtr) : (es.onTs env pkt res).Sane := by
  by_cases hreset : res.hasDiscontinuity ∨ env.latched
  · rw [onTs_of_reset hreset]
    exact reset_sane hs
  have hfill := fill_sane hs (hok hreset)
  rcases Nat.eq_zero_or_pos res.payloadLen with hpay | hpay
  · rw [onTs_of_no_payload hreset hpay]
    exact drain_sane hfill _
  · rw [onTs_of_payload hreset hpay]
    exact drain_sane (push_sane hfill _ _ _) _

end EsTrack

end TsAnalyzer.Essence
