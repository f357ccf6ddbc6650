/-
  The predictive underflow alarm of `tsa_tstd_update_leak` (`src/tsa_engine_essence.c`) against the
  buffer-model document (`docs/02_metrology/tstd_buffer_model.md`, 3.1).

  The document compares the time to ingest what EB lacks of the next access unit with the time to its
  DTS.  The source calls both the fill and the unit bytes, but they are BITS, and divides them by
  `R_bx / 8`, which is in bytes a second: its time to ingest is eight times too long, or more where
  the division truncates.  Until a clock has moved it compares nothing.
-/
import TsAnalyzer.Essence.Conservation

namespace TsAnalyzer.Essence

open Lib

/-! ## What is raised -/

/-- The rate the prediction takes for `R_bx`, in bits a second. -/
def predictionRate (streamType : UInt8) (t : Tstd) : Nat :=
  if tsaIsVideo streamType then t.leakRateEb else t.leakRateRx

def rbxBytesSec (streamType : UInt8) (t : Tstd) : Nat :=
  if predictionRate streamType t / 8 = 0 then 1 else predictionRate streamType t / 8

def overflowEvent (streamType : UInt8) (q : AuQueue) (stcNs : Nat) (t : Tstd) : List Nat :=
  let fill := wholeBits t.ebFill
  let overflowMs := if fill < ebSize streamType then
    (ebSize streamType - fill) * 1000 / rbxBytesSec streamType t else 0
  if fill < ebSize streamType ∧ q.head ≠ q.tail ∧
      overflowMs < msToDts stcNs (q.queue q.head).dtsNs ∧ overflowMs < 500 then [overflowMs] else []

def underflowEvent (streamType : UInt8) (q : AuQueue) (stcNs : Nat) (t : Tstd) : List Nat :=
  let fill := wholeBits t.ebFill
  let next := q.queue q.head
  let dtsMs := msToDts stcNs next.dtsNs
  if (q.head ≠ q.tail ∧ fill < next.size ∧
      dtsMs < (next.size - fill) * 1000 % 2 ^ 64 / rbxBytesSec streamType t) ∧ dtsMs < 500 then
    [dtsMs] else []

/-- The events of a call: none without a gap, and otherwise those of the new fill. -/
def raised (event : AuQueue → Nat → Tstd → List Nat) (streamType : UInt8) (b : Bitrates)
    (q : AuQueue) (nowVstc : Nat) (t : Tstd) : List Nat :=
  if NoGap nowVstc t then []
  else event q nowVstc (flow streamType b (nowVstc - t.lastLeakVstc) t)

variable {streamType : UInt8} {t : Tstd}

theorem tsaTstdUpdateLeak_of_noGap {nowVstc : Nat} (h : NoGap nowVstc t) (streamType : UInt8)
    (b : Bitrates) (q : AuQueue) :
    (tsaTstdUpdateLeak streamType b q nowVstc t).1.ebFill = t.ebFill ∧
      (tsaTstdUpdateLeak streamType b q nowVstc t).2 = [] := by
  rw [tsaTstdUpdateLeak]
  rcases h with hfirst | hback
  · rw [if_pos hfirst]
    exact ⟨rfl, rfl⟩
  · rw [if_pos hback]
    split <;> exact ⟨rfl, rfl⟩

theorem tsaTstdUpdateLeak_of_gap {nowVstc : Nat} (h : ¬ NoGap nowVstc t) (streamType : UInt8)
    (b : Bitrates) (q : AuQueue) :
    (tsaTstdUpdateLeak streamType b q nowVstc t).1.ebFill =
        (flow streamType b (nowVstc - t.lastLeakVstc) t).ebFill ∧
      (tsaTstdUpdateLeak streamType b q nowVstc t).2 =
        overflowEvent streamType q nowVstc (flow streamType b (nowVstc - t.lastLeakVstc) t) ++
          underflowEvent streamType q nowVstc (flow streamType b (nowVstc - t.lastLeakVstc) t) := by
  rw [NoGap, not_or] at h
  rw [tsaTstdUpdateLeak, if_neg h.1, if_neg h.2]
  exact ⟨rfl, rfl⟩

theorem flow_predictionRate (streamType : UInt8) (b : Bitrates) (dt : Nat) (t : Tstd) :
    predictionRate streamType (flow streamType b dt t) = predictionRate streamType t := by
  have heb : ∀ t', (leakToEb (ebSize streamType) b dt t').leakRateEb = t'.leakRateEb := by
    intro t'
    rw [leakToEb]
    split <;> rfl
  rw [predictionRate, predictionRate, flow]
  by_cases hvideo : tsaIsVideo streamType
  · rw [if_pos hvideo, if_pos hvideo, if_pos hvideo, heb]
  · rw [if_neg hvideo, if_neg hvideo, if_neg hvideo]

/-! ## What the document defines -/

/-- Whole milliseconds to ingest at `rate` what EB lacks of the next access unit. -/
def ingestMs (rate : Nat) (q : AuQueue) (ebBits : Nat) : Nat :=
  ((q.queue q.head).size - ebBits) * 1000 / rate

/-- Predictive underflow: too late for the DTS, which is less than 500 ms away. -/
def PredictsUnderflow (rate : Nat) (q : AuQueue) (stcNs ebBits : Nat) : Prop :=
  msToDts stcNs (q.queue q.head).dtsNs < ingestMs rate q ebBits ∧
    msToDts stcNs (q.queue q.head).dtsNs < 500

/-- A call that says something else than the document: it compares nothing although an underflow is
    coming, or the DTS lies between the right time to ingest and the longer one. -/
def Misjudged (streamType : UInt8) (b : Bitrates) (q : AuQueue) (nowVstc : Nat) (t : Tstd) :
    Prop :=
  let dtsMs := msToDts nowVstc (q.queue q.head).dtsNs
  let ebBits := wholeBits (if NoGap nowVstc t then t.ebFill
    else (flow streamType b (nowVstc - t.lastLeakVstc) t).ebFill)
  let right := ingestMs (predictionRate streamType t) q ebBits
  dtsMs < 500 ∧ if NoGap nowVstc t then dtsMs < right
    else right ≤ dtsMs ∧ dtsMs < ingestMs (rbxBytesSec streamType t) q ebBits

theorem rbxBytesSec_le (hrate : 0 < predictionRate streamType t) :
    0 < rbxBytesSec streamType t ∧ rbxBytesSec streamType t ≤ predictionRate streamType t := by
  rw [rbxBytesSec]
  split <;> omega

theorem ingestMs_le (hrate : 0 < predictionRate streamType t) (q : AuQueue) (ebBits : Nat) :
    ingestMs (predictionRate streamType t) q ebBits ≤ ingestMs (rbxBytesSec streamType t) q ebBits :=
  Nat.div_le_div_left (rbxBytesSec_le hrate).2 (rbxBytesSec_le hrate).1

theorem underflowEvent_iff {q : AuQueue} {stcNs : Nat} (hq : q.head ≠ q.tail)
    (hsize : (q.queue q.head).size < 2 ^ 32) :
    underflowEvent streamType q stcNs t ≠ [] ↔
      PredictsUnderflow (rbxBytesSec streamType t) q stcNs (wholeBits t.ebFill) := by
  have hword : ((q.queue q.head).size - wholeBits t.ebFill) * 1000 % 2 ^ 64 =
      ((q.queue q.head).size - wholeBits t.ebFill) * 1000 := Nat.mod_eq_of_lt (by omega)
  rw [underflowEvent, PredictsUnderflow, ingestMs, hword]
  constructor
  · intro h
    split at h
    · rename_i hraised
      exact ⟨hraised.1.2.2, hraised.2⟩
    · exact absurd rfl h
  · rintro ⟨hlate, hnear⟩
    have hlacks : wholeBits t.ebFill < (q.queue q.head).size := by
      by_contra hfull
      rw [Nat.sub_eq_zero_of_le (by omega), Nat.zero_mul, Nat.zero_div] at hlate
      omega
    rw [if_pos ⟨⟨hq, hlacks, hlate⟩, hnear⟩]
    exact List.cons_ne_nil _ _

/-- **Predictive underflow alarms**: with a known rate and a unit in the queue, a call raises one
    exactly as the document defines it, unless it misjudges the time to ingest. -/
theorem underflow_alarm_iff (streamType : UInt8) (b : Bitrates) (q : AuQueue) (nowVstc : Nat)
    (t : Tstd) (hq : q.head ≠ q.tail) (hsize : (q.queue q.head).size < 2 ^ 32)
    (hrate : 0 < predictionRate streamType t) :
    (raised (underflowEvent streamType) streamType b q nowVstc t ≠ [] ↔
      PredictsUnderflow (predictionRate streamType t) q nowVstc
        (wholeBits (tsaTstdUpdateLeak streamType b q nowVstc t).1.ebFill)) ↔
    ¬ Misjudged streamType b q nowVstc t := by
  rw [raised, Misjudged]
  by_cases hgap : NoGap nowVstc t
  · rw [if_pos hgap, (tsaTstdUpdateLeak_of_noGap hgap streamType b q).1, PredictsUnderflow]
    simp only [hgap, if_true]
    tauto
  · rw [if_neg hgap, (tsaTstdUpdateLeak_of_gap hgap streamType b q).1]
    rw [underflowEvent_iff hq hsize]
    have hbytes : rbxBytesSec streamType (flow streamType b (nowVstc - t.lastLeakVstc) t) =
        rbxBytesSec streamType t := by rw [rbxBytesSec, rbxBytesSec, flow_predictionRate]
    have hle := ingestMs_le hrate q
      (wholeBits (flow streamType b (nowVstc - t.lastLeakVstc) t).ebFill)
    rw [hbytes, PredictsUnderflow, PredictsUnderflow]
    simp only [hgap, if_false]
    omega

/-- One access unit of 100000 bits, to be decoded at 1051 ms. -/
def oneUnit : AuQueue := AuQueue.fresh.push ⟨1051000000, 100000⟩

/-- An empty H.264 track at 8 Mbit/s, last seen at 1000 ms. -/
def emptyVideo : Tstd :=
  { ebFill := 0, tbFill := 0, mbFill := 0, lastLeakVstc := 1000000000, lastUnderflowDts := 0
    leakRateEb := 8000000, leakRateRx := 8000000, timeToUnderflowMs := -1, timeToOverflowMs := -1 }

/-- 5 ms before the DTS the alarm is right: the unit takes 12 ms. -/
theorem underflow_alarm_late :
    raised (underflowEvent 0x1b) 0x1b tenMbit oneUnit 1046000000 emptyVideo ≠ [] := by
  refine (Iff.mpr (underflow_alarm_iff 0x1b tenMbit oneUnit 1046000000 emptyVideo (by decide)
    (by decide) (by decide)) ?_).mpr ?_
  · rw [Misjudged]
    decide +kernel
  · rw [PredictsUnderflow]
    decide +kernel

/-- 50 ms before the DTS the unit takes 12 ms, and the alarm is raised all the same. -/
theorem underflow_alarm_false :
    (tsaTstdUpdateLeak 0x1b tenMbit oneUnit 1001000000 emptyVideo).2 = [50] ∧
    ingestMs 8000000 oneUnit
      (wholeBits (tsaTstdUpdateLeak 0x1b tenMbit oneUnit 1001000000 emptyVideo).1.ebFill) = 12 ∧
    msToDts 1001000000 (oneUnit.queue oneUnit.head).dtsNs = 50 := by
  decide +kernel

end TsAnalyzer.Essence
