/-
  The T-STD buffer model of one elementary stream: the leak of `tsa_tstd_update_leak`
  (`src/tsa_engine_essence.c`) and the drain of `tsa_tstd_drain` (`src/tsa.c`).

  * Three fills in Q64.64 bits: transport buffer TB, multiplex buffer MB (video only) and elementary
    buffer EB, 128-bit values (`wrap128`); `rate * dt` is shifted left by 64 BEFORE the division.
  * The access-unit queue is a ring of 32: its indices are `Fin 32`.
  * `tsa_push_event` calls are returned as the list of event values, in order.
-/
import TsAnalyzer.Lib.Fixed

namespace TsAnalyzer.Essence

open Lib

/-! ## Data -/

/-- `tstd` of `tsa_es_track_t` (its buffer-size fields are never read). -/
structure Tstd where
  ebFill : Int
  tbFill : Int
  mbFill : Int
  lastLeakVstc : Nat
  lastUnderflowDts : Nat
  leakRateEb : Nat
  leakRateRx : Nat
  timeToUnderflowMs : Int
  timeToOverflowMs : Int
  deriving DecidableEq

/-- One access unit waiting for its decoding time; `size` is in bits. -/
structure AccessUnit where
  dtsNs : Nat
  size : Nat
  deriving DecidableEq

/-- `au_q`, a ring of `TSA_AU_QUEUE_SIZE` access units. -/
structure AuQueue where
  queue : Fin 32 → AccessUnit
  head : Fin 32
  tail : Fin 32

/-- The queue of a new track. -/
def AuQueue.fresh : AuQueue := ⟨fun _ => ⟨0, 0⟩, 0, 0⟩

def AuQueue.reset (q : AuQueue) : AuQueue := { q with head := 0, tail := 0 }

def AuQueue.pop (q : AuQueue) : AuQueue := { q with head := q.head + 1 }

/-- The bitrates of the handle that stand in for a track's own leak rates. -/
structure Bitrates where
  physicalBitrateBps : Nat
  pidBitrateBps : Nat
  forcedCbrBitrate : Nat
  deriving DecidableEq

def tsaIsVideo (streamType : UInt8) : Bool :=
  streamType = 0x1b ∨ streamType = 0x24 ∨ streamType = 0x02

/-- `TSA_TSTD_EB_VIDEO_SIZE` or `TSA_TSTD_EB_AUDIO_SIZE`, in bits. -/
def ebSize (streamType : UInt8) : Nat :=
  if tsaIsVideo streamType then 512 * 1024 * 8 else 3584 * 8

/-! ## The leak -/

/-- `r_x`: the track's own rate, or the first non-zero of the fallbacks, plus one percent. -/
def rateRx (b : Bitrates) (t : Tstd) : Nat :=
  let r := t.leakRateRx
  let r := if r = 0 ∧ 0 < b.physicalBitrateBps then b.physicalBitrateBps else r
  let r := if r = 0 ∧ 0 < b.forcedCbrBitrate then b.forcedCbrBitrate else r
  let r := if r = 0 then b.pidBitrateBps * 6 % 2 ^ 64 / 5 else r
  let r := if r = 0 then 100000000 else r
  r * 101 % 2 ^ 64 / 100

/-- `r_bx`. -/
def rateRbx (b : Bitrates) (t : Tstd) : Nat :=
  let r := t.leakRateEb
  let r := if r = 0 then b.pidBitrateBps * 3 % 2 ^ 64 / 2 else r
  let r := if r = 0 then b.physicalBitrateBps * 4 % 2 ^ 64 / 5 else r
  if r = 0 then 20000000 else r

/-- `(((int128_t)rate * dt) << 64) / TSA_NANOS_PER_SEC`. -/
def leakQ64 (rate dt : Nat) : Int :=
  (toQ64 (wrap128 ((rate : Int) * dt))).tdiv 1000000000

def tbLeaked (b : Bitrates) (t : Tstd) (dt : Nat) : Int := min (leakQ64 (rateRx b t) dt) t.tbFill

/-- MB leaks into EB, unless EB is full: at most what MB holds, and what EB has room for. -/
def leakToEb (size : Nat) (b : Bitrates) (dt : Nat) (t : Tstd) : Tstd :=
  if toQ64 size ≤ t.ebFill then t
  else
    let leaked := min (leakQ64 (rateRbx b t) dt) t.mbFill
    let leaked := min leaked (wrap128 (toQ64 size - t.ebFill))
    { t with mbFill := wrap128 (t.mbFill - leaked), ebFill := wrap128 (t.ebFill + leaked) }

/-- The flow of `dt` nanoseconds.  For video TB leaks into MB and MB into EB; otherwise TB leaks
    into EB, and what EB has no room for is gone. -/
def flow (streamType : UInt8) (b : Bitrates) (dt : Nat) (t : Tstd) : Tstd :=
  let leaked := tbLeaked b t dt
  let t1 := { t with tbFill := wrap128 (t.tbFill - leaked) }
  if tsaIsVideo streamType then
    leakToEb (ebSize streamType) b dt { t1 with mbFill := wrap128 (t1.mbFill + leaked) }
  else
    let leaked := min leaked (wrap128 (toQ64 (ebSize streamType) - t1.ebFill))
    { t1 with ebFill := wrap128 (t1.ebFill + leaked) }

/-! ## The predictive alarms -/

/-- `(uint64_t)(fill >> 64)`. -/
def wholeBits (fill : Int) : Nat := (fill / 2 ^ 64 % 2 ^ 64).toNat

/-- Milliseconds until the next decoding time, `0` if it has passed. -/
def msToDts (stcNs dtsNs : Nat) : Nat := if stcNs < dtsNs then (dtsNs - stcNs) / 1000000 else 0

/-- The time-to-overflow and time-to-underflow estimates, and the values of the
    TSTD_PREDICTIVE events they raise. -/
def predict (streamType : UInt8) (q : AuQueue) (stcNs : Nat) (t : Tstd) : Tstd × List Nat :=
  let size := ebSize streamType
  let fill := wholeBits t.ebFill
  let perSec := (if tsaIsVideo streamType then t.leakRateEb else t.leakRateRx) / 8
  let perSec := if perSec = 0 then 1 else perSec
  let next := q.queue q.head
  let dtsMs := msToDts stcNs next.dtsNs
  let overflowMs := if fill < size then (size - fill) * 1000 / perSec else 0
  let overflows := if fill < size ∧ q.head ≠ q.tail ∧ overflowMs < dtsMs ∧ overflowMs < 500 then
    [overflowMs] else []
  let starves := q.head ≠ q.tail ∧ fill < next.size ∧
    dtsMs < (next.size - fill) * 1000 % 2 ^ 64 / perSec
  ({ t with timeToOverflowMs := overflowMs, timeToUnderflowMs := if starves then dtsMs else -1 },
    overflows ++ if starves ∧ dtsMs < 500 then [dtsMs] else [])

/-- `tsa_tstd_update_leak` at `now_vstc`, with the values of the predictive events it pushes
    (`h->stc_ns` is `now_vstc` at its only call). -/
def tsaTstdUpdateLeak (streamType : UInt8) (b : Bitrates) (q : AuQueue) (nowVstc : Nat) (t : Tstd) :
    Tstd × List Nat :=
  if t.lastLeakVstc = 0 then ({ t with lastLeakVstc := nowVstc }, [])
  else if nowVstc ≤ t.lastLeakVstc then (t, [])
  else
    let r := predict streamType q nowVstc (flow streamType b (nowVstc - t.lastLeakVstc) t)
    ({ r.1 with lastLeakVstc := nowVstc }, r.2)

/-! ## The drain -/

/-- The loop of `tsa_tstd_drain`; a ring of 32 is empty after 32 rounds at the latest. -/
def drainLoop (stcNs : Nat) : Nat → AuQueue × Tstd → AuQueue × Tstd
  | 0, s => s
  | fuel + 1, (q, t) =>
    if q.head = q.tail then (q, t)
    else if (q.queue q.head).dtsNs ≤ stcNs then
      let fill := wrap128 (t.ebFill - toQ64 (q.queue q.head).size)
      drainLoop stcNs fuel ({ q with head := q.head + 1 }, { t with ebFill := max fill 0 })
    else (q, t)

def tsaTstdDrain (stcNs : Nat) (q : AuQueue) (t : Tstd) : AuQueue × Tstd :=
  if stcNs = 0 then (q, t) else drainLoop stcNs 32 (q, t)

/-- `au_q` after a completed access unit is pushed; a full queue drops it. -/
def AuQueue.push (q : AuQueue) (au : AccessUnit) : AuQueue :=
  if q.tail + 1 = q.head then q
  else { q with queue := Function.update q.queue q.tail au, tail := q.tail + 1 }

end TsAnalyzer.Essence
