/-
  Every access unit is decoded once: the ring of 32 between `tsa_es_track_push_packet`, which queues
  the unit of a completed PES, and `tsa_tstd_drain`, which subtracts it from EB at its decoding
  time.
-/
import TsAnalyzer.Essence.Track
import TsAnalyzer.Lib.Fifo
import TsAnalyzer.Lib.Run

namespace TsAnalyzer.Essence

open Lib Lib.Fifo Packet List

/-! ## The queue as a list -/

/-- The waiting units, oldest first. -/
def AuQueue.units (q : AuQueue) : List AccessUnit := itemsBetween q.queue q.head q.tail

theorem AuQueue.full_iff (q : AuQueue) : q.tail + 1 = q.head ↔ q.units.length = 31 :=
  Fifo.full_iff q.queue q.head q.tail

theorem AuQueue.units_length (q : AuQueue) : q.units.length < 32 := by
  rw [AuQueue.units, itemsBetween_length]
  exact (q.tail - q.head).isLt

theorem AuQueue.units_push (q : AuQueue) (au : AccessUnit) :
    (q.push au).units = if q.units.length = 31 then q.units else q.units ++ [au] := by
  rw [AuQueue.push]
  by_cases hfull : q.tail + 1 = q.head
  · rw [if_pos hfull, if_pos (q.full_iff.mp hfull)]
  · rw [if_neg hfull, if_neg (fun h => hfull (q.full_iff.mpr h))]
    exact itemsBetween_snoc q.queue q.tail au q.head hfull

/-- One clamped subtraction from EB. -/
def decode (fill : Int) (au : AccessUnit) : Int := max (wrap128 (fill - toQ64 au.size)) 0

/-- The units the loop of `tsa_tstd_drain` subtracts, in order. -/
def drained (stcNs : Nat) : Nat → AuQueue → List AccessUnit
  | 0, _ => []
  | fuel + 1, q =>
    if q.head = q.tail then []
    else if (q.queue q.head).dtsNs ≤ stcNs then
      q.queue q.head :: drained stcNs fuel q.pop
    else []

/-- The units a call of `tsa_tstd_drain` subtracts. -/
def drainedBy (stcNs : Nat) (q : AuQueue) : List AccessUnit :=
  if stcNs = 0 then [] else drained stcNs 32 q

/-- The decoding time has come. -/
def AccessUnit.due (stcNs : Nat) (au : AccessUnit) : Bool := au.dtsNs ≤ stcNs

theorem drainLoop_due (stcNs : Nat) (fuel : Nat) (q : AuQueue) (t : Tstd)
    (hfuel : q.units.length ≤ fuel) :
    drained stcNs fuel q = q.units.takeWhile (AccessUnit.due stcNs) ∧
      (drainLoop stcNs fuel (q, t)).1.units = q.units.dropWhile (AccessUnit.due stcNs) ∧
      (drainLoop stcNs fuel (q, t)).2.ebFill = (drained stcNs fuel q).foldl decode t.ebFill := by
  induction fuel generalizing q t with
  | zero =>
    have hnil : q.units = [] := eq_nil_of_length_eq_zero (Nat.le_zero.mp hfuel)
    rw [hnil]
    exact ⟨rfl, hnil, rfl⟩
  | succ fuel ih =>
    rw [drained, drainLoop]
    by_cases hempty : q.head = q.tail
    · have hnil : q.units = [] := by rw [AuQueue.units, hempty, itemsBetween_self]
      rw [if_pos hempty, if_pos hempty, hnil]
      exact ⟨rfl, rfl, rfl⟩
    · have hcons : q.units = q.queue q.head :: q.pop.units := itemsBetween_cons hempty q.queue
      rw [if_neg hempty, if_neg hempty, hcons]
      by_cases hdue : (q.queue q.head).dtsNs ≤ stcNs
      · have htrue : (q.queue q.head).due stcNs = true := decide_eq_true hdue
        rw [if_pos hdue, if_pos hdue, takeWhile_cons_of_pos htrue,
          dropWhile_cons_of_pos htrue]
        rw [hcons, length_cons] at hfuel
        obtain ⟨htaken, hleft, hfill⟩ := ih q.pop
          { t with ebFill := decode t.ebFill (q.queue q.head) } (Nat.le_of_succ_le_succ hfuel)
        exact ⟨congrArg (List.cons _) htaken, hleft, hfill⟩
      · have hfalse : ¬ (q.queue q.head).due stcNs = true := fun h => hdue (of_decide_eq_true h)
        rw [if_neg hdue, if_neg hdue, takeWhile_cons_of_neg hfalse,
          dropWhile_cons_of_neg hfalse]
        exact ⟨rfl, hcons, rfl⟩

/-- **One drain**: it takes the units in front that are due, up to the first that is not, and
    subtracts each of them once.  At `stc_ns = 0` it does nothing, and nothing is due: a unit is
    queued with a positive decoding time only. -/
theorem tsaTstdDrain_due {q : AuQueue} (hpos : ∀ au ∈ q.units, 0 < au.dtsNs) (stcNs : Nat)
    (t : Tstd) :
    drainedBy stcNs q = q.units.takeWhile (AccessUnit.due stcNs) ∧
    (tsaTstdDrain stcNs q t).1.units = q.units.dropWhile (AccessUnit.due stcNs) ∧
    (tsaTstdDrain stcNs q t).2.ebFill = (drainedBy stcNs q).foldl decode t.ebFill := by
  rcases Nat.eq_zero_or_pos stcNs with hzero | hstc
  · subst hzero
    have htake : q.units.takeWhile (AccessUnit.due 0) = [] := by
      cases hunits : q.units with
      | nil => rfl
      | cons au rest =>
        apply takeWhile_cons_of_neg
        intro hdue
        have hnow : au.dtsNs ≤ 0 := of_decide_eq_true hdue
        have hlater := hpos au (hunits ▸ mem_cons_self)
        omega
    have hdrop : q.units.dropWhile (AccessUnit.due 0) = q.units := by
      have happ := takeWhile_append_dropWhile (p := AccessUnit.due 0) (l := q.units)
      rwa [htake, nil_append] at happ
    exact ⟨htake.symm, hdrop.symm, rfl⟩
  · have hne : stcNs ≠ 0 := Nat.ne_of_gt hstc
    rw [drainedBy, if_neg hne, tsaTstdDrain, if_neg hne]
    exact drainLoop_due stcNs 32 q t (Nat.le_of_lt q.units_length)

/-! ## What the accumulator counts -/

/-- The accumulator after `packets` payloads of `received` bytes together: it holds them all, or
    the first 16384 and so too few bytes. -/
structure PesAccumulator.Measures (a : PesAccumulator) (packets received : Nat) : Prop where
  tallied : a.Tallied
  held : a.refs.length = min packets pesMaxRefs
  all : packets ≤ pesMaxRefs → a.totalLength = received
  short : pesMaxRefs < packets → a.totalLength < received

namespace PesAccumulator.Measures

theorem start {a : PesAccumulator} (ha : a.Tallied) (hrefs : a.refs = []) : a.Measures 0 0 where
  tallied := ha
  held := by rw [hrefs]; rfl
  all _ := by rw [ha.total, hrefs]; rfl
  short h := absurd h (Nat.not_lt_zero _)

theorem append {a : PesAccumulator} {packets received : Nat} (h : a.Measures packets received)
    (pkt : PacketPtr) (afLen : Nat) {payloadLen : Nat} (hpos : 0 < payloadLen)
    (hlen : payloadLen < 256) :
    (a.append pkt afLen payloadLen).1.Measures (packets + 1) (received + payloadLen) := by
  have htallied := h.tallied.append pkt afLen hlen
  have hheld := h.held
  have hsum := h.tallied.sum_lt
  rw [← h.tallied.total] at hsum
  rcases Nat.lt_or_ge a.refs.length pesMaxRefs with hroom | hfull
  · have hpackets : packets < pesMaxRefs := by omega
    have hall := h.all (Nat.le_of_lt hpackets)
    have htotal : (a.append pkt afLen payloadLen).1.totalLength = a.totalLength + payloadLen := by
      rw [PesAccumulator.append, if_pos hroom]
      exact Nat.mod_eq_of_lt (by omega)
    have hrefs : (a.append pkt afLen payloadLen).1.refs.length = a.refs.length + 1 := by
      rw [PesAccumulator.append, if_pos hroom]
      exact length_append
    refine ⟨htallied, ?_, ?_, ?_⟩
    · omega
    · intro _
      omega
    · intro _
      omega
  · have hpackets : pesMaxRefs ≤ packets := by omega
    have hsame : (a.append pkt afLen payloadLen).1 = a := by
      rw [PesAccumulator.append, if_neg (Nat.not_lt.mpr hfull)]
    rw [hsame]
    refine ⟨h.tallied, ?_, ?_, ?_⟩
    · omega
    · intro hfew
      omega
    · intro _
      rcases Nat.eq_or_lt_of_le hpackets with heq | hmore
      · have hall := h.all (Nat.le_of_eq heq.symm)
        omega
      · have hshort := h.short hmore
        omega

theorem size_iff {a : PesAccumulator} {packets received : Nat} (h : a.Measures packets received) :
    received * 8 = a.totalLength * 8 % 2 ^ 32 ↔ packets ≤ pesMaxRefs := by
  have hsum := h.tallied.sum_lt
  rw [← h.tallied.total] at hsum
  rw [Nat.mod_eq_of_lt (by omega)]
  rcases Nat.lt_or_ge pesMaxRefs packets with hmore | hfew
  · have hshort := h.short hmore
    omega
  · have hall := h.all hfew
    omega

end PesAccumulator.Measures

/-! ## A packet of the PID -/

/-- A packet of the PID without a discontinuity, as the plugin meets it. -/
structure TrackInput where
  env : TrackEnv
  /-- The stream type the PMT has announced by then. -/
  streamType : UInt8
  pkt : PacketPtr
  bytes : Nat → UInt8
  res : DecodeResult
  describes : res.Describes bytes
  continuous : ¬ (res.hasDiscontinuity ∨ env.latched)

namespace TrackInput

/-- `essence_on_ts` up to the drain. -/
def arrive (i : TrackInput) (es : EsTrack) : EsTrack :=
  let es := EsTrack.fill i.env.bitrates i.env.stcNs { es with streamType := i.streamType }
  if 0 < i.res.payloadLen then es.push i.env.leakRates i.pkt i.res else es

/-- `essence_on_ts`. -/
def onTs (i : TrackInput) (es : EsTrack) : EsTrack :=
  EsTrack.onTs i.env i.pkt i.res { es with streamType := i.streamType }

theorem onTs_eq (i : TrackInput) (es : EsTrack) :
    i.onTs es = (i.arrive es).drain i.env.drainStcNs := by
  rw [onTs, EsTrack.onTs, if_neg i.continuous]
  rfl

/-- The packet completes a PES with a positive pending DTS. -/
def Completes (i : TrackInput) (es : EsTrack) : Prop :=
  0 < i.res.payloadLen ∧ i.res.pusi = true ∧ es.pes.refs ≠ [] ∧ 0 < es.pes.pendingDtsNs
deriving Decidable

theorem payloadLen_lt (i : TrackInput) : i.res.payloadLen < 256 := by
  have h := payloadLenOf_le i.bytes
  rw [i.describes.payloadLen]
  omega

theorem not_skipped (i : TrackInput) (hpay : 0 < i.res.payloadLen) :
    ¬ (!i.res.pusi ∧ (!i.res.hasPayload ∨ i.res.payloadLen = 0)) := by
  have hhas : i.res.hasPayload = true := by
    rw [i.describes.hasPayload, ← i.describes.payloadLen]
    exact decide_eq_true hpay
  rintro ⟨-, h | h⟩
  · rw [hhas] at h
    cases h
  · omega

end TrackInput

namespace EsTrack

variable (rates : Option (Nat × Nat)) (res : DecodeResult) (es : EsTrack)

theorem stamp_auQ : (es.stamp res).auQ = es.auQ := by
  unfold stamp
  split <;> rfl

theorem finish_auQ :
    (es.finish rates).auQ =
      if es.pes.refs ≠ [] ∧ 0 < es.pes.pendingDtsNs then
        es.auQ.push ⟨es.pes.pendingDtsNs, es.pes.totalLength * 8 % 2 ^ 32⟩
      else es.auQ := by
  unfold finish
  split
  · rename_i hrefs
    rw [if_neg (fun h => h.1 hrefs)]
  · rename_i hrefs
    show (if _ then _ else _) = _
    split
    · rename_i hdts
      rw [if_pos ⟨hrefs, hdts⟩]
    · rename_i hdts
      rw [if_neg (fun h => hdts h.2)]

theorem stamp_totalLength : (es.stamp res).pes.totalLength = es.pes.totalLength := by
  unfold stamp
  split
  · show (if _ then _ else _ : PesAccumulator).totalLength = es.pes.totalLength
    split <;> rfl
  · rfl

theorem finish_totalLength {es : EsTrack} (h : es.pes.Tallied) :
    (es.finish rates).pes.totalLength = 0 := by
  unfold finish
  split
  · rename_i hrefs
    rw [h.total, hrefs]
    rfl
  · rfl

theorem restarted_measures {es : EsTrack} (h : es.pes.Tallied) :
    ((es.finish rates).stamp res).pes.Measures 0 0 := by
  have hrefs : ((es.finish rates).stamp res).pes.refs = [] := by rw [stamp_refs, finish_refs]
  have htotal : ((es.finish rates).stamp res).pes.totalLength = 0 := by
    rw [stamp_totalLength, finish_totalLength rates h]
  refine PesAccumulator.Measures.start ⟨?_, ?_, ?_⟩ hrefs
  · rw [hrefs, htotal]
    rfl
  · rw [hrefs]
    exact fun r hr => absurd hr not_mem_nil
  · rw [hrefs]
    exact Nat.zero_le _

end EsTrack

namespace TrackInput

theorem arrive_auQ (i : TrackInput) (es : EsTrack) :
    (i.arrive es).auQ =
      if i.Completes es then
        es.auQ.push ⟨es.pes.pendingDtsNs, es.pes.totalLength * 8 % 2 ^ 32⟩
      else es.auQ := by
  rw [arrive]
  by_cases hpay : 0 < i.res.payloadLen
  · rw [if_pos hpay, EsTrack.push, if_neg (i.not_skipped hpay)]
    by_cases hpusi : i.res.pusi = true
    · rw [if_pos hpusi]
      show (((EsTrack.fill _ _ _).finish _).stamp i.res).auQ = _
      rw [EsTrack.stamp_auQ, EsTrack.finish_auQ, EsTrack.fill_pes]
      by_cases hunit : es.pes.refs ≠ [] ∧ 0 < es.pes.pendingDtsNs
      · rw [if_pos hunit, if_pos ⟨hpay, hpusi, hunit⟩]
        rfl
      · rw [if_neg hunit, if_neg (fun h => hunit h.2.2)]
        rfl
    · rw [if_neg hpusi, if_neg (fun h => hpusi h.2.1)]
      rfl
  · rw [if_neg hpay, if_neg (fun h => hpay h.1)]
    rfl

theorem arrive_measures (i : TrackInput) {es : EsTrack} {packets received : Nat}
    (h : es.pes.Measures packets received) :
    (i.arrive es).pes.Measures
      (if i.res.payloadLen = 0 then packets else if i.res.pusi then 1 else packets + 1)
      (if i.res.payloadLen = 0 then received
        else if i.res.pusi then i.res.payloadLen else received + i.res.payloadLen) := by
  rw [arrive]
  rcases Nat.eq_zero_or_pos i.res.payloadLen with hnone | hpay
  · rw [if_pos hnone, if_pos hnone, if_neg (by omega), EsTrack.fill_pes]
    exact h
  · have hsome : ¬ i.res.payloadLen = 0 := Nat.ne_of_gt hpay
    rw [if_neg hsome, if_neg hsome, if_pos hpay, EsTrack.push, if_neg (i.not_skipped hpay)]
    by_cases hpusi : i.res.pusi = true
    · have htallied : (EsTrack.fill i.env.bitrates i.env.stcNs
          { es with streamType := i.streamType }).pes.Tallied := h.tallied
      have hstart := (EsTrack.restarted_measures i.env.leakRates i.res htallied).append i.pkt
        i.res.afLen hpay i.payloadLen_lt
      rw [Nat.zero_add, Nat.zero_add] at hstart
      rw [if_pos hpusi, if_pos hpusi, if_pos hpusi]
      exact hstart
    · rw [if_neg hpusi, if_neg hpusi, if_neg hpusi]
      exact h.append i.pkt i.res.afLen hpay i.payloadLen_lt

end TrackInput

/-! ## The ledger -/

/-- A track with its history: the payloads of the PES under construction, the units of the PES
    completed so far and the units subtracted from EB so far, oldest first. -/
structure Ledger where
  track : EsTrack
  packets : Nat
  received : Nat
  completed : List AccessUnit
  decoded : List AccessUnit

namespace Ledger

/-- A track as `tsa_create` leaves it. -/
def fresh : Ledger := ⟨EsTrack.fresh, 0, 0, [], []⟩

/-- The unit of the PES under construction, at the size in bits of what was received of it. -/
def unit (g : Ledger) : AccessUnit := ⟨g.track.pes.pendingDtsNs, g.received * 8⟩

/-- One packet. -/
def step (g : Ledger) (i : TrackInput) : Ledger where
  track := i.onTs g.track
  packets := if i.res.payloadLen = 0 then g.packets else if i.res.pusi then 1 else g.packets + 1
  received := if i.res.payloadLen = 0 then g.received
    else if i.res.pusi then i.res.payloadLen else g.received + i.res.payloadLen
  completed := if i.Completes g.track then g.completed ++ [g.unit] else g.completed
  decoded := g.decoded ++ drainedBy i.env.drainStcNs (i.arrive g.track).auQ

/-- Every completed unit was subtracted once or is waiting, in order, and nothing else is. -/
def Conserved (g : Ledger) : Prop := g.completed = g.decoded ++ g.track.auQ.units

/-- A unit that is completed finds a free slot, and the accumulator held all of its packets. -/
def Kept (g : Ledger) (i : TrackInput) : Prop :=
  i.Completes g.track → g.track.auQ.units.length < 31 ∧ g.packets ≤ pesMaxRefs

/-- The drain behind the packet takes the units in front that are due, up to the first that is
    not, each by one clamped subtraction from EB. -/
structure DecodesDue (g : Ledger) (i : TrackInput) : Prop where
  taken : (g.step i).decoded =
    g.decoded ++ (i.arrive g.track).auQ.units.takeWhile (AccessUnit.due i.env.drainStcNs)
  left : (g.step i).track.auQ.units =
    (i.arrive g.track).auQ.units.dropWhile (AccessUnit.due i.env.drainStcNs)
  fill : (g.step i).track.tstd.ebFill =
    ((i.arrive g.track).auQ.units.takeWhile (AccessUnit.due i.env.drainStcNs)).foldl decode
      (i.arrive g.track).tstd.ebFill

/-- What every packet leaves. -/
structure Sound (g : Ledger) : Prop where
  measures : g.track.pes.Measures g.packets g.received
  positive : ∀ au ∈ g.track.auQ.units, 0 < au.dtsNs

theorem Sound.fresh : Ledger.fresh.Sound where
  measures := .start ⟨rfl, fun _ h => absurd h not_mem_nil, Nat.zero_le _⟩ rfl
  positive _ hau := absurd hau not_mem_nil

theorem arrive_units (g : Ledger) (i : TrackInput) :
    (i.arrive g.track).auQ.units =
      if i.Completes g.track ∧ g.track.auQ.units.length < 31 then
        g.track.auQ.units ++ [⟨g.track.pes.pendingDtsNs, g.track.pes.totalLength * 8 % 2 ^ 32⟩]
      else g.track.auQ.units := by
  have hlen := g.track.auQ.units_length
  rw [i.arrive_auQ]
  by_cases hcomp : i.Completes g.track
  · rw [if_pos hcomp, AuQueue.units_push]
    rcases Nat.lt_or_ge g.track.auQ.units.length 31 with hroom | hfull
    · rw [if_neg (by omega), if_pos ⟨hcomp, hroom⟩]
    · rw [if_pos (by omega), if_neg (by omega)]
  · rw [if_neg hcomp, if_neg (fun h => hcomp h.1)]

theorem Sound.arrive_positive {g : Ledger} (h : g.Sound) (i : TrackInput) :
    ∀ au ∈ (i.arrive g.track).auQ.units, 0 < au.dtsNs := by
  intro au hau
  rw [arrive_units] at hau
  split at hau
  · rename_i hcomp
    rcases mem_append.mp hau with hold | hnew
    · exact h.positive au hold
    · rw [eq_of_mem_singleton hnew]
      exact hcomp.1.2.2.2
  · exact h.positive au hau

theorem Sound.decodesDue {g : Ledger} (h : g.Sound) (i : TrackInput) : g.DecodesDue i := by
  obtain ⟨htaken, hleft, hfill⟩ := tsaTstdDrain_due (h.arrive_positive i) i.env.drainStcNs
    (i.arrive g.track).tstd
  have htrack : (g.step i).track = (i.arrive g.track).drain i.env.drainStcNs := i.onTs_eq g.track
  refine ⟨?_, ?_, ?_⟩
  · rw [← htaken]
    rfl
  · rw [htrack, ← hleft]
    rfl
  · rw [htrack, ← htaken, ← hfill]
    rfl

theorem Sound.step {g : Ledger} (h : g.Sound) (i : TrackInput) : (g.step i).Sound where
  measures := by
    have htrack : (g.step i).track = (i.arrive g.track).drain i.env.drainStcNs := i.onTs_eq g.track
    rw [htrack, EsTrack.drain_pes]
    exact i.arrive_measures h.measures
  positive au hau := by
    rw [(h.decodesDue i).left] at hau
    exact h.arrive_positive i au ((dropWhile_suffix _).subset hau)

/-- **One packet** keeps the units exactly when the unit it completes is kept. -/
theorem step_conserved_iff {g : Ledger} (h : g.Sound) (hcons : g.Conserved) (i : TrackInput) :
    (g.step i).Conserved ↔ g.Kept i := by
  have hdue := h.decodesDue i
  have hall : (g.step i).decoded ++ (g.step i).track.auQ.units =
      g.decoded ++ (i.arrive g.track).auQ.units := by
    rw [hdue.taken, hdue.left, append_assoc, takeWhile_append_dropWhile]
  rw [Conserved, hall, Kept, arrive_units]
  by_cases hcomp : i.Completes g.track
  · have hcompleted : (g.step i).completed = g.decoded ++ (g.track.auQ.units ++ [g.unit]) := by
      rw [step, if_pos hcomp, hcons, append_assoc]
    rw [hcompleted, append_cancel_left_eq]
    rcases Nat.lt_or_ge g.track.auQ.units.length 31 with hroom | hfull
    · rw [if_pos ⟨hcomp, hroom⟩, append_cancel_left_eq, ← h.measures.size_iff]
      rw [singleton_inj, unit, AccessUnit.mk.injEq]
      exact ⟨fun hsize _ => ⟨hroom, hsize.2⟩, fun hkept => ⟨rfl, (hkept hcomp).2⟩⟩
    · rw [if_neg (by omega)]
      constructor
      · intro hlost
        have hlen := congrArg List.length hlost
        rw [length_append, length_singleton] at hlen
        omega
      · intro hkept
        have hroom := (hkept hcomp).1
        omega
  · rw [if_neg (fun hc => hcomp hc.1), step, if_neg hcomp]
    exact ⟨fun _ hc => absurd hc hcomp, fun _ => hcons⟩

end Ledger

/-- **Every access unit is decoded once.**  Along every run of a PID without discontinuities each
    drain subtracts the units that are due, in order and up to the first that is not; and what was
    completed is what was subtracted followed by what waits, as long as no unit is completed while
    31 wait or out of more than 16384 packets. -/
theorem decoded_once_iff (inputs : List TrackInput) :
    Along Ledger.DecodesDue Ledger.step Ledger.fresh inputs ∧
    (Along (fun g i => (g.step i).Conserved) Ledger.step Ledger.fresh inputs ↔
      Along Ledger.Kept Ledger.step Ledger.fresh inputs) := by
  constructor
  · exact along_of_along (R := fun _ _ => True) (I := Ledger.Sound) (fun g i h _ => h.step i)
      (fun g i h _ => h.decodesDue i) inputs Ledger.fresh Ledger.Sound.fresh
      (along_true Ledger.step inputs Ledger.fresh)
  · exact along_iff_while (I := fun g => g.Sound ∧ g.Conserved)
      (fun g i h hkeeps => ⟨h.1.step i, hkeeps⟩)
      (fun g i h => Ledger.step_conserved_iff h.1 h.2 i) inputs Ledger.fresh
      ⟨Ledger.Sound.fresh, rfl⟩

/-- A PES start of 184 bytes on PID 0x64, to be decoded at 10 s. -/
def pesStartAt10s : Nat → UInt8 := fun k =>
  [0x47, 0x40, 0x64, 0x10, 0x00, 0x00, 0x01, 0xE0, 0x00, 0x00, 0x80, 0x80, 0x05,
    0x21, 0x00, 0x37, 0x77, 0x41].getD k 0xFF

def pesStartInput (stcNs : Nat) : TrackInput where
  env := ⟨stcNs, stcNs, ⟨0, 0, 0⟩, false, none⟩
  streamType := 0x1b
  pkt := .caller 0
  bytes := pesStartAt10s
  res := (tsaDecodePacket pesStartAt10s ⟨0, false, false, 0, 0, 0⟩ ⟨noPts, 0⟩).1
  describes := tsaDecodePacket_describes _ _ _
  continuous := by
    rintro (h | h)
    · exact absurd h (by decide +kernel)
    · cases h

/-- 33 of them in the first second leave 31 units waiting out of 32, and one more at 20 s decodes
    these 31: two completed units are never subtracted. -/
theorem burst_loses_units :
    let g := (replicate 33 (pesStartInput 1000000000)).foldl Ledger.step Ledger.fresh
    let g1 := g.step (pesStartInput 20000000000)
    g.completed.length = 32 ∧ g.decoded = [] ∧ g.track.auQ.units.length = 31 ∧
    g1.completed = replicate 33 ⟨10000000000, 1472⟩ ∧
    g1.decoded = replicate 31 ⟨10000000000, 1472⟩ ∧ g1.track.auQ.units = [] := by
  decide +kernel

end TsAnalyzer.Essence
