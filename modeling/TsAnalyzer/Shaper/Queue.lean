/-
  The FIFO of a PID as a QUEUE OF PACKETS.

  `tss_fifo.c` stores bytes in a ring whose capacity need not be a multiple of 188.
-/
import TsAnalyzer.Lib.Ring
import TsAnalyzer.Lib.Run
import TsAnalyzer.Shaper.Ingress

namespace TsAnalyzer.Shaper

open Lib List

/-! ## Bytes -/

/-- The FIFO holds these bytes, oldest first. -/
structure TssFifo.Holds (f : TssFifo) (bytes : List UInt8) : Prop where
  size : f.size = bytes.length
  fits : bytes.length ≤ f.capacity
  head : f.head < f.capacity
  tail : f.tail = (f.head + bytes.length) % f.capacity
  laid : Fifo.Laid f.capacity f.buffer f.head bytes

section Bytes

variable {f : TssFifo} {bytes : List UInt8}

theorem holds_nil (hhead : f.head < f.capacity) (htail : f.tail = f.head) (hsize : f.size = 0) :
    f.Holds [] where
  size := hsize
  fits := Nat.zero_le _
  head := hhead
  tail := by rw [htail, length_nil, Nat.add_zero, Nat.mod_eq_of_lt hhead]
  laid := fun _ hk => absurd hk (Nat.not_lt_zero _)

theorem TssFifo.Holds.pos (h : f.Holds bytes) : 0 < f.capacity := Nat.zero_lt_of_lt h.head

theorem tssFifoAlloc_holds {capacity : Nat} (h : 0 < capacity) :
    (tssFifoAlloc capacity).Holds [] := holds_nil h rfl rfl

theorem TssFifo.Holds.reset (h : f.Holds bytes) : f.reset.Holds [] := holds_nil h.pos rfl rfl

/-- **A write appends**, where it fits. -/
theorem TssFifo.Holds.write (h : f.Holds bytes) {buf : List UInt8}
    (hroom : bytes.length + buf.length ≤ f.capacity) :
    ∃ g, f.write buf = some g ∧ g.capacity = f.capacity ∧ g.Holds (bytes ++ buf) := by
  have hfits : ¬ f.size + buf.length > f.capacity := by
    rw [h.size]
    omega
  refine ⟨_, if_neg hfits, rfl, ?_, ?_, h.head, ?_, ?_⟩
  · show f.size + buf.length = _
    rw [h.size, length_append]
  · rw [length_append]
    exact hroom
  · show (f.tail + buf.length) % f.capacity = (f.head + (bytes ++ buf).length) % f.capacity
    rw [h.tail, Nat.mod_add_mod, length_append, Nat.add_assoc]
  · have hlaid := h.laid.writeAround h.pos hroom
    rw [← h.tail] at hlaid
    exact hlaid

/-- **A drain takes from the front.** -/
theorem TssFifo.Holds.drain (h : f.Holds bytes) (n : Nat) : (f.drain n).Holds (bytes.drop n) := by
  have hdrop : bytes.drop n = bytes.drop (min n bytes.length) := by
    rcases Nat.le_total n bytes.length with hle | hge
    · rw [Nat.min_eq_left hle]
    · rw [Nat.min_eq_right hge, drop_length, drop_eq_nil_of_le hge]
  have hmin : min n bytes.length ≤ bytes.length := Nat.min_le_right _ _
  have hlen : (bytes.drop (min n bytes.length)).length = bytes.length - min n bytes.length :=
    length_drop
  have hfits := h.fits
  rw [hdrop]
  have hhead : (f.drain n).head = (f.head + min n bytes.length) % f.capacity := by
    show (f.head + min n f.size) % f.capacity = _
    rw [h.size]
  refine ⟨?_, ?_, ?_, ?_, ?_⟩
  · show f.size - min n f.size = _
    rw [h.size, hlen]
  · show _ ≤ f.capacity
    omega
  · rw [hhead]
    exact Nat.mod_lt _ h.pos
  · show f.tail = _ % f.capacity
    rw [h.tail, hhead, hlen, Nat.mod_add_mod]
    congr 1
    omega
  · rw [hhead]
    exact h.laid.drop hmin

/-- **A read takes from the front**: it is a drain that hands out what it takes. -/
theorem TssFifo.Holds.read (h : f.Holds bytes) {n : Nat} (hn : n ≤ bytes.length) :
    f.read n = some (bytes.take n, f.drain n) := by
  have hsize : ¬ f.size < n := by
    rw [h.size]
    omega
  have hout : f.copyOut f.head n = bytes.take n := h.laid.bytesAround h.head h.fits hn
  have hmin : min n f.size = n := by omega
  unfold TssFifo.read TssFifo.drain
  rw [if_neg hsize, hout, hmin]

theorem TssFifo.Holds.peek (h : f.Holds bytes) {n offset : Nat} (hn : offset + n ≤ bytes.length) :
    f.peek n offset = some ((bytes.drop offset).take n) := by
  have hsize : ¬ f.size < offset + n := by
    rw [h.size]
    omega
  have hdrain := h.drain offset
  have hout : f.copyOut (f.drain offset).head n = (bytes.drop offset).take n :=
    hdrain.laid.bytesAround hdrain.head hdrain.fits (by rw [length_drop]; omega)
  have hhead : (f.drain offset).head = (f.head + offset) % f.capacity := by
    show (f.head + min offset f.size) % f.capacity = _
    rw [Nat.min_eq_left (by omega)]
  unfold TssFifo.peek
  rw [if_neg hsize, ← hhead, hout]

inductive FifoCall where
  | write (buf : List UInt8)
  | read (len : Nat)
  | peek (len offset : Nat)
  | drain (len : Nat)
  | reset

/-- The call, with its result: `none` for -1, otherwise the bytes it hands out. -/
def fifoPush (f : TssFifo) : FifoCall → TssFifo × List (Option (List UInt8))
  | .write buf => ((f.write buf).getD f, [(f.write buf).map fun _ => []])
  | .read len => (((f.read len).map (·.2)).getD f, [(f.read len).map (·.1)])
  | .peek len offset => (f, [f.peek len offset])
  | .drain len => (f.drain len, [some []])
  | .reset => (f.reset, [some []])

/-- The specification: a list of at most `cap` bytes. -/
def queuePush (cap : Nat) (q : List UInt8) : FifoCall → List UInt8 × List (Option (List UInt8))
  | .write buf => if q.length + buf.length ≤ cap then (q ++ buf, [some []]) else (q, [none])
  | .read len => if len ≤ q.length then (q.drop len, [some (q.take len)]) else (q, [none])
  | .peek len offset =>
    (q, [if offset + len ≤ q.length then some ((q.drop offset).take len) else none])
  | .drain len => (q.drop len, [some []])
  | .reset => ([], [some []])

theorem fifoPush_refines (h : f.Holds bytes) (call : FifoCall) :
    (fifoPush f call).2 = (queuePush f.capacity bytes call).2 ∧
      (fifoPush f call).1.Holds (queuePush f.capacity bytes call).1 ∧
      (fifoPush f call).1.capacity = f.capacity := by
  cases call with
  | write buf =>
    by_cases hroom : bytes.length + buf.length ≤ f.capacity
    · obtain ⟨g, hg, hcap, hholds⟩ := h.write hroom
      simp only [fifoPush, queuePush, hg, if_pos hroom]
      exact ⟨rfl, hholds, hcap⟩
    · have hfull : f.write buf = none := if_pos (by rw [h.size]; omega)
      simp only [fifoPush, queuePush, hfull, if_neg hroom]
      exact ⟨rfl, h, rfl⟩
  | read len =>
    by_cases hlen : len ≤ bytes.length
    · simp only [fifoPush, queuePush, h.read hlen, if_pos hlen]
      exact ⟨rfl, h.drain len, rfl⟩
    · have hshort : f.read len = none := if_pos (by rw [h.size]; omega)
      simp only [fifoPush, queuePush, hshort, if_neg hlen]
      exact ⟨rfl, h, rfl⟩
  | peek len offset =>
    by_cases hlen : offset + len ≤ bytes.length
    · simp only [fifoPush, queuePush, h.peek hlen, if_pos hlen]
      exact ⟨trivial, h, trivial⟩
    · have hshort : f.peek len offset = none := if_pos (by rw [h.size]; omega)
      simp only [fifoPush, queuePush, hshort, if_neg hlen]
      exact ⟨trivial, h, trivial⟩
  | drain len => exact ⟨rfl, h.drain len, rfl⟩
  | reset => exact ⟨rfl, h.reset, rfl⟩

theorem run_fifoPush (calls : List FifoCall) (h : f.Holds bytes) :
    (run fifoPush f calls).2 = (run (queuePush f.capacity) bytes calls).2 ∧
      (run fifoPush f calls).1.Holds (run (queuePush f.capacity) bytes calls).1 ∧
      (run fifoPush f calls).1.capacity = f.capacity := by
  induction calls generalizing f bytes with
  | nil => exact ⟨rfl, h, rfl⟩
  | cons call calls ih =>
    obtain ⟨hout, hholds, hcap⟩ := fifoPush_refines h call
    have hrest := ih hholds
    rw [hcap] at hrest
    simp only [run]
    exact ⟨congrArg₂ (· ++ ·) hout hrest.1, hrest.2⟩

/-- A call that fails changes nothing. -/
theorem fifoPush_failed {call : FifoCall} (h : (fifoPush f call).2 = [none]) :
    (fifoPush f call).1 = f := by
  cases call with
  | write buf => rw [fifoPush, Option.map_eq_none_iff.mp (singleton_inj.mp h), Option.getD_none]
  | read len =>
    rw [fifoPush, Option.map_eq_none_iff.mp (singleton_inj.mp h), Option.map_none, Option.getD_none]
  | peek len offset => rfl
  | drain len | reset => cases h

/-- **The ring is a bounded byte queue**, over every sequence of calls. -/
theorem fifo_refines_queue (cap : Nat) (hcap : 0 < cap) (calls : List FifoCall) :
    let f := (run fifoPush (tssFifoAlloc cap) calls).1
    (run fifoPush (tssFifoAlloc cap) calls).2 = (run (queuePush cap) [] calls).2 ∧
      f.Holds (run (queuePush cap) [] calls).1 ∧ f.size ≤ cap ∧
      ∀ call, (fifoPush f call).2 = [none] → (fifoPush f call).1 = f := by
  obtain ⟨hout, hholds, hsame⟩ := run_fifoPush calls (tssFifoAlloc_holds hcap)
  refine ⟨hout, hholds, ?_, fun call => fifoPush_failed⟩
  rw [hholds.size]
  exact hholds.fits.trans_eq hsame

/-- Three bytes, and a write that runs past the end of the ring. -/
theorem fifo_refines_queue_three :
    (run fifoPush (tssFifoAlloc 3) [.write [1, 2], .drain 1, .write [3, 4], .peek 2 1]).2 =
      [some [], some [], some [], some [3, 4]] :=
  (fifo_refines_queue 3 (by decide) _).1

end Bytes

/-! ## Packets -/

/-- The FIFO holds these packets, oldest first. -/
structure TssFifo.Queues (f : TssFifo) (packets : List (List UInt8)) : Prop where
  whole : ∀ x ∈ packets, x.length = tsPacketSize
  holds : f.Holds packets.flatten

theorem length_flatten_whole {packets : List (List UInt8)}
    (h : ∀ x ∈ packets, x.length = tsPacketSize) :
    packets.flatten.length = tsPacketSize * packets.length := by
  induction packets with
  | nil => rfl
  | cons x packets ih =>
    rw [flatten_cons, length_append, h x mem_cons_self,
      ih fun y hy => h y (mem_cons_of_mem _ hy), length_cons, Nat.mul_succ, Nat.add_comm]

section Packets

variable {f : TssFifo} {x : List UInt8} {packets : List (List UInt8)}

theorem TssFifo.Queues.size (h : f.Queues packets) : f.size = tsPacketSize * packets.length :=
  h.holds.size.trans (length_flatten_whole h.whole)

theorem TssFifo.Holds.queues_nil (h : f.Holds []) : f.Queues [] :=
  ⟨fun _ hx => absurd hx not_mem_nil, h⟩

/-- The FIFO once `x` is written into it, the result ignored. -/
def TssFifo.putBytes (f : TssFifo) (x : List UInt8) : TssFifo := (f.write x).getD f

theorem TssFifo.Queues.putBytes (h : f.Queues packets) (hlen : x.length = tsPacketSize)
    (hroom : f.size + tsPacketSize ≤ f.capacity) :
    (f.putBytes x).Queues (packets ++ [x]) ∧ (f.putBytes x).capacity = f.capacity := by
  have hfits : packets.flatten.length + x.length ≤ f.capacity := by
    rw [← h.holds.size, hlen]
    exact hroom
  obtain ⟨g, hg, hcap, hholds⟩ := h.holds.write hfits
  unfold TssFifo.putBytes
  rw [hg, Option.getD_some]
  refine ⟨⟨?_, ?_⟩, hcap⟩
  · intro y hy
    rcases mem_append.mp hy with hy | hy
    · exact h.whole y hy
    · rw [mem_singleton.mp hy]
      exact hlen
  · rw [flatten_append, flatten_singleton]
    exact hholds

theorem TssFifo.Queues.first (h : f.Queues (x :: packets)) :
    (x :: packets).flatten.take tsPacketSize = x ∧
      (x :: packets).flatten.drop tsPacketSize = packets.flatten := by
  have hx : x.length = tsPacketSize := h.whole x mem_cons_self
  rw [flatten_cons, ← hx]
  exact ⟨take_left, drop_left⟩

theorem TssFifo.Queues.drain (h : f.Queues packets) :
    (f.drain tsPacketSize).Queues packets.tail := by
  have hdrain := h.holds.drain tsPacketSize
  cases packets with
  | nil => exact hdrain.queues_nil
  | cons x packets =>
    rw [h.first.2] at hdrain
    exact ⟨fun y hy => h.whole y (mem_cons_of_mem _ hy), hdrain⟩

theorem TssFifo.Queues.one_le (h : f.Queues (x :: packets)) :
    tsPacketSize ≤ (x :: packets).flatten.length := by
  rw [length_flatten_whole h.whole, length_cons]
  exact Nat.le_mul_of_pos_right _ (Nat.succ_pos _)

theorem TssFifo.Queues.take (h : f.Queues (x :: packets)) :
    f.read tsPacketSize = some (x, f.drain tsPacketSize) := by
  rw [h.holds.read h.one_le, h.first.1]

theorem TssFifo.Queues.peek (h : f.Queues (x :: packets)) : f.peek tsPacketSize 0 = some x := by
  rw [h.holds.peek ((Nat.zero_add _).trans_le h.one_le), drop_zero, h.first.1]

theorem TssFifo.Queues.exists_first (h : f.Queues packets) (hsize : tsPacketSize ≤ f.size) :
    ∃ x rest, packets = x :: rest := by
  cases packets with
  | nil =>
    rw [h.size] at hsize
    exact absurd hsize (by decide)
  | cons x rest => exact ⟨x, rest, rfl⟩

theorem TssFifo.Queues.emptied (h : f.Queues packets) : (f.drain f.size).Queues [] := by
  have hdrain := h.holds.drain f.size
  rw [h.holds.size, drop_length, ← h.holds.size] at hdrain
  exact hdrain.queues_nil

theorem TssFifo.Queues.reset (h : f.Queues packets) : f.reset.Queues [] := h.holds.reset.queues_nil

/-- A packet starts a section: the test of the rotation loop. -/
def startsSection (x : List UInt8) : Bool := x.getD 1 0 &&& 0x40 ≠ 0

theorem rotateLoop_capacity (f : TssFifo) : (rotateLoop f).capacity = f.capacity := by
  fun_induction rotateLoop f with
  | case1 | case3 => rfl
  | case2 f hsize hstart ih => exact ih

/-- **The rotation loop** drops packets up to the next start of a section. -/
theorem TssFifo.Queues.afterLoop (h : f.Queues packets) :
    (rotateLoop f).Queues (packets.dropWhile fun x => !startsSection x) := by
  induction packets generalizing f with
  | nil =>
    have hsize : ¬ tsPacketSize ≤ f.size := by
      rw [h.size]
      decide
    unfold rotateLoop
    rw [dif_neg hsize]
    exact h
  | cons x packets ih =>
    have hsize : tsPacketSize ≤ f.size := by
      rw [h.size, length_cons]
      exact Nat.le_mul_of_pos_right _ (Nat.succ_pos _)
    have hdrain := ih h.drain
    unfold rotateLoop
    rw [dif_pos hsize, h.peek, Option.getD_some]
    by_cases hstart : x.getD 1 0 &&& 0x40 ≠ 0
    · have hkeep : startsSection x = true := decide_eq_true hstart
      rw [if_pos hstart, dropWhile_cons, hkeep]
      exact h
    · have hdrop : startsSection x = false := decide_eq_false hstart
      rw [if_neg hstart, dropWhile_cons, hdrop]
      exact hdrain

theorem TssFifo.Queues.rotated (h : f.Queues packets) (hwide : tsPacketSize ≤ f.capacity) :
    ∃ old rest, packets = old ++ rest ∧ (rotateLoop (f.drain tsPacketSize)).Queues rest ∧
      (rotateLoop (f.drain tsPacketSize)).size + tsPacketSize ≤ f.capacity := by
  have hloop := h.drain.afterLoop
  obtain ⟨mid, hmid⟩ := dropWhile_suffix (fun x => !startsSection x) (l := packets.tail)
  generalize packets.tail.dropWhile (fun x => !startsSection x) = rest at hloop hmid
  have hfits := h.holds.fits
  rw [length_flatten_whole h.whole] at hfits
  cases packets with
  | nil =>
    obtain ⟨-, rfl⟩ := append_eq_nil_iff.mp hmid
    refine ⟨[], [], rfl, hloop, ?_⟩
    rw [hloop.size]
    exact hwide
  | cons x packets =>
    refine ⟨x :: mid, rest, congrArg (List.cons x) hmid.symm, hloop, ?_⟩
    have hlen : mid.length + rest.length = packets.length := by
      rw [← length_append, hmid]
      rfl
    rw [hloop.size]
    rw [length_cons] at hfits
    unfold tsPacketSize at hfits ⊢
    omega

end Packets

end TsAnalyzer.Shaper
