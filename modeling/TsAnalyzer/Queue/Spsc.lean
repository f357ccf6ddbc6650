/-
  The single-producer single-consumer queue (`src/spsc_queue.c`), one memory access at a time.

  A ring of `size + 1` slots, of which one stays empty.  Each party loads the other's index once per
  call and then copies a packet WORD BY WORD.
-/
import TsAnalyzer.Lib.Fifo
import TsAnalyzer.Lib.Run

namespace TsAnalyzer.Queue

open Lib Lib.Fifo List Function

variable {w : Nat} {β : Type}

/-! ## The queue -/

abbrev TsPacket (w : Nat) (β : Type) : Type := Fin w → β

structure SpscQueue (w : Nat) (β : Type) where
  head : Nat
  tail : Nat
  size : Nat
  /-- Read at indices below `size`. -/
  buffer : Nat → TsPacket w β

/-- `spsc_queue_create`, where memory is available; `zero` is what `calloc` fills it with. -/
def spscQueueCreate (zero : β) (size : Nat) : Option (SpscQueue w β) :=
  if size = 0 then none else some ⟨0, 0, size + 1, fun _ _ => zero⟩

/-- `spsc_queue_count`, its two loads made at one instant. -/
def spscQueueCount (q : SpscQueue w β) : Nat :=
  if q.tail ≤ q.head then q.head - q.tail else q.size - (q.tail - q.head)

/-- `spsc_queue_is_empty`, its two loads made at one instant. -/
def spscQueueIsEmpty (q : SpscQueue w β) : Bool := q.head == q.tail

/-- One word of a `memcpy` into a slot. -/
def SpscQueue.store (q : SpscQueue w β) (slot : Nat) (j : Fin w) (x : β) : SpscQueue w β :=
  { q with buffer := update q.buffer slot (update (q.buffer slot) j x) }

/-! ## The two parties -/

/-- `spsc_queue_push`, by what comes next. -/
inductive Producer (w : Nat) (β : Type) where
  | idle
  | loadHead (pkt : TsPacket w β)
  | loadTail (pkt : TsPacket w β) (head : Nat)
  /-- `memcpy` with `done` words copied; then the store of `head`. -/
  | copy (pkt : TsPacket w β) (head nextHead done : Nat)

/-- `spsc_queue_pop`, by what comes next; `dest` is the caller's packet. -/
inductive Consumer (w : Nat) (β : Type) where
  | idle
  | loadTail (dest : TsPacket w β)
  | loadHead (dest : TsPacket w β) (tail : Nat)
  /-- `memcpy` with `done` words copied; then the store of `tail`. -/
  | copy (dest : TsPacket w β) (tail done : Nat)

/-- The queue and its two parties. -/
structure Spsc (w : Nat) (β : Type) where
  queue : SpscQueue w β
  producer : Producer w β
  consumer : Consumer w β

/-- Nobody is in a call. -/
def Spsc.start (q : SpscQueue w β) : Spsc w β := ⟨q, .idle, .idle⟩

/-- The next memory access of the producer, with what its call reports if it ends there. -/
def producerStep (q : SpscQueue w β) :
    Producer w β → SpscQueue w β × Producer w β × List (Event (TsPacket w β))
  | .idle => (q, .idle, [])
  | .loadHead pkt => (q, .loadTail pkt q.head, [])
  | .loadTail pkt head =>
    let nextHead := (head + 1) % q.size
    if nextHead = q.tail then (q, .idle, [.pushFailed pkt])
    else (q, .copy pkt head nextHead 0, [])
  | .copy pkt head nextHead done =>
    if h : done < w then
      (q.store head ⟨done, h⟩ (pkt ⟨done, h⟩), .copy pkt head nextHead (done + 1), [])
    else ({ q with head := nextHead }, .idle, [.pushed pkt])

/-- The next memory access of the consumer, with what its call reports if it ends there. -/
def consumerStep (q : SpscQueue w β) :
    Consumer w β → SpscQueue w β × Consumer w β × List (Event (TsPacket w β))
  | .idle => (q, .idle, [])
  | .loadTail dest => (q, .loadHead dest q.tail, [])
  | .loadHead dest tail =>
    if tail = q.head then (q, .idle, [.popFailed]) else (q, .copy dest tail 0, [])
  | .copy dest tail done =>
    if h : done < w then
      (q, .copy (update dest ⟨done, h⟩ (q.buffer tail ⟨done, h⟩)) tail (done + 1), [])
    else ({ q with tail := (tail + 1) % q.size }, .idle, [.popped dest])

/-- What happens next. -/
inductive Act (w : Nat) (β : Type) where
  /-- The producer calls `spsc_queue_push`. -/
  | push (pkt : TsPacket w β)
  | producer
  /-- The consumer calls `spsc_queue_pop`. -/
  | pop (dest : TsPacket w β)
  | consumer

/-- One step; a party that is in a call makes no other. -/
def Spsc.step (s : Spsc w β) : Act w β → Spsc w β × List (Event (TsPacket w β))
  | .push pkt =>
    match s.producer with
    | .idle => ({ s with producer := .loadHead pkt }, [])
    | _ => (s, [])
  | .producer =>
    let r := producerStep s.queue s.producer
    ({ s with queue := r.1, producer := r.2.1 }, r.2.2)
  | .pop dest =>
    match s.consumer with
    | .idle => ({ s with consumer := .loadTail dest }, [])
    | _ => (s, [])
  | .consumer =>
    let r := consumerStep s.queue s.consumer
    ({ s with queue := r.1, consumer := r.2.1 }, r.2.2)

/-! ## The invariant -/

/-- The packets stand in the ring from `tail` to `head`. -/
structure SpscQueue.Queued (n : Nat) (q : SpscQueue w β) (items : List (TsPacket w β)) : Prop where
  size : q.size = n + 1
  tail : q.tail < n + 1
  length : items.length ≤ n
  head : q.head = (q.tail + items.length) % (n + 1)
  laid : Laid (n + 1) q.buffer q.tail items

/-- The producer's index is its own, and while it copies there is room for one more. -/
def ProducerOk (n : Nat) (q : SpscQueue w β) (items : List (TsPacket w β)) : Producer w β → Prop
  | .idle | .loadHead _ => True
  | .loadTail _ head => head = q.head
  | .copy pkt head nextHead done =>
    head = q.head ∧ nextHead = (head + 1) % (n + 1) ∧ items.length < n ∧
      ∀ j : Fin w, j < done → q.buffer head j = pkt j

/-- The consumer's index is its own, and while it copies there is a packet. -/
def ConsumerOk (q : SpscQueue w β) (items : List (TsPacket w β)) : Consumer w β → Prop
  | .idle | .loadTail _ => True
  | .loadHead _ tail => tail = q.tail
  | .copy dest tail done =>
    tail = q.tail ∧ items ≠ [] ∧ ∀ j : Fin w, j < done → dest j = q.buffer tail j

/-- The invariant: `items` are queued, and both parties are right about them. -/
structure Spsc.Holds (n : Nat) (s : Spsc w β) (items : List (TsPacket w β)) : Prop where
  queued : s.queue.Queued n items
  producer : ProducerOk n s.queue items s.producer
  consumer : ConsumerOk s.queue items s.consumer

variable {n : Nat} {q : SpscQueue w β} {items : List (TsPacket w β)}

theorem SpscQueue.Queued.full_iff (h : q.Queued n items) :
    (q.head + 1) % q.size = q.tail ↔ items.length = n := by
  rw [h.size, h.head]
  exact succ_slot_eq_iff h.tail h.length

theorem SpscQueue.Queued.empty_iff (h : q.Queued n items) : q.tail = q.head ↔ items = [] := by
  rw [h.head, ← length_eq_zero_iff]
  exact slot_eq_iff h.tail h.length

theorem SpscQueue.Queued.count (h : q.Queued n items) : spscQueueCount q = items.length := by
  have hlen := h.length
  have htail := h.tail
  rw [spscQueueCount, h.size, h.head]
  rcases Nat.lt_or_ge (q.tail + items.length) (n + 1) with hlow | hwrap
  · rw [Nat.mod_eq_of_lt hlow, if_pos (Nat.le_add_right _ _)]
    omega
  · rw [Nat.mod_eq_sub_mod hwrap, Nat.mod_eq_of_lt (by omega), if_neg (by omega)]
    omega

/-! ## The producer -/

variable {s : Spsc w β} {pkt : TsPacket w β}

/-- A word written to the free slot changes nothing that is queued, and nothing the consumer
    copies. -/
theorem word_written (h : s.Holds n items) {nextHead done : Nat}
    (hpc : s.producer = .copy pkt s.queue.head nextHead done) (hdone : done < w) :
    Spsc.Holds n
      { s with
        queue := s.queue.store s.queue.head ⟨done, hdone⟩ (pkt ⟨done, hdone⟩)
        producer := .copy pkt s.queue.head nextHead (done + 1) } items := by
  have hok := h.producer
  rw [hpc] at hok
  obtain ⟨-, hnext, hroom, hcopied⟩ := hok
  refine ⟨⟨h.queued.size, h.queued.tail, h.queued.length, h.queued.head, ?_⟩, ?_, ?_⟩
  · show Laid (n + 1) (update s.queue.buffer s.queue.head _) s.queue.tail items
    rw [h.queued.head]
    exact h.queued.laid.write (Nat.lt_succ_of_le h.queued.length) _
  · refine ⟨rfl, hnext, hroom, fun j hj => ?_⟩
    show update s.queue.buffer s.queue.head _ s.queue.head j = pkt j
    rw [update_self]
    by_cases hlast : j = ⟨done, hdone⟩
    · rw [hlast, update_self]
    · rw [update_of_ne hlast]
      have hval : j.val ≠ done := fun heq => hlast (Fin.ext heq)
      exact hcopied j (by omega)
  · have hcons := h.consumer
    revert hcons
    cases s.consumer with
    | idle | loadTail => exact fun _ => trivial
    | loadHead _ _ => exact fun hcons => hcons
    | copy dest tail got =>
      rintro ⟨htail, hne, hgot⟩
      refine ⟨htail, hne, fun j hj => ?_⟩
      have hslot : tail ≠ s.queue.head := fun heq => hne (h.queued.empty_iff.mp (htail ▸ heq))
      show dest j = update s.queue.buffer s.queue.head _ tail j
      rw [update_of_ne hslot]
      exact hgot j hj

/-- The store of `head` queues the packet that was copied. -/
theorem head_stored (h : s.Holds n items) {head nextHead done : Nat}
    (hpc : s.producer = .copy pkt head nextHead done) (hdone : ¬ done < w) :
    Spsc.Holds n { s with queue := { s.queue with head := nextHead }, producer := .idle }
      (items ++ [pkt]) := by
  have hok := h.producer
  rw [hpc] at hok
  obtain ⟨hhead, hnext, hroom, hcopied⟩ := hok
  have hslot : s.queue.buffer s.queue.head = pkt :=
    funext fun j => hhead ▸ hcopied j (by omega)
  have hlen : (items ++ [pkt]).length = items.length + 1 := by
    rw [length_append, length_singleton]
  refine ⟨⟨h.queued.size, h.queued.tail, by omega, ?_, ?_⟩, trivial, ?_⟩
  · show nextHead = _
    rw [hnext, hhead, h.queued.head, hlen, Nat.mod_add_mod, Nat.add_assoc]
  · rw [h.queued.head] at hslot
    exact h.queued.laid.snoc hslot
  · have hcons := h.consumer
    revert hcons
    cases s.consumer with
    | idle | loadTail => exact fun _ => trivial
    | loadHead _ _ => exact fun hcons => hcons
    | copy dest tail got =>
      rintro ⟨htail, -, hgot⟩
      exact ⟨htail, append_ne_nil_of_right_ne_nil _ (cons_ne_nil _ _), hgot⟩

theorem producer_refines (h : s.Holds n items) :
    ∃ items', History n items (s.step .producer).2 items' ∧
      (s.step .producer).1.Holds n items' := by
  have hok := h.producer
  cases hpc : s.producer with
  | idle =>
    refine ⟨items, ?_, ?_⟩ <;> simp only [Spsc.step, hpc, producerStep]
    · exact .nil
    · exact ⟨h.queued, trivial, h.consumer⟩
  | loadHead pkt =>
    refine ⟨items, ?_, ?_⟩ <;> simp only [Spsc.step, hpc, producerStep]
    · exact .nil
    · exact ⟨h.queued, rfl, h.consumer⟩
  | loadTail pkt head =>
    rw [hpc] at hok
    obtain rfl : head = s.queue.head := hok
    by_cases hfull : (s.queue.head + 1) % s.queue.size = s.queue.tail
    · -- the instant of a failed push: `n` packets are queued
      refine ⟨items, ?_, ?_⟩ <;> simp only [Spsc.step, hpc, producerStep, if_pos hfull]
      · exact .single (.pushFailed (h.queued.full_iff.mp hfull))
      · exact ⟨h.queued, trivial, h.consumer⟩
    · have hroom : items.length < n :=
        Nat.lt_of_le_of_ne h.queued.length fun heq => hfull (h.queued.full_iff.mpr heq)
      refine ⟨items, ?_, ?_⟩ <;> simp only [Spsc.step, hpc, producerStep, if_neg hfull]
      · exact .nil
      · refine ⟨h.queued, ⟨rfl, ?_, hroom, fun j hj => absurd hj (Nat.not_lt_zero _)⟩, h.consumer⟩
        rw [h.queued.size]
  | copy pkt head nextHead done =>
    rw [hpc] at hok
    obtain ⟨rfl, -, hroom, -⟩ := hok
    by_cases hdone : done < w
    · refine ⟨items, ?_, ?_⟩ <;> simp only [Spsc.step, hpc, producerStep, dif_pos hdone]
      · exact .nil
      · exact word_written h hpc hdone
    · refine ⟨items ++ [pkt], ?_, ?_⟩ <;> simp only [Spsc.step, hpc, producerStep, dif_neg hdone]
      · exact .single (.pushed hroom)
      · exact head_stored h hpc hdone

/-! ## The consumer -/

/-- The store of `tail` takes the packet that was copied out of the queue. -/
theorem tail_stored (h : s.Holds n (pkt :: items)) {tail : Nat} (htail : tail = s.queue.tail) :
    Spsc.Holds n
      { s with queue := { s.queue with tail := (tail + 1) % s.queue.size }, consumer := .idle }
      items := by
  have hlen := h.queued.length
  rw [length_cons] at hlen
  subst htail
  refine ⟨⟨h.queued.size, ?_, Nat.le_of_succ_le hlen, ?_, ?_⟩, ?_, trivial⟩
  · show (s.queue.tail + 1) % s.queue.size < n + 1
    rw [h.queued.size]
    exact Nat.mod_lt _ (Nat.succ_pos n)
  · show s.queue.head = ((s.queue.tail + 1) % s.queue.size + items.length) % (n + 1)
    rw [h.queued.size, h.queued.head, Nat.mod_add_mod, length_cons, Nat.add_assoc,
      Nat.add_comm 1]
  · show Laid (n + 1) s.queue.buffer ((s.queue.tail + 1) % s.queue.size) items
    rw [h.queued.size]
    exact h.queued.laid.rest
  · have hprod := h.producer
    revert hprod
    cases s.producer with
    | idle | loadHead => exact fun _ => trivial
    | loadTail _ _ => exact fun hprod => hprod
    | copy pkt' head nextHead done =>
      rintro ⟨hhead, hnext, hroom, hcopied⟩
      rw [length_cons] at hroom
      exact ⟨hhead, hnext, Nat.lt_of_succ_lt hroom, hcopied⟩

theorem consumer_refines (h : s.Holds n items) :
    ∃ items', History n items (s.step .consumer).2 items' ∧
      (s.step .consumer).1.Holds n items' := by
  have hok := h.consumer
  cases hpc : s.consumer with
  | idle =>
    refine ⟨items, ?_, ?_⟩ <;> simp only [Spsc.step, hpc, consumerStep]
    · exact .nil
    · exact ⟨h.queued, h.producer, trivial⟩
  | loadTail dest =>
    refine ⟨items, ?_, ?_⟩ <;> simp only [Spsc.step, hpc, consumerStep]
    · exact .nil
    · exact ⟨h.queued, h.producer, rfl⟩
  | loadHead dest tail =>
    rw [hpc] at hok
    obtain rfl : tail = s.queue.tail := hok
    by_cases hempty : s.queue.tail = s.queue.head
    · -- the instant of a failed pop: no packet is queued
      obtain rfl : items = [] := h.queued.empty_iff.mp hempty
      refine ⟨[], ?_, ?_⟩ <;> simp only [Spsc.step, hpc, consumerStep, if_pos hempty]
      · exact .single .popFailed
      · exact ⟨h.queued, h.producer, trivial⟩
    · have hne : items ≠ [] := fun heq => hempty (h.queued.empty_iff.mpr heq)
      refine ⟨items, ?_, ?_⟩ <;> simp only [Spsc.step, hpc, consumerStep, if_neg hempty]
      · exact .nil
      · exact ⟨h.queued, h.producer, rfl, hne, fun j hj => absurd hj (Nat.not_lt_zero _)⟩
  | copy dest tail done =>
    rw [hpc] at hok
    obtain ⟨htail, hne, hgot⟩ := hok
    by_cases hdone : done < w
    · refine ⟨items, ?_, ?_⟩ <;> simp only [Spsc.step, hpc, consumerStep, dif_pos hdone]
      · exact .nil
      · refine ⟨h.queued, h.producer, htail, hne, fun j hj => ?_⟩
        by_cases hlast : j = ⟨done, hdone⟩
        · rw [hlast, update_self]
        · rw [update_of_ne hlast]
          have hval : j.val ≠ done := fun heq => hlast (Fin.ext heq)
          exact hgot j (by omega)
    · obtain ⟨pkt, rest, rfl⟩ := exists_cons_of_ne_nil hne
      obtain rfl : dest = pkt := by
        rw [← h.queued.laid.first h.queued.tail, ← htail]
        exact funext fun j => hgot j (by omega)
      refine ⟨rest, ?_, ?_⟩ <;> simp only [Spsc.step, hpc, consumerStep, dif_neg hdone]
      · exact .single .popped
      · exact tail_stored h htail

/-! ## Every interleaving -/

theorem spscStep_refines (s : Spsc w β) (items : List (TsPacket w β)) (a : Act w β)
    (h : s.Holds n items) :
    ∃ items', History n items (s.step a).2 items' ∧ (s.step a).1.Holds n items' := by
  cases a with
  | producer => exact producer_refines h
  | consumer => exact consumer_refines h
  | push pkt =>
    refine ⟨items, ?_, ?_⟩ <;> cases hpc : s.producer <;> simp only [Spsc.step, hpc]
    all_goals first
      | exact .nil
      | exact h
      | exact ⟨h.queued, trivial, h.consumer⟩
  | pop dest =>
    refine ⟨items, ?_, ?_⟩ <;> cases hpc : s.consumer <;> simp only [Spsc.step, hpc]
    all_goals first
      | exact .nil
      | exact h
      | exact ⟨h.queued, h.producer, trivial⟩

theorem start_holds (zero : β) (hn : n ≠ 0) :
    ∃ q, spscQueueCreate zero n = some q ∧ (Spsc.start q : Spsc w β).Holds n [] :=
  ⟨_, if_neg hn,
    ⟨rfl, Nat.succ_pos n, Nat.zero_le n, rfl, fun _ hk => absurd hk (Nat.not_lt_zero _)⟩,
    trivial, trivial⟩

/-- **The queue refines a FIFO of the requested capacity**, in every interleaving of one producer
    and one consumer: what the calls report is a history of such a FIFO, in which a push fails only
    at `size` queued packets and a pop only at none; the packets popped are, unchanged and in order,
    the first of those pushed; and at most `size` packets are queued, which is what stands between
    `tail` and `head`. -/
theorem spsc_refines_fifo (zero : β) (size : Nat) (hsize : 1 ≤ size) :
    ∃ q : SpscQueue w β, spscQueueCreate zero size = some q ∧ ∀ as : List (Act w β),
      ∃ items,
        History size [] (run Spsc.step (Spsc.start q) as).2 items ∧
        poppedOf (run Spsc.step (Spsc.start q) as).2 ++ items =
          pushedOf (run Spsc.step (Spsc.start q) as).2 ∧
        items.length ≤ size ∧
        (run Spsc.step (Spsc.start q) as).1.queue.Queued size items := by
  obtain ⟨q, hq, hstart⟩ := start_holds (w := w) zero (Nat.ne_of_gt hsize)
  refine ⟨q, hq, fun as => ?_⟩
  obtain ⟨items, hhist, hholds⟩ := run_refines (fun _ => .nil) History.trans
    (fun s items a => spscStep_refines s items a) as (Spsc.start q) [] hstart
  exact ⟨items, hhist, hhist.conserves.symm, hhist.length_le (Nat.zero_le _), hholds.queued⟩

/-- A queue for one packet of one byte. -/
theorem one_slot_refines :
    1 ≤ 1 ∧ ∃ q : SpscQueue 1 UInt8, spscQueueCreate 0 1 = some q ∧ ∀ as : List (Act 1 UInt8),
      ∃ items,
        History 1 [] (run Spsc.step (Spsc.start q) as).2 items ∧
        poppedOf (run Spsc.step (Spsc.start q) as).2 ++ items =
          pushedOf (run Spsc.step (Spsc.start q) as).2 ∧
        items.length ≤ 1 ∧
        (run Spsc.step (Spsc.start q) as).1.queue.Queued 1 items :=
  ⟨Nat.le_refl 1, spsc_refines_fifo 0 1 (Nat.le_refl 1)⟩

/-- **`spsc_queue_count` is right** in every interleaving, also while calls are under way: what was
    pushed and not yet popped, at most the capacity; and `spsc_queue_is_empty` agrees with it. -/
theorem spsc_count_exact (zero : β) (n : Nat) :
    ∃ q : SpscQueue w β, spscQueueCreate zero (n + 1) = some q ∧ ∀ as : List (Act w β),
      let r := run Spsc.step (Spsc.start q) as
      (poppedOf r.2).length + spscQueueCount r.1.queue = (pushedOf r.2).length ∧
        spscQueueCount r.1.queue ≤ n + 1 ∧
        (spscQueueIsEmpty r.1.queue = true ↔ spscQueueCount r.1.queue = 0) := by
  obtain ⟨q, hq, hstart⟩ := start_holds (w := w) zero (Nat.succ_ne_zero n)
  refine ⟨q, hq, fun as => ?_⟩
  obtain ⟨items, hhist, hholds⟩ := run_refines (fun _ => .nil) History.trans
    (fun s items a => spscStep_refines s items a) as (Spsc.start q) [] hstart
  have hcount := hholds.queued.count
  have hconserved := congrArg List.length hhist.conserves
  rw [nil_append, length_append] at hconserved
  refine ⟨by omega, hcount.trans_le (hhist.length_le (Nat.zero_le _)), ?_⟩
  rw [hcount, length_eq_zero_iff, ← hholds.queued.empty_iff, spscQueueIsEmpty, beq_iff_eq, eq_comm]

end TsAnalyzer.Queue
