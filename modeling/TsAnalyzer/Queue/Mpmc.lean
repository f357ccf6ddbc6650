/-
  The multi-producer multi-consumer queue (`src/mpmc_queue.c`), one atomic operation at a time.

  A push tests for room, takes a TICKET by incrementing `head`, and waits for the slot of its ticket
  to be empty; a pop takes a ticket by moving `tail` and waits for the slot to be filled.  The test
  is loose: `head` may run past `tail + capacity`, and calls of different laps compete for a slot.

  **Model** — any number of calls run interleaved (`Lib.Pool`).  Indices do not overflow; the
  difference of the room test is the wrapping one of the source.
-/
import TsAnalyzer.Lib.Fifo
import TsAnalyzer.Lib.Pool
import TsAnalyzer.Lib.Word

namespace TsAnalyzer.Queue

open Lib Lib.Fifo Lib.Pool List Function

/-! ## The queue -/

/-- `UINT32_MAX`, the mark of an empty slot. -/
def emptySlot : UInt32 := 0xFFFFFFFF

/-- An item that can be told from an empty slot. -/
abbrev Item : Type := { v : UInt32 // v ≠ emptySlot }

structure MpmcQueue where
  capacity : Nat
  head : Nat
  tail : Nat
  /-- Read at indices below `capacity`. -/
  buffer : Nat → UInt32

/-- `while (power < capacity && power != 0) power *= 2`, for at most `fuel` rounds. -/
def roundUp (capacity : Nat) : Nat → Nat → Nat
  | 0, power => power
  | fuel + 1, power =>
    if power < capacity ∧ power ≠ 0 then roundUp capacity fuel (power * 2 % 2 ^ 64) else power

/-- `mpmc_queue_create`, where memory is available; 64 doublings make any `size_t` zero. -/
def mpmcQueueCreate (capacity : Nat) : MpmcQueue where
  capacity := if capacity = 0 ∨ capacity &&& (capacity - 1) ≠ 0 then roundUp capacity 64 1
    else capacity
  head := 0
  tail := 0
  buffer _ := emptySlot

def MpmcQueue.slot (q : MpmcQueue) (ticket : Nat) : Nat := ticket &&& (q.capacity - 1)

/-! ## Pushes and pops -/

/-- A call in progress, by what comes next. -/
inductive Call where
  | pushLoadHead (item : Item)
  | pushLoadTail (item : Item) (head : Nat)
  /-- There seemed to be room: `fetch_add` on `head`. -/
  | pushClaim (item : Item)
  /-- Compare-and-swap on the slot, until it is empty. -/
  | pushStore (item : Item) (ticket : Nat)
  | popLoadTail
  | popLoadHead (tail : Nat)
  /-- Compare-and-swap on `tail`. -/
  | popClaim (tail : Nat)
  /-- Exchange on the slot, until there is an item. -/
  | popTake (ticket : Nat)

/-- One atomic operation of a call; `spurious` makes a weak compare-and-swap fail for no reason. -/
def callStep (q : MpmcQueue) (c : Call) (spurious : Bool) :
    MpmcQueue × Progress Call (Event UInt32) :=
  match c with
  | .pushLoadHead item => (q, .running (.pushLoadTail item q.head))
  | .pushLoadTail item head =>
    if q.capacity ≤ sub64 head q.tail then (q, .returned (.pushFailed item))
    else (q, .running (.pushClaim item))
  | .pushClaim item => ({ q with head := q.head + 1 }, .running (.pushStore item q.head))
  | .pushStore item ticket =>
    if spurious = false ∧ q.buffer (q.slot ticket) = emptySlot then
      ({ q with buffer := update q.buffer (q.slot ticket) item }, .returned (.pushed item))
    else (q, .running (.pushStore item ticket))
  | .popLoadTail => (q, .running (.popLoadHead q.tail))
  | .popLoadHead tail =>
    if q.head ≤ tail then (q, .returned .popFailed) else (q, .running (.popClaim tail))
  | .popClaim tail =>
    if spurious = false ∧ q.tail = tail then
      ({ q with tail := tail + 1 }, .running (.popTake tail))
    else (q, .running (.popLoadHead q.tail))
  | .popTake ticket =>
    let val := q.buffer (q.slot ticket)
    if val = emptySlot then (q, .running (.popTake ticket))
    else ({ q with buffer := update q.buffer (q.slot ticket) emptySlot },
      .returned (.popped val))

/-- What a thread asks for. -/
inductive Request where
  | push (item : Item)
  | pop

def mpmc : Program MpmcQueue Call Request Bool (Event UInt32) where
  enter
    | .push item => .pushLoadHead item
    | .pop => .popLoadTail
  step := callStep

/-! ## A power of two -/

theorem mpmcQueueCreate_capacity (k : Nat) : (mpmcQueueCreate (2 ^ k)).capacity = 2 ^ k := by
  have hpow : 2 ^ k &&& (2 ^ k - 1) = 0 := by rw [Nat.and_two_pow_sub_one_eq_mod, Nat.mod_self]
  have hpos : 2 ^ k ≠ 0 := Nat.pos_iff_ne_zero.mp (Nat.two_pow_pos k)
  exact if_neg (not_or.mpr ⟨hpos, not_not.mpr hpow⟩)

theorem MpmcQueue.slot_eq {q : MpmcQueue} {k : Nat} (h : q.capacity = 2 ^ k) (ticket : Nat) :
    q.slot ticket = ticket % 2 ^ k := by
  rw [MpmcQueue.slot, h, Nat.and_two_pow_sub_one_eq_mod]

/-! ## The items in the slots -/

def slotItems (v : UInt32) : Multiset UInt32 := if v = emptySlot then 0 else {v}

/-- The items in the slots. -/
def MpmcQueue.contents (q : MpmcQueue) : Multiset UInt32 :=
  ∑ i ∈ Finset.range q.capacity, slotItems (q.buffer i)

theorem MpmcQueue.contents_update (q : MpmcQueue) {i : Nat} (hi : i < q.capacity) (v : UInt32) :
    { q with buffer := update q.buffer i v }.contents + slotItems (q.buffer i) =
      q.contents + slotItems v :=
  sum_update_add slotItems (Finset.mem_range.mpr hi) q.buffer v

/-! ## The books -/

/-- The number of items a slot holds. -/
def held (v : UInt32) : Nat := if v = emptySlot then 0 else 1

/-- The call holds a push ticket of the slot. -/
def pushing (size i : Nat) : Call → Bool
  | .pushStore _ ticket => ticket % size == i
  | _ => false

/-- The call holds a pop ticket of the slot. -/
def popping (size i : Nat) : Call → Bool
  | .popTake ticket => ticket % size == i
  | _ => false

/-- The invariant: the books of every slot, and of the items. -/
structure Balanced (k : Nat) (q : MpmcQueue) (calls : List Call) (log : List (Event UInt32)) :
    Prop where
  capacity : q.capacity = 2 ^ k
  tail_le : q.tail ≤ q.head
  claims : ∀ tail, .popClaim tail ∈ calls → tail < q.head
  slots : ∀ i < 2 ^ k, dealt (2 ^ k) i q.head + calls.countP (popping (2 ^ k) i) =
    dealt (2 ^ k) i q.tail + calls.countP (pushing (2 ^ k) i) + held (q.buffer i)
  items : (pushedOf log : Multiset UInt32) = poppedOf log + q.contents

variable {k : Nat} {q : MpmcQueue} {pre post : List Call} {log : List (Event UInt32)}

theorem create_balanced (k : Nat) : Balanced k (mpmcQueueCreate (2 ^ k)) [] [] where
  capacity := mpmcQueueCreate_capacity k
  tail_le := Nat.le_refl 0
  claims _ h := absurd h not_mem_nil
  slots _ _ := rfl
  items := by
    have hempty : ∀ i ∈ Finset.range (mpmcQueueCreate (2 ^ k)).capacity,
        slotItems ((mpmcQueueCreate (2 ^ k)).buffer i) = 0 := fun _ _ => if_pos rfl
    rw [MpmcQueue.contents, Finset.sum_eq_zero hempty]
    rfl

theorem Balanced.slot_lt {calls : List Call} (h : Balanced k q calls log) (ticket : Nat) :
    q.slot ticket < q.capacity := by
  rw [MpmcQueue.slot_eq h.capacity, h.capacity]
  exact Nat.mod_lt _ (Nat.two_pow_pos k)

/-- Another call in the place of `c` may add a claim of its own. -/
theorem Balanced.claims_replaced {c c' : Call} (h : Balanced k q (pre ++ c :: post) log)
    (hclaim : ∀ tail, c' = .popClaim tail → tail < q.head) :
    ∀ tail, .popClaim tail ∈ pre ++ c' :: post → tail < q.head := by
  intro tail htail
  rcases mem_append.mp htail with hmem | hmem
  · exact h.claims tail (mem_append_left _ hmem)
  · rcases mem_cons.mp hmem with heq | hmem
    · exact hclaim tail heq.symm
    · exact h.claims tail (mem_append_right _ (mem_cons_of_mem _ hmem))

/-- No call in the place of `c` adds none. -/
theorem Balanced.claims_left {c : Call} (h : Balanced k q (pre ++ c :: post) log) :
    ∀ tail, .popClaim tail ∈ pre ++ post → tail < q.head := fun tail htail =>
  h.claims tail (((sublist_cons_self c post).append_left pre).subset htail)

/-! ## Calls without a ticket -/

theorem Balanced.entered {calls : List Call} (h : Balanced k q calls log) (request : Request) :
    Balanced k q (calls ++ [mpmc.enter request]) log where
  capacity := h.capacity
  tail_le := h.tail_le
  claims tail htail := by
    rcases mem_append.mp htail with hmem | hmem
    · exact h.claims tail hmem
    · cases request <;> cases mem_singleton.mp hmem
  slots i hi := by
    have hslot := h.slots i hi
    cases request <;>
      simp only [countP_append, countP_singleton, mpmc, pushing, popping] <;> exact hslot
  items := h.items

theorem Balanced.goes_on {c c' : Call} (h : Balanced k q (pre ++ c :: post) log)
    (hpushing : ∀ i, pushing (2 ^ k) i c' = pushing (2 ^ k) i c)
    (hpopping : ∀ i, popping (2 ^ k) i c' = popping (2 ^ k) i c)
    (hclaim : ∀ tail, c' = .popClaim tail → tail < q.head) :
    Balanced k q (pre ++ c' :: post) log where
  capacity := h.capacity
  tail_le := h.tail_le
  claims := h.claims_replaced hclaim
  slots i hi := by
    have hslot := h.slots i hi
    simp only [countP_append, countP_cons, hpushing, hpopping] at hslot ⊢
    exact hslot
  items := h.items

theorem Balanced.fails {c : Call} {e : Event UInt32} (h : Balanced k q (pre ++ c :: post) log)
    (hpushing : ∀ i, pushing (2 ^ k) i c = false) (hpopping : ∀ i, popping (2 ^ k) i c = false)
    (hpushed : pushedOf [e] = []) (hpopped : poppedOf [e] = []) :
    Balanced k q (pre ++ post) (log ++ [e]) where
  capacity := h.capacity
  tail_le := h.tail_le
  claims := h.claims_left
  slots i hi := by
    have hslot := h.slots i hi
    simp only [countP_append, countP_cons, hpushing, hpopping] at hslot ⊢
    exact hslot
  items := by
    rw [pushedOf_append, poppedOf_append, hpushed, hpopped, append_nil, append_nil]
    exact h.items

/-! ## Tickets -/

theorem Balanced.push_claimed {item : Item}
    (h : Balanced k q (pre ++ .pushClaim item :: post) log) :
    Balanced k { q with head := q.head + 1 } (pre ++ .pushStore item q.head :: post) log where
  capacity := h.capacity
  tail_le := Nat.le_succ_of_le h.tail_le
  claims tail htail :=
    Nat.lt_succ_of_lt (h.claims_replaced (fun _ heq => by cases heq) tail htail)
  slots i hi := by
    have hslot := h.slots i hi
    simp only [countP_append, countP_cons, pushing, popping, dealt_succ] at hslot ⊢
    by_cases hi' : q.head % 2 ^ k = i <;> simp [hi'] at hslot ⊢ <;> omega
  items := h.items

theorem Balanced.pop_claimed (h : Balanced k q (pre ++ .popClaim q.tail :: post) log) :
    Balanced k { q with tail := q.tail + 1 } (pre ++ .popTake q.tail :: post) log where
  capacity := h.capacity
  tail_le := h.claims q.tail (mem_append_right _ (mem_cons_self ..))
  claims := h.claims_replaced fun _ heq => by cases heq
  slots i hi := by
    have hslot := h.slots i hi
    simp only [countP_append, countP_cons, pushing, popping, dealt_succ] at hslot ⊢
    by_cases hi' : q.tail % 2 ^ k = i <;> simp [hi'] at hslot ⊢ <;> omega
  items := h.items

/-! ## Slots -/

theorem Balanced.pushed {item : Item} {ticket : Nat}
    (h : Balanced k q (pre ++ .pushStore item ticket :: post) log)
    (hfree : q.buffer (q.slot ticket) = emptySlot) :
    Balanced k { q with buffer := update q.buffer (q.slot ticket) item } (pre ++ post)
      (log ++ [.pushed item]) where
  capacity := h.capacity
  tail_le := h.tail_le
  claims := h.claims_left
  slots i hi := by
    have hslot := h.slots i hi
    rw [MpmcQueue.slot_eq h.capacity] at hfree ⊢
    simp only [countP_append, countP_cons, pushing, popping] at hslot ⊢
    by_cases hi' : ticket % 2 ^ k = i
    · subst hi'
      simp [hfree, held, item.property] at hslot ⊢
      omega
    · rw [update_of_ne (Ne.symm hi')]
      simp [hi'] at hslot ⊢
      omega
  items := by
    have hcontents := q.contents_update (h.slot_lt ticket) item
    rw [hfree, slotItems, if_pos rfl, add_zero, slotItems, if_neg item.property] at hcontents
    rw [hcontents, ← add_assoc, pushedOf_append, poppedOf_append, ← Multiset.coe_add,
      ← Multiset.coe_add, h.items]
    show (poppedOf log : Multiset UInt32) + q.contents + {item.val} =
      poppedOf log + 0 + q.contents + {item.val}
    rw [add_zero]

theorem Balanced.popped {ticket : Nat} (h : Balanced k q (pre ++ .popTake ticket :: post) log)
    (hfull : q.buffer (q.slot ticket) ≠ emptySlot) :
    Balanced k { q with buffer := update q.buffer (q.slot ticket) emptySlot }
      (pre ++ post) (log ++ [.popped (q.buffer (q.slot ticket))]) where
  capacity := h.capacity
  tail_le := h.tail_le
  claims := h.claims_left
  slots i hi := by
    have hslot := h.slots i hi
    rw [MpmcQueue.slot_eq h.capacity] at hfull ⊢
    simp only [countP_append, countP_cons, pushing, popping] at hslot ⊢
    by_cases hi' : ticket % 2 ^ k = i
    · subst hi'
      simp [hfull, held] at hslot ⊢
      omega
    · rw [update_of_ne (Ne.symm hi')]
      simp [hi'] at hslot ⊢
      omega
  items := by
    have hcontents := q.contents_update (h.slot_lt ticket) emptySlot
    rw [slotItems, if_neg hfull, slotItems, if_pos rfl, add_zero] at hcontents
    rw [pushedOf_append, poppedOf_append, ← Multiset.coe_add, ← Multiset.coe_add, h.items,
      ← hcontents]
    exact (add_zero _).trans (add_assoc ..).symm |>.trans (add_right_comm ..)

/-! ## Every step -/

theorem Balanced.running {c c' : Call} {choice : Bool} {q' : MpmcQueue}
    (h : Balanced k q (pre ++ c :: post) log) (hstep : callStep q c choice = (q', .running c')) :
    Balanced k q' (pre ++ c' :: post) log := by
  cases c with
  | pushLoadHead | popLoadTail =>
    cases hstep
    exact h.goes_on (fun _ => rfl) (fun _ => rfl) fun _ heq => by cases heq
  | pushLoadTail item head =>
    rw [callStep] at hstep
    split at hstep <;> cases hstep
    exact h.goes_on (fun _ => rfl) (fun _ => rfl) fun _ heq => by cases heq
  | pushClaim item =>
    cases hstep
    exact h.push_claimed
  | pushStore item ticket =>
    rw [callStep] at hstep
    split at hstep <;> cases hstep
    exact h
  | popLoadHead tail =>
    rw [callStep] at hstep
    split at hstep <;> cases hstep
    refine h.goes_on (fun _ => rfl) (fun _ => rfl) fun tail' heq => ?_
    cases heq
    omega
  | popClaim tail =>
    rw [callStep] at hstep
    split at hstep <;> cases hstep
    · rename_i hcas
      obtain ⟨-, rfl⟩ := hcas
      exact h.pop_claimed
    · exact h.goes_on (fun _ => rfl) (fun _ => rfl) fun _ heq => by cases heq
  | popTake ticket =>
    simp only [callStep] at hstep
    split at hstep <;> cases hstep
    exact h

theorem Balanced.returned {c : Call} {choice : Bool} {q' : MpmcQueue} {e : Event UInt32}
    (h : Balanced k q (pre ++ c :: post) log) (hstep : callStep q c choice = (q', .returned e)) :
    Balanced k q' (pre ++ post) (log ++ [e]) := by
  cases c with
  | pushLoadHead | pushClaim | popLoadTail => cases hstep
  | pushLoadTail | popLoadHead =>
    rw [callStep] at hstep
    split at hstep <;> cases hstep
    exact h.fails (fun _ => rfl) (fun _ => rfl) rfl rfl
  | pushStore item ticket =>
    rw [callStep] at hstep
    split at hstep <;> cases hstep
    rename_i hcas
    exact h.pushed hcas.2
  | popClaim tail =>
    rw [callStep] at hstep
    split at hstep <;> cases hstep
  | popTake ticket =>
    simp only [callStep] at hstep
    split at hstep <;> cases hstep
    rename_i hfull
    exact h.popped hfull

theorem run_balanced (k : Nat) (as : List (Act Request Bool)) :
    Balanced k (run (step mpmc) (.start (mpmcQueueCreate (2 ^ k))) as).1.shared
      ((run (step mpmc) (.start (mpmcQueueCreate (2 ^ k))) as).1.calls.map Running.call)
      ((run (step mpmc) (.start (mpmcQueueCreate (2 ^ k))) as).2.map Prod.snd) :=
  run_invariant (I := Balanced k) (fun _ _ _ request h => h.entered request)
    (fun _ _ _ _ _ _ _ _ h hstep => h.running hstep)
    (fun _ _ _ _ _ _ _ _ h hstep => h.returned hstep) as _ (create_balanced k)

/-! ## Between calls -/

/-- One pop, with nobody else around. -/
def popAlone : List (Act Request Bool) := .call .pop :: replicate 4 (.advance 0 false)

theorem pop_alone {s : System MpmcQueue Call} (hquiet : s.calls = [])
    (hlt : s.shared.tail < s.shared.head)
    (hitem : s.shared.buffer (s.shared.slot s.shared.tail) ≠ emptySlot) :
    (run (step mpmc) s popAlone).2 =
      [(s.clock, .popped (s.shared.buffer (s.shared.slot s.shared.tail)))] := by
  obtain ⟨clock, q, calls⟩ := s
  obtain rfl : calls = [] := hquiet
  have hnotEmpty : ¬ q.head ≤ q.tail := Nat.not_le.mpr hlt
  have hslot : ({ q with tail := q.tail + 1 } : MpmcQueue).slot q.tail = q.slot q.tail := rfl
  have hitem' : q.buffer (q.slot q.tail) ≠ emptySlot := hitem
  simp [popAlone, replicate, run, step, mpmc, callStep, hnotEmpty, hslot, hitem']

/-- **Nothing is lost, duplicated or stranded**: after any run of any number of pushes and pops that
    leaves no call in progress, `head` is at most one lap ahead of `tail`, the slots in use are
    those of the tickets between the two, and they hold what was pushed and not popped; a pop that
    comes now, if there is a ticket for it, returns an item at once. -/
theorem mpmc_conserves (k : Nat) (as : List (Act Request Bool))
    (hquiet : (run (step mpmc) (.start (mpmcQueueCreate (2 ^ k))) as).1.calls = []) :
    let r := run (step mpmc) (.start (mpmcQueueCreate (2 ^ k))) as
    let q := r.1.shared
    (q.tail ≤ q.head ∧ q.head ≤ q.tail + q.capacity) ∧
    (∀ i < q.capacity,
      q.buffer i ≠ emptySlot ↔ ∃ t, q.tail ≤ t ∧ t < q.head ∧ t % q.capacity = i) ∧
    (pushedOf (r.2.map Prod.snd) : Multiset UInt32) =
      poppedOf (r.2.map Prod.snd) + q.contents ∧
    (q.tail < q.head →
      (run (step mpmc) r.1 popAlone).2 =
        [(r.1.clock, .popped (q.buffer (q.tail % q.capacity)))]) := by
  intro r q
  have h := run_balanced k as
  have hcapacity : q.capacity = 2 ^ k := h.capacity
  have hslots : ∀ i < 2 ^ k, dealt (2 ^ k) i q.head =
      dealt (2 ^ k) i q.tail + if q.buffer i ≠ emptySlot then 1 else 0 := by
    intro i hi
    have hslot := h.slots i hi
    rw [hquiet, map_nil, countP_nil, countP_nil, Nat.add_zero, Nat.add_zero] at hslot
    rw [hslot, held, ite_not]
  obtain ⟨hlap, htaken⟩ := slots_of_tickets (Nat.two_pow_pos k) h.tail_le hslots
  rw [hcapacity]
  refine ⟨⟨h.tail_le, hlap⟩, htaken, h.items, fun hlt => ?_⟩
  have hitem := (htaken _ (Nat.mod_lt _ (Nat.two_pow_pos k))).mpr
    ⟨q.tail, Nat.le_refl _, hlt, rfl⟩
  rw [← MpmcQueue.slot_eq hcapacity] at hitem ⊢
  exact pop_alone hquiet hlt hitem

/-- Two pushes step in turn; a pop waits for the one that stores last, and leaves the other item. -/
theorem overlap_conserved :
    let r := run (step mpmc) (.start (mpmcQueueCreate (2 ^ 1)))
      (.call (.push ⟨7, by decide⟩) :: .call (.push ⟨8, by decide⟩) :: .call .pop ::
        [0, 1, 0, 1, 0, 1, 2, 2, 2, 2, 1, 0, 0].map (.advance · false))
    r.2.map Prod.snd = [.pushed 8, .pushed 7, .popped 7] ∧ r.1.calls = [] ∧
      (pushedOf (r.2.map Prod.snd) : Multiset UInt32) =
        poppedOf (r.2.map Prod.snd) + r.1.shared.contents :=
  ⟨rfl, rfl, (mpmc_conserves 1 _ rfl).2.2.1⟩

/-! ## The room test -/

/-- `head` is at least one lap ahead. -/
def MpmcQueue.Full (q : MpmcQueue) : Prop := q.tail + q.capacity ≤ q.head
deriving Decidable

/-- A push that is about to load `tail` has loaded a `head` that `tail` has not passed since. -/
def FreshHead (s : System MpmcQueue Call) (a : Act Request Bool) : Prop :=
  ∀ i spurious r item head, a = .advance i spurious → s.calls[i]? = some r →
    r.call = .pushLoadTail item head → s.shared.tail ≤ head

theorem head_le_callStep (q : MpmcQueue) (c : Call) (spurious : Bool) :
    q.head ≤ (callStep q c spurious).1.head := by
  cases c <;> simp only [callStep] <;> first
    | exact Nat.le_refl _
    | exact Nat.le_succ _
    | (split <;> exact Nat.le_refl _)

/-- The `head` a push has loaded is not ahead of the present one. -/
theorem loaded_head_le (k : Nat) (as : List (Act Request Bool)) :
    let s := (run (step mpmc) (.start (mpmcQueueCreate (2 ^ k))) as).1
    ∀ item head, .pushLoadTail item head ∈ s.calls.map Running.call → head ≤ s.shared.head := by
  refine run_invariant (P := mpmc) (I := fun q calls _ =>
    ∀ item head, Call.pushLoadTail item head ∈ calls → head ≤ q.head) ?_ ?_ ?_ as _ ?_
  · intro q calls log request h item head hmem
    rcases mem_append.mp hmem with hmem | hmem
    · exact h item head hmem
    · cases request <;> cases mem_singleton.mp hmem
  · intro q pre c post log spurious q' c' h hstep item head hmem
    have hle := head_le_callStep q c spurious
    rw [show callStep q c spurious = _ from hstep] at hle
    rcases mem_append.mp hmem with hmem | hmem
    · exact Nat.le_trans (h item head (mem_append_left _ hmem)) hle
    · rcases mem_cons.mp hmem with rfl | hmem
      · -- only the load of `head` leads to the load of `tail`
        cases c <;> simp only [mpmc, callStep] at hstep
        case pushLoadHead => cases hstep; exact Nat.le_refl _
        all_goals (try split at hstep) <;> cases hstep
      · exact Nat.le_trans
          (h item head (mem_append_right _ (mem_cons_of_mem _ hmem))) hle
  · intro q pre c post log spurious q' e h hstep item head hmem
    have hle := head_le_callStep q c spurious
    rw [show callStep q c spurious = _ from hstep] at hle
    exact Nat.le_trans
      (h item head (((sublist_cons_self c post).append_left pre).subset hmem)) hle
  · intro item head hmem
    exact absurd hmem not_mem_nil

/-- A push fails in the step in which it loads `tail`, and because of what it finds there. -/
theorem pushFailed_inv {s : System MpmcQueue Call} {a : Act Request Bool} {since : Nat}
    {item : UInt32} (h : (since, .pushFailed item) ∈ (step mpmc s a).2) :
    ∃ i spurious r item' head, a = .advance i spurious ∧ s.calls[i]? = some r ∧
      r ∈ s.calls ∧ r.since = since ∧ r.call = .pushLoadTail item' head ∧
      s.shared.capacity ≤ sub64 head s.shared.tail := by
  rcases step_cases mpmc s a with ⟨_, -, heq⟩ | heq |
    ⟨i, spurious, pre, r, post, q', ha, hi, hcalls, ⟨c, -, heq⟩ | ⟨e, hstep, heq⟩⟩ <;> rw [heq] at h
  · exact absurd h not_mem_nil
  · exact absurd h not_mem_nil
  · exact absurd h not_mem_nil
  · obtain ⟨rfl, rfl⟩ := Prod.mk.inj (mem_singleton.mp h)
    have hr : r ∈ s.calls := hcalls ▸ mem_append_right _ (mem_cons_self ..)
    cases hc : r.call with
    | pushLoadTail item' head =>
      refine ⟨i, spurious, r, item', head, ha, hi, hr, rfl, hc, ?_⟩
      simp only [mpmc, callStep, hc] at hstep
      split at hstep
      · assumption
      · cases hstep
    | _ =>
      simp only [mpmc, callStep, hc] at hstep
      (try split at hstep) <;> cases hstep

/-- **A push that fails has found the queue full**, in every run in which no push loads a `tail`
    that has passed the `head` it had loaded: at an instant between its start and its return `head`
    was at least `capacity` ahead of `tail`. -/
theorem push_fails_full (k : Nat) (as : List (Act Request Bool))
    (hfresh : Along FreshHead (next mpmc) (.start (mpmcQueueCreate (2 ^ k))) as) :
    ∀ pre a, pre ++ [a] <+: as → ∀ since item,
      (since, .pushFailed item) ∈
        (step mpmc (pre.foldl (next mpmc) (.start (mpmcQueueCreate (2 ^ k)))) a).2 →
      ∃ instant, instant <+: pre ∧ since ≤ instant.length ∧
        (instant.foldl (next mpmc) (.start (mpmcQueueCreate (2 ^ k)))).shared.Full := by
  intro pre a hpre since item hfail
  obtain ⟨i, spurious, r, item', head, ha, hi, hr, rfl, hc, htest⟩ := pushFailed_inv hfail
  refine ⟨pre, prefix_rfl, ?_, ?_⟩
  · have hstarted := started_foldl mpmc pre (System.start (mpmcQueueCreate (2 ^ k)))
      (fun r hr => absurd hr not_mem_nil) r hr
    rwa [clock_foldl, System.start, Nat.zero_add] at hstarted
  · have hloaded := loaded_head_le k pre item' head
    rw [run_next] at hloaded
    replace hloaded := hloaded (mem_map.mpr ⟨r, hr, hc⟩)
    have hnow := along_iff_at.mp hfresh pre a hpre i spurious r item' head ha hi hc
    have hsub := sub64_le hnow
    unfold MpmcQueue.Full
    omega

/-- A push on a queue of one slot, and then another, which loads both indices in turn. -/
def fullRun : List (Act Request Bool) :=
  .call (.push ⟨7, by decide⟩) :: replicate 4 (.advance 0 false) ++
    .call (.push ⟨8, by decide⟩) :: replicate 2 (.advance 0 false)

theorem fullRun_fails_full :
    Along FreshHead (next mpmc) (.start (mpmcQueueCreate (2 ^ 0))) fullRun ∧
    ∃ instant, instant <+: fullRun.dropLast ∧ 5 ≤ instant.length ∧
      (instant.foldl (next mpmc) (.start (mpmcQueueCreate (2 ^ 0)))).shared.Full := by
  have hfresh : Along FreshHead (next mpmc) (.start (mpmcQueueCreate (2 ^ 0))) fullRun := by
    refine ⟨?_, ?_, ?_, ?_, ?_, ?_, ?_, ?_, trivial⟩ <;> rintro i spurious r item head ⟨⟩ ⟨⟩ ⟨⟩ <;>
      decide
  exact ⟨hfresh, push_fails_full 0 fullRun hfresh fullRun.dropLast (.advance 0 false)
    prefix_rfl 5 8 (mem_singleton.mpr rfl)⟩

/-- A push on a queue of two slots loads `head`; another push and a pop complete; then the first one
    loads `tail`. -/
def staleRun : List (Act Request Bool) :=
  .call (.push ⟨7, by decide⟩) :: .advance 0 false ::
    .call (.push ⟨8, by decide⟩) :: replicate 4 (.advance 1 false) ++
    .call .pop :: replicate 4 (.advance 1 false)

/-- **The room test fails on a queue that never was full**: `head - tail` wraps where `tail` has
    passed the `head` that was loaded. -/
theorem staleRun_fails_spuriously :
    (0, .pushFailed 7) ∈
      (step mpmc (staleRun.foldl (next mpmc) (.start (mpmcQueueCreate (2 ^ 1))))
        (.advance 0 false)).2 ∧
    ∀ instant, instant <+: staleRun →
      ¬ (instant.foldl (next mpmc) (.start (mpmcQueueCreate (2 ^ 1)))).shared.Full := by
  refine ⟨mem_singleton.mpr rfl, fun instant hinstant => ?_⟩
  have hall : ∀ l ∈ staleRun.inits,
      ¬ (l.foldl (next mpmc) (.start (mpmcQueueCreate (2 ^ 1)))).shared.Full := by decide
  exact hall instant ((mem_inits _ _).mpr hinstant)

end TsAnalyzer.Queue
