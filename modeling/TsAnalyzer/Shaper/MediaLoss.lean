/-
  Is lost media signalled to the decoder?

  `tss_internal_enqueue_packet` sets `needs_discontinuity` when it drops a media packet, and nothing
  ever reads it; a re-anchor does not even set it.
-/
import TsAnalyzer.Shaper.Integrity

namespace TsAnalyzer.Shaper

open Lib List

variable {μ : Type}

/-! ## Packets -/

def ccOf (x : List UInt8) : UInt8 := x.getD 3 0 &&& 0x0f

def carriesPayload (x : List UInt8) : Bool := x.getD 3 0 &&& 0x10 ≠ 0

/-- `discontinuity_indicator`, in an adaptation field that has the flags. -/
def flagsDiscontinuity (x : List UInt8) : Bool :=
  x.getD 3 0 &&& 0x20 ≠ 0 ∧ 1 ≤ (x.getD 4 0).toNat ∧ x.getD 5 0 &&& 0x80 ≠ 0

/-- The packet continues the counter `cc` without a gap: it is one up if there is payload, and
    stays otherwise. -/
def continues (cc : UInt8) (x : List UInt8) : Bool :=
  ccOf x = (if carriesPayload x then cc + 1 else cc) &&& 0x0f

/-! ## The trail of a PID -/

inductive Trail where
  /-- A packet is dropped by `tss_internal_enqueue_packet`, or packets are flushed by a
      re-anchor. -/
  | lost
  /-- A packet of the PID is handed to `write_cb`: payload, or a PCR. -/
  | emitted (pkt : List UInt8)
  deriving DecidableEq

def Act.losses : Act → List Trail
  | .offered _ .dropped => [.lost]
  | .flushed n => if 0 < n then [.lost] else []
  | _ => []

/-- The packets of the PID that an event hands to `write_cb`. -/
def emittedIn (si : SiCallback μ) (i : Nat) (s : Tsshaper μ) : Event → List (List UInt8)
  | .slot =>
    if Due s.core ∧ SendsFrom s.core i then written s.core (tssStepInternal si s.core) else []
  | _ => []

/-- The shaper, with the trail of the PID; a slot sends before it takes tables. -/
def trailPush (si : SiCallback μ) (i : Nat) (s : Tsshaper μ) (e : Event) :
    Tsshaper μ × List Trail :=
  (eventStep si s e,
    (emittedIn si i s e).map .emitted ++ (actsOf si i s e).flatMap Act.losses)

def lastEmitted (past : List Trail) : Option (List UInt8) :=
  (past.filterMap fun
    | .emitted x => some x
    | .lost => none).getLast?

/-- What is claimed of a packet emitted after a loss, given the trail before it: it carries the
    indicator, or its counter continues that of the last packet. -/
def Marked (past : List Trail) : Trail → Prop
  | .lost => True
  | .emitted x => past.getLast? = some .lost →
    flagsDiscontinuity x = true ∨ ∀ y, lastEmitted past = some y → continues (ccOf y) x = true

def headPacket (p : PidState) : List UInt8 := (p.tsFifo.peek tsPacketSize 0).getD []

/-- If the slot sends the first payload packet after a loss, the packet at the head of the FIFO
    carries the indicator itself or continues the counter. -/
def HeadMarked (i : Nat) (r : Tsshaper μ × List Trail) : Event → Prop
  | .slot => Due r.1.core → (scheduled r.1.core).2 = .payload i → r.2.getLast? = some .lost →
    lastEmitted r.2 ≠ none →
      flagsDiscontinuity (headPacket (r.1.core.pids i)) = true ∨
        continues (r.1.core.pids i).cc (headPacket (r.1.core.pids i)) = true
  | _ => True

instance (i : Nat) (r : Tsshaper μ × List Trail) : (e : Event) → Decidable (HeadMarked i r e)
  | .slot => inferInstanceAs (Decidable (_ → _ → _ → _ → _))
  | .enqueueDts .. | .enqueueTs .. | .enterDrive | .leaveDrive | .enterDrain | .resetTimeline =>
    isTrue trivial

theorem losses_lost {acts : List Act} {x : Trail} (h : x ∈ acts.flatMap Act.losses) :
    x = .lost := by
  obtain ⟨a, -, ha⟩ := mem_flatMap.mp h
  cases a with
  | offered y fate =>
    cases fate with
    | dropped => exact mem_singleton.mp ha
    | accepted | rotated => exact absurd ha not_mem_nil
  | flushed n =>
    dsimp only [Act.losses] at ha
    split at ha
    · exact mem_singleton.mp ha
    · exact absurd ha not_mem_nil
  | _ => exact absurd ha not_mem_nil

theorem lastEmitted_losses (past : List Trail) (acts : List Act) :
    lastEmitted (past ++ acts.flatMap Act.losses) = lastEmitted past := by
  have hnone : (acts.flatMap Act.losses).filterMap (fun
      | .emitted x => some x
      | .lost => none) = ([] : List (List UInt8)) := by
    refine filterMap_eq_nil_iff.mpr fun x hx => ?_
    rw [losses_lost hx]
  unfold lastEmitted
  rw [filterMap_append, hnone, append_nil]

theorem lastEmitted_snoc (past : List Trail) (x : List UInt8) :
    lastEmitted (past ++ [.emitted x]) = some x := by
  unfold lastEmitted
  rw [filterMap_append]
  exact getLast?_concat

/-! ## The counter -/

/-- `cc` is the counter of the last packet emitted. -/
structure Tracks (p : PidState) (past : List Trail) : Prop where
  last : ∀ y, lastEmitted past = some y → ccOf y = p.cc
  nibble : p.cc &&& 0x0f = p.cc

theorem cc_of_unsent {acts : List Act} (h : sentOf acts = []) :
    ∀ b : Books, (acts.foldl Books.after b).cc = b.cc := by
  induction acts with
  | nil => exact fun b => rfl
  | cons a acts ih =>
    intro b
    cases a with
    | sent x => cases h
    | offered x fate => cases fate <;> exact ih h _
    | _ => exact ih h _

theorem sentOf_append (acts acts' : List Act) :
    sentOf (acts ++ acts') = sentOf acts ++ sentOf acts' := filterMap_append

theorem sentOf_offers (i : Nat) (pkts : List (Nat × Packet)) :
    ∀ c : Core μ, sentOf (offers i c pkts) = [] := by
  induction pkts with
  | nil => exact fun c => rfl
  | cons p pkts ih =>
    intro c
    unfold offers
    rw [sentOf_append, ih, append_nil]
    split <;> rfl

variable (si : SiCallback μ)

theorem sentOf_tables (i : Nat) (c d : Core μ) :
    sentOf (patOffers si i c ++ sdtOffers si i d) = [] := by
  rw [sentOf_append]
  unfold patOffers sdtOffers
  split
  · rw [sentOf_offers]
    split
    · exact sentOf_offers ..
    · rfl
  · split
    · exact sentOf_offers ..
    · rfl

variable {i : Nat} {packets : List (List UInt8)}

theorem written_head {c : Core μ}
    (hq : (c.pids i).tsFifo.Queues packets) (hdue : Due c) (h : (scheduled c).2 = .payload i) :
    written c (tssStepInternal si c) = [headPacket (c.pids i)] := by
  have hfifo : ((scheduled c).1.pids i).tsFifo = (c.pids i).tsFifo :=
    congrArg Books.tsFifo (scheduled_books c i)
  have hpacket := payload_hasPacket h
  have hsize : tsPacketSize ≤ (c.pids i).tsFifo.size := by
    rw [← hfifo]
    exact of_decide_eq_true hpacket
  obtain ⟨x, rest, rfl⟩ := hq.exists_first hsize
  have hout : (c.pids i).tsFifo.copyOut (c.pids i).tsFifo.head tsPacketSize = x :=
    congrArg Prod.fst (Option.some.inj ((TssFifo.read_eq hsize).symm.trans hq.take))
  unfold headPacket
  rw [written_payload si hdue h, takePacket_eq hpacket, hfifo, hout, hq.peek, Option.getD_some]

theorem written_pcr {c : Core μ} {g : Nat} (hdue : Due c)
    (h : (scheduled c).2 = .pcrOnly g) (hsends : SendsFrom c i) :
    ∃ pid flag pcr, written c (tssStepInternal si c) =
      [pcrPacket pid (c.pids i).cc flag pcr] := by
  have hpid : ((scheduled c).1.programs g).pcrPidState = i := by
    unfold SendsFrom at hsends
    rw [h] at hsends
    exact Option.some.inj hsends
  have hcc : ((scheduled c).1.pids i).cc = (c.pids i).cc := congrArg Books.cc (scheduled_books c i)
  have hsent : ∃ x, (sentCore c).out = c.out ++ [x] ∧
      ∃ pid flag pcr, x.pkt = pcrPacket pid ((scheduled c).1.pids i).cc flag pcr := by
    unfold sentCore
    rw [h, ← hpid]
    exact ⟨_, rfl, _, _, _, rfl⟩
  obtain ⟨x, hout, pid, flag, pcr, hpkt⟩ := hsent
  refine ⟨pid, flag, pcr, ?_⟩
  unfold written
  rw [slot_out si hdue, hout, drop_left, map_singleton, hpkt, hcc]

theorem ccOf_pcrPacket (pid : Nat) (cc : UInt8) (flag : Bool) (pcr : Int) :
    ccOf (pcrPacket pid cc flag pcr) = cc &&& 0x0f ∧
      carriesPayload (pcrPacket pid cc flag pcr) = false := by
  have hcc : ∀ c : UInt8, (0x20 ||| (c &&& 0x0f)) &&& 0x0f = c &&& (0x0f : UInt8) := by
    decide +kernel
  have hpayload : ∀ c : UInt8, (0x20 ||| (c &&& 0x0f)) &&& 0x10 = (0 : UInt8) := by
    decide +kernel
  exact ⟨hcc cc, decide_eq_false (not_not.mpr (hpayload cc))⟩

/-- What an event emits of the PID. -/
inductive Emission (i : Nat) (s : Tsshaper μ) (e : Event) (cc' : UInt8) : List (List UInt8) → Prop
  | none (hcc : cc' = (s.core.pids i).cc)
    (h : ¬ (e = .slot ∧ Due s.core ∧ (scheduled s.core).2 = .payload i)) : Emission i s e cc' []
  /-- A PCR packet repeats the counter. -/
  | pcr (x : List UInt8) (hcc : cc' = (s.core.pids i).cc)
    (h : ¬ (e = .slot ∧ Due s.core ∧ (scheduled s.core).2 = .payload i))
    (hx : ccOf x = (s.core.pids i).cc &&& 0x0f) (hpayload : carriesPayload x = false) :
    Emission i s e cc' [x]
  /-- A payload packet brings its own. -/
  | payload (hslot : e = .slot) (hdue : Due s.core) (h : (scheduled s.core).2 = .payload i)
    (hcc : cc' = ccOf (headPacket (s.core.pids i))) :
    Emission i s e cc' [headPacket (s.core.pids i)]

theorem slot_emission {s : Tsshaper μ} (hq : (s.core.pids i).tsFifo.Queues packets) :
    Emission i s .slot ((tssStepInternal si s.core).pids i).cc (emittedIn si i s .slot) := by
  have hcc : ((tssStepInternal si s.core).pids i).cc =
      ((slotActs si s.core i).foldl Books.after (s.core.pids i).books).cc := by
    rw [(slot_kept si s.core i).2]
    rfl
  rw [hcc]
  show Emission i s .slot _
    (if Due s.core ∧ SendsFrom s.core i then written s.core (tssStepInternal si s.core) else [])
  unfold slotActs
  by_cases hdue : Due s.core
  · rw [if_pos hdue, foldl_append, cc_of_unsent (sentOf_tables ..)]
    by_cases hpayload : (scheduled s.core).2 = .payload i
    · have hsends : SendsFrom s.core i := by
        unfold SendsFrom
        rw [hpayload]
        rfl
      rw [if_pos hpayload, if_pos ⟨hdue, hsends⟩, written_head si hq hdue hpayload]
      exact .payload rfl hdue hpayload rfl
    · have hother : ¬ (Event.slot = .slot ∧ Due s.core ∧ (scheduled s.core).2 = .payload i) :=
        fun h => hpayload h.2.2
      rw [if_neg hpayload]
      by_cases hsends : SendsFrom s.core i
      · rw [if_pos ⟨hdue, hsends⟩]
        have hcharged := hsends
        unfold SendsFrom at hcharged
        cases haction : (scheduled s.core).2 with
        | null => rw [haction] at hcharged; cases hcharged
        | payload j =>
          rw [haction] at hcharged hpayload
          exact absurd (congrArg Action.payload (Option.some.inj hcharged)) hpayload
        | pcrOnly g =>
          obtain ⟨pid, flag, pcr, hwritten⟩ := written_pcr si hdue haction hsends
          obtain ⟨hx, hempty⟩ := ccOf_pcrPacket pid (s.core.pids i).cc flag pcr
          rw [hwritten]
          exact .pcr _ rfl hother hx hempty
      · rw [if_neg fun h => hsends h.2]
        exact .none rfl hother
  · rw [if_neg hdue, if_neg fun h => hdue h.1]
    exact .none rfl fun h => hdue h.2.1

theorem eventStep_emission {s : Tsshaper μ} (e : Event) (hi : i < s.core.layout.nbAllPids)
    (hq : (s.core.pids i).tsFifo.Queues packets) :
    Emission i s e ((eventStep si s e).core.pids i).cc (emittedIn si i s e) := by
  have hkept := (eventStep_kept si s e hi).2
  -- only a slot sends
  have hquiet : sentOf (actsOf si i s e) = [] → e ≠ .slot →
      Emission i s e ((eventStep si s e).core.pids i).cc [] := by
    intro hunsent hslot
    refine .none ?_ fun h => hslot h.1
    have hcc := cc_of_unsent hunsent (s.core.pids i).books
    rw [hkept] at hcc
    exact hcc
  cases e with
  | slot => exact slot_emission si hq
  | enqueueDts pidNum dts isKey =>
    refine hquiet ?_ Event.noConfusion
    show sentOf (dtsActs s pidNum dts isKey i) = []
    unfold dtsActs
    split <;> split <;> rfl
  | enqueueTs pidNum pkt => exact hquiet (sentOf_offers i _ s.core) Event.noConfusion
  | _ => exact hquiet rfl Event.noConfusion

/-! ## Runs -/

/-- What carries the induction: the FIFO holds packets, and `cc` follows the trail. -/
structure Followed (i : Nat) (r : Tsshaper μ × List Trail) : Prop where
  pid : i < r.1.core.layout.nbAllPids
  queued : ∃ packets, (r.1.core.pids i).books.Queued packets
  tracks : Tracks (r.1.core.pids i) r.2

variable {r : Tsshaper μ × List Trail}

theorem Followed.step (h : Followed i r)
    (si : SiCallback μ) (e : Event) : Followed i (record (trailPush si i) r e) := by
  obtain ⟨s, past⟩ := r
  obtain ⟨hi, ⟨packets, hq⟩, hlast, hnibble⟩ := h
  have hnib : ∀ c : UInt8, (c &&& 0x0f) &&& 0x0f = c &&& (0x0f : UInt8) := by decide +kernel
  refine ⟨?_, ?_, ?_⟩
  · show i < (eventStep si s e).core.layout.nbAllPids
    rw [(eventStep_sameSetUp si s e).layout]
    exact hi
  · obtain ⟨qs, -, hq'⟩ := (eventStep_kept si s e hi).history hq
    exact ⟨qs, hq'⟩
  · have hemission := eventStep_emission si e hi hq.queues
    show Tracks ((eventStep si s e).core.pids i)
      (past ++ ((emittedIn si i s e).map .emitted ++ _))
    generalize emittedIn si i s e = new at hemission ⊢
    rw [← append_assoc]
    cases hemission with
    | none hcc h =>
      refine ⟨fun y hy => ?_, by rw [hcc]; exact hnibble⟩
      rw [lastEmitted_losses, map_nil, append_nil] at hy
      rw [hcc]
      exact hlast y hy
    | pcr x hcc h hx hpayload =>
      refine ⟨fun y hy => ?_, by rw [hcc]; exact hnibble⟩
      rw [lastEmitted_losses, map_singleton, lastEmitted_snoc] at hy
      rw [← Option.some.inj hy, hcc, hx]
      exact hnibble
    | payload hslot hdue h hcc =>
      refine ⟨fun y hy => ?_, by rw [hcc]; exact hnib _⟩
      rw [lastEmitted_losses, map_singleton, lastEmitted_snoc] at hy
      rw [← Option.some.inj hy, hcc]

theorem headMarked_of_ne {e : Event}
    (h : ¬ (e = .slot ∧ Due r.1.core ∧ (scheduled r.1.core).2 = .payload i)) :
    HeadMarked i r e := by
  cases e with
  | slot => exact fun hdue hpayload => absurd ⟨rfl, hdue, hpayload⟩ h
  | _ => trivial

/-- **One event** marks what it emits exactly if the head of the FIFO is marked. -/
theorem marked_step_iff (h : Followed i r) (e : Event) :
    Throughout (fun pre x => Marked (r.2 ++ pre) x) (trailPush si i r.1 e).2 ↔
      HeadMarked i r e := by
  obtain ⟨s, past⟩ := r
  obtain ⟨hi, ⟨packets, hq⟩, hlast, hnibble⟩ := h
  have hemission := eventStep_emission si e hi hq.queues
  -- a loss needs no mark
  have hlosses : ∀ out, Throughout (fun pre x => Marked (past ++ (out ++ pre)) x)
      ((actsOf si i s e).flatMap Act.losses) := by
    intro out pre x post heq
    have hx : x ∈ (actsOf si i s e).flatMap Act.losses := by
      rw [heq]
      exact mem_append_right _ mem_cons_self
    rw [losses_lost hx]
    trivial
  show Throughout _ ((emittedIn si i s e).map Trail.emitted ++ _) ↔ _
  rw [throughout_append_iff, and_iff_left (hlosses _)]
  generalize emittedIn si i s e = new at hemission ⊢
  cases hemission with
  | none hcc h => exact iff_of_true (throughout_nil _) (headMarked_of_ne h)
  | pcr x hcc h hx hpayload =>
    rw [map_singleton, throughout_singleton, append_nil]
    refine iff_of_true (fun _ => .inr fun y hy => ?_) (headMarked_of_ne h)
    refine decide_eq_true ?_
    rw [hx, hpayload, hlast y hy]
    rfl
  | payload hslot hdue h hcc =>
    subst hslot
    rw [map_singleton, throughout_singleton, append_nil]
    constructor
    · intro hmarked _ _ hloss hsome
      obtain ⟨y, hy⟩ := Option.ne_none_iff_exists'.mp hsome
      refine (hmarked hloss).imp_right fun hcontinues => ?_
      rw [← hlast y hy]
      exact hcontinues y hy
    · intro hhead hloss
      cases hy : lastEmitted past with
      | none => exact .inr fun y hy => by cases hy
      | some y =>
        refine (hhead hdue h hloss (by rw [hy]; exact Option.some_ne_none y)).imp_right ?_
        rintro hcontinues z ⟨⟩
        rw [hlast y hy]
        exact hcontinues

/-- **Loss signalling**, in every run of a shaper that was set up: what is emitted of a PID after a
    loss carries the indicator or continues the counter, exactly if at each slot that sends the
    first packet after one, the packet at the head of the FIFO does so of itself. -/
theorem media_loss_signalled_iff (si : SiCallback μ) (s : Tsshaper μ) (hs : SetUp s)
    (events : List Event) (i : Nat) (hi : i < s.core.layout.nbAllPids) :
    Throughout Marked (events.foldl (record (trailPush si i)) (s, [])).2 ↔
      Along (HeadMarked i) (record (trailPush si i)) (s, []) events := by
  rw [throughout_record_iff (throughout_nil _)]
  refine along_iff (I := Followed i) (fun r e h => h.step si e)
    (fun r e h => marked_step_iff si h e) events (s, []) ⟨hi, ⟨[], hs.queued hi⟩, ?_, ?_⟩
  · rintro y ⟨⟩
  · obtain ⟨pidNum, type, br, hnew⟩ := hs.pids i hi
    rw [hnew]
    exact (by decide : (0xf : UInt8) &&& 0x0f = 0xf)

/-- Packet 0 is sent, packet 1 is flushed by a re-anchor, and a packet with the counter `cc` is
    sent next. -/
def flushRun (cc : UInt8) : List Event :=
  [.resetTimeline, .enqueueDts 0 0 true, .enqueueTs 0x100 (mediaPacket 0), .enterDrive, .slot,
    .slot,
    .leaveDrive, .enqueueTs 0x100 (mediaPacket 1), .enqueueDts 0 0 true,
    .enqueueTs 0x100 (mediaPacket cc), .enterDrive, .slot]

def flushTrail (cc : UInt8) : List Trail :=
  ((flushRun cc).foldl (record (trailPush noTables 0))
    (⟨Timeline.init, oneStream ⟨10000000, 35, 0, 0, 1⟩ 100⟩, [])).2

/-- The flushed packet itself comes again. -/
theorem resent_signalled : Trail.lost ∈ flushTrail 1 ∧ Throughout Marked (flushTrail 1) :=
  ⟨by decide +kernel,
    (media_loss_signalled_iff noTables _ (oneStream_setUp _ _) (flushRun 1) 0 (by decide)).mpr
      (by decide +kernel)⟩

/-- **Packet 2 follows packet 0**, and does not say so. -/
theorem flush_unsignalled :
    flushTrail 2 = (flushTrail 2).dropLast ++ [.emitted (bytesAt (mediaPacket 2) 0 188)] ∧
      (flushTrail 2).dropLast.getLast? = some .lost ∧
      lastEmitted (flushTrail 2).dropLast = some (bytesAt (mediaPacket 0) 0 188) ∧
      ¬ Throughout Marked (flushTrail 2) := by
  have htrail : flushTrail 2 =
      (flushTrail 2).dropLast ++ [.emitted (bytesAt (mediaPacket 2) 0 188)] := by decide +kernel
  have hlost : (flushTrail 2).dropLast.getLast? = some .lost := by decide +kernel
  have hlast : lastEmitted (flushTrail 2).dropLast = some (bytesAt (mediaPacket 0) 0 188) := by
    decide +kernel
  refine ⟨htrail, hlost, hlast, fun hmarked => ?_⟩
  rcases hmarked _ _ [] htrail hlost with hflag | hcontinues
  · exact absurd hflag (by decide +kernel)
  · exact absurd (hcontinues _ hlast) (by decide +kernel)

end TsAnalyzer.Shaper
