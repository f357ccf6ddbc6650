/-
  `tsa_push_event` (`src/tsa.c`): one call both QUEUES an event for the dashboard and ACCOUNTS for
  it (error counter, alert).

  The ring of 1024 events has one optional reader, `tsa_render_dashboard`.  The ring-full test
  stands BEFORE the accounting and returns: with 1024 unread events nothing is counted and no
  alert is updated any more.
-/
import TsAnalyzer.Lib.Run
import TsAnalyzer.Alarm.Alert

namespace TsAnalyzer.Alarm

open Lib List

/-! ## The ring and the counters -/

inductive EventType where
  | scte35 | syncLoss | crcError | patTimeout | pmtTimeout | pidError | ccError | transportError
  | ptsError | pcrRepetition | pcrJitter | syncRecovered | tstdUnderflow | tstdOverflow
  | tstdPredictive | entropyFreeze | sdtTimeout | nitTimeout | ccMissing | ccPresent | scrambled
  | pesError
  deriving DecidableEq

/-- The error counters of `live` that `tsa_push_event` increments. -/
inductive Counter where
  | syncLossCount | patErrorCount | pmtErrorCount | pidErrorCount | teiErrorCount
  | tstdUnderflowCount | tstdOverflowCount | entropyFreezeCount | sdtErrorCount | nitErrorCount
  deriving DecidableEq

/-- `tsa_event_t`. -/
structure Event where
  type : EventType
  pid : Nat
  timestampNs : Nat
  value : Nat
  absoluteByteOffset : Nat
  deriving DecidableEq

def maxEventQueue : Nat := 1024

/-- The part of the handle `tsa_push_event` works on. -/
structure Alarms extends Alerts where
  signalLock : Bool
  currentPacketOffset : Nat
  counters : Counter → Nat
  /-- `event_q->events`, read at indices below `maxEventQueue`. -/
  events : Nat → Event
  head : Nat
  tail : Nat

namespace Alarms

/-- The `calloc`ed alarm fields of `tsa_create`. -/
def fresh (config : AlertConfig) : Alarms where
  config := config
  stcNs := 0
  alerts _ := ⟨.off, 0, 0, false⟩
  entries _ := ⟨.sync, 0, 0, 0, 0, "", "", "", false⟩
  notices := []
  signalLock := false
  currentPacketOffset := 0
  counters _ := 0
  events _ := ⟨.scte35, 0, 0, 0, 0⟩
  head := 0
  tail := 0

/-- Events in the ring that nobody has read: `head - tail`. -/
def unread (h : Alarms) : Nat := sub64 h.head h.tail

/-- The `switch` of `tsa_push_event`: which counter is incremented and which alert is raised, under
    which name. -/
def eventAction : EventType → Option (Option Counter × AlertId × String)
  | .syncLoss => some (some .syncLossCount, .sync, "SYNC")
  | .patTimeout => some (some .patErrorCount, .pat, "PAT")
  | .pmtTimeout => some (some .pmtErrorCount, .pmt, "PMT")
  | .pidError => some (some .pidErrorCount, .pid, "PID")
  | .ccError => some (none, .cc, "CC")
  | .crcError => some (none, .crc, "CRC")
  | .transportError => some (some .teiErrorCount, .transport, "TRANSPORT")
  | .ptsError => some (none, .pts, "PTS")
  | .pcrRepetition => some (none, .pcr, "PCR")
  | .pcrJitter => some (none, .pcr, "PCR")
  | .tstdUnderflow => some (some .tstdUnderflowCount, .tstd, "TSTD")
  | .tstdOverflow => some (some .tstdOverflowCount, .tstd, "TSTD")
  | .entropyFreeze => some (some .entropyFreezeCount, .entropy, "ENTROPY")
  | .sdtTimeout => some (some .sdtErrorCount, .sdt, "SDT")
  | .nitTimeout => some (some .nitErrorCount, .nit, "NIT")
  | _ => none

/-- Write the event to its slot and publish the new head. -/
def enqueue (h : Alarms) (type : EventType) (pid val : Nat) : Alarms :=
  let event : Event := ⟨type, pid, h.stcNs, val, h.currentPacketOffset⟩
  { h with events := Function.update h.events (h.head % maxEventQueue) event
           head := (h.head + 1) % 2 ^ 64 }

/-- Increment the counter, if the event has one. -/
def count (h : Alarms) : Option Counter → Alarms
  | some c => { h with counters := Function.update h.counters c ((h.counters c + 1) % 2 ^ 64) }
  | none => h

/-- One case of the `switch`. -/
def account (h : Alarms) (type : EventType) (pid : Nat) : Alarms :=
  match eventAction type with
  | some (c, id, name) =>
    let h1 := h.count c
    { h1 with toAlerts := tsaAlertUpdate h1.toAlerts id true name pid }
  | none => h

end Alarms

def tsaPushEvent (h : Alarms) (type : EventType) (pid val : Nat) : Alarms :=
  if maxEventQueue ≤ h.unread then h
  else
    let h1 := h.enqueue type pid val
    if type ≠ .syncLoss ∧ !h1.signalLock then h1 else h1.account type pid

/-! ## One event -/

/-- A call of `tsa_push_event`. -/
structure Push where
  type : EventType
  pid : Nat
  val : Nat
  deriving DecidableEq

/-- The alarm events proper: stream and buffer errors, each with a counter of its own. -/
def Push.IsAlarm (e : Push) : Prop :=
  e.type ∈ [EventType.syncLoss, .patTimeout, .pmtTimeout, .pidError, .transportError,
    .tstdUnderflow, .tstdOverflow]
deriving Decidable

theorem Push.IsAlarm.action {e : Push} (h : e.IsAlarm) :
    ∃ c id name, Alarms.eventAction e.type = some (some c, id, name) := by
  simp only [Push.IsAlarm, mem_cons, not_mem_nil, or_false] at h
  rcases h with h | h | h | h | h | h | h <;> rw [h] <;> exact ⟨_, _, _, rfl⟩

/-- The event is accounted for: its counter is one higher, and the alert engine is where
    `tsa_alert_update` takes it. -/
def Accounts (h : Alarms) (e : Push) : Prop :=
  ∀ c id name, Alarms.eventAction e.type = some (some c, id, name) →
    (tsaPushEvent h e.type e.pid e.val).counters c = (h.counters c + 1) % 2 ^ 64 ∧
    (tsaPushEvent h e.type e.pid e.val).toAlerts = tsaAlertUpdate h.toAlerts id true name e.pid

theorem tsaPushEvent_full {h : Alarms} (hfull : maxEventQueue ≤ h.unread) (type : EventType)
    (pid val : Nat) : tsaPushEvent h type pid val = h := by
  rw [tsaPushEvent, if_pos hfull]

theorem tsaPushEvent_room {h : Alarms} (hroom : h.unread < maxEventQueue)
    (hlock : h.signalLock = true) (type : EventType) (pid val : Nat) :
    tsaPushEvent h type pid val = (h.enqueue type pid val).account type pid := by
  have hpass : ¬ (type ≠ .syncLoss ∧ (!(h.enqueue type pid val).signalLock) = true) := by
    rintro ⟨-, h'⟩
    rw [show (h.enqueue type pid val).signalLock = h.signalLock from rfl, hlock] at h'
    cases h'
  rw [tsaPushEvent, if_neg (Nat.not_le.mpr hroom)]
  exact if_neg hpass

theorem push_accounts_iff {h : Alarms} (hlock : h.signalLock = true) {e : Push} (he : e.IsAlarm) :
    Accounts h e ↔ h.unread < maxEventQueue := by
  constructor
  · intro hacc
    obtain ⟨c, id, name, haction⟩ := he.action
    rcases Nat.lt_or_ge h.unread maxEventQueue with hroom | hfull
    · exact hroom
    · -- a full ring leaves the counter where it is, and `c + 1` is never `c` modulo `2^64`
      have hcount := (hacc c id name haction).1
      rw [tsaPushEvent_full hfull] at hcount
      omega
  · intro hroom c id name haction
    rw [tsaPushEvent_room hroom hlock, Alarms.account, haction]
    exact ⟨Function.update_self .., rfl⟩

/-! ## Runs -/

/-- What happens to the alarm fields: events are pushed, the reader stores a new tail (any value),
    and the clock and the byte offset of the current packet move on. -/
inductive RingAct where
  | push (e : Push)
  | storeTail (tail : Nat)
  | advance (stcNs currentPacketOffset : Nat)

def ringStep (h : Alarms) : RingAct → Alarms
  | .push e => tsaPushEvent h e.type e.pid e.val
  | .storeTail t => { h with tail := t }
  | .advance stc offset => { h with stcNs := stc, currentPacketOffset := offset }

theorem account_signalLock (h : Alarms) (type : EventType) (pid : Nat) :
    (h.account type pid).signalLock = h.signalLock := by
  unfold Alarms.account
  split
  · rename_i c _ _ _; cases c <;> rfl
  · rfl

theorem ringStep_signalLock (h : Alarms) (a : RingAct) :
    (ringStep h a).signalLock = h.signalLock := by
  cases a with
  | push e =>
    show (tsaPushEvent h e.type e.pid e.val).signalLock = h.signalLock
    unfold tsaPushEvent
    split
    · rfl
    · show (if _ then _ else _ : Alarms).signalLock = h.signalLock
      split
      · rfl
      · rw [account_signalLock]; rfl
  | storeTail | advance => rfl

/-- **Alarm accounting over a run**: under signal lock, every alarm event of the run is accounted
    for exactly when each of them finds room in the ring. -/
theorem events_accounted_iff (h : Alarms) (hlock : h.signalLock = true) (as : List RingAct) :
    Along (fun h a => ∀ e, a = .push e → e.IsAlarm → Accounts h e) ringStep h as ↔
      Along (fun h a => ∀ e, a = .push e → e.IsAlarm → h.unread < maxEventQueue) ringStep h as := by
  refine along_iff (I := fun h => h.signalLock = true) ?_ ?_ as h hlock
  · intro s a hs
    rw [ringStep_signalLock]; exact hs
  · intro s a hs
    exact forall_congr' fun e => imp_congr_right fun _ => imp_congr_right (push_accounts_iff hs)

/-- Four events, the first two read before the others come. -/
theorem read_events_accounted :
    Along (fun h a => ∀ e, a = .push e → e.IsAlarm → Accounts h e) ringStep
      { Alarms.fresh ⟨"", 0, 10000, false, false⟩ with signalLock := true }
      [.push ⟨.patTimeout, 0, 0⟩, .advance 40000000 188, .push ⟨.ccError, 256, 1⟩, .storeTail 2,
        .push ⟨.pmtTimeout, 256, 0⟩, .push ⟨.patTimeout, 0, 0⟩] := by
  refine (events_accounted_iff _ rfl _).mpr ⟨?_, ?_, ?_, ?_, ?_, ?_, trivial⟩
  all_goals exact fun _ _ _ => by decide

/-! ## Nobody reads -/

theorem account_head_tail (h : Alarms) (type : EventType) (pid : Nat) :
    (h.account type pid).head = h.head ∧ (h.account type pid).tail = h.tail := by
  unfold Alarms.account
  split
  · rename_i c _ _ _; cases c <;> exact ⟨rfl, rfl⟩
  · exact ⟨rfl, rfl⟩

theorem unread_push {h : Alarms} (hroom : h.unread < maxEventQueue) (hlock : h.signalLock = true)
    (e : Push) : (tsaPushEvent h e.type e.pid e.val).unread = h.unread + 1 := by
  obtain ⟨hhead, htail⟩ := account_head_tail (h.enqueue e.type e.pid e.val) e.type e.pid
  rw [tsaPushEvent_room hroom hlock, Alarms.unread, hhead, htail]
  show sub64 ((h.head + 1) % 2 ^ 64) h.tail = h.unread + 1
  rw [sub64_succ]
  exact Nat.mod_eq_of_lt (Nat.lt_of_le_of_lt hroom (by decide))

/-- Without a reader, a list of alarm events is accounted for exactly when it fits behind the
    events already unread. -/
theorem unread_accounted_iff (es : List Push) (h : Alarms) (hlock : h.signalLock = true)
    (hes : ∀ e ∈ es, e.IsAlarm) (hle : h.unread ≤ maxEventQueue) :
    Along (fun h a => ∀ e, a = .push e → e.IsAlarm → Accounts h e) ringStep h (es.map .push) ↔
      h.unread + es.length ≤ maxEventQueue := by
  induction es generalizing h with
  | nil => exact ⟨fun _ => hle, fun _ => trivial⟩
  | cons e es ih =>
    have hhead := hes e (mem_cons_self ..)
    have htail : ∀ e' ∈ es, e'.IsAlarm := fun e' he' => hes e' (mem_cons_of_mem _ he')
    rw [map_cons, Along, length_cons]
    rcases Nat.lt_or_ge h.unread maxEventQueue with hroom | hfull
    · have hunread : (ringStep h (.push e)).unread = h.unread + 1 := unread_push hroom hlock e
      rw [ih _ (by rw [ringStep_signalLock]; exact hlock) htail
        (by rw [hunread]; exact hroom), hunread]
      constructor
      · rintro ⟨-, hfit⟩; omega
      · intro hfit
        refine ⟨?_, by omega⟩
        rintro e' ⟨⟩ he'
        exact (push_accounts_iff hlock he').mpr hroom
    · constructor
      · rintro ⟨hacc, -⟩
        have hroom := (push_accounts_iff hlock hhead).mp (hacc e rfl hhead)
        omega
      · intro hfit; omega

/-- 1025 PAT timeouts under signal lock and no dashboard: not all of them are accounted for. -/
theorem events_unaccounted :
    ¬ Along (fun h a => ∀ e, a = .push e → e.IsAlarm → Accounts h e) ringStep
      { Alarms.fresh ⟨"", 0, 10000, false, false⟩ with signalLock := true }
      ((replicate 1025 (⟨.patTimeout, 0, 0⟩ : Push)).map .push) := by
  intro h
  have hfit := (unread_accounted_iff _ _ rfl
    (fun e he => by rw [eq_of_mem_replicate he]; decide) (by decide)).mp h
  rw [length_replicate] at hfit
  exact absurd hfit (by decide)

end TsAnalyzer.Alarm
