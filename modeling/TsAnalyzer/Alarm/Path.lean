/-
  Paths of the alarm fields.

  Most of the analyzer reaches the alarm fields through four small MOVES: an event is pushed, an
  alert is updated, the clock is set, the signal locks.  What holds of a path of such moves is
  proved once here, and the packet path only has to be shown to be one.
-/
import TsAnalyzer.Alarm.EventRing
import TsAnalyzer.Alarm.Resolution

namespace TsAnalyzer.Alarm

open Lib List

/-! ## Moves -/

/-- `tsa_alert_update` on the alarm fields. -/
def Alarms.update (a : Alarms) (id : AlertId) (hasError : Bool) (name : String) (pid : Nat) :
    Alarms :=
  { a with toAlerts := tsaAlertUpdate a.toAlerts id hasError name pid }

/-- The alerts an event may raise are among `ids`. -/
def EventType.Within (type : EventType) (ids : List AlertId) : Prop :=
  ∀ c id name, Alarms.eventAction type = some (c, id, name) → id ∈ ids

/-- One move, which raises no alert outside `ids`. -/
inductive AlarmMove (ids : List AlertId) (a : Alarms) : Alarms → Prop
  | push (type : EventType) (pid val : Nat) (htype : type.Within ids) :
    AlarmMove ids a (tsaPushEvent a type pid val)
  | update (id : AlertId) (hasError : Bool) (name : String) (pid : Nat) (hid : id ∈ ids) :
    AlarmMove ids a (a.update id hasError name pid)
  | tick (stcNs : Nat) : AlarmMove ids a { a with stcNs := stcNs }
  | lock : AlarmMove ids a { a with signalLock := true }

/-- Any number of moves. -/
def AlarmPath (ids : List AlertId) : Alarms → Alarms → Prop :=
  Relation.ReflTransGen (AlarmMove ids)

namespace AlarmPath

variable {ids : List AlertId} {a b c : Alarms}

theorem refl (a : Alarms) : AlarmPath ids a a := Relation.ReflTransGen.refl

theorem trans (hab : AlarmPath ids a b) (hbc : AlarmPath ids b c) : AlarmPath ids a c :=
  Relation.ReflTransGen.trans hab hbc

theorem single (h : AlarmMove ids a b) : AlarmPath ids a b := Relation.ReflTransGen.single h

end AlarmPath

variable {i : AlertId} {ids : List AlertId} (a : Alarms) (type : EventType)

theorem AlarmMove.mono {ids' : List AlertId} (hsub : ids ⊆ ids') {a b : Alarms}
    (h : AlarmMove ids a b) : AlarmMove ids' a b := by
  cases h with
  | push type pid val htype =>
    exact .push type pid val fun c id name haction => hsub (htype c id name haction)
  | update id hasError name pid hid => exact .update id hasError name pid (hsub hid)
  | tick stcNs => exact .tick stcNs
  | lock => exact .lock

theorem AlarmPath.mono {ids' : List AlertId} (hsub : ids ⊆ ids') {a b : Alarms}
    (h : AlarmPath ids a b) : AlarmPath ids' a b := by
  induction h with
  | refl => exact .refl a
  | tail _ hmove ih => exact ih.trans (.single (hmove.mono hsub))

/-! ## Alerts -/

theorem update_other {id : AlertId} (hne : i ≠ id) (hasError : Bool) (name : String) (pid : Nat) :
    (a.update id hasError name pid).alerts i = a.alerts i := by
  cases hasError with
  | false => rfl
  | true => exact report_other a.toAlerts id name pid hne

theorem account_other {type : EventType}
    (hne : ∀ c id name, Alarms.eventAction type = some (c, id, name) → i ≠ id) (pid : Nat) :
    (a.account type pid).alerts i = a.alerts i := by
  unfold Alarms.account
  split
  · rename_i c id name haction
    have hcount : (a.count c).alerts = a.alerts := by cases c <;> rfl
    rw [← hcount]
    exact report_other (a.count c).toAlerts id name pid (hne c id name haction)
  · rfl

theorem push_other {type : EventType}
    (hne : ∀ c id name, Alarms.eventAction type = some (c, id, name) → i ≠ id) (pid val : Nat) :
    (tsaPushEvent a type pid val).alerts i = a.alerts i := by
  unfold tsaPushEvent
  split
  · rfl
  · simp only
    split
    · rfl
    · exact account_other (a.enqueue type pid val) hne pid

theorem AlarmMove.alerts {a b : Alarms} (h : AlarmMove ids a b) (hi : i ∉ ids) :
    b.alerts i = a.alerts i := by
  cases h with
  | push type pid val htype =>
    refine push_other a (fun c id name haction heq => ?_) pid val
    exact hi (heq ▸ htype c id name haction)
  | update id hasError name pid hid =>
    have hne : i ≠ id := fun heq => hi (heq ▸ hid)
    exact update_other a hne hasError name pid
  | tick | lock => rfl

theorem AlarmPath.alerts {a b : Alarms} (h : AlarmPath ids a b) (hi : i ∉ ids) :
    b.alerts i = a.alerts i := by
  induction h with
  | refl => rfl
  | tail _ hmove ih => rw [hmove.alerts hi, ih]

/-! ## The signal lock -/

theorem tsaPushEvent_signalLock (pid val : Nat) :
    (tsaPushEvent a type pid val).signalLock = a.signalLock :=
  ringStep_signalLock a (.push ⟨type, pid, val⟩)

theorem AlarmMove.lock_of_lock {a b : Alarms} (h : AlarmMove ids a b)
    (hlock : a.signalLock = true) : b.signalLock = true := by
  cases h with
  | push type pid val _ => rw [tsaPushEvent_signalLock]; exact hlock
  | update | tick => exact hlock
  | lock => rfl

theorem AlarmPath.lock {a b : Alarms} (h : AlarmPath ids a b) (hlock : a.signalLock = true) :
    b.signalLock = true := by
  induction h with
  | refl => exact hlock
  | tail _ hmove ih => exact hmove.lock_of_lock ih

/-! ## The ring -/

/-- The events between the heads of two states of the ring, oldest first. -/
def pushedSince (a b : Alarms) : List Event :=
  (range (sub64 b.head a.head)).map fun k => b.events ((a.head + k) % maxEventQueue)

/-- `b` is `a` with these events appended to the ring, and no others. -/
structure Queues (a : Alarms) (es : List Event) (b : Alarms) : Prop where
  head : b.head % 2 ^ 64 = (a.head + es.length) % 2 ^ 64
  tail : b.tail = a.tail
  fits : es.length ≤ maxEventQueue - a.unread
  queued : ∀ k (hk : k < es.length), b.events ((a.head + k) % maxEventQueue) = es[k]
  others : ∀ i, (∀ k < es.length, i ≠ (a.head + k) % maxEventQueue) → b.events i = a.events i

namespace Queues

variable {a b c : Alarms} {es es' : List Event}

theorem of_same (hhead : b.head = a.head) (htail : b.tail = a.tail)
    (hevents : b.events = a.events) : Queues a [] b where
  head := by rw [hhead]; rfl
  tail := htail
  fits := Nat.zero_le _
  queued k hk := absurd hk (Nat.not_lt_zero k)
  others i _ := by rw [hevents]

theorem trans (hab : Queues a es b) (hbc : Queues b es' c) : Queues a (es ++ es') c := by
  -- the ring of `b` holds `es` more unread events, and all of them are still there in `c`
  have hunread : b.unread % 2 ^ 64 = (a.unread + es.length) % 2 ^ 64 := by
    have hhead := hab.head
    simp only [Alarms.unread, sub64, hab.tail]
    omega
  have hfits := hab.fits
  have hfits' := hbc.fits
  have ha : a.unread < 2 ^ 64 := Nat.mod_lt _ (by norm_num)
  have hb : b.unread < 2 ^ 64 := Nat.mod_lt _ (by norm_num)
  have hpos : ∀ j, (b.head + j) % maxEventQueue = (a.head + (es.length + j)) % maxEventQueue := by
    intro j
    have hhead := hab.head
    simp only [maxEventQueue]
    omega
  simp only [maxEventQueue] at hfits hfits'
  have htotal : es.length + es'.length ≤ 1024 := by omega
  refine ⟨?_, hbc.tail.trans hab.tail, ?_, ?_, ?_⟩
  · have hhead := hab.head
    have hhead' := hbc.head
    rw [length_append]
    omega
  · simp only [length_append, maxEventQueue]
    omega
  · intro k hk
    rw [length_append] at hk
    rcases Nat.lt_or_ge k es.length with hk1 | hk1
    · rw [getElem_append_left hk1, ← hab.queued k hk1]
      refine hbc.others _ fun j hj => ?_
      rw [hpos]
      simp only [maxEventQueue]
      omega
    · rw [getElem_append_right hk1, ← hbc.queued (k - es.length) (by omega), hpos,
        Nat.add_sub_of_le hk1]
  · intro i hi
    rw [length_append] at hi
    rw [hbc.others i fun j hj => hpos j ▸ hi (es.length + j) (by omega)]
    exact hab.others i fun k hk => hi k (by omega)

theorem pushedSince_eq (h : Queues a es b) : pushedSince a b = es := by
  have hhead := h.head
  have hfits := h.fits
  simp only [maxEventQueue] at hfits
  have hlen : sub64 b.head a.head = es.length := by
    unfold sub64
    omega
  refine ext_getElem (by rw [pushedSince, length_map, length_range, hlen]) ?_
  intro k hk hk'
  simp only [pushedSince, getElem_map, getElem_range]
  exact h.queued k hk'

end Queues

theorem account_ring (pid : Nat) : Queues a [] (a.account type pid) := by
  obtain ⟨hhead, htail⟩ := account_head_tail a type pid
  refine .of_same hhead htail ?_
  unfold Alarms.account
  split
  · rename_i c _ _ _
    cases c <;> rfl
  · rfl

theorem push_queues {a : Alarms} (hroom : a.unread < maxEventQueue) (type : EventType)
    (pid val : Nat) : Queues a [⟨type, pid, a.stcNs, val, a.currentPacketOffset⟩]
      (tsaPushEvent a type pid val) := by
  have henqueue : Queues a [⟨type, pid, a.stcNs, val, a.currentPacketOffset⟩]
      (a.enqueue type pid val) := by
    refine ⟨Nat.mod_mod _ _, rfl, ?_, ?_, ?_⟩
    · rw [length_singleton]
      omega
    · intro k hk
      obtain rfl : k = 0 := by rw [length_singleton] at hk; omega
      exact Function.update_self ..
    · intro i hi
      exact Function.update_of_ne (hi 0 (by rw [length_singleton]; omega)) _ _
  rw [tsaPushEvent, if_neg (Nat.not_le.mpr hroom)]
  simp only
  split
  · exact henqueue
  · simpa using henqueue.trans (account_ring (a.enqueue type pid val) type pid)

theorem AlarmMove.queues {a b : Alarms} (h : AlarmMove ids a b) :
    ∃ es, Queues a es b ∧ ∀ e ∈ es, e.type.Within ids := by
  cases h with
  | push type pid val htype =>
    rcases Nat.lt_or_ge a.unread maxEventQueue with hroom | hfull
    · refine ⟨_, push_queues hroom type pid val, fun e he => ?_⟩
      rw [mem_singleton.mp he]
      exact htype
    · rw [tsaPushEvent_full hfull]
      exact ⟨[], .of_same rfl rfl rfl, fun e he => absurd he not_mem_nil⟩
  | update id hasError name pid _ =>
    exact ⟨[], .of_same rfl rfl rfl, fun e he => absurd he not_mem_nil⟩
  | tick | lock => exact ⟨[], .of_same rfl rfl rfl, fun e he => absurd he not_mem_nil⟩

theorem AlarmPath.queues {a b : Alarms} (h : AlarmPath ids a b) :
    ∃ es, Queues a es b ∧ ∀ e ∈ es, e.type.Within ids := by
  induction h with
  | refl => exact ⟨[], .of_same rfl rfl rfl, fun e he => absurd he not_mem_nil⟩
  | tail _ hmove ih =>
    obtain ⟨es, hq, hes⟩ := ih
    obtain ⟨es', hq', hes'⟩ := hmove.queues
    refine ⟨es ++ es', hq.trans hq', fun e he => ?_⟩
    rcases mem_append.mp he with he | he
    · exact hes e he
    · exact hes' e he

end TsAnalyzer.Alarm
