/-
  The webhook engine (`src/tsa_webhook.c`): events of (stream, event type) pairs go out as JSON
  messages, and repetitions within 10 s are held back and summed up.

  **Model** — a cache of 256 entries, matched by a 32-bit HASH of the concatenated names, and a
  queue of at most 1024 messages.  The flush of one entry is an operation of its own, which
  allows more interleavings than there are (`webhookWorker_eq`).
-/
import TsAnalyzer.Lib.Run
import TsAnalyzer.Lib.Word

namespace TsAnalyzer.Webhook

open Lib Function List

/-! ## Strings, messages, entries -/

/-- The bytes of a C string before its terminator. -/
abbrev CString := List UInt8

def text (s : String) : CString := s.toList.map fun c => UInt8.ofNat c.toNat

def unknownName : CString := [0x75, 0x6e, 0x6b, 0x6e, 0x6f, 0x77, 0x6e]

def criticalLevel : CString := [0x43, 0x52, 0x49, 0x54, 0x49, 0x43, 0x41, 0x4c]

def okLevel : CString := [0x4f, 0x4b]

def maxWebhookQueue : Nat := 1024
def suppressionCacheSize : Nat := 256
def cooldownNs : Nat := 10000000000

def charValue (c : UInt8) : Nat := if c < 128 then c.toNat else 2 ^ 32 - 256 + c.toNat

def hashFrom (h : Nat) (s : CString) : Nat :=
  s.foldl (fun h c => (h * 31 + charValue c) % 2 ^ 32) h

def simpleHash (s1 : Option CString) (s2 : CString) : Nat := hashFrom (hashFrom 0 (s1.getD [])) s2

structure SuppressionEntry where
  hash : Nat
  lastSentNs : Nat
  count : Nat
  lastStreamId : CString
  lastEventType : CString
  lastMessage : CString
  lastLevel : CString
  deriving DecidableEq

/-- What `send_now_locked` formats. -/
structure Message where
  streamId : CString
  alertId : CString
  level : CString
  message : CString
  count : Nat
  deriving DecidableEq

/-- The JSON text, in a `char buf[2048]`. -/
def Message.json (m : Message) (timestamp : Nat) : CString :=
  let head := text "\x7b\"stream_id\":\"" ++ m.streamId ++ text "\",\"alert_id\":\"" ++ m.alertId ++
    text "\",\"level\":\"" ++ m.level ++ text "\",\"message\":\"" ++ m.message
  let tail := if 1 < m.count then
      text " (occurred " ++ text (toString m.count) ++ text " times)\",\"timestamp\":" ++
        text (toString timestamp) ++ text ",\"summary\":true\x7d"
    else text "\",\"timestamp\":" ++ text (toString timestamp) ++ text "\x7d"
  (head ++ tail).take 2047

/-- `struct tsa_webhook_engine`. -/
structure Engine where
  /-- `queue`, from `tail` on. -/
  queue : List CString
  cache : Fin suppressionCacheSize → SuppressionEntry
  /-- The latest `CLOCK_MONOTONIC` reading. -/
  clockNs : Nat

/-- `tsa_webhook_init`. -/
def Engine.init : Engine := ⟨[], fun _ => ⟨0, 0, 0, [], [], [], []⟩, 0⟩

/-! ## The two threads -/

def sendNowLocked (eng : Engine) (m : Message) (timestamp : Nat) : Engine :=
  if eng.queue.length < maxWebhookQueue then { eng with queue := eng.queue ++ [m.json timestamp] }
  else eng

/-- The arguments of `tsa_webhook_push_event`; two of them may be null. -/
structure PushEvent where
  streamId : Option CString
  eventType : CString
  message : CString
  level : Option CString
  deriving DecidableEq

/-- The message that is sent at once. -/
def PushEvent.single (e : PushEvent) : Message :=
  ⟨e.streamId.getD unknownName, e.eventType, e.level.getD criticalLevel, e.message, 1⟩

/-- The entry that is left in the cache; `strncpy` cuts the texts to the fields. -/
def PushEvent.entry (e : PushEvent) (now : Nat) : SuppressionEntry where
  hash := simpleHash e.streamId e.eventType
  lastSentNs := now
  count := 1
  lastStreamId := (e.streamId.getD unknownName).take 63
  lastEventType := e.eventType.take 31
  lastMessage := e.message.take 255
  lastLevel := (e.level.getD criticalLevel).take 15

/-- The first loop: the entry that suppresses the event. -/
def Engine.suppressor (eng : Engine) (now : Nat) (e : PushEvent) :
    Option (Fin suppressionCacheSize) :=
  (finRange suppressionCacheSize).find? fun i =>
    (eng.cache i).hash = simpleHash e.streamId e.eventType ∧ 0 < (eng.cache i).count ∧
      sub64 now (eng.cache i).lastSentNs < cooldownNs

/-- The second loop: the entry that is given up for the event. -/
def Engine.victim (eng : Engine) (now : Nat) : Fin suppressionCacheSize :=
  match (finRange suppressionCacheSize).find? fun i => (eng.cache i).count = 0 with
  | some i => i
  | none => ⟨now % suppressionCacheSize, Nat.mod_lt _ (by decide)⟩

def tsaWebhookPushEvent (eng : Engine) (now timestamp : Nat) (e : PushEvent) : Engine :=
  match eng.suppressor now e with
  | some i =>
    { eng with
      cache := update eng.cache i
        { eng.cache i with count := ((eng.cache i).count + 1) % 2 ^ 32 }
      clockNs := now }
  | none =>
    sendNowLocked
      { eng with
        cache := update eng.cache (eng.victim now) (e.entry now)
        clockNs := now }
      e.single timestamp

def SuppressionEntry.summary (e : SuppressionEntry) : Message :=
  ⟨e.lastStreamId, e.lastEventType, e.lastLevel, e.lastMessage, e.count⟩

def flushEntry (now timestamp : Nat) (eng : Engine) (i : Fin suppressionCacheSize) : Engine :=
  if 1 < (eng.cache i).count ∧ cooldownNs ≤ sub64 now (eng.cache i).lastSentNs then
    sendNowLocked
      { eng with
        cache := update eng.cache i { eng.cache i with count := 0 }
        clockNs := now }
      (eng.cache i).summary timestamp
  else { eng with clockNs := now }

/-- The worker takes one message off the queue. -/
def takeMessage (eng : Engine) : Engine := { eng with queue := eng.queue.drop 1 }

def webhookWorker (eng : Engine) (now timestamp : Nat) : Engine :=
  takeMessage ((finRange suppressionCacheSize).foldl (flushEntry now timestamp) eng)

/-! ## Operations and their history -/

inductive Op where
  | push (now timestamp : Nat) (e : PushEvent)
  | flush (now timestamp : Nat) (i : Fin suppressionCacheSize)
  | take

def step (eng : Engine) : Op → Engine
  | .push now timestamp e => tsaWebhookPushEvent eng now timestamp e
  | .flush now timestamp i => flushEntry now timestamp eng i
  | .take => takeMessage eng

/-- The operations of one pass of the worker. -/
def workerOps (now timestamp : Nat) : List Op :=
  (finRange suppressionCacheSize).map (Op.flush now timestamp) ++ [.take]

theorem webhookWorker_eq (eng : Engine) (now timestamp : Nat) :
    webhookWorker eng now timestamp = (workerOps now timestamp).foldl step eng := by
  rw [workerOps, foldl_append, foldl_map]
  rfl

/-- A (stream, event type) pair. -/
structure Pair where
  streamId : CString
  eventType : CString
  deriving DecidableEq

def PushEvent.pair (e : PushEvent) : Pair := ⟨e.streamId.getD unknownName, e.eventType⟩
def Message.pair (m : Message) : Pair := ⟨m.streamId, m.alertId⟩
def SuppressionEntry.pair (e : SuppressionEntry) : Pair := ⟨e.lastStreamId, e.lastEventType⟩

/-- What is seen of the engine. -/
inductive Happening where
  | pushed (p : Pair) (level : CString) (now : Nat) (suppressed : Bool)
  | enqueued (m : Message) (now : Nat)
  deriving DecidableEq

/-- A message that an operation has put into the queue. -/
def enqueuedBy (eng eng' : Engine) (m : Message) (now : Nat) : List Happening :=
  if eng.queue.length < eng'.queue.length then [.enqueued m now] else []

def observe (eng : Engine) : Op → List Happening
  | .push now timestamp e =>
    .pushed e.pair (e.level.getD criticalLevel) now (eng.suppressor now e).isSome ::
      enqueuedBy eng (tsaWebhookPushEvent eng now timestamp e) e.single now
  | .flush now timestamp i =>
    enqueuedBy eng (flushEntry now timestamp eng i) (eng.cache i).summary now
  | .take => []

/-- An operation with what is seen of it. -/
def engine (eng : Engine) (op : Op) : Engine × List Happening := (step eng op, observe eng op)

/-- The clock does not run backwards, and fits its word. -/
def Timely (eng : Engine) : Op → Prop
  | .push now _ _ => eng.clockNs ≤ now ∧ now < 2 ^ 64
  | .flush now _ _ => eng.clockNs ≤ now ∧ now < 2 ^ 64
  | .take => True

instance (eng : Engine) : (op : Op) → Decidable (Timely eng op)
  | .push now _ _ => inferInstanceAs (Decidable (eng.clockNs ≤ now ∧ now < 2 ^ 64))
  | .flush now _ _ => inferInstanceAs (Decidable (eng.clockNs ≤ now ∧ now < 2 ^ 64))
  | .take => isTrue trivial

def Room (eng : Engine) (_ : Op) : Prop := eng.queue.length < maxWebhookQueue
deriving Decidable

/-! ## Effects -/

/-- What an operation does while the queue has room: it leaves an engine, and something is seen. -/
inductive Effect (eng : Engine) : Op → Engine → List Happening → Prop
  /-- The event is counted in the entry that suppresses it, and in nothing else. -/
  | suppressed {now timestamp : Nat} {e : PushEvent} {i : Fin suppressionCacheSize}
      (hs : eng.suppressor now e = some i) :
    Effect eng (.push now timestamp e)
      { eng with
        cache := update eng.cache i
          { eng.cache i with count := ((eng.cache i).count + 1) % 2 ^ 32 }
        clockNs := now }
      [.pushed e.pair (e.level.getD criticalLevel) now true]
  /-- The event takes over an entry and is sent at once. -/
  | sent {now timestamp : Nat} {e : PushEvent} (hs : eng.suppressor now e = none) :
    Effect eng (.push now timestamp e)
      { queue := eng.queue ++ [e.single.json timestamp]
        cache := update eng.cache (eng.victim now) (e.entry now)
        clockNs := now }
      [.pushed e.pair (e.level.getD criticalLevel) now false, .enqueued e.single now]
  /-- An entry that is due is summed up and freed. -/
  | summed {now timestamp : Nat} {i : Fin suppressionCacheSize} (hmany : 1 < (eng.cache i).count)
      (hcool : cooldownNs ≤ sub64 now (eng.cache i).lastSentNs) :
    Effect eng (.flush now timestamp i)
      { queue := eng.queue ++ [(eng.cache i).summary.json timestamp]
        cache := update eng.cache i { eng.cache i with count := 0 }
        clockNs := now }
      [.enqueued (eng.cache i).summary now]
  | idle {now timestamp : Nat} {i : Fin suppressionCacheSize}
      (hidle : ¬ (1 < (eng.cache i).count ∧ cooldownNs ≤ sub64 now (eng.cache i).lastSentNs)) :
    Effect eng (.flush now timestamp i) { eng with clockNs := now } []
  | taken : Effect eng .take (takeMessage eng) []

section Effects

variable {eng : Engine} {now : Nat} {e : PushEvent} {i : Fin suppressionCacheSize}

theorem suppressor_some (h : eng.suppressor now e = some i) :
    (eng.cache i).hash = simpleHash e.streamId e.eventType ∧ 0 < (eng.cache i).count ∧
      sub64 now (eng.cache i).lastSentNs < cooldownNs := by
  simpa using find?_some h

theorem push_effect (hroom : eng.queue.length < maxWebhookQueue) (timestamp : Nat) :
    Effect eng (.push now timestamp e) (tsaWebhookPushEvent eng now timestamp e)
      (observe eng (.push now timestamp e)) := by
  cases hs : eng.suppressor now e with
  | some i =>
    have hpush : tsaWebhookPushEvent eng now timestamp e =
        { eng with
          cache := update eng.cache i
            { eng.cache i with count := ((eng.cache i).count + 1) % 2 ^ 32 }
          clockNs := now } := by
      rw [tsaWebhookPushEvent, hs]
    have hseen : observe eng (.push now timestamp e) =
        [.pushed e.pair (e.level.getD criticalLevel) now true] := by
      rw [observe, hpush, hs]
      simp [enqueuedBy]
    rw [hpush, hseen]
    exact .suppressed hs
  | none =>
    have hpush : tsaWebhookPushEvent eng now timestamp e =
        { queue := eng.queue ++ [e.single.json timestamp]
          cache := update eng.cache (eng.victim now) (e.entry now)
          clockNs := now } := by
      rw [tsaWebhookPushEvent, hs]
      simp [sendNowLocked, hroom]
    have hseen : observe eng (.push now timestamp e) =
        [.pushed e.pair (e.level.getD criticalLevel) now false, .enqueued e.single now] := by
      rw [observe, hpush, hs]
      simp [enqueuedBy]
    rw [hpush, hseen]
    exact .sent hs

theorem flush_effect (hroom : eng.queue.length < maxWebhookQueue) (timestamp : Nat) :
    Effect eng (.flush now timestamp i) (flushEntry now timestamp eng i)
      (observe eng (.flush now timestamp i)) := by
  by_cases hdue : 1 < (eng.cache i).count ∧ cooldownNs ≤ sub64 now (eng.cache i).lastSentNs
  · have hflush : flushEntry now timestamp eng i =
        { queue := eng.queue ++ [(eng.cache i).summary.json timestamp]
          cache := update eng.cache i { eng.cache i with count := 0 }
          clockNs := now } := by
      simp [flushEntry, sendNowLocked, hdue, hroom]
    have hseen : observe eng (.flush now timestamp i) = [.enqueued (eng.cache i).summary now] := by
      rw [observe, hflush]
      simp [enqueuedBy]
    rw [hflush, hseen]
    exact .summed hdue.1 hdue.2
  · have hflush : flushEntry now timestamp eng i = { eng with clockNs := now } := by
      rw [flushEntry, if_neg hdue]
    have hseen : observe eng (.flush now timestamp i) = [] := by
      rw [observe, hflush]
      simp [enqueuedBy]
    rw [hflush, hseen]
    exact .idle hdue

theorem step_effect {op : Op} (hroom : Room eng op) :
    Effect eng op (step eng op) (observe eng op) := by
  cases op with
  | push now timestamp e => exact push_effect hroom timestamp
  | flush now timestamp i => exact flush_effect hroom timestamp
  | take => exact .taken

end Effects

end TsAnalyzer.Webhook
