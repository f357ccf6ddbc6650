/-
  The alert engine (`src/tsa_alert.c`): one state per alert, a suppression TREE (a firing sync
  loss hides what follows from it) and an AGGREGATOR that folds repeated notifications of one
  (alert, PID) pair into a window.

  * What leaves the engine — webhook messages and Lua events — is recorded in `notices`, oldest
    first; the texts are those of the source, cut to its buffer sizes (`cstr`).
  * The aggregator is a hash table WITHOUT probing: a pair that hashes to an occupied slot takes
    it over.
-/
import TsAnalyzer.Lib.Word

namespace TsAnalyzer.Alarm

open Lib

/-! ## Alerts -/

inductive AlertId where
  | sync | pat | pmt | pid | cc | crc | pcr | transport | pts | tstd | entropy | sdt | nit
  | ccMissing
  deriving DecidableEq

/-- The value of an alert in its enum. -/
def AlertId.toNat : AlertId → Nat
  | sync => 0 | pat => 1 | pmt => 2 | pid => 3 | cc => 4 | crc => 5 | pcr => 6 | transport => 7
  | pts => 8 | tstd => 9 | entropy => 10 | sdt => 11 | nit => 12 | ccMissing => 13

def tsaAlertGetMask : AlertId → Nat
  | .sync => 1 <<< 0 | .pat => 1 <<< 1 | .cc => 1 <<< 2 | .pmt => 1 <<< 3 | .pid => 1 <<< 4
  | .transport => 1 <<< 5 | .crc => 1 <<< 6 | .pcr => 1 <<< 7 | .pts => 1 <<< 8 | .tstd => 1 <<< 9
  | .entropy => 1 <<< 10 | .sdt => 1 <<< 11 | .nit => 1 <<< 12 | .ccMissing => 1 <<< 13

def alertMaskAll : Nat := 2 ^ 64 - 1

inductive AlertStatus where
  | off
  | firing
  deriving DecidableEq

structure AlertState where
  status : AlertStatus
  lastOccurrenceNs : Nat
  countInWindow : Nat
  needsResolveMsg : Bool
  deriving DecidableEq

/-- `tsa_alert_aggregator_entry_t` (its `hash` field is never used). -/
structure AggregatorEntry where
  id : AlertId
  pid : Nat
  hitCount : Nat
  lastHitNs : Nat
  windowStartNs : Nat
  streamId : String
  alertName : String
  message : String
  active : Bool
  deriving DecidableEq

def alertAggregatorSize : Nat := 4096

/-- A message on its way out of the alert engine. -/
inductive Notice where
  /-- `tsa_webhook_push_event(webhook, label, name, msg, level)`. -/
  | webhook (label name msg level : String)
  /-- `tsa_lua_push_event(lua, name, pid, msg)`. -/
  | lua (name : String) (pid : Nat) (msg : String)
  deriving DecidableEq

/-- What the alert engine reads of `tsa_config_t`, and which sinks exist. -/
structure AlertConfig where
  inputLabel : String
  alertFilterMask : Nat
  /-- `aggregator.window_ms`. -/
  windowMs : Nat
  hasWebhook : Bool
  hasLua : Bool
  deriving DecidableEq

/-- The part of the handle the alert engine works on. -/
structure Alerts where
  config : AlertConfig
  /-- `stc_ns`. -/
  stcNs : Nat
  alerts : AlertId → AlertState
  /-- `aggregator.entries`, read at indices below `alertAggregatorSize`. -/
  entries : Nat → AggregatorEntry
  notices : List Notice

/-! ## Suppression -/

/-- The contents of a `char[size]` after a bounded copy of `s`. -/
def cstr (size : Nat) (s : String) : String := String.ofList (s.toList.take (size - 1))

def alertAggregatorHash (id : AlertId) (pid : Nat) : Nat :=
  (id.toNat * 31 + pid) % alertAggregatorSize

/-- `tsa_alert_should_suppress`: is the pair inside its window?  A pair that is not opens one. -/
def tsaAlertShouldSuppress (h : Alerts) (id : AlertId) (pid : Nat) (name message : String) :
    Alerts × Bool :=
  if h.config.windowMs = 0 then (h, false)
  else
    let idx := alertAggregatorHash id pid
    let entry := h.entries idx
    let windowNs := h.config.windowMs * 1000000
    if entry.active ∧ entry.id = id ∧ entry.pid = pid ∧
        sub64 h.stcNs entry.windowStartNs < windowNs then
      let hit := { entry with hitCount := (entry.hitCount + 1) % 2 ^ 32, lastHitNs := h.stcNs }
      ({ h with entries := Function.update h.entries idx hit }, true)
    else
      let label := if h.config.inputLabel = "" then "unknown" else h.config.inputLabel
      let opened : AggregatorEntry :=
        { id := id, pid := pid, hitCount := 1, lastHitNs := h.stcNs, windowStartNs := h.stcNs
          streamId := cstr 64 label, alertName := cstr 32 name, message := cstr 256 message
          active := true }
      ({ h with entries := Function.update h.entries idx opened }, false)

def tsaAlertIsSuppressedByTree (h : Alerts) (id : AlertId) : Bool :=
  if (h.alerts .sync).status = .firing ∧
      id ∈ [.cc, .pcr, .tstd, .pat, .pmt, .sdt, .nit, .transport, .crc, .pts] then true
  else decide ((h.alerts .cc).status = .firing ∧ id ∈ [AlertId.pcr, .tstd])

/-! ## The update -/

/-- The CRITICAL message, to the sinks that exist; the webhook is masked by the configuration. -/
def Alerts.notify (h : Alerts) (id : AlertId) (name : String) (pid : Nat) (msg : String) : Alerts :=
  let userMask := if h.config.alertFilterMask = 0 then alertMaskAll else h.config.alertFilterMask
  let webhook := if h.config.hasWebhook ∧ userMask &&& tsaAlertGetMask id ≠ 0 then
    [Notice.webhook h.config.inputLabel name msg "CRITICAL"] else []
  let lua := if h.config.hasLua then [Notice.lua name pid msg] else []
  { h with notices := h.notices ++ webhook ++ lua }

/-- `tsa_alert_update` (a call with `has_error = false` does nothing). -/
def tsaAlertUpdate (h : Alerts) (id : AlertId) (hasError : Bool) (name : String) (pid : Nat) :
    Alerts :=
  if !hasError then h
  else if tsaAlertIsSuppressedByTree h id then h
  else
    let s := h.alerts id
    let hit := { s with
      lastOccurrenceNs := h.stcNs, countInWindow := (s.countInWindow + 1) % 2 ^ 32 }
    if s.status = .off then
      let fired := { hit with status := .firing, needsResolveMsg := true }
      let h1 := { h with alerts := Function.update h.alerts id fired }
      let msg := cstr 256 ("CRITICAL: " ++ name ++ " Error detected on PID " ++ toString pid)
      let r := tsaAlertShouldSuppress h1 id pid name msg
      if r.2 then r.1 else r.1.notify id name pid msg
    else { h with alerts := Function.update h.alerts id hit }

end TsAnalyzer.Alarm
