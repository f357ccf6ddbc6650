/-
  `tsa_alert_check_resolutions` (`src/tsa_alert.c`), and the HISTORY of the alert engine.

  The check raises what has timed out, flushes the windows that are over, and resolves the alerts
  that have been quiet for 5 s.
-/
import TsAnalyzer.Lib.Run
import TsAnalyzer.Essence.Tstd
import TsAnalyzer.Alarm.Alert

namespace TsAnalyzer.Alarm

open Lib Essence List Function

/-! ## The check -/

/-- `TSA_TR101290_PAT_TIMEOUT_NS`. -/
def patTimeoutNs : Nat := 500000000
/-- `TSA_TR101290_PMT_TIMEOUT_NS`. -/
def pmtTimeoutNs : Nat := 500000000
/-- `TSA_TR101290_SDT_TIMEOUT_NS`. -/
def sdtTimeoutNs : Nat := 2000000000
/-- `TSA_TR101290_NIT_TIMEOUT_NS`. -/
def nitTimeoutNs : Nat := 10000000000
/-- `TSA_TR101290_PID_TIMEOUT_NS`, which is also the `RESOLVE_TIMEOUT_NS` of the check. -/
def pidTimeoutNs : Nat := 5000000000
/-- `TSA_TR101290_CC_TIMEOUT_NS`. -/
def ccTimeoutNs : Nat := 10000000000
def tsPidMax : Nat := 8192

def tsaAlertGetName : AlertId → String
  | .sync => "SYNC" | .pat => "PAT" | .pmt => "PMT" | .pid => "PID" | .cc => "CC"
  | .transport => "TRANSPORT" | .crc => "CRC" | .pcr => "PCR" | .pts => "PTS" | .tstd => "TSTD"
  | .entropy => "ENTROPY" | .sdt => "SDT" | .nit => "NIT" | .ccMissing => "CC_MISSING"

/-- The alerts, in the order of their enum. -/
def AlertId.all : List AlertId :=
  [.sync, .pat, .pmt, .pid, .cc, .crc, .pcr, .transport, .pts, .tstd, .entropy, .sdt, .nit,
    .ccMissing]

/-- What the check reads of the rest of the handle. -/
structure Monitors where
  signalLock : Bool
  lastSnapWallNs : Nat
  lastPacketRxNs : Nat
  lastPatNs : Nat
  lastPmtNs : Nat
  lastSdtNs : Nat
  lastNitNs : Nat
  pidSeen : Nat → Bool
  /-- `es_tracks[pid].stream_type`. -/
  streamType : Nat → UInt8
  /-- `es_tracks[pid].video.has_cea708`. -/
  hasCea708 : Nat → Bool
  /-- `es_tracks[pid].video.last_cc_seen_ns`. -/
  lastCcSeenNs : Nat → Nat

/-- A table that has been seen, but not for too long. -/
def checkTable (h : Alerts) (lastNs timeoutNs : Nat) (id : AlertId) (name : String) : Alerts :=
  if 0 < lastNs ∧ timeoutNs < sub64 h.stcNs lastNs then tsaAlertUpdate h id true name 0 else h

def checkCaptions (m : Monitors) (h : Alerts) (i : Nat) : Alerts :=
  if m.pidSeen i ∧ tsaIsVideo (m.streamType i) ∧ m.hasCea708 i then
    if 0 < m.lastCcSeenNs i ∧ ccTimeoutNs < sub64 h.stcNs (m.lastCcSeenNs i) then
      tsaAlertUpdate h .ccMissing true "CC_MISSING" i
    else if (h.alerts .ccMissing).status = .firing then
      tsaAlertUpdate h .ccMissing false "CC_MISSING" i
    else h
  else h

/-- The first part of the check: what has timed out is reported. -/
def checkTimeouts (m : Monitors) (h : Alerts) : Alerts :=
  let h := if m.signalLock ∧ m.lastPacketRxNs < m.lastSnapWallNs ∧
      patTimeoutNs < sub64 m.lastSnapWallNs m.lastPacketRxNs then
    tsaAlertUpdate h .sync true "SYNC" 0 else h
  if m.signalLock ∧ 0 < h.stcNs then
    let h := checkTable h m.lastPatNs patTimeoutNs .pat "PAT"
    let h := checkTable h m.lastPmtNs pmtTimeoutNs .pmt "PMT"
    let h := checkTable h m.lastSdtNs sdtTimeoutNs .sdt "SDT"
    let h := checkTable h m.lastNitNs nitTimeoutNs .nit "NIT"
    (range tsPidMax).foldl (checkCaptions m) h
  else h

/-- Do webhook events of this alert pass the configuration? -/
def AlertConfig.webhookTakes (c : AlertConfig) (id : AlertId) : Bool :=
  let userMask := if c.alertFilterMask = 0 then alertMaskAll else c.alertFilterMask
  c.hasWebhook && userMask &&& tsaAlertGetMask id != 0

/-- `%04x`. -/
def hex4 (n : Nat) : String := String.ofList ((Nat.toDigits 16 n).leftpad 4 '0')

/-- The second part, for one entry of the aggregator: a window that is over is closed, with a
    summary if it suppressed anything. -/
def flushEntry (h : Alerts) (i : Nat) : Alerts :=
  let entry := h.entries i
  let windowNs := h.config.windowMs * 1000000
  if entry.active ∧ windowNs ≤ sub64 h.stcNs entry.windowStartNs then
    let summary := cstr 512 ("[Summary] Stream " ++ entry.streamId ++ " had " ++
      toString entry.hitCount ++ " occurrences of Alert " ++ entry.alertName ++ " on PID 0x" ++
      hex4 entry.pid ++ " in the last " ++ toString h.config.windowMs ++ " ms")
    let webhook := if 1 < entry.hitCount ∧ h.config.webhookTakes entry.id then
      [Notice.webhook entry.streamId entry.alertName summary "SUMMARY"] else []
    { h with
      entries := update h.entries i { entry with active := false }
      notices := h.notices ++ webhook }
  else h

/-- The third part, for one alert: it is resolved when it has been quiet for long enough. -/
def resolveAlert (h : Alerts) (id : AlertId) : Alerts :=
  let s := h.alerts id
  if s.status = .firing ∧ pidTimeoutNs < sub64 h.stcNs s.lastOccurrenceNs then
    let name := tsaAlertGetName id
    let msg := cstr 256 ("OK: " ++ name ++ " Error resolved and stabilized")
    let webhook := if s.needsResolveMsg ∧ h.config.webhookTakes id then
      [Notice.webhook h.config.inputLabel name msg "OK"] else []
    let lua := if h.config.hasLua then [Notice.lua name 0 msg] else []
    { h with
      alerts := update h.alerts id
        { s with status := .off, needsResolveMsg := false, countInWindow := 0 }
      notices := h.notices ++ webhook ++ lua }
  else h

def tsaAlertCheckResolutions (m : Monitors) (h : Alerts) : Alerts :=
  let h := checkTimeouts m h
  let h := (range alertAggregatorSize).foldl flushEntry h
  AlertId.all.foldl resolveAlert h

/-- The `calloc`ed alert fields of `tsa_create`. -/
def Alerts.fresh (config : AlertConfig) : Alerts where
  config := config
  stcNs := 0
  alerts _ := ⟨.off, 0, 0, false⟩
  entries _ := ⟨.sync, 0, 0, 0, 0, "", "", "", false⟩
  notices := []

/-! ## Calls and operations -/

/-- What is done to the engine: `stc_ns` moves, or one of its two functions is called. -/
inductive Call where
  | tick (stcNs : Nat)
  | update (id : AlertId) (hasError : Bool) (name : String) (pid : Nat)
  | check (m : Monitors)

def callStep (h : Alerts) : Call → Alerts
  | .tick stcNs => { h with stcNs := stcNs }
  | .update id hasError name pid => tsaAlertUpdate h id hasError name pid
  | .check m => tsaAlertCheckResolutions m h

/-- A call, taken apart. -/
inductive Op where
  | tick (stcNs : Nat)
  | report (id : AlertId) (name : String) (pid : Nat)
  | flush (i : Nat)
  | resolve (id : AlertId)

def opStep (h : Alerts) : Op → Alerts
  | .tick stcNs => { h with stcNs := stcNs }
  | .report id name pid => tsaAlertUpdate h id true name pid
  | .flush i => flushEntry h i
  | .resolve id => resolveAlert h id

def tableReport (stcNs lastNs timeoutNs : Nat) (id : AlertId) (name : String) : List Op :=
  if 0 < lastNs ∧ timeoutNs < sub64 stcNs lastNs then [.report id name 0] else []

/-- The report of a PID whose captions have gone missing. -/
def captionReport (m : Monitors) (stcNs i : Nat) : List Op :=
  if m.pidSeen i ∧ tsaIsVideo (m.streamType i) ∧ m.hasCea708 i ∧ 0 < m.lastCcSeenNs i ∧
      ccTimeoutNs < sub64 stcNs (m.lastCcSeenNs i) then [.report .ccMissing "CC_MISSING" i] else []

/-- Everything the first part of the check reports. -/
def Monitors.reports (m : Monitors) (stcNs : Nat) : List Op :=
  (if m.signalLock ∧ m.lastPacketRxNs < m.lastSnapWallNs ∧
      patTimeoutNs < sub64 m.lastSnapWallNs m.lastPacketRxNs then [Op.report .sync "SYNC" 0]
    else []) ++
  if m.signalLock ∧ 0 < stcNs then
    tableReport stcNs m.lastPatNs patTimeoutNs .pat "PAT" ++
    tableReport stcNs m.lastPmtNs pmtTimeoutNs .pmt "PMT" ++
    tableReport stcNs m.lastSdtNs sdtTimeoutNs .sdt "SDT" ++
    tableReport stcNs m.lastNitNs nitTimeoutNs .nit "NIT" ++
    (range tsPidMax).flatMap (captionReport m stcNs)
  else []

def Call.ops (h : Alerts) : Call → List Op
  | .tick stcNs => [.tick stcNs]
  | .update id hasError name pid => if hasError then [.report id name pid] else []
  | .check m =>
    m.reports h.stcNs ++ (range alertAggregatorSize).map .flush ++ AlertId.all.map .resolve

/-! ## History -/

/-- Is this a webhook event of the given level? -/
def Notice.isWebhook (level : String) : Notice → Bool
  | .webhook _ _ _ l => l == level
  | .lua .. => false

/-- Has a webhook event of this level been pushed between two states of the handle? -/
def pushed (level : String) (h h' : Alerts) : Bool :=
  (h'.notices.drop h.notices.length).any (Notice.isWebhook level)

/-- What an observer of the handle sees. -/
inductive Happening where
  /-- `tsa_alert_update(id, true)` is called. -/
  | reported (id : AlertId) (atNs : Nat)
  /-- The alert goes from OFF to FIRING; is the notification suppressed, is CRITICAL pushed? -/
  | fired (id : AlertId) (pid atNs : Nat) (suppressed critical : Bool)
  /-- A summary of so many hits of the pair. -/
  | summarised (id : AlertId) (pid count : Nat)
  /-- The alert goes from FIRING to OFF; is OK pushed? -/
  | resolved (id : AlertId) (atNs : Nat) (ok : Bool)
  deriving DecidableEq

def observe (h : Alerts) : Op → List Happening
  | .tick _ => []
  | .report id name pid =>
    let h' := tsaAlertUpdate h id true name pid
    .reported id h.stcNs ::
      if (h.alerts id).status = .off ∧ (h'.alerts id).status = .firing then
        [.fired id pid h.stcNs (tsaAlertShouldSuppress h id pid name "").2 (pushed "CRITICAL" h h')]
      else []
  | .flush i =>
    let entry := h.entries i
    if entry.active ∧ ((flushEntry h i).entries i).active = false ∧ 1 < entry.hitCount then
      [.summarised entry.id entry.pid entry.hitCount] else []
  | .resolve id =>
    let h' := resolveAlert h id
    if (h.alerts id).status = .firing ∧ (h'.alerts id).status = .off then
      [.resolved id h.stcNs (pushed "OK" h h')] else []

/-- An operation with what is seen of it. -/
def opEngine (h : Alerts) (op : Op) : Alerts × List Happening := (opStep h op, observe h op)

/-- A call with what is seen of its operations. -/
def engine (h : Alerts) (c : Call) : Alerts × List Happening :=
  (callStep h c, (run opEngine h (c.ops h)).2)

/-! ## Effects of the operations -/

section Effects

variable (h : Alerts) (id : AlertId) (name : String) (pid : Nat) (msg : String)

/-- Is the pair inside its aggregation window? -/
def Alerts.inWindow : Bool :=
  let entry := h.entries (alertAggregatorHash id pid)
  decide (h.config.windowMs ≠ 0 ∧ entry.active ∧ entry.id = id ∧ entry.pid = pid ∧
    sub64 h.stcNs entry.windowStartNs < h.config.windowMs * 1000000)

theorem shouldSuppress_verdict :
    (tsaAlertShouldSuppress h id pid name msg).2 = h.inWindow id pid := by
  simp only [tsaAlertShouldSuppress, Alerts.inWindow]
  by_cases hw : h.config.windowMs = 0
  · simp [hw]
  · rw [if_neg hw]
    split <;> simp_all

theorem shouldSuppress_alerts (alerts : AlertId → AlertState) :
    tsaAlertShouldSuppress { h with alerts := alerts } id pid name msg =
      ({ h with alerts := alerts, entries := (tsaAlertShouldSuppress h id pid name msg).1.entries },
        h.inWindow id pid) := by
  rw [← shouldSuppress_verdict h id name pid msg]
  simp only [tsaAlertShouldSuppress]
  split
  · rfl
  · split <;> rfl

/-- What an error that is not hidden makes of an alert's state. -/
def AlertState.hit (s : AlertState) (now : Nat) : AlertState where
  status := .firing
  lastOccurrenceNs := now
  countInWindow := (s.countInWindow + 1) % 2 ^ 32
  needsResolveMsg := if s.status = .off then true else s.needsResolveMsg

/-- What of the aggregator an alert that fires leaves behind. -/
def Alerts.aggregated : Nat → AggregatorEntry :=
  let msg := cstr 256 ("CRITICAL: " ++ name ++ " Error detected on PID " ++ toString pid)
  (tsaAlertShouldSuppress h id pid name msg).1.entries

theorem notify_pushes :
    ∃ notices, h.notify id name pid msg = { h with notices := h.notices ++ notices } ∧
      notices.any (Notice.isWebhook "CRITICAL") = h.config.webhookTakes id := by
  refine ⟨(if h.config.webhookTakes id then
      [Notice.webhook h.config.inputLabel name msg "CRITICAL"] else []) ++
    if h.config.hasLua then [Notice.lua name pid msg] else [], ?_, ?_⟩
  · simp [Alerts.notify, AlertConfig.webhookTakes, append_assoc]
  · cases h.config.webhookTakes id <;> cases h.config.hasLua <;> rfl

theorem aggregated_inWindow (hw : h.inWindow id pid = true) :
    let slot := alertAggregatorHash id pid
    h.aggregated id name pid = update h.entries slot
      { h.entries slot with
        hitCount := ((h.entries slot).hitCount + 1) % 2 ^ 32
        lastHitNs := h.stcNs } := by
  simp only [Alerts.inWindow, decide_eq_true_eq] at hw
  simp only [Alerts.aggregated, tsaAlertShouldSuppress, if_neg hw.1]
  rw [if_pos hw.2]

theorem aggregated_opens (hw : h.inWindow id pid = false) (hwindow : h.config.windowMs ≠ 0) :
    ∃ e : AggregatorEntry,
      h.aggregated id name pid = update h.entries (alertAggregatorHash id pid) e ∧
      e.active = true ∧ e.id = id ∧ e.pid = pid ∧ e.hitCount = 1 ∧ e.windowStartNs = h.stcNs := by
  simp only [Alerts.inWindow, decide_eq_false_iff_not] at hw
  simp only [Alerts.aggregated, tsaAlertShouldSuppress, if_neg hwindow]
  rw [if_neg fun hin => hw ⟨hwindow, hin⟩]
  exact ⟨_, rfl, rfl, rfl, rfl, rfl, rfl⟩

theorem aggregated_windowless (hwindow : h.config.windowMs = 0) :
    h.aggregated id name pid = h.entries := by
  simp only [Alerts.aggregated, tsaAlertShouldSuppress, if_pos hwindow]

theorem hash_lt : alertAggregatorHash id pid < alertAggregatorSize := Nat.mod_lt _ (by decide)

theorem aggregated_of_ne {slot : Nat} (hne : slot ≠ alertAggregatorHash id pid) :
    h.aggregated id name pid slot = h.entries slot := by
  by_cases hwindow : h.config.windowMs = 0
  · rw [aggregated_windowless h id name pid hwindow]
  · cases hin : h.inWindow id pid with
    | true => rw [aggregated_inWindow h id name pid hin, update_of_ne hne]
    | false =>
      obtain ⟨e, heq, -⟩ := aggregated_opens h id name pid hin hwindow
      rw [heq, update_of_ne hne]

theorem aggregated_pair (hwindow : h.config.windowMs ≠ 0) :
    (h.aggregated id name pid (alertAggregatorHash id pid)).id = id ∧
      (h.aggregated id name pid (alertAggregatorHash id pid)).pid = pid := by
  cases hin : h.inWindow id pid with
  | true =>
    rw [aggregated_inWindow h id name pid hin, update_self]
    simp only [Alerts.inWindow, decide_eq_true_eq] at hin
    exact ⟨hin.2.2.1, hin.2.2.2.1⟩
  | false =>
    obtain ⟨e, heq, -, hid, hpid, -⟩ := aggregated_opens h id name pid hin hwindow
    rw [heq, update_self]
    exact ⟨hid, hpid⟩

theorem report_hidden (htree : tsaAlertIsSuppressedByTree h id = true) :
    tsaAlertUpdate h id true name pid = h := by
  simp [tsaAlertUpdate, htree]

theorem report_again (htree : tsaAlertIsSuppressedByTree h id = false)
    (hs : (h.alerts id).status = .firing) :
    tsaAlertUpdate h id true name pid =
      { h with alerts := update h.alerts id ((h.alerts id).hit h.stcNs) } := by
  simp [tsaAlertUpdate, htree, hs, AlertState.hit]

theorem report_fires (htree : tsaAlertIsSuppressedByTree h id = false)
    (hs : (h.alerts id).status = .off) :
    ∃ notices, tsaAlertUpdate h id true name pid =
      { h with
        alerts := update h.alerts id ((h.alerts id).hit h.stcNs)
        entries := h.aggregated id name pid
        notices := h.notices ++ notices } ∧
      notices.any (Notice.isWebhook "CRITICAL") =
        (!h.inWindow id pid && h.config.webhookTakes id) := by
  simp only [tsaAlertUpdate, htree, hs, shouldSuppress_alerts, Bool.not_true, Bool.false_eq_true,
    if_false, if_true]
  cases hw : h.inWindow id pid with
  | true => exact ⟨[], by simp [AlertState.hit, Alerts.aggregated, hs], rfl⟩
  | false =>
    obtain ⟨notices, hnotify, hany⟩ := notify_pushes
      { h with
        alerts := update h.alerts id ((h.alerts id).hit h.stcNs)
        entries := h.aggregated id name pid }
      id name pid (cstr 256 ("CRITICAL: " ++ name ++ " Error detected on PID " ++ toString pid))
    refine ⟨notices, ?_, by simpa using hany⟩
    rw [← hnotify]
    simp [AlertState.hit, Alerts.aggregated, hs]

theorem report_alerts :
    (tsaAlertUpdate h id true name pid).alerts =
      if tsaAlertIsSuppressedByTree h id then h.alerts
      else update h.alerts id ((h.alerts id).hit h.stcNs) := by
  cases htree : tsaAlertIsSuppressedByTree h id with
  | true => rw [report_hidden h id name pid htree]; rfl
  | false =>
    cases hs : (h.alerts id).status with
    | firing => rw [report_again h id name pid htree hs]; rfl
    | off =>
      obtain ⟨notices, heq, -⟩ := report_fires h id name pid htree hs
      rw [heq]
      rfl

theorem report_entries :
    (tsaAlertUpdate h id true name pid).entries =
      if tsaAlertIsSuppressedByTree h id = false ∧ (h.alerts id).status = .off then
        h.aggregated id name pid
      else h.entries := by
  cases htree : tsaAlertIsSuppressedByTree h id with
  | true => rw [report_hidden h id name pid htree]; simp
  | false =>
    cases hs : (h.alerts id).status with
    | firing => rw [report_again h id name pid htree hs]; simp
    | off =>
      obtain ⟨notices, heq, -⟩ := report_fires h id name pid htree hs
      rw [heq]
      simp

theorem report_other {i : AlertId} (hne : i ≠ id) :
    (tsaAlertUpdate h id true name pid).alerts i = h.alerts i := by
  rw [report_alerts]
  split
  · rfl
  · rw [update_of_ne hne]

theorem report_keeps :
    (tsaAlertUpdate h id true name pid).config = h.config ∧
      (tsaAlertUpdate h id true name pid).stcNs = h.stcNs := by
  cases htree : tsaAlertIsSuppressedByTree h id with
  | true => rw [report_hidden h id name pid htree]; exact ⟨rfl, rfl⟩
  | false =>
    cases hs : (h.alerts id).status with
    | firing => rw [report_again h id name pid htree hs]; exact ⟨rfl, rfl⟩
    | off =>
      obtain ⟨notices, heq, -⟩ := report_fires h id name pid htree hs
      rw [heq]
      exact ⟨rfl, rfl⟩

theorem observe_report :
    observe h (.report id name pid) =
      .reported id h.stcNs ::
        if tsaAlertIsSuppressedByTree h id = false ∧ (h.alerts id).status = .off then
          [.fired id pid h.stcNs (h.inWindow id pid)
            (!h.inWindow id pid && h.config.webhookTakes id)]
        else [] := by
  simp only [observe, shouldSuppress_verdict]
  congr 1
  cases htree : tsaAlertIsSuppressedByTree h id with
  | true =>
    rw [report_hidden h id name pid htree]
    cases hs : (h.alerts id).status <;> simp
  | false =>
    cases hs : (h.alerts id).status with
    | firing => simp
    | off =>
      obtain ⟨notices, heq, hany⟩ := report_fires h id name pid htree hs
      rw [heq]
      simp [AlertState.hit, pushed, hany]

theorem flush_entries (i : Nat) :
    (flushEntry h i).entries =
      if (h.entries i).active ∧
          h.config.windowMs * 1000000 ≤ sub64 h.stcNs (h.entries i).windowStartNs then
        update h.entries i { h.entries i with active := false }
      else h.entries := by
  simp only [flushEntry]
  split <;> rfl

theorem flush_active {i j : Nat} (hactive : ((flushEntry h i).entries j).active = true) :
    (flushEntry h i).entries j = h.entries j := by
  rw [flush_entries] at hactive ⊢
  split at hactive
  · next hover =>
    rw [if_pos hover]
    by_cases hj : j = i
    · rw [hj, update_self] at hactive
      cases hactive
    · rw [update_of_ne hj]
  · next hover => rw [if_neg hover]

theorem flush_keeps (i : Nat) :
    (flushEntry h i).config = h.config ∧ (flushEntry h i).stcNs = h.stcNs ∧
      (flushEntry h i).alerts = h.alerts := by
  simp only [flushEntry]
  split <;> exact ⟨rfl, rfl, rfl⟩

theorem observe_flush (i : Nat) :
    observe h (.flush i) =
      if (h.entries i).active ∧
          h.config.windowMs * 1000000 ≤ sub64 h.stcNs (h.entries i).windowStartNs ∧
          1 < (h.entries i).hitCount then
        [.summarised (h.entries i).id (h.entries i).pid (h.entries i).hitCount]
      else [] := by
  simp only [observe, flush_entries]
  cases hactive : (h.entries i).active with
  | false => simp
  | true =>
    by_cases hover : h.config.windowMs * 1000000 ≤ sub64 h.stcNs (h.entries i).windowStartNs
    · simp [hover]
    · simp [hover, hactive]

theorem resolve_alerts :
    (resolveAlert h id).alerts =
      if (h.alerts id).status = .firing ∧
          pidTimeoutNs < sub64 h.stcNs (h.alerts id).lastOccurrenceNs then
        update h.alerts id
          { h.alerts id with status := .off, needsResolveMsg := false, countInWindow := 0 }
      else h.alerts := by
  simp only [resolveAlert]
  split <;> rfl

theorem resolve_other {i : AlertId} (hne : i ≠ id) : (resolveAlert h id).alerts i = h.alerts i := by
  rw [resolve_alerts]
  split
  · rw [update_of_ne hne]
  · rfl

theorem resolve_keeps :
    (resolveAlert h id).config = h.config ∧ (resolveAlert h id).stcNs = h.stcNs ∧
      (resolveAlert h id).entries = h.entries := by
  simp only [resolveAlert]
  split <;> exact ⟨rfl, rfl, rfl⟩

theorem observe_resolve :
    observe h (.resolve id) =
      if (h.alerts id).status = .firing ∧
          pidTimeoutNs < sub64 h.stcNs (h.alerts id).lastOccurrenceNs then
        [.resolved id h.stcNs ((h.alerts id).needsResolveMsg && h.config.webhookTakes id)]
      else [] := by
  simp only [observe, resolve_alerts]
  by_cases hquiet : (h.alerts id).status = .firing ∧
      pidTimeoutNs < sub64 h.stcNs (h.alerts id).lastOccurrenceNs
  · rw [if_pos hquiet, if_pos hquiet, if_pos ⟨hquiet.1, by rw [update_self]⟩]
    simp only [pushed, resolveAlert, if_pos hquiet, append_assoc, drop_left]
    cases (h.alerts id).needsResolveMsg <;> cases h.config.webhookTakes id <;>
      cases h.config.hasLua <;> rfl
  · rw [if_neg hquiet, if_neg hquiet]
    exact if_neg fun hs => by rw [hs.1] at hs; cases hs.2

end Effects

/-! ## What a happening tells of its operation -/

section Observed

variable {h : Alerts} {op : Op} {i : AlertId}

theorem reported_mem_observe {t : Nat} (hx : .reported i t ∈ observe h op) :
    (∃ name pid, op = .report i name pid) ∧ t = h.stcNs := by
  cases op with
  | tick stcNs => exact absurd hx not_mem_nil
  | report id name pid =>
    rw [observe_report] at hx
    rcases mem_cons.mp hx with hx | hx
    · obtain ⟨rfl, rfl⟩ := Happening.reported.inj hx
      exact ⟨⟨name, pid, rfl⟩, rfl⟩
    · split at hx <;> simp at hx
  | flush j =>
    rw [observe_flush] at hx
    split at hx <;> simp at hx
  | resolve id =>
    rw [observe_resolve] at hx
    split at hx <;> simp at hx

theorem fired_mem_observe {pid t : Nat} {suppressed critical : Bool}
    (hx : .fired i pid t suppressed critical ∈ observe h op) : ∃ name, op = .report i name pid := by
  cases op with
  | tick stcNs => exact absurd hx not_mem_nil
  | report id name pid' =>
    rw [observe_report] at hx
    rcases mem_cons.mp hx with hx | hx
    · cases hx
    · split at hx
      · obtain ⟨rfl, rfl, -⟩ := Happening.fired.inj (mem_singleton.mp hx)
        exact ⟨name, rfl⟩
      · exact absurd hx not_mem_nil
  | flush j =>
    rw [observe_flush] at hx
    split at hx <;> simp at hx
  | resolve id =>
    rw [observe_resolve] at hx
    split at hx <;> simp at hx

theorem resolved_mem_observe {t : Nat} {ok : Bool} (hx : .resolved i t ok ∈ observe h op) :
    op = .resolve i ∧ ok = ((h.alerts i).needsResolveMsg && h.config.webhookTakes i) := by
  cases op with
  | tick stcNs => exact absurd hx not_mem_nil
  | report id name pid =>
    rw [observe_report] at hx
    split at hx <;> simp at hx
  | flush j =>
    rw [observe_flush] at hx
    split at hx <;> simp at hx
  | resolve id =>
    rw [observe_resolve] at hx
    split at hx
    · obtain ⟨rfl, -, rfl⟩ := Happening.resolved.inj (mem_singleton.mp hx)
      exact ⟨rfl, rfl⟩
    · exact absurd hx not_mem_nil

end Observed

variable {op : Op} {id : AlertId} (m : Monitors) (h : Alerts) (cs : List Call) (c : Call)

theorem opStep_config (op : Op) : (opStep h op).config = h.config := by
  cases op with
  | tick stcNs => rfl
  | report id name pid => exact (report_keeps h id name pid).1
  | flush i => exact (flush_keeps h i).1
  | resolve id => exact (resolve_keeps h id).1

theorem opStep_stcNs (hop : ∀ stcNs, op ≠ .tick stcNs) : (opStep h op).stcNs = h.stcNs := by
  cases op with
  | tick stcNs => exact absurd rfl (hop stcNs)
  | report id name pid => exact (report_keeps h id name pid).2
  | flush i => exact (flush_keeps h i).2.1
  | resolve id => exact (resolve_keeps h id).2.1

/-! ## A call is the run of its operations -/

theorem foldl_opStep_stcNs {ops : List Op} (hops : ∀ op ∈ ops, ∀ stcNs, op ≠ .tick stcNs)
    (h : Alerts) : (ops.foldl opStep h).stcNs = h.stcNs := by
  induction ops generalizing h with
  | nil => rfl
  | cons op ops ih =>
    rw [foldl_cons, ih fun op' hop' => hops op' (mem_cons_of_mem _ hop')]
    exact opStep_stcNs h (hops op mem_cons_self)

theorem tableReport_no_tick {stcNs lastNs timeoutNs : Nat} {name : String} :
    ∀ op ∈ tableReport stcNs lastNs timeoutNs id name, ∀ t, op ≠ .tick t := by
  intro op hop t
  unfold tableReport at hop
  split at hop
  · rw [mem_singleton.mp hop]
    exact fun he => by cases he
  · exact absurd hop not_mem_nil

theorem captionReport_no_tick {m : Monitors} {stcNs i : Nat} :
    ∀ op ∈ captionReport m stcNs i, ∀ t, op ≠ .tick t := by
  intro op hop t
  unfold captionReport at hop
  split at hop
  · rw [mem_singleton.mp hop]
    exact fun he => by cases he
  · exact absurd hop not_mem_nil

theorem checkTable_eq (lastNs timeoutNs : Nat) (id : AlertId) (name : String) :
    checkTable h lastNs timeoutNs id name =
      (tableReport h.stcNs lastNs timeoutNs id name).foldl opStep h := by
  unfold checkTable tableReport
  split <;> rfl

theorem checkCaptions_eq (i : Nat) :
    checkCaptions m h i = (captionReport m h.stcNs i).foldl opStep h := by
  unfold checkCaptions captionReport
  by_cases hvideo : m.pidSeen i ∧ tsaIsVideo (m.streamType i) ∧ m.hasCea708 i
  · rw [if_pos hvideo]
    by_cases hlate : 0 < m.lastCcSeenNs i ∧ ccTimeoutNs < sub64 h.stcNs (m.lastCcSeenNs i)
    · rw [if_pos hlate, if_pos ⟨hvideo.1, hvideo.2.1, hvideo.2.2, hlate⟩]
      rfl
    · have hall : ¬ (m.pidSeen i ∧ tsaIsVideo (m.streamType i) ∧ m.hasCea708 i ∧
          0 < m.lastCcSeenNs i ∧ ccTimeoutNs < sub64 h.stcNs (m.lastCcSeenNs i)) :=
        fun hall => hlate hall.2.2.2
      have hnothing : tsaAlertUpdate h .ccMissing false "CC_MISSING" i = h := rfl
      rw [if_neg hlate, if_neg hall, hnothing, ite_self]
      rfl
  · rw [if_neg hvideo, if_neg fun hall => hvideo ⟨hall.1, hall.2.1, hall.2.2.1⟩]
    rfl

theorem foldl_checkCaptions_eq (is : List Nat) (h : Alerts) :
    is.foldl (checkCaptions m) h = (is.flatMap (captionReport m h.stcNs)).foldl opStep h := by
  induction is generalizing h with
  | nil => rfl
  | cons i is ih =>
    rw [foldl_cons, ih, checkCaptions_eq, foldl_opStep_stcNs captionReport_no_tick,
      flatMap_cons, foldl_append]

theorem checkTimeouts_eq : checkTimeouts m h = (m.reports h.stcNs).foldl opStep h := by
  have htables : ∀ h : Alerts, m.signalLock = true ∧ 0 < h.stcNs →
      (range tsPidMax).foldl (checkCaptions m)
        (checkTable (checkTable (checkTable (checkTable h m.lastPatNs patTimeoutNs .pat "PAT")
          m.lastPmtNs pmtTimeoutNs .pmt "PMT") m.lastSdtNs sdtTimeoutNs .sdt "SDT")
          m.lastNitNs nitTimeoutNs .nit "NIT") =
      (tableReport h.stcNs m.lastPatNs patTimeoutNs .pat "PAT" ++
        tableReport h.stcNs m.lastPmtNs pmtTimeoutNs .pmt "PMT" ++
        tableReport h.stcNs m.lastSdtNs sdtTimeoutNs .sdt "SDT" ++
        tableReport h.stcNs m.lastNitNs nitTimeoutNs .nit "NIT" ++
        (range tsPidMax).flatMap (captionReport m h.stcNs)).foldl opStep h := by
    intro h _
    simp only [foldl_checkCaptions_eq, checkTable_eq, foldl_append,
      foldl_opStep_stcNs tableReport_no_tick]
  unfold checkTimeouts Monitors.reports
  rw [foldl_append]
  by_cases hsync : m.signalLock ∧ m.lastPacketRxNs < m.lastSnapWallNs ∧
      patTimeoutNs < sub64 m.lastSnapWallNs m.lastPacketRxNs
  · have hstc := (report_keeps h .sync "SYNC" 0).2
    simp only [if_pos hsync]
    by_cases hlock : m.signalLock ∧ 0 < h.stcNs
    · rw [if_pos (by rwa [hstc]), if_pos hlock, htables _ (by rwa [hstc]), hstc]
      rfl
    · rw [if_neg (by rwa [hstc]), if_neg hlock]
      rfl
  · simp only [if_neg hsync]
    by_cases hlock : m.signalLock ∧ 0 < h.stcNs
    · rw [if_pos hlock, if_pos hlock, htables h hlock]
      rfl
    · rw [if_neg hlock, if_neg hlock]
      rfl

/-- **A call does what its operations do, one after the other.** -/
theorem callStep_eq : callStep h c = (c.ops h).foldl opStep h := by
  cases c with
  | tick stcNs => rfl
  | update id hasError name pid => cases hasError <;> rfl
  | check m =>
    show tsaAlertCheckResolutions m h = _
    simp only [tsaAlertCheckResolutions, Call.ops, foldl_append, foldl_map,
      checkTimeouts_eq]
    rfl

/-- The operations of a whole sequence of calls. -/
def expand : Alerts → List Call → List Op
  | _, [] => []
  | h, c :: cs => c.ops h ++ expand (callStep h c) cs

theorem run_opEngine_fst (ops : List Op) :
    (run opEngine h ops).1 = ops.foldl opStep h := run_fst opEngine h ops

theorem engine_snd : (engine h c).2 = (run opEngine h (c.ops h)).2 := rfl

theorem engine_fires {h : Alerts} (htree : tsaAlertIsSuppressedByTree h id = false)
    (hoff : (h.alerts id).status = .off) (name : String) (pid : Nat) :
    (engine h (.update id true name pid)).2 =
      [.reported id h.stcNs, .fired id pid h.stcNs (h.inWindow id pid)
        (!h.inWindow id pid && h.config.webhookTakes id)] := by
  show observe h (.report id name pid) ++ [] = _
  rw [append_nil, observe_report, if_pos ⟨htree, hoff⟩]

theorem run_engine_fst :
    (run engine h cs).1 = cs.foldl callStep h := run_fst engine h cs

theorem run_engine_snoc_fst : (run engine h (cs ++ [c])).1 = callStep (run engine h cs).1 c := by
  rw [run_engine_fst, run_engine_fst, foldl_append, foldl_cons, foldl_nil]

theorem run_engine_snoc :
    (run engine h (cs ++ [c])).2 = (run engine h cs).2 ++ (engine (run engine h cs).1 c).2 := by
  rw [run_split]
  exact append_nil _

theorem run_engine_eq : run engine h cs = run opEngine h (expand h cs) := by
  induction cs generalizing h with
  | nil => rfl
  | cons c cs ih =>
    have hfst : (run opEngine h (c.ops h)).1 = callStep h c := by
      rw [run_opEngine_fst, callStep_eq]
    rw [expand, run_append, hfst, ← ih]
    rfl

theorem along_expand {P : Alerts → Op → Prop} {Q : Alerts → Call → Prop}
    (hops : ∀ h c, Q h c → Along P opStep h (c.ops h)) {h : Alerts} {cs : List Call}
    (hQ : Along Q callStep h cs) : Along P opStep h (expand h cs) := by
  induction cs generalizing h with
  | nil => trivial
  | cons c cs ih =>
    refine along_append.mpr ⟨hops h c hQ.1, ?_⟩
    rw [← callStep_eq]
    exact ih hQ.2

/-! ## Time -/

/-- Time does not run backwards, and fits its word. -/
def Op.Timely (h : Alerts) : Op → Prop
  | .tick stcNs => h.stcNs ≤ stcNs ∧ stcNs < 2 ^ 64
  | _ => True

def Call.Timely (h : Alerts) : Call → Prop
  | .tick stcNs => h.stcNs ≤ stcNs ∧ stcNs < 2 ^ 64
  | _ => True

instance (h : Alerts) : (c : Call) → Decidable (c.Timely h)
  | .tick _ => inferInstanceAs (Decidable (_ ∧ _))
  | .update .. | .check _ => isTrue trivial

theorem Op.timely_of_no_tick (hop : ∀ stcNs, op ≠ .tick stcNs) (h : Alerts) : op.Timely h := by
  cases op with
  | tick stcNs => exact absurd rfl (hop stcNs)
  | _ => trivial

theorem reports_no_tick {m : Monitors} {stcNs : Nat} :
    ∀ op ∈ m.reports stcNs, ∀ t, op ≠ .tick t := by
  intro op hop
  rcases mem_append.mp hop with hop | hop
  · split at hop
    · rw [mem_singleton.mp hop]
      exact fun t he => by cases he
    · exact absurd hop not_mem_nil
  · split at hop
    · simp only [mem_append, mem_flatMap] at hop
      rcases hop with (((hop | hop) | hop) | hop) | ⟨i, -, hop⟩
      · exact tableReport_no_tick op hop
      · exact tableReport_no_tick op hop
      · exact tableReport_no_tick op hop
      · exact tableReport_no_tick op hop
      · exact captionReport_no_tick op hop
    · exact absurd hop not_mem_nil

theorem check_no_tick {m : Monitors} {h : Alerts} :
    ∀ op ∈ (Call.check m).ops h, ∀ t, op ≠ .tick t := by
  intro op hop t
  rcases mem_append.mp hop with hop | hop
  · rcases mem_append.mp hop with hop | hop
    · exact reports_no_tick op hop t
    · obtain ⟨i, -, rfl⟩ := mem_map.mp hop
      exact fun he => by cases he
  · obtain ⟨id, -, rfl⟩ := mem_map.mp hop
    exact fun he => by cases he

theorem Call.Timely.ops {h : Alerts} {c : Call} (hc : c.Timely h) :
    Along Op.Timely opStep h (c.ops h) := by
  cases c with
  | tick stcNs => exact ⟨hc, trivial⟩
  | update id hasError name pid =>
    cases hasError with
    | false => trivial
    | true => exact ⟨trivial, trivial⟩
  | check m =>
    exact along_of_forall fun op hop h => Op.timely_of_no_tick (check_no_tick op hop) h

/-! ## A check of a stream without lock

Nothing has timed out: the check only flushes and resolves. -/

/-- A handle that has not locked onto its input. -/
def Monitors.unlocked : Monitors where
  signalLock := false
  lastSnapWallNs := 0
  lastPacketRxNs := 0
  lastPatNs := 0
  lastPmtNs := 0
  lastSdtNs := 0
  lastNitNs := 0
  pidSeen _ := false
  streamType _ := 0
  hasCea708 _ := false
  lastCcSeenNs _ := 0

theorem unlocked_ops :
    (Call.check .unlocked).ops h =
      (range alertAggregatorSize).map .flush ++ AlertId.all.map .resolve := by
  simp [Call.ops, Monitors.reports, Monitors.unlocked]

theorem AlertId.mem_all (id : AlertId) : id ∈ AlertId.all := by
  cases id <;> decide

theorem AlertId.all_nodup : AlertId.all.Nodup := by decide

theorem flushes_keep (is : List Nat) (h : Alerts) :
    (is.foldl flushEntry h).config = h.config ∧ (is.foldl flushEntry h).stcNs = h.stcNs ∧
      (is.foldl flushEntry h).alerts = h.alerts := by
  induction is generalizing h with
  | nil => exact ⟨rfl, rfl, rfl⟩
  | cons i is ih =>
    obtain ⟨h1, h2, h3⟩ := ih (flushEntry h i)
    obtain ⟨k1, k2, k3⟩ := flush_keeps h i
    exact ⟨h1.trans k1, h2.trans k2, h3.trans k3⟩

theorem resolves_keep (ids : List AlertId) (h : Alerts) :
    (ids.foldl resolveAlert h).config = h.config ∧ (ids.foldl resolveAlert h).stcNs = h.stcNs ∧
      (ids.foldl resolveAlert h).entries = h.entries := by
  induction ids generalizing h with
  | nil => exact ⟨rfl, rfl, rfl⟩
  | cons id ids ih =>
    obtain ⟨h1, h2, h3⟩ := ih (resolveAlert h id)
    obtain ⟨k1, k2, k3⟩ := resolve_keeps h id
    exact ⟨h1.trans k1, h2.trans k2, h3.trans k3⟩

/-- An alert that is quiet, resolved. -/
def AlertState.settle (now : Nat) (s : AlertState) : AlertState :=
  if s.status = .firing ∧ pidTimeoutNs < sub64 now s.lastOccurrenceNs then
    { s with status := .off, needsResolveMsg := false, countInWindow := 0 }
  else s

theorem resolves_alerts {ids : List AlertId} (hids : ids.Nodup) (h : Alerts) (id : AlertId) :
    (ids.foldl resolveAlert h).alerts id =
      if id ∈ ids then (h.alerts id).settle h.stcNs else h.alerts id := by
  have hvisit := foldl_visits (f := resolveAlert) (g := fun h id => (h.stcNs, h.alerts id))
    (v := fun s => (s.1, s.2.settle s.1)) ?_ ?_ hids h id
  · have := congrArg Prod.snd hvisit
    rw [show (ids.foldl resolveAlert h).alerts id = _ from this]
    split <;> rfl
  · intro h id
    refine Prod.ext (resolve_keeps h id).2.1 ?_
    show (resolveAlert h id).alerts id = (h.alerts id).settle h.stcNs
    rw [resolve_alerts, AlertState.settle]
    split
    · rw [update_self]
    · rfl
  · intro h id id' hne
    exact Prod.ext (resolve_keeps h id).2.1 (resolve_other h id hne)

/-- An entry whose window is over, closed. -/
def AggregatorEntry.expire (windowNs now : Nat) (e : AggregatorEntry) : AggregatorEntry :=
  if e.active ∧ windowNs ≤ sub64 now e.windowStartNs then { e with active := false } else e

theorem flushes_entries {is : List Nat} (his : is.Nodup) (h : Alerts) (i : Nat) :
    (is.foldl flushEntry h).entries i =
      if i ∈ is then (h.entries i).expire (h.config.windowMs * 1000000) h.stcNs
      else h.entries i := by
  have hvisit := foldl_visits (f := flushEntry)
    (g := fun h i => (h.config, h.stcNs, h.entries i))
    (v := fun s => (s.1, s.2.1, s.2.2.expire (s.1.windowMs * 1000000) s.2.1)) ?_ ?_ his h i
  · have := congrArg (fun s => s.2.2) hvisit
    rw [show (is.foldl flushEntry h).entries i = _ from this]
    split <;> rfl
  · intro h i
    obtain ⟨k1, k2, -⟩ := flush_keeps h i
    refine Prod.ext k1 (Prod.ext k2 ?_)
    show (flushEntry h i).entries i = (h.entries i).expire (h.config.windowMs * 1000000) h.stcNs
    rw [flush_entries, AggregatorEntry.expire]
    split
    · rw [update_self]
    · rfl
  · intro h i j hne
    obtain ⟨k1, k2, -⟩ := flush_keeps h i
    refine Prod.ext k1 (Prod.ext k2 ?_)
    show (flushEntry h i).entries j = h.entries j
    rw [flush_entries]
    split
    · rw [update_of_ne hne]
    · rfl

theorem settling_cases {is : List Nat} {ids : List AlertId}
    (hop : op ∈ is.map Op.flush ++ ids.map Op.resolve) :
    (∃ i, op = .flush i) ∨ ∃ id, op = .resolve id := by
  rcases mem_append.mp hop with hop | hop
  · obtain ⟨i, -, rfl⟩ := mem_map.mp hop
    exact .inl ⟨i, rfl⟩
  · obtain ⟨id, -, rfl⟩ := mem_map.mp hop
    exact .inr ⟨id, rfl⟩

theorem settling_fires_nothing {ops : List Op}
    (hops : ∀ op ∈ ops, (∃ i, op = .flush i) ∨ ∃ id, op = .resolve id) (h : Alerts) :
    ∀ x ∈ (run opEngine h ops).2, ∀ id pid t suppressed critical,
      x ≠ .fired id pid t suppressed critical := by
  induction ops generalizing h with
  | nil => exact fun x hx => absurd hx not_mem_nil
  | cons op ops ih =>
    rintro x hx id pid t suppressed critical rfl
    rcases mem_append.mp hx with hx | hx
    · obtain ⟨name, rfl⟩ := fired_mem_observe hx
      rcases hops _ mem_cons_self with ⟨i, hop⟩ | ⟨id', hop⟩
      · cases hop
      · cases hop
    · exact ih (fun op' hop' => hops op' (mem_cons_of_mem _ hop')) _ _ hx id pid t suppressed
        critical rfl

theorem unlocked_resolves {h : Alerts} (hs : (h.alerts id).status = .firing)
    (hquiet : pidTimeoutNs < sub64 h.stcNs (h.alerts id).lastOccurrenceNs) :
    ∃ pre post, (engine h (.check .unlocked)).2 =
      pre ++ .resolved id h.stcNs ((h.alerts id).needsResolveMsg && h.config.webhookTakes id) ::
        post ∧
      ∀ x ∈ pre, ∀ id pid t suppressed critical, x ≠ .fired id pid t suppressed critical := by
  obtain ⟨before, after, hall⟩ := append_of_mem (AlertId.mem_all id)
  have hnodup : (before ++ id :: after).Nodup := hall ▸ AlertId.all_nodup
  have hbefore : id ∉ before := fun hmem =>
    (nodup_append.mp hnodup).2.2 id hmem id mem_cons_self rfl
  obtain ⟨first, hfirst⟩ : ∃ first, first =
    (range alertAggregatorSize).map Op.flush ++ before.map Op.resolve := ⟨_, rfl⟩
  have hops : (Call.check .unlocked).ops h = first ++ .resolve id :: after.map .resolve := by
    rw [unlocked_ops, hall, map_append, ← append_assoc, hfirst, map_cons]
  -- Neither the flushes nor the resolutions before its own touch the alert.
  have hstate : (run opEngine h first).1 =
      before.foldl resolveAlert ((range alertAggregatorSize).foldl flushEntry h) := by
    rw [run_opEngine_fst, hfirst, foldl_append, foldl_map, foldl_map]
    rfl
  obtain ⟨f1, f2, f3⟩ := flushes_keep (range alertAggregatorSize) h
  obtain ⟨r1, r2, -⟩ :=
    resolves_keep before ((range alertAggregatorSize).foldl flushEntry h)
  have halert : (run opEngine h first).1.alerts id = h.alerts id := by
    rw [hstate, resolves_alerts (nodup_append.mp hnodup).1, if_neg hbefore, f3]
  have hstc : (run opEngine h first).1.stcNs = h.stcNs := by rw [hstate, r2, f2]
  have hconfig : (run opEngine h first).1.config = h.config := by rw [hstate, r1, f1]
  refine ⟨(run opEngine h first).2,
    (run opEngine (opEngine (run opEngine h first).1 (.resolve id)).1 (after.map .resolve)).2,
    ?_, ?_⟩
  · have hseen : (opEngine (run opEngine h first).1 (.resolve id)).2 = _ := observe_resolve _ _
    rw [engine_snd, hops, run_split, hseen, halert, hstc, hconfig, if_pos ⟨hs, hquiet⟩,
      append_assoc, singleton_append]
  · refine settling_fires_nothing (fun op hop => ?_) h
    exact settling_cases (hfirst ▸ hop)

theorem settled_state :
    let h' := AlertId.all.foldl resolveAlert ((range alertAggregatorSize).foldl flushEntry h)
    h'.config = h.config ∧ h'.stcNs = h.stcNs ∧
      (∀ id, h'.alerts id = (h.alerts id).settle h.stcNs) ∧
      ∀ i < alertAggregatorSize, h'.entries i =
        (h.entries i).expire (h.config.windowMs * 1000000) h.stcNs := by
  obtain ⟨f1, f2, f3⟩ := flushes_keep (range alertAggregatorSize) h
  obtain ⟨r1, r2, r3⟩ :=
    resolves_keep AlertId.all ((range alertAggregatorSize).foldl flushEntry h)
  refine ⟨r1.trans f1, r2.trans f2, fun id => ?_, fun i hi => ?_⟩
  · rw [resolves_alerts AlertId.all_nodup, if_pos (AlertId.mem_all id), f2, f3]
  · rw [r3, flushes_entries nodup_range, if_pos (mem_range.mpr hi)]

theorem unlocked_state :
    (callStep h (.check .unlocked)).config = h.config ∧
      (callStep h (.check .unlocked)).stcNs = h.stcNs ∧
      (∀ id, (callStep h (.check .unlocked)).alerts id = (h.alerts id).settle h.stcNs) ∧
      ∀ i < alertAggregatorSize, (callStep h (.check .unlocked)).entries i =
        (h.entries i).expire (h.config.windowMs * 1000000) h.stcNs := by
  have hstep : callStep h (.check .unlocked) =
      AlertId.all.foldl resolveAlert ((range alertAggregatorSize).foldl flushEntry h) := by
    rw [callStep_eq, unlocked_ops, foldl_append, foldl_map, foldl_map]
    rfl
  rw [hstep]
  exact settled_state h

end TsAnalyzer.Alarm
