/-
  What a snapshot does to the alerts (`tsa_commit_snapshot`, `src/tsa_snapshot.c`).

  `tsa_alert_check_resolutions` reports a sync loss, then tables and captions that have timed out.
  No such report changes what hides the others but SYNC, which comes first.
-/
import TsAnalyzer.Monitor.Handle

namespace TsAnalyzer.Monitor

open Lib Alarm Essence Pipeline List

variable {ρ : Type} {i : AlertId}

/-! ## Timeouts -/

/-- What the timeouts of the resolver report, the sync loss apart. -/
def timeoutAlerts : List AlertId := [.pat, .pmt, .sdt, .nit, .ccMissing]

def IsTimeout (op : Op) : Prop := ∃ id ∈ timeoutAlerts, ∃ name pid, op = .report id name pid

theorem tree_congr {h h' : Alerts} (hsync : h'.alerts .sync = h.alerts .sync)
    (hcc : h'.alerts .cc = h.alerts .cc) (i : AlertId) :
    tsaAlertIsSuppressedByTree h' i = tsaAlertIsSuppressedByTree h i := by
  rw [tsaAlertIsSuppressedByTree, tsaAlertIsSuppressedByTree, hsync, hcc]

def Fresh (now : Nat) (s : AlertState) : Prop := s.status = .firing ∧ s.lastOccurrenceNs = now

theorem foldl_timeouts (ops : List Op) (h : Alerts) (hops : ∀ op ∈ ops, IsTimeout op) :
    ∀ i,
      ((∃ name pid, Op.report i name pid ∈ ops) ∧ tsaAlertIsSuppressedByTree h i = false →
        Fresh h.stcNs ((ops.foldl opStep h).alerts i)) ∧
      (¬ ((∃ name pid, Op.report i name pid ∈ ops) ∧ tsaAlertIsSuppressedByTree h i = false) →
        (ops.foldl opStep h).alerts i = h.alerts i) := by
  induction ops generalizing h with
  | nil =>
    intro i
    refine ⟨?_, fun _ => rfl⟩
    rintro ⟨⟨name, pid, hmem⟩, -⟩
    exact absurd hmem not_mem_nil
  | cons op ops ih =>
    intro i
    obtain ⟨id, hid, name, pid, rfl⟩ := hops op mem_cons_self
    obtain ⟨h', hh'⟩ : ∃ h', opStep h (.report id name pid) = h' := ⟨_, rfl⟩
    have hother : ∀ j, j ≠ id → h'.alerts j = h.alerts j := by
      intro j hj
      rw [← hh']
      exact report_other h id name pid hj
    have hstc : h'.stcNs = h.stcNs := by
      rw [← hh']
      exact (report_keeps h id name pid).2
    have htree : tsaAlertIsSuppressedByTree h' i = tsaAlertIsSuppressedByTree h i := by
      refine tree_congr (hother _ ?_) (hother _ ?_) i
      · rintro rfl
        exact absurd hid (by decide)
      · rintro rfl
        exact absurd hid (by decide)
    obtain ⟨hnoted, hsame⟩ := ih h' (fun op hop => hops op (mem_cons_of_mem _ hop)) i
    rw [htree] at hnoted hsame
    rw [hstc] at hnoted
    rw [foldl_cons, hh']
    by_cases hrest : (∃ name pid, Op.report i name pid ∈ ops) ∧
        tsaAlertIsSuppressedByTree h i = false
    · refine ⟨fun _ => hnoted hrest, fun hnot => absurd ?_ hnot⟩
      obtain ⟨⟨name', pid', hmem⟩, hfree⟩ := hrest
      exact ⟨⟨name', pid', mem_cons_of_mem _ hmem⟩, hfree⟩
    rw [hsame hrest]
    by_cases hi : i = id
    · -- the report is about `i` itself: the tree decides
      subst hi
      have hself : h'.alerts i = if tsaAlertIsSuppressedByTree h i then h.alerts i
          else (h.alerts i).hit h.stcNs := by
        rw [← hh']
        show (tsaAlertUpdate h i true name pid).alerts i = _
        rw [report_alerts]
        split
        · rfl
        · exact Function.update_self ..
      rw [hself]
      cases htree' : tsaAlertIsSuppressedByTree h i with
      | true => exact ⟨fun hboth => absurd hboth.2 (by decide), fun _ => rfl⟩
      | false =>
        refine ⟨fun _ => ⟨rfl, rfl⟩, fun hnot => absurd ?_ hnot⟩
        exact ⟨⟨name, pid, mem_cons_self⟩, rfl⟩
    · refine ⟨fun hboth => absurd ?_ hrest, fun _ => hother i hi⟩
      obtain ⟨⟨name', pid', hmem⟩, hfree⟩ := hboth
      refine ⟨⟨name', pid', ?_⟩, hfree⟩
      rcases mem_cons.mp hmem with heq | hmem
      · cases heq
        exact absurd rfl hi
      · exact hmem

/-- The reports behind the sync loss. -/
def tableReports (m : Monitors) (stcNs : Nat) : List Op :=
  if m.signalLock ∧ 0 < stcNs then
    tableReport stcNs m.lastPatNs patTimeoutNs .pat "PAT" ++
    tableReport stcNs m.lastPmtNs pmtTimeoutNs .pmt "PMT" ++
    tableReport stcNs m.lastSdtNs sdtTimeoutNs .sdt "SDT" ++
    tableReport stcNs m.lastNitNs nitTimeoutNs .nit "NIT" ++
    (range tsPidMax).flatMap (captionReport m stcNs)
  else []

theorem tableReport_isTimeout {stcNs lastNs timeoutNs : Nat} {id : AlertId} {name : String}
    (hid : id ∈ timeoutAlerts) :
    ∀ op ∈ tableReport stcNs lastNs timeoutNs id name, IsTimeout op := by
  intro op hop
  unfold tableReport at hop
  split at hop
  · exact ⟨id, hid, name, 0, mem_singleton.mp hop⟩
  · exact absurd hop not_mem_nil

theorem captionReport_isTimeout {m : Monitors} {stcNs i : Nat} :
    ∀ op ∈ captionReport m stcNs i, IsTimeout op := by
  intro op hop
  unfold captionReport at hop
  split at hop
  · exact ⟨.ccMissing, by decide, _, _, mem_singleton.mp hop⟩
  · exact absurd hop not_mem_nil

variable (m : Monitors) (h : Alerts)

/-- The captions of the PID have gone missing. -/
def CaptionsMissing (m : Monitors) (stcNs i : Nat) : Prop :=
  m.pidSeen i ∧ tsaIsVideo (m.streamType i) ∧ m.hasCea708 i ∧ 0 < m.lastCcSeenNs i ∧
    ccTimeoutNs < sub64 stcNs (m.lastCcSeenNs i)

/-- Where only the PAT has a time, a PAT and captions are all they report. -/
theorem table_reported_iff (hpmt : m.lastPmtNs = 0) (hsdt : m.lastSdtNs = 0)
    (hnit : m.lastNitNs = 0) (stcNs : Nat) (i : AlertId) :
    (∃ name pid, Op.report i name pid ∈ tableReports m stcNs) ↔
      (m.signalLock ∧ 0 < stcNs) ∧
        (i = .pat ∧ 0 < m.lastPatNs ∧ patTimeoutNs < sub64 stcNs m.lastPatNs ∨
          i = .ccMissing ∧ ∃ j < tsPidMax, CaptionsMissing m stcNs j) := by
  unfold tableReports
  split
  · next hwatching =>
    have hmem : ∀ name pid,
        Op.report i name pid ∈ tableReport stcNs m.lastPatNs patTimeoutNs .pat "PAT" ++
          tableReport stcNs m.lastPmtNs pmtTimeoutNs .pmt "PMT" ++
          tableReport stcNs m.lastSdtNs sdtTimeoutNs .sdt "SDT" ++
          tableReport stcNs m.lastNitNs nitTimeoutNs .nit "NIT" ++
          (range tsPidMax).flatMap (captionReport m stcNs) ↔
        (0 < m.lastPatNs ∧ patTimeoutNs < sub64 stcNs m.lastPatNs) ∧ i = .pat ∧ name = "PAT" ∧
            pid = 0 ∨
          pid < tsPidMax ∧ CaptionsMissing m stcNs pid ∧ i = .ccMissing ∧ name = "CC_MISSING" := by
      intro name pid
      simp [tableReport, captionReport, CaptionsMissing, hpmt, hsdt, hnit]
    simp only [hmem, and_iff_right hwatching]
    constructor
    · rintro ⟨name, pid, ⟨hlate, hi, -⟩ | ⟨hpid, hmissing, hi, -⟩⟩
      · exact .inl ⟨hi, hlate⟩
      · exact .inr ⟨hi, pid, hpid, hmissing⟩
    · rintro (⟨hi, hlate⟩ | ⟨hi, pid, hpid, hmissing⟩)
      · exact ⟨_, _, .inl ⟨hlate, hi, rfl, rfl⟩⟩
      · exact ⟨_, pid, .inr ⟨hpid, hmissing, hi, rfl⟩⟩
  · next hwatching => simp [hwatching]

theorem tableReports_isTimeout (stcNs : Nat) : ∀ op ∈ tableReports m stcNs, IsTimeout op := by
  intro op hop
  unfold tableReports at hop
  split at hop
  · simp only [mem_append, mem_flatMap] at hop
    rcases hop with (((hop | hop) | hop) | hop) | ⟨i, -, hop⟩
    · exact tableReport_isTimeout (by decide) op hop
    · exact tableReport_isTimeout (by decide) op hop
    · exact tableReport_isTimeout (by decide) op hop
    · exact tableReport_isTimeout (by decide) op hop
    · exact captionReport_isTimeout op hop
  · exact absurd hop not_mem_nil

/-- The first check of the resolver: no packet for 500 ms is a sync loss. -/
def checkSilence (m : Monitors) (h : Alerts) : Alerts :=
  if m.signalLock ∧ m.lastPacketRxNs < m.lastSnapWallNs ∧
      patTimeoutNs < sub64 m.lastSnapWallNs m.lastPacketRxNs then
    tsaAlertUpdate h .sync true "SYNC" 0 else h

theorem checkSilence_other (hne : i ≠ .sync) : (checkSilence m h).alerts i = h.alerts i := by
  rw [checkSilence]
  split
  · exact report_other h .sync _ _ hne
  · rfl

theorem checkSilence_stcNs : (checkSilence m h).stcNs = h.stcNs := by
  rw [checkSilence]
  split
  · exact (report_keeps h .sync _ _).2
  · rfl

theorem checkSilence_sync :
    ((checkSilence m h).alerts .sync).status = .firing ↔ (h.alerts .sync).status = .firing ∨
      (m.signalLock ∧ m.lastPacketRxNs < m.lastSnapWallNs ∧
        patTimeoutNs < sub64 m.lastSnapWallNs m.lastPacketRxNs) := by
  rw [checkSilence]
  split
  · rename_i hsilent
    -- nothing hides a sync loss
    have htree : tsaAlertIsSuppressedByTree h .sync = false := by simp [tsaAlertIsSuppressedByTree]
    simp [report_alerts, htree, AlertState.hit, hsilent]
  · rename_i hsilent
    simp only [hsilent, or_false]

theorem checkTimeouts_split :
    checkTimeouts m h = (tableReports m h.stcNs).foldl opStep (checkSilence m h) := by
  rw [checkTimeouts_eq, Monitors.reports, foldl_append]
  have hfirst : (if m.signalLock ∧ m.lastPacketRxNs < m.lastSnapWallNs ∧
      patTimeoutNs < sub64 m.lastSnapWallNs m.lastPacketRxNs then [Op.report .sync "SYNC" 0]
      else []).foldl opStep h = checkSilence m h := by
    rw [checkSilence]
    split <;> rfl
  rw [hfirst]
  rfl

/-- The resolver reports the alert, and no firing alert hides the report. -/
def Noted (m : Monitors) (h : Alerts) (i : AlertId) : Prop :=
  (∃ name pid, Op.report i name pid ∈ m.reports h.stcNs) ∧
    tsaAlertIsSuppressedByTree (checkSilence m h) i = false

theorem noted_sync : Noted m h .sync ↔ m.signalLock ∧ m.lastPacketRxNs < m.lastSnapWallNs ∧
      patTimeoutNs < sub64 m.lastSnapWallNs m.lastPacketRxNs := by
  have htree : tsaAlertIsSuppressedByTree (checkSilence m h) .sync = false := by
    simp [tsaAlertIsSuppressedByTree]
  rw [Noted, and_iff_left htree]
  constructor
  · rintro ⟨name, pid, hmem⟩
    rcases mem_append.mp hmem with hmem | hmem
    · split at hmem
      · assumption
      · exact absurd hmem not_mem_nil
    · obtain ⟨id, hid, name', pid', heq⟩ := tableReports_isTimeout m h.stcNs _ hmem
      cases heq
      exact absurd hid (by decide)
  · intro hsilent
    refine ⟨"SYNC", 0, mem_append_left _ ?_⟩
    rw [if_pos hsilent]
    exact mem_singleton_self _

theorem noted_other {i : AlertId} (hi : i ≠ .sync) : Noted m h i ↔
    (∃ name pid, Op.report i name pid ∈ tableReports m h.stcNs) ∧
      tsaAlertIsSuppressedByTree (checkSilence m h) i = false := by
  refine and_congr_left fun _ => exists₂_congr fun name pid => ?_
  rw [Monitors.reports, mem_append]
  refine or_iff_right fun hmem => hi ?_
  split at hmem
  · cases mem_singleton.mp hmem
    rfl
  · exact absurd hmem not_mem_nil

theorem checkTimeouts_alerts (i : AlertId) :
    (Noted m h i → Fresh h.stcNs ((checkTimeouts m h).alerts i)) ∧
    (¬ Noted m h i → (checkTimeouts m h).alerts i = h.alerts i) := by
  obtain ⟨hreported, hrest⟩ := foldl_timeouts (tableReports m h.stcNs) (checkSilence m h)
    (tableReports_isTimeout m h.stcNs) i
  rw [← checkTimeouts_split] at hreported hrest
  rw [checkSilence_stcNs] at hreported
  by_cases hi : i = .sync
  · subst hi
    -- no table report is about SYNC
    have hnone : ¬ ((∃ name pid, Op.report .sync name pid ∈ tableReports m h.stcNs) ∧
        tsaAlertIsSuppressedByTree (checkSilence m h) .sync = false) := by
      rintro ⟨⟨name, pid, hmem⟩, -⟩
      obtain ⟨id, hid, name', pid', heq⟩ := tableReports_isTimeout m h.stcNs _ hmem
      cases heq
      exact absurd hid (by decide)
    rw [hrest hnone, noted_sync, checkSilence]
    split
    · rename_i hsilent
      have htree : tsaAlertIsSuppressedByTree h .sync = false := by
        simp [tsaAlertIsSuppressedByTree]
      refine ⟨fun _ => ?_, fun hnot => absurd hsilent hnot⟩
      rw [report_alerts, htree, if_neg (by decide), Function.update_self]
      exact ⟨rfl, rfl⟩
    · rename_i hsilent
      exact ⟨fun hnoted => absurd hnoted hsilent, fun _ => rfl⟩
  · rw [noted_other m h hi]
    refine ⟨hreported, fun hnot => ?_⟩
    rw [hrest hnot, checkSilence_other m h hi]

/-! ## Resolutions -/

theorem sub64_self (a : Nat) : sub64 a a = 0 := by
  unfold sub64
  omega

theorem settle_off {now : Nat} {s : AlertState}
    (hs : s.status = .off ∨ s.lastOccurrenceNs = now) : (s.settle now).status = s.status := by
  rw [AlertState.settle]
  split
  · rename_i hquiet
    rcases hs with hs | hs
    · rw [hs]
    · rw [hs, sub64_self] at hquiet
      exact absurd hquiet.2 (Nat.not_lt_zero _)
  · rfl

theorem resolutions_alerts (id : AlertId) :
    (tsaAlertCheckResolutions m h).alerts id = ((checkTimeouts m h).alerts id).settle h.stcNs := by
  have hstc : (checkTimeouts m h).stcNs = h.stcNs := by
    rw [checkTimeouts_eq, foldl_opStep_stcNs reports_no_tick]
  rw [tsaAlertCheckResolutions, resolves_alerts AlertId.all_nodup, if_pos (AlertId.mem_all id),
    (flushes_keep _ _).2.2, (flushes_keep _ _).2.1, hstc]

/-- It has been quiet for so long that it is resolved. -/
def Overdue (now : Nat) (s : AlertState) : Prop := pidTimeoutNs < sub64 now s.lastOccurrenceNs
deriving Decidable

/-- **The resolver.** -/
theorem resolutions_firing_iff (i : AlertId) :
    ((tsaAlertCheckResolutions m h).alerts i).status = .firing ↔
      Noted m h i ∨ ((h.alerts i).status = .firing ∧ ¬ Overdue h.stcNs (h.alerts i)) := by
  obtain ⟨hfresh, hsame⟩ := checkTimeouts_alerts m h i
  rw [resolutions_alerts]
  by_cases hnoted : Noted m h i
  · obtain ⟨hfiring, hnow⟩ := hfresh hnoted
    rw [settle_off (.inr hnow)]
    exact iff_of_true hfiring (Or.inl hnoted)
  · rw [hsame hnoted, or_iff_right hnoted, AlertState.settle, Overdue]
    by_cases hresolved : (h.alerts i).status = .firing ∧
        pidTimeoutNs < sub64 h.stcNs (h.alerts i).lastOccurrenceNs
    · rw [if_pos hresolved]
      exact iff_of_false (fun h => by cases h) fun h => h.2 hresolved.2
    · rw [if_neg hresolved]
      refine ⟨fun hfiring => ⟨hfiring, fun hover => hresolved ⟨hfiring, hover⟩⟩, fun h => h.1⟩

/-! ## The snapshot -/

theorem checkPids_keep (w : Watch) (stc : Nat) (is : List Nat) (a : Alarms) :
    (∀ i, i ≠ .pid → (is.foldl (checkPid w stc) a).alerts i = a.alerts i) ∧
      (is.foldl (checkPid w stc) a).stcNs = a.stcNs ∧
      (is.foldl (checkPid w stc) a).signalLock = a.signalLock := by
  induction is generalizing a with
  | nil => exact ⟨fun _ _ => rfl, rfl, rfl⟩
  | cons j is ih =>
    obtain ⟨halerts, hstc, hlock⟩ := ih (checkPid w stc a j)
    have hone : (∀ i, i ≠ .pid → (checkPid w stc a j).alerts i = a.alerts i) ∧
        (checkPid w stc a j).stcNs = a.stcNs ∧
        (checkPid w stc a j).signalLock = a.signalLock := by
      rw [checkPid]
      split
      · exact ⟨fun i hi => update_other a hi _ _ _, (report_keeps a.toAlerts .pid _ _).2, rfl⟩
      · exact ⟨fun _ _ => rfl, rfl, rfl⟩
    refine ⟨fun i hi => ?_, hstc.trans hone.2.1, hlock.trans hone.2.2⟩
    rw [foldl_cons, halerts i hi, hone.1 i hi]

theorem evalAlarms_keeps (P : Parts ρ) (h : MonitorHandle ρ) :
    (∀ i, i ≠ .pid → (tsaEvalTr101290Alarms P h).alerts i = h.alarms.alerts i) ∧
      (tsaEvalTr101290Alarms P h).stcNs = h.alarms.stcNs ∧
      (tsaEvalTr101290Alarms P h).signalLock = h.alarms.signalLock := by
  rw [tsaEvalTr101290Alarms]
  split
  · exact ⟨fun _ _ => rfl, rfl, rfl⟩
  · exact checkPids_keep _ _ _ _

/-- The handle in front of `tsa_eval_tr101290_alarms`. -/
def measured (P : Parts ρ) (h : MonitorHandle ρ) (n : Nat) : MonitorHandle ρ :=
  { h with rest :=
    { h.rest with lastSnapWallNs := n, rest := P.calcStreamBitrate h.rest.rest n } }

/-- And behind it. -/
def evaluated (P : Parts ρ) (h : MonitorHandle ρ) (n : Nat) : MonitorHandle ρ :=
  { measured P h n with alarms := tsaEvalTr101290Alarms P (measured P h n) }

/-- The alert fires when the commit returns, told from the state behind
    `tsa_eval_tr101290_alarms`. -/
def FiresAtReturn (P : Parts ρ) (h : MonitorHandle ρ) (n : Nat) (i : AlertId) : Prop :=
  Noted (monitors P (evaluated P h n)) (evaluated P h n).alarms.toAlerts i ∨
    (((evaluated P h n).alarms.alerts i).status = .firing ∧
      ¬ Overdue (evaluated P h n).alarms.stcNs ((evaluated P h n).alarms.alerts i))

/-- The resolver works on what `tsa_eval_tr101290_alarms` leaves. -/
theorem commit_alerts (P : Parts ρ) (h : MonitorHandle ρ) (n : Nat) :
    (tsaCommitSnapshot P h n).alarms.toAlerts = tsaAlertCheckResolutions
      (monitors P (evaluated P h n)) (evaluated P h n).alarms.toAlerts := by
  rw [tsaCommitSnapshot, evaluated, measured]

theorem commit_firing_iff (P : Parts ρ) (h : MonitorHandle ρ) (n : Nat) (i : AlertId) :
    ((tsaCommitSnapshot P h n).alarms.alerts i).status = .firing ↔ FiresAtReturn P h n i := by
  rw [commit_alerts]
  exact resolutions_firing_iff (monitors P (evaluated P h n)) (evaluated P h n).alarms.toAlerts i

/-! ## The alerts at return, told from the handle before -/

def hides (a : Alarms) : Bool := (a.alerts .sync).status = .firing

/-- The zero-packet timeout of the resolver. -/
def silent (h : MonitorHandle ρ) (n : Nat) : Bool :=
  h.alarms.signalLock ∧ h.lastPacketRxNs < n ∧ patTimeoutNs < sub64 n h.lastPacketRxNs

/-- `tsa_eval_tr101290_alarms` returns early, and leaves the mask as it is. -/
def Gated (P : Parts ρ) (h : MonitorHandle ρ) (n : Nat) : Prop :=
  !P.stcLocked (measured P h n).rest.rest ∨ h.totalTsPackets < 1000
deriving Decidable

theorem tree_table {id : AlertId} (h : Alerts) (hid : id = .pat ∨ id = .pmt) :
    tsaAlertIsSuppressedByTree h id = decide ((h.alerts .sync).status = .firing) := by
  rw [tsaAlertIsSuppressedByTree]
  rcases hid with rfl | rfl
  · cases (h.alerts .sync).status <;> simp
  · cases (h.alerts .sync).status <;> simp

/-- The PID is expected, and has not been seen for too long. -/
def PidSilent (h : MonitorHandle ρ) (i : Nat) : Prop :=
  h.rest.watch.pidIsReferenced i ∧ 0 < (h.rest.watch.tracks i).lastSeenVstc ∧
    pidTimeoutNs < sub64 h.alarms.stcNs (h.rest.watch.tracks i).lastSeenVstc

/-- The commit reports a timeout. -/
def TimesOut (P : Parts ρ) (h : MonitorHandle ρ) (n : Nat) : AlertId → Prop
  | .sync => silent h n
  | .pat => (h.alarms.signalLock ∧ 0 < h.alarms.stcNs) ∧ 0 < h.rest.watch.tables.lastPatNs ∧
      patTimeoutNs < sub64 h.alarms.stcNs h.rest.watch.tables.lastPatNs ∧
      ¬ (hides h.alarms ∨ silent h n)
  | .pid => ¬ Gated P h n ∧ ∃ i < tsPidMax, PidSilent h i
  | .ccMissing => (h.alarms.signalLock ∧ 0 < h.alarms.stcNs) ∧
      ∃ i < tsPidMax, CaptionsMissing (monitors P (measured P h n)) h.alarms.stcNs i
  | _ => False

/-- Nothing hides a silent PID: it fires, as of now. -/
theorem checkPids_pid (h : MonitorHandle ρ) (is : List Nat) :
    let a := is.foldl (checkPid h.rest.watch h.alarms.stcNs) h.alarms
    ((∃ i ∈ is, PidSilent h i) → Fresh h.alarms.stcNs (a.alerts .pid)) ∧
      ((¬ ∃ i ∈ is, PidSilent h i) → a.alerts .pid = h.alarms.alerts .pid) := by
  induction is using reverseRecOn with
  | nil => simp
  | append_singleton is j ih =>
    obtain ⟨-, hstc, -⟩ := checkPids_keep h.rest.watch h.alarms.stcNs is h.alarms
    simp only [foldl_append, foldl_cons, foldl_nil, mem_append, mem_singleton]
    generalize is.foldl (checkPid h.rest.watch h.alarms.stcNs) h.alarms = a at ih hstc ⊢
    have htree : tsaAlertIsSuppressedByTree a.toAlerts .pid = false := by
      simp [tsaAlertIsSuppressedByTree]
    by_cases hsilent : PidSilent h j
    · have hhit : (checkPid h.rest.watch h.alarms.stcNs a j).alerts .pid =
          (a.alerts .pid).hit a.stcNs := by
        have hstep : checkPid h.rest.watch h.alarms.stcNs a j = a.update .pid true "PID" j :=
          if_pos hsilent
        rw [hstep]
        show (tsaAlertUpdate a.toAlerts .pid true "PID" j).alerts .pid = _
        rw [report_alerts, htree, if_neg (by decide), Function.update_self]
      rw [hhit, hstc]
      exact ⟨fun _ => ⟨rfl, rfl⟩, fun hnone => absurd ⟨j, .inr rfl, hsilent⟩ hnone⟩
    · have hstep : checkPid h.rest.watch h.alarms.stcNs a j = a := if_neg hsilent
      have hsplit : (∃ i, (i ∈ is ∨ i = j) ∧ PidSilent h i) ↔ ∃ i ∈ is, PidSilent h i := by
        simp [or_and_right, exists_or, hsilent]
      rw [hstep, hsplit]
      exact ih

/-- The alerts behind `tsa_eval_tr101290_alarms`: only PID may be new. -/
theorem evaluated_pid (P : Parts ρ) (h : MonitorHandle ρ) (n : Nat) :
    (TimesOut P h n .pid → Fresh h.alarms.stcNs ((evaluated P h n).alarms.alerts .pid)) ∧
      (¬ TimesOut P h n .pid →
        (evaluated P h n).alarms.alerts .pid = h.alarms.alerts .pid) := by
  show _ ∧ (_ → (tsaEvalTr101290Alarms P (measured P h n)).alerts .pid = _)
  by_cases hgate : Gated P h n
  · refine ⟨fun hout => absurd hgate hout.1, fun _ => ?_⟩
    rw [tsaEvalTr101290Alarms, if_pos (show _ ∨ (measured P h n).totalTsPackets < 1000 from hgate)]
    rfl
  · have hopen : (evaluated P h n).alarms = (range tsPidMax).foldl
        (checkPid h.rest.watch h.alarms.stcNs) h.alarms := by
      show tsaEvalTr101290Alarms P (measured P h n) = _
      rw [tsaEvalTr101290Alarms,
        if_neg (show ¬ (_ ∨ (measured P h n).totalTsPackets < 1000) from hgate)]
      rfl
    have hpids := checkPids_pid h (range tsPidMax)
    rw [← hopen] at hpids
    simp only [mem_range] at hpids
    exact ⟨fun hout => hpids.1 hout.2, fun hnot => hpids.2 fun hsome => hnot ⟨hgate, hsome⟩⟩

/-- The resolver reports what has timed out, PID apart. -/
theorem noted_iff_timesOut (P : Parts ρ) (h : MonitorHandle ρ) (n : Nat) {i : AlertId}
    (hi : i ≠ .pid) :
    Noted (monitors P (evaluated P h n)) (evaluated P h n).alarms.toAlerts i ↔
      TimesOut P h n i := by
  obtain ⟨halerts, hstc, hlock⟩ := evalAlarms_keeps P (measured P h n)
  have hlock' : (monitors P (evaluated P h n)).signalLock = h.alarms.signalLock := hlock
  have hstc' : (evaluated P h n).alarms.stcNs = h.alarms.stcNs := hstc
  have hsilent : ((monitors P (evaluated P h n)).signalLock ∧
      (monitors P (evaluated P h n)).lastPacketRxNs <
        (monitors P (evaluated P h n)).lastSnapWallNs ∧
      patTimeoutNs < sub64 (monitors P (evaluated P h n)).lastSnapWallNs
        (monitors P (evaluated P h n)).lastPacketRxNs) ↔ silent h n := by
    rw [hlock', silent, decide_eq_true_eq]
    rfl
  by_cases hsync : i = .sync
  · subst hsync
    rw [noted_sync, hsilent]
    exact Iff.rfl
  rw [noted_other _ _ hsync, table_reported_iff _ rfl rfl rfl, hlock', hstc']
  cases i with
  | sync => exact absurd rfl hsync
  | pat =>
    rw [tree_table _ (.inl rfl), decide_eq_false_iff_not, checkSilence_sync, hsilent,
      show (evaluated P h n).alarms.alerts .sync = h.alarms.alerts .sync from
        halerts .sync (by decide)]
    simp only [TimesOut, hides, decide_eq_true_eq, reduceCtorEq, false_and, or_false, true_and,
      and_assoc]
    exact Iff.rfl
  | ccMissing =>
    have htree : tsaAlertIsSuppressedByTree (checkSilence (monitors P (evaluated P h n))
        (evaluated P h n).alarms.toAlerts) .ccMissing = false := by
      simp [tsaAlertIsSuppressedByTree]
    rw [and_iff_left htree]
    simp only [reduceCtorEq, false_and, false_or, true_and]
    exact Iff.rfl
  | pid => exact absurd rfl hi
  | _ => simp [TimesOut]

/-- **The alerts at return.** -/
theorem commit_firing_before (P : Parts ρ) (h : MonitorHandle ρ) (n : Nat) (i : AlertId) :
    ((tsaCommitSnapshot P h n).alarms.alerts i).status = .firing ↔
      TimesOut P h n i ∨ ((h.alarms.alerts i).status = .firing ∧
        ¬ Overdue h.alarms.stcNs (h.alarms.alerts i)) := by
  obtain ⟨halerts, hstc, -⟩ := evalAlarms_keeps P (measured P h n)
  have hstc' : (evaluated P h n).alarms.stcNs = h.alarms.stcNs := hstc
  rw [commit_firing_iff, FiresAtReturn, hstc']
  by_cases hi : i = .pid
  · subst hi
    have hnoted : ¬ Noted (monitors P (evaluated P h n)) (evaluated P h n).alarms.toAlerts .pid := by
      rw [noted_other _ _ (by decide), table_reported_iff _ rfl rfl rfl]
      simp
    obtain ⟨hfresh, hsame⟩ := evaluated_pid P h n
    rw [or_iff_right hnoted]
    by_cases hout : TimesOut P h n .pid
    · obtain ⟨hfiring, hnow⟩ := hfresh hout
      refine iff_of_true ⟨hfiring, ?_⟩ (.inl hout)
      rw [Overdue, hnow, sub64_self]
      exact Nat.not_lt_zero _
    · rw [hsame hout, or_iff_right hout]
  · rw [noted_iff_timesOut P h n hi,
      show (evaluated P h n).alarms.alerts i = h.alarms.alerts i from halerts i hi]

end TsAnalyzer.Monitor
