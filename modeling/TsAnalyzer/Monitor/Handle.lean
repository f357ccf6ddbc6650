/-
  The monitoring side of the analyzer: the section filter, the PID tracker and the TR 101 290 plugin
  put into the packet path, and the calls that run beside it.

  1. **State** — `Watch` is what the packet path keeps about tables, PIDs and continuity; `Opened`
     is the rest of the handle with a `Watch` in it.
  2. **Parts** — what stays open of `Engines`: clock recovery, codec statistics, histograms, Lua.
     Their events are part of their type, so they cannot reach the alarm fields otherwise.
-/
import TsAnalyzer.Pipeline.Passage
import TsAnalyzer.Tr101290.Plugin

namespace TsAnalyzer.Monitor

open Lib Alarm Essence Packet Pipeline
open Psi Tr101290

/-! ## State -/

def maxActivePids : Nat := 128

structure PidTracker where
  /-- `pid_active_list[0 .. pid_tracker_count)`. -/
  activeList : List Nat
  /-- `pid_to_active_idx`, `none` for its `-1`. -/
  toActiveIdx : Nat → Option Nat
  pidSeen : Nat → Bool

/-- `tsa_update_pid_tracker`, without the labels. -/
def tsaUpdatePidTracker (t : PidTracker) (p : Nat) : PidTracker :=
  match t.toActiveIdx p with
  | some _ => t
  | none =>
    let t := if t.activeList.length < maxActivePids then
      { t with activeList := t.activeList ++ [p]
               toActiveIdx := Function.update t.toActiveIdx p (some t.activeList.length) } else t
    { t with pidSeen := Function.update t.pidSeen p true }

/-- What the packet path keeps about tables, PIDs and continuity. -/
structure Watch where
  /-- `current_ns`: the arrival time of the last packet that got to the plugins. -/
  currentNs : Nat
  tables : Tables
  tracker : PidTracker
  /-- The plugin's part of `es_tracks`. -/
  tracks : Nat → TrTrack
  /-- Nothing ever sets it. -/
  pidIsScte35 : Nat → Bool
  /-- `live->internal_analyzer_drop`. -/
  internalAnalyzerDrop : Nat
  /-- `live->cc_error.count`. -/
  ccErrorCount : Nat
  /-- `live->pid_cc_errors`. -/
  pidCcErrors : Nat → Nat
  /-- `live->pid_is_referenced`. -/
  pidIsReferenced : Nat → Bool

/-- The `calloc`ed fields of `tsa_create`. -/
def Watch.fresh : Watch where
  currentNs := 0
  tables := Tables.fresh
  tracker := ⟨[], fun _ => none, fun _ => false⟩
  tracks _ := TrTrack.fresh
  pidIsScte35 _ := false
  internalAnalyzerDrop := 0
  ccErrorCount := 0
  pidCcErrors _ := 0
  pidIsReferenced _ := false

/-- The rest of the handle, opened. -/
structure Opened (ρ : Type) where
  watch : Watch
  lastSnapWallNs : Nat
  rest : ρ

/-! ## The packet path -/

/-- Does `tsa_process_packet` hand packets of this PID to the section filter? -/
def Watch.Filters (w : Watch) (pid : Nat) : Prop :=
  pid = 0 ∨ pid = 0x10 ∨ pid = 0x11 ∨ w.tables.pidIsPmt pid = true ∨ w.pidIsScte35 pid = true
deriving Decidable

/-- The section filter, which still finds the arrival time of the packet BEFORE in `current_ns`. -/
def Watch.filterSection (w : Watch) (res : DecodeResult) (p : Nat → UInt8) : Tables :=
  if w.Filters res.pid then tsaSectionFilterPush w.tables res.pid p res w.currentNs else w.tables

/-- From the PID tracker to the TR 101 290 plugin. -/
def Watch.onPacket (w : Watch) (a : Alarms) (res : DecodeResult) (p : Nat → UInt8) (n : Nat) :
    Watch × Alarms :=
  let tables := w.filterSection res p
  let track := { w.tracks res.pid with lastSeenVstc := a.stcNs }
  let r := trOnTs track tables a p res n
  ({ w with
     currentNs := n
     tables := tables
     tracker := tsaUpdatePidTracker w.tracker res.pid
     tracks := Function.update w.tracks res.pid r.1 }, r.2)

/-- What `tsa_handle_es_payload` does besides its work on the track: it may push SCTE35 events
    (their values), and set the leak rates. -/
structure EsReport (ρ : Type) where
  rest : ρ
  spliceErrors : List Nat
  frameType : FrameType
  leakRates : Option (Nat × Nat)

/-- The parts that stay open. -/
structure Parts (ρ : Type) where
  startEngine : ρ → Nat → ρ
  /-- The new `stc_ns`: REPLAY step, recovered clock, or the arrival time. -/
  stcNs : ρ → Nat → Nat → Nat
  stack : ρ → PesHeader
  pidDropped : ρ → Nat → Bool
  /-- `tsa_hist_add_packet`: PID, STC. -/
  histAddPacket : ρ → Nat → Nat → ρ
  /-- `pcr_on_ts`, with the arrival time and the packet counts of the PID and of the stream. -/
  pcrOnTs : ρ → DecodeResult → (Nat → UInt8) → Nat → Nat → Nat → ρ
  bitrates : ρ → Nat → Bitrates
  audioAudit : ρ → Nat → List UInt8 → ρ
  handleEsPayload : ρ → Alarms → Nat → EsTrack → List UInt8 → EsReport ρ
  recordFrame : ρ → Nat → FrameType → Nat → ρ
  recordPts : ρ → Nat → Nat → Nat → ρ
  /-- Entropy statistics, and the value of an ENTROPY_FREEZE event. -/
  recordEntropy : ρ → Nat → List UInt8 → ρ × Option Nat
  /-- What Lua handlers change: the PID filter. -/
  luaHandlers : ρ → List Notice → ρ
  /-- Bitrates and the other statistics of a snapshot at this time. -/
  calcStreamBitrate : ρ → Nat → ρ
  stcLocked : ρ → Bool
  hasCea708 : ρ → Nat → Bool
  lastCcSeenNs : ρ → Nat → Nat

/-- Parts that do nothing, behind a clock that shows the arrival time. -/
def Parts.idle : Parts Unit where
  startEngine _ _ := ()
  stcNs _ _ n := n
  stack _ := ⟨0, false, false, 0, 0, 0⟩
  pidDropped _ _ := false
  histAddPacket _ _ _ := ()
  pcrOnTs _ _ _ _ _ _ := ()
  bitrates _ _ := ⟨0, 0, 0⟩
  audioAudit _ _ _ := ()
  handleEsPayload _ _ _ _ _ := ⟨(), [], .none, none⟩
  recordFrame _ _ _ _ := ()
  recordPts _ _ _ _ := ()
  recordEntropy _ _ _ := ((), none)
  luaHandlers _ _ := ()
  calcStreamBitrate _ _ := ()
  stcLocked _ := false
  hasCea708 _ _ := false
  lastCcSeenNs _ _ := 0

variable {ρ : Type}

/-- The analyzer's parts, filled in.  `pending_snapshot` is never set, so the end of
    `tsa_process_packet` takes no snapshot. -/
def Parts.engines (P : Parts ρ) : Engines (Opened ρ) where
  startEngine r n := { r with lastSnapWallNs := n, rest := P.startEngine r.rest n }
  stcNs r := P.stcNs r.rest
  stack r := P.stack r.rest
  pidDropped r := P.pidDropped r.rest
  pesExpected r pid := r.watch.pidIsReferenced pid && !r.watch.tables.pidIsPmt pid
  onPacket h res p n :=
    let r := h.rest.watch.onPacket h.alarms res p n
    let rest := P.histAddPacket h.rest.rest res.pid h.alarms.stcNs
    ({ h.rest with
       watch := r.1
       rest := P.pcrOnTs rest res p n (h.pidPacketCount res.pid) h.totalTsPackets }, r.2)
  bitrates r := P.bitrates r.rest
  audioAudit r pid bytes := { r with rest := P.audioAudit r.rest pid bytes }
  handleEsPayload r a pid es bytes :=
    let e := P.handleEsPayload r.rest a pid es bytes
    ⟨{ r with rest := e.rest },
      e.spliceErrors.foldl (fun a v => tsaPushEvent a .scte35 pid v) a, e.frameType, e.leakRates⟩
  recordFrame r pid type len := { r with rest := P.recordFrame r.rest pid type len }
  recordPts r pid pts stc := { r with rest := P.recordPts r.rest pid pts stc }
  recordEntropy r a pid bytes :=
    let e := P.recordEntropy r.rest pid bytes
    ({ r with rest := e.1 },
      match e.2 with
      | some v => tsaPushEvent a .entropyFreeze pid v
      | none => a)
  settle r a := ({ r with rest := P.luaHandlers r.rest a.notices }, a)

abbrev MonitorHandle (ρ : Type) := Handle (Opened ρ)

/-- A handle as `tsa_create` leaves it. -/
def freshHandle (config : AlertConfig) (rest : ρ) : MonitorHandle ρ :=
  Handle.fresh config ⟨Watch.fresh, 0, rest⟩

/-! ## Calls -/

def tsaHandleInternalDrop (h : MonitorHandle ρ) (dropCount : Nat) : MonitorHandle ρ :=
  let w := h.rest.watch
  let tracks pid :=
    if pid < tsPidMax ∧ w.tracker.pidSeen pid = true then { w.tracks pid with ignoreNextCc := true }
    else w.tracks pid
  { h with rest := { h.rest with watch := { w with
      tracks := tracks
      internalAnalyzerDrop := (w.internalAnalyzerDrop + dropCount) % 2 ^ 64 } } }

/-- The PID alarm of `tsa_eval_tr101290_alarms`, for one PID. -/
def checkPid (w : Watch) (stc : Nat) (a : Alarms) (i : Nat) : Alarms :=
  if w.pidIsReferenced i ∧ 0 < (w.tracks i).lastSeenVstc ∧
      pidTimeoutNs < sub64 stc (w.tracks i).lastSeenVstc then a.update .pid true "PID" i else a

/-- `tsa_eval_tr101290_alarms`: the alarms it raises. -/
def tsaEvalTr101290Alarms (P : Parts ρ) (h : MonitorHandle ρ) : Alarms :=
  if !P.stcLocked h.rest.rest ∨ h.totalTsPackets < 1000 then h.alarms
  else (List.range tsPidMax).foldl (checkPid h.rest.watch h.alarms.stcNs) h.alarms

/-- What `tsa_alert_check_resolutions` reads.  `h->last_pmt_ns` (each program has its own),
    `last_sdt_ns` and `last_nit_ns` are never written. -/
def monitors (P : Parts ρ) (h : MonitorHandle ρ) : Monitors where
  signalLock := h.alarms.signalLock
  lastSnapWallNs := h.rest.lastSnapWallNs
  lastPacketRxNs := h.lastPacketRxNs
  lastPatNs := h.rest.watch.tables.lastPatNs
  lastPmtNs := 0
  lastSdtNs := 0
  lastNitNs := 0
  pidSeen := h.rest.watch.tracker.pidSeen
  streamType i := (h.tracks i).streamType
  hasCea708 := P.hasCea708 h.rest.rest
  lastCcSeenNs := P.lastCcSeenNs h.rest.rest

/-- `tsa_commit_snapshot` at wall time `n`, as far as tables and alarms go.  (`last_snap_wall_ns` is
    read by the last of its steps only.) -/
def tsaCommitSnapshot (P : Parts ρ) (h : MonitorHandle ρ) (n : Nat) : MonitorHandle ρ :=
  let rest := { h.rest with lastSnapWallNs := n, rest := P.calcStreamBitrate h.rest.rest n }
  let alarms := tsaEvalTr101290Alarms P { h with rest := rest }
  let m := monitors P { h with rest := rest, alarms := alarms }
  { h with
    rest := rest
    alarms := { alarms with toAlerts := tsaAlertCheckResolutions m alarms.toAlerts } }

/-- What is done to an analyzer: a packet behind a pointer arrives (in memory as it then stands),
    packets are lost in front of it, a snapshot is taken. -/
inductive Input where
  | packet (m : Memory) (pkt : PacketPtr) (n : Nat)
  | internalDrop (dropCount : Nat)
  | commitSnapshot (n : Nat)

def inputStep (P : Parts ρ) (h : MonitorHandle ρ) : Input → MonitorHandle ρ
  | .packet m pkt n => (tsaProcessPacket P.engines h m pkt n).handle
  | .internalDrop dropCount => tsaHandleInternalDrop h dropCount
  | .commitSnapshot n => tsaCommitSnapshot P h n

/-- A packet all by itself in the caller's memory, that arrives at `n`. -/
def packetOf (p : Nat → UInt8) (n : Nat) : Input := .packet ⟨p, fun _ => 0⟩ (.caller 0) n

/-- A packet of a PID with a section right behind its pointer. -/
def sectionPacket (pid : Nat) (bytes : List UInt8) : Nat → UInt8 := fun i =>
  ([0x47, 0x40 ||| UInt8.ofNat (pid / 256), UInt8.ofNat pid, 0x10, 0x00] ++ bytes).getD i 0

/-- Alerts without sinks. -/
def plainConfig : AlertConfig := ⟨"", 0, 10000, false, false⟩

/-! ## What a call does -/

def essenceAlerts : List AlertId := [.tstd, .entropy]

theorem foldl_push_path {ids : List AlertId} {type : EventType} (htype : type.Within ids)
    (pid : Nat) (vs : List Nat) (a : Alarms) :
    AlarmPath ids a (vs.foldl (fun a v => tsaPushEvent a type pid v) a) := by
  induction vs generalizing a with
  | nil => exact .refl a
  | cons v vs ih => exact AlarmPath.trans (.single (.push type pid v htype)) (ih _)

/-- The open parts neither touch the `Watch` nor raise an alert but those of the essence plugin. -/
theorem engines_tame (P : Parts ρ) : P.engines.Tame Opened.watch essenceAlerts where
  tstd := by decide
  startEngine _ _ := rfl
  audioAudit _ _ _ := rfl
  handleEsPayload r a pid es bytes := by
    have hscte : EventType.Within .scte35 essenceAlerts := within_of_none rfl _
    exact ⟨rfl, foldl_push_path hscte pid _ a⟩
  recordFrame _ _ _ _ := rfl
  recordPts _ _ _ _ := rfl
  recordEntropy r a pid bytes := by
    refine ⟨rfl, ?_⟩
    show AlarmPath essenceAlerts a (match (P.recordEntropy r.rest pid bytes).2 with
      | some v => tsaPushEvent a .entropyFreeze pid v
      | none => a)
    cases (P.recordEntropy r.rest pid bytes).2 with
    | none => exact .refl a
    | some v =>
      refine .single (.push .entropyFreeze pid v ?_)
      intro c id name haction
      cases haction
      decide
  settle _ _ := ⟨rfl, .refl _⟩

/-- The decoded packet, if it gets to the plugins. -/
def heard (P : Parts ρ) (h : MonitorHandle ρ) (p : Nat → UInt8) (n : Nat) : Option DecodeResult :=
  match intake P.engines h p n with
  | .accepted _ res => some res
  | _ => none

/-- **What a packet does to tables and alarms.** -/
inductive PacketEffect (P : Parts ρ) (h : MonitorHandle ρ) (p : Nat → UInt8) (n : Nat) :
    Option DecodeResult → MonitorHandle ρ → Prop
  /-- It has no sync byte. -/
  | noSync (hsync : p 0 ≠ 0x47)
      (hwatch : (syncError (arrive P.engines h n)).rest.watch = h.rest.watch) :
    PacketEffect P h p n none (syncError (arrive P.engines h n))
  /-- The PID filter drops it. -/
  | filtered (h' : MonitorHandle ρ) (hsync : p 0 = 0x47) (hwatch : h'.rest.watch = h.rest.watch)
      (halarms : AlarmPath essenceAlerts h.alarms h'.alarms) (hloss : h'.syncLoss = h.syncLoss) :
    PacketEffect P h p n none h'
  /-- It gets to the plugins, which find the alarm fields as `a`. -/
  | plugins (a : Alarms) (h' : MonitorHandle ρ) (res : DecodeResult) (hsync : p 0 = 0x47)
      (hres : res.Describes p) (hbefore : AlarmPath essenceAlerts h.alarms a)
      (hwatch : h'.rest.watch = (h.rest.watch.onPacket a res p n).1)
      (hafter : AlarmPath essenceAlerts (h.rest.watch.onPacket a res p n).2 h'.alarms)
      (hloss : h'.syncLoss = h.syncLoss) :
    PacketEffect P h p n (some res) h'

theorem packet_effect (P : Parts ρ) (h : MonitorHandle ρ) (m : Memory) (pkt : PacketPtr) (n : Nat) :
    PacketEffect P h (m.byte pkt) n (heard P h (m.byte pkt) n)
      (tsaProcessPacket P.engines h m pkt n).handle := by
  have hpass := tsaProcessPacket_passage (engines_tame P) h m pkt n
  generalize (tsaProcessPacket P.engines h m pkt n).handle = h' at hpass ⊢
  generalize m.byte pkt = p at hpass ⊢
  cases hpass with
  | noSync hsync hin =>
    have hwatch : (syncError (arrive P.engines h n)).rest.watch = h.rest.watch := by
      rw [← (arrive_calm (engines_tame P) h n).watch]
      unfold syncError
      simp only
      split
      · rfl
      · rfl
    simp only [heard, hin]
    exact .noSync hsync hwatch
  | filtered _ res hsync hin hcalm =>
    simp only [heard, hin]
    exact .filtered h' hsync hcalm.watch hcalm.alarms hcalm.syncLoss
  | accepted h1 h2 _ res hsync hin hres hbefore hplugins hafter =>
    simp only [heard, hin]
    subst hplugins
    have hsame : h1.rest.watch = h.rest.watch := hbefore.watch
    refine .plugins h1.alarms h' res hsync hres hbefore.alarms ?_ ?_ ?_
    · rw [← hsame]
      exact hafter.watch
    · rw [← hsame]
      exact hafter.alarms
    · exact hafter.syncLoss.trans hbefore.syncLoss

variable {P : Parts ρ} {h : MonitorHandle ρ}

variable {n : Nat} {m : Memory} {pkt : PacketPtr}

/-- A packet that does not get to the plugins leaves the `Watch` alone. -/
theorem unheard_watch (hnone : heard P h (m.byte pkt) n = none) :
    (inputStep P h (.packet m pkt n)).rest.watch = h.rest.watch := by
  have heff := packet_effect P h m pkt n
  rw [inputStep]
  generalize (tsaProcessPacket P.engines h m pkt n).handle = h' at heff ⊢
  rw [hnone] at heff
  cases heff with
  | noSync hsync hwatch => exact hwatch
  | filtered _ hsync hwatch halarms hloss => exact hwatch

/-- One that does goes through them with some alarm fields `a`. -/
theorem heard_effect {res : DecodeResult} (hheard : heard P h (m.byte pkt) n = some res) :
    ∃ a, m.byte pkt 0 = 0x47 ∧ res.Describes (m.byte pkt) ∧ AlarmPath essenceAlerts h.alarms a ∧
      (inputStep P h (.packet m pkt n)).rest.watch =
        (h.rest.watch.onPacket a res (m.byte pkt) n).1 ∧
      AlarmPath essenceAlerts (h.rest.watch.onPacket a res (m.byte pkt) n).2
        (inputStep P h (.packet m pkt n)).alarms := by
  have heff := packet_effect P h m pkt n
  rw [inputStep]
  generalize (tsaProcessPacket P.engines h m pkt n).handle = h' at heff ⊢
  rw [hheard] at heff
  cases heff with
  | plugins a _ _ hsync hres hbefore hwatch hafter hloss =>
    exact ⟨a, hsync, hres, hbefore, hwatch, hafter⟩

/-- Its arrival time is left in `current_ns`. -/
theorem heard_currentNs {res : DecodeResult} (hheard : heard P h (m.byte pkt) n = some res) :
    (inputStep P h (.packet m pkt n)).rest.watch.currentNs = n := by
  obtain ⟨a, -, -, -, hwatch, -⟩ := heard_effect hheard
  rw [hwatch]
  rfl

/-- `tsa_commit_snapshot` changes nothing but alarms, the time of the snapshot and the open
    parts. -/
theorem tsaCommitSnapshot_eq (P : Parts ρ) (h : MonitorHandle ρ) (n : Nat) :
    ∃ alarms rest, tsaCommitSnapshot P h n =
      { h with rest := ⟨h.rest.watch, n, rest⟩, alarms := alarms } :=
  ⟨_, _, rfl⟩

theorem tsaCommitSnapshot_watch (P : Parts ρ) (h : MonitorHandle ρ) (n : Nat) :
    (tsaCommitSnapshot P h n).rest.watch = h.rest.watch := by
  obtain ⟨alarms, rest, heq⟩ := tsaCommitSnapshot_eq P h n
  rw [heq]

/-! ## Tables -/

/-- The section of a table that a call brings to the section filter. -/
def sectionHeard (P : Parts ρ) (tableId : UInt8) (h : MonitorHandle ρ) :
    Input → Option (Nat → UInt8)
  | .packet m pkt n =>
    match heard P h (m.byte pkt) n with
    | some res => if h.rest.watch.Filters res.pid then carried (m.byte pkt) tableId else none
    | none => none
  | _ => none

variable {p : Nat → UInt8}

theorem sectionHeard_unique {tid tid' : UInt8} {i : Input}
    {q : Nat → UInt8} (hp : sectionHeard P tid h i = some p)
    (hq : sectionHeard P tid' h i = some q) : tid = tid' := by
  cases i with
  | internalDrop | commitSnapshot => cases hp
  | packet m pkt n =>
    cases hheard : heard P h (m.byte pkt) n with
    | none => simp only [sectionHeard, hheard, reduceCtorEq] at hp
    | some res =>
      simp only [sectionHeard, hheard] at hp hq
      split at hp
      · rename_i hfilters
        rw [if_pos hfilters] at hq
        exact ((carried_eq_some.mp hp).unique (carried_eq_some.mp hq)).2
      · cases hp

/-- The PID of the packet that arrives. -/
def Input.pid : Input → Nat
  | .packet m pkt _ => pidOf (m.byte pkt)
  | _ => 0

/-- **What a call does to the tables**: a PAT or a PMT it brings is parsed, with the arrival time of
    the packet before. -/
inductive TablesEffect (P : Parts ρ) (h : MonitorHandle ρ) (i : Input) : Tables → Prop
  | pat (p : Nat → UInt8) (hp : sectionHeard P 0x00 h i = some p) :
    TablesEffect P h i (processPat h.rest.watch.tables p h.rest.watch.currentNs)
  | pmt (p : Nat → UInt8) (hp : sectionHeard P 0x02 h i = some p)
      (hnone : sectionHeard P 0x00 h i = none) :
    TablesEffect P h i (processPmt h.rest.watch.tables i.pid p h.rest.watch.currentNs)
  | other (crcErrorCount : Nat) (hnone : sectionHeard P 0x00 h i = none)
      (hpmt : sectionHeard P 0x02 h i = none) :
    TablesEffect P h i { h.rest.watch.tables with crcErrorCount := crcErrorCount }

theorem inputStep_tables (P : Parts ρ) (h : MonitorHandle ρ) (i : Input) :
    TablesEffect P h i (inputStep P h i).rest.watch.tables := by
  cases i with
  | internalDrop dropCount => exact .other h.rest.watch.tables.crcErrorCount rfl rfl
  | commitSnapshot n =>
    rw [inputStep, tsaCommitSnapshot_watch]
    exact .other h.rest.watch.tables.crcErrorCount rfl rfl
  | packet m pkt n =>
    cases hheard : heard P h (m.byte pkt) n with
    | none =>
      have hnone : ∀ tid, sectionHeard P tid h (.packet m pkt n) = none := by
        intro tid
        simp only [sectionHeard, hheard]
      rw [unheard_watch hheard]
      exact .other h.rest.watch.tables.crcErrorCount (hnone _) (hnone _)
    | some res =>
      obtain ⟨a, -, hres, -, hwatch, -⟩ := heard_effect hheard
      rw [hwatch]
      show TablesEffect P h (.packet m pkt n) (h.rest.watch.filterSection res (m.byte pkt))
      rw [Watch.filterSection]
      split
      · rename_i hfilters
        have hsec : ∀ tid, sectionHeard P tid h (.packet m pkt n) = carried (m.byte pkt) tid := by
          intro tid
          simp only [sectionHeard, hheard, if_pos hfilters]
        have hfilter := tsaSectionFilterPush_effect h.rest.watch.tables res.pid hres.pusi
          h.rest.watch.currentNs
        generalize tsaSectionFilterPush h.rest.watch.tables res.pid (m.byte pkt) res
          h.rest.watch.currentNs = t' at hfilter ⊢
        cases hfilter with
        | pat p hp => exact .pat p ((hsec _).trans (carried_eq_some.mpr hp))
        | pmt p hp =>
          rw [show res.pid = (Input.packet m pkt n).pid from hres.pid]
          refine .pmt p ((hsec _).trans (carried_eq_some.mpr hp))
            ((hsec _).trans (carried_eq_none.mpr fun q hq => ?_))
          exact absurd (hp.unique hq).2 (by decide)
        | none crcErrorCount hpat hpmt =>
          exact .other crcErrorCount ((hsec _).trans (carried_eq_none.mpr hpat))
            ((hsec _).trans (carried_eq_none.mpr hpmt))
      · rename_i hfilters
        have hnone : ∀ tid, sectionHeard P tid h (.packet m pkt n) = none := by
          intro tid
          simp only [sectionHeard, hheard, if_neg hfilters]
        exact .other h.rest.watch.tables.crcErrorCount (hnone _) (hnone _)

theorem tables_of_pat {i : Input}
    (hp : sectionHeard P 0x00 h i = some p) : (inputStep P h i).rest.watch.tables =
      processPat h.rest.watch.tables p h.rest.watch.currentNs := by
  have heff := inputStep_tables P h i
  generalize (inputStep P h i).rest.watch.tables = t' at heff ⊢
  cases heff with
  | pat q hq => rw [Option.some.inj (hp.symm.trans hq)]
  | pmt q hq hnone => cases hp.symm.trans hnone
  | other crcErrorCount hnone hpmt => cases hp.symm.trans hnone

/-! ## Counters and references -/

/-- **What no call writes**: the continuity counters of `live` and `pid_is_referenced`. -/
theorem inputStep_unwritten (P : Parts ρ) (h : MonitorHandle ρ) (i : Input) :
    (inputStep P h i).rest.watch.ccErrorCount = h.rest.watch.ccErrorCount ∧
      (inputStep P h i).rest.watch.pidCcErrors = h.rest.watch.pidCcErrors ∧
      (inputStep P h i).rest.watch.pidIsReferenced = h.rest.watch.pidIsReferenced := by
  cases i with
  | internalDrop dropCount => exact ⟨rfl, rfl, rfl⟩
  | commitSnapshot n =>
    rw [inputStep, tsaCommitSnapshot_watch]
    exact ⟨rfl, rfl, rfl⟩
  | packet m pkt n =>
    have heff := packet_effect P h m pkt n
    rw [inputStep]
    generalize (tsaProcessPacket P.engines h m pkt n).handle = h' at heff ⊢
    generalize heard P h (m.byte pkt) n = heard? at heff
    cases heff with
    | noSync hsync hwatch => rw [hwatch]; exact ⟨rfl, rfl, rfl⟩
    | filtered _ hsync hwatch halarms hloss => rw [hwatch]; exact ⟨rfl, rfl, rfl⟩
    | plugins a _ res hsync hres hbefore hwatch hafter hloss =>
      rw [hwatch]
      exact ⟨rfl, rfl, rfl⟩

/-! ## Without a PID filter -/

theorem heard_idle (h : MonitorHandle Unit) (hsync : p 0 = 0x47) (n : Nat) :
    ∃ res, heard Parts.idle h p n = some res ∧ res.pid = pidOf p := by
  rw [heard, intake, if_neg (not_not_intro hsync)]
  exact ⟨_, rfl, (decode_decoded _ _ p).describes.pid⟩

theorem packet_bytes (p : Nat → UInt8) : (⟨p, fun _ => 0⟩ : Memory).byte (.caller 0) = p := by
  funext i
  show p (0 + i) = p i
  rw [Nat.zero_add]

theorem sectionHeard_idle (h : MonitorHandle Unit) (hsync : p 0 = 0x47)
    (hfilters : h.rest.watch.Filters (pidOf p)) (n : Nat) {tableId : UInt8} :
    sectionHeard Parts.idle tableId h (packetOf p n) = carried p tableId := by
  obtain ⟨res, hheard, hpid⟩ := heard_idle h hsync n
  simp only [sectionHeard, packetOf, packet_bytes, hheard, hpid, if_pos hfilters]

end TsAnalyzer.Monitor
