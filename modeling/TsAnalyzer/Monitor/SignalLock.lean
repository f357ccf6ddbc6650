/-
  Sync loss: every moment at which `signal_lock` is lost, against what is reported of it.

  `tsa_process_packet` clears the lock at the fifth packet in a row without sync byte, counts the
  loss and pushes SYNC_LOSS.  `tsa_feed_data` clears it as soon as a byte at a packet boundary is no
  sync byte, and does neither.
-/
import TsAnalyzer.Monitor.Handle
import TsAnalyzer.Pipeline.CallerMemory

namespace TsAnalyzer.Monitor

open Lib Alarm Essence Packet Pipeline List
open Sync Tr101290

variable {ρ σ : Type}

/-! ## Observation -/

/-- What is seen of a packet, or of a write of the lock by the feed loop. -/
structure LockReport where
  byFeed : Bool
  /-- The ring had room for an event. -/
  room : Bool
  lockBefore : Bool
  lockAfter : Bool
  /-- `live->sync_loss.count`. -/
  lossBefore : Nat
  lossAfter : Nat
  pushed : List Event

def lockReport (byFeed : Bool) (h h' : Handle σ) : LockReport where
  byFeed := byFeed
  room := h.alarms.unread < maxEventQueue
  lockBefore := h.alarms.signalLock
  lockAfter := h'.alarms.signalLock
  lossBefore := h.syncLoss
  lossAfter := h'.syncLoss
  pushed := pushedSince h.alarms h'.alarms

namespace LockReport

/-- The lock goes from true to false. -/
def lost (r : LockReport) : Bool := r.lockBefore && !r.lockAfter

def losses (r : LockReport) : Nat := r.pushed.countP fun e => e.type = .syncLoss

/-- A lost lock is counted once and pushed once, and nothing else is. -/
def Proper (r : LockReport) : Prop :=
  if r.lost then r.lossAfter = (r.lossBefore + 1) % 2 ^ 64 ∧ r.losses = 1
  else r.lossAfter = r.lossBefore ∧ r.losses = 0

end LockReport

/-- The host of `tsa_feed_data`, with its reports. -/
def watchedHost (E : Engines σ) (addr n : Nat) : Host (World σ × List LockReport) :=
  let H := liveHost E addr n
  { data := fun s i => H.data s.1 i
    packetInPlace := fun s i offset =>
      let w := H.packetInPlace s.1 i offset
      (w, s.2 ++ [lockReport false s.1.handle w.handle])
    packetBuffered := fun s bytes offset =>
      let w := H.packetBuffered s.1 bytes offset
      (w, s.2 ++ [lockReport false s.1.handle w.handle])
    dropLock := fun s =>
      let w := H.dropLock s.1
      (w, s.2 ++ [lockReport true s.1.handle w.handle])
    syncBufferWrite := fun s i bytes => (H.syncBufferWrite s.1 i bytes, s.2) }

/-- What is done to the analyzer: a call, or the reader of the ring stores a new tail. -/
inductive LockInput where
  | call (c : Pipeline.Call)
  | storeTail (tail : Nat)

/-- One input, with its reports. -/
def watchStep (E : Engines σ) (a : Analyzer σ) :
    LockInput → Except Fault (Analyzer σ × List LockReport)
  | .storeTail tail =>
    .ok ({ a with handle := { a.handle with alarms := { a.handle.alarms with tail := tail } } }, [])
  | .call c =>
    let w : World σ := ⟨a.handle, ⟨c.memory, a.syncBuffer⟩, [], []⟩
    match c.entry with
    | .processPacket addr n =>
      let w' := w.packet E n (.caller addr)
      .ok (⟨a.feeder, w'.handle, w'.mem.syncBuffer⟩, [lockReport false a.handle w'.handle])
    | .feedData addr len n =>
      match tsaFeedData (watchedHost E addr n) a.feeder (w, []) len with
      | .error e => .error e
      | .ok (f, s) => .ok (⟨f, s.1.handle, s.1.mem.syncBuffer⟩, s.2)

/-! ## One packet -/

theorem path_proper {ids : List AlertId} (hsync : .sync ∉ ids) {h h' : Handle σ}
    (hpath : AlarmPath ids h.alarms h'.alarms) (hloss : h'.syncLoss = h.syncLoss) :
    (lockReport false h h').Proper := by
  have hkept : (lockReport false h h').lost = false := by
    show (h.alarms.signalLock && !h'.alarms.signalLock) = false
    cases hlock : h.alarms.signalLock with
    | false => rfl
    | true => rw [hpath.lock hlock]; rfl
  obtain ⟨es, hqueues, hwithin⟩ := hpath.queues
  rw [LockReport.Proper, hkept, if_neg (by decide)]
  refine ⟨hloss, ?_⟩
  show (pushedSince h.alarms h'.alarms).countP _ = 0
  rw [hqueues.pushedSince_eq, countP_eq_zero]
  intro e he htype
  -- SYNC_LOSS raises SYNC, which is none of the alerts of this stretch
  have hid := hwithin e he (some .syncLossCount) .sync "SYNC"
  rw [of_decide_eq_true htype] at hid
  exact hsync (hid rfl)

theorem arrive_alarms (E : Engines σ) (h : Handle σ) (n : Nat) :
    (∃ stcNs, (arrive E h n).alarms = { h.alarms with stcNs := stcNs }) ∧
      (arrive E h n).syncLoss = h.syncLoss := by
  rw [arrive]
  simp only
  constructor
  · split
    · split
      · exact ⟨h.alarms.stcNs, rfl⟩
      · exact ⟨h.alarms.stcNs, rfl⟩
    · split
      · exact ⟨n, rfl⟩
      · exact ⟨n, rfl⟩
  · split <;> split <;> rfl

/-- **A packet without sync byte**: the lock that the fifth one loses is reported. -/
theorem syncError_proper (E : Engines σ) (h : Handle σ) (n : Nat)
    (hroom : h.alarms.unread < maxEventQueue) :
    (lockReport false h (syncError (arrive E h n))).Proper := by
  obtain ⟨⟨stcNs, halarms⟩, hloss⟩ := arrive_alarms E h n
  generalize arrive E h n = h1 at halarms hloss ⊢
  have hlock : h1.alarms.signalLock = h.alarms.signalLock := by rw [halarms]
  rw [syncError]
  simp only
  split
  · rename_i hfifth
    have hbefore : h.alarms.signalLock = true := by rw [← hlock]; exact hfifth.2
    have hqueues := push_queues (a := { h1.alarms with signalLock := false })
      (by rw [halarms]; exact hroom) .syncLoss 0 0
    have hpushed : pushedSince h.alarms
        (tsaPushEvent { h1.alarms with signalLock := false } .syncLoss 0 0) =
          [⟨.syncLoss, 0, h1.alarms.stcNs, 0, h1.alarms.currentPacketOffset⟩] := by
      rw [← hqueues.pushedSince_eq]
      rw [halarms]
      rfl
    have hafter : (tsaPushEvent { h1.alarms with signalLock := false } .syncLoss 0 0).signalLock =
        false := tsaPushEvent_signalLock _ _ _ _
    have hlost : (lockReport false h (Handle.pushEvent { h1 with
        consecutiveSyncErrors := (h1.consecutiveSyncErrors + 1) % 2 ^ 32
        consecutiveGoodSyncs := 0
        syncByteErrorCount := (h1.syncByteErrorCount + 1) % 2 ^ 64
        syncLoss := (h1.syncLoss + 1) % 2 ^ 64
        alarms := { h1.alarms with signalLock := false } } .syncLoss 0 0)).lost = true := by
      show (h.alarms.signalLock && !(tsaPushEvent { h1.alarms with signalLock := false }
        .syncLoss 0 0).signalLock) = true
      rw [hbefore, hafter]
      rfl
    rw [LockReport.Proper, hlost, if_pos rfl]
    constructor
    · show (h1.syncLoss + 1) % 2 ^ 64 = (h.syncLoss + 1) % 2 ^ 64
      rw [hloss]
    · show (pushedSince h.alarms (tsaPushEvent { h1.alarms with signalLock := false }
        .syncLoss 0 0)).countP _ = 1
      rw [hpushed]
      rfl
  · refine path_proper (not_mem_nil (a := AlertId.sync)) ?_ hloss
    show AlarmPath [] h.alarms h1.alarms
    rw [halarms]
    exact .single (.tick stcNs)

variable (h : Handle σ) (P : Parts ρ)

/-- **A packet**: what it does to the lock is reported. -/
theorem packet_proper (h : MonitorHandle ρ) (m : Memory) (pkt : PacketPtr) (n : Nat)
    (hroom : h.alarms.unread < maxEventQueue) :
    (lockReport false h (tsaProcessPacket P.engines h m pkt n).handle).Proper := by
  have heff := packet_effect P h m pkt n
  generalize (tsaProcessPacket P.engines h m pkt n).handle = h' at heff ⊢
  generalize heard P h (m.byte pkt) n = heard? at heff
  cases heff with
  | noSync hsync hwatch => exact syncError_proper P.engines h n hroom
  | filtered _ hsync hwatch halarms hloss => exact path_proper (by decide) halarms hloss
  | plugins a _ res hsync hres hbefore hwatch hafter hloss =>
    have hplugin : AlarmPath pluginAlerts a (h.rest.watch.onPacket a res (m.byte pkt) n).2 :=
      (trOnTs_updates _ _ a (m.byte pkt) res n).path
    have hall : AlarmPath (essenceAlerts ++ pluginAlerts) h.alarms h'.alarms :=
      ((hbefore.mono (subset_append_left _ _)).trans
        (hplugin.mono (subset_append_right _ _))).trans
          (hafter.mono (subset_append_left _ _))
    exact path_proper (by decide) hall hloss

/-! ## Runs -/

/-- With room in the ring, a report is proper unless the feed loop clears a lock that is set. -/
def LockReport.Judged (r : LockReport) : Prop :=
  r.room = true → (r.Proper ↔ (r.byFeed = true → r.lockBefore = false))

theorem packet_judged (h : MonitorHandle ρ) (m : Memory) (pkt : PacketPtr) (n : Nat) :
    (lockReport false h (tsaProcessPacket P.engines h m pkt n).handle).Judged := by
  intro hroom
  have hproper := packet_proper P h m pkt n (of_decide_eq_true hroom)
  exact ⟨fun _ hfeed => absurd hfeed Bool.false_ne_true, fun _ => hproper⟩

def unlock (h : Handle σ) : Handle σ := { h with alarms := { h.alarms with signalLock := false } }

theorem unlock_report :
    (lockReport true h (unlock h)).losses = 0 ∧
      (lockReport true h (unlock h)).lost = h.alarms.signalLock ∧
      (lockReport true h (unlock h)).lossAfter = (lockReport true h (unlock h)).lossBefore := by
  refine ⟨?_, ?_, rfl⟩
  · have hsame : Queues h.alarms [] (unlock h).alarms := .of_same rfl rfl rfl
    show (pushedSince h.alarms (unlock h).alarms).countP _ = 0
    rw [hsame.pushedSince_eq]
    rfl
  · show (h.alarms.signalLock && !false) = h.alarms.signalLock
    cases h.alarms.signalLock <;> rfl

theorem unlock_judged : (lockReport true h (unlock h)).Judged := by
  intro _
  obtain ⟨hnone, hlost, hloss⟩ := unlock_report h
  rw [LockReport.Proper, hlost, hnone]
  show _ ↔ (true = true → h.alarms.signalLock = false)
  cases h.alarms.signalLock with
  | true => simp
  | false => exact ⟨fun _ _ => rfl, fun _ => ⟨hloss, rfl⟩⟩

theorem watchedHost_judged (addr n : Nat) :
    (watchedHost P.engines addr n).Keeps fun s => ∀ r ∈ s.2, r.Judged where
  packetInPlace s i offset hs r hr := by
    rcases mem_append.mp hr with hr | hr
    · exact hs r hr
    · rw [mem_singleton.mp hr]
      exact packet_judged P (s.1.atOffset offset).handle _ _ n
  packetBuffered s bytes offset hs r hr := by
    rcases mem_append.mp hr with hr | hr
    · exact hs r hr
    · rw [mem_singleton.mp hr]
      exact packet_judged P (s.1.atOffset offset).handle _ _ n
  dropLock s hs r hr := by
    rcases mem_append.mp hr with hr | hr
    · exact hs r hr
    · rw [mem_singleton.mp hr]
      exact unlock_judged s.1.handle
  syncBufferWrite s i bytes hs := hs

theorem watchStep_judged {a a' : Analyzer (Opened ρ)} {i : LockInput} {rs : List LockReport}
    (h : watchStep P.engines a i = .ok (a', rs)) : ∀ r ∈ rs, r.Judged := by
  cases i with
  | storeTail tail =>
    injection h with h
    injection h with _ h
    subst h
    exact fun r hr => absurd hr not_mem_nil
  | call c =>
    obtain ⟨memory, entry⟩ := c
    cases entry with
    | processPacket addr n =>
      injection h with h
      injection h with _ h
      subst h
      intro r hr
      rw [mem_singleton.mp hr]
      exact packet_judged P a.handle _ _ n
    | feedData addr len n =>
      simp only [watchStep] at h
      split at h
      · cases h
      · rename_i f s hfeed
        injection h with h
        injection h with _ h
        subst h
        exact tsaFeedData_keeps (watchedHost_judged P addr n) _ _ _
          (fun r hr => absurd hr not_mem_nil) hfeed

/-- **Sync loss is reported**, for every sequence of calls on every analyzer, with room in the ring:
    each loss of the lock is counted once and pushed once, and nothing else is, exactly when
    `tsa_feed_data` never clears a lock that is set. -/
theorem sync_loss_reported_iff (P : Parts ρ) (a a' : Analyzer (Opened ρ)) (is : List LockInput)
    (reports : List LockReport) (hrun : runE (watchStep P.engines) a is = .ok (a', reports))
    (hroom : ∀ r ∈ reports, r.room = true) :
    (∀ r ∈ reports, r.Proper) ↔ ∀ r ∈ reports, r.byFeed = true → r.lockBefore = false := by
  have hjudged : ∀ r ∈ reports, r.Judged :=
    runE_outputs (fun _ _ _ _ h => watchStep_judged P h) is a (a', reports) hrun
  exact forall₂_congr fun r hr => hjudged r hr (hroom r hr)

/-- Parts that do nothing, behind a PID filter that drops everything. -/
def Parts.filtering : Parts Unit := { Parts.idle with pidDropped := fun _ _ => true }

/-- Five packets, and five without a sync byte: the lock is set and lost, and the loss is counted
    and pushed. -/
theorem lostPackets_reported : ∃ a' reports,
    runE (watchStep Parts.filtering.engines) (.fresh plainConfig ⟨Watch.fresh, 0, ()⟩)
      (replicate 5 (.call ⟨nullPacket, .processPacket 0 0⟩) ++
        replicate 5 (.call ⟨fun _ => 0, .processPacket 0 0⟩)) = .ok (a', reports) ∧
    (∀ r ∈ reports, r.Proper) ∧
    ∃ r ∈ reports, r.lost = true ∧ r.lossAfter = r.lossBefore + 1 ∧ r.losses = 1 := by
  obtain ⟨a', reports, hrun, hroom, hfeed, hlost⟩ := exists_ok_of_any
    (x := runE (watchStep Parts.filtering.engines) (.fresh plainConfig ⟨Watch.fresh, 0, ()⟩)
      (replicate 5 (.call ⟨nullPacket, .processPacket 0 0⟩) ++
        replicate 5 (.call ⟨fun _ => 0, .processPacket 0 0⟩)))
    (P := fun reports => (∀ r ∈ reports, r.room = true) ∧
      (∀ r ∈ reports, r.byFeed = true → r.lockBefore = false) ∧
      ∃ r ∈ reports, r.lost = true ∧ r.lossAfter = r.lossBefore + 1 ∧ r.losses = 1)
    (by decide +kernel)
  exact ⟨a', reports, hrun,
    (sync_loss_reported_iff Parts.filtering _ a' _ reports hrun hroom).mpr hfeed, hlost⟩

/-- **A loss that nobody hears of**: the signal is locked, then 188 bytes of zeros are fed. -/
theorem sync_loss_unreported : ∃ a' reports,
    runE (watchStep Parts.filtering.engines) (.fresh plainConfig ⟨Watch.fresh, 0, ()⟩)
      (replicate 5 (.call ⟨nullPacket, .processPacket 0 0⟩) ++
        [.call ⟨fun _ => 0, .feedData 0 tsPacketSize 0⟩]) = .ok (a', reports) ∧
    (∀ r ∈ reports, r.room = true) ∧
    ∃ r ∈ reports, r.lost = true ∧ r.lossAfter = r.lossBefore ∧ r.losses = 0 :=
  exists_ok_of_any (by decide +kernel)

end TsAnalyzer.Monitor
