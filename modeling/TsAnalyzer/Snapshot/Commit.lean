/-
  Snapshots: `tsa_commit_snapshot` and `tsa_take_snapshot_full` (`src/tsa_snapshot.c`), one memory
  access at a time.  `Lib.DoubleBuffer` is the protocol; here are its fields and the writes of a
  commit, in program order.

  * A commit does NOT write the whole buffer: what is committed is the buffer as it stands at the
    store of `active_idx`.
  * Both buffers come from `calloc`; their zeros count as the first snapshot.
  * A copied struct is copied field by field, in any order; the theorems hold for every order.
-/
import TsAnalyzer.Lib.DoubleBuffer
import TsAnalyzer.Lib.Run

namespace TsAnalyzer.Snapshot

open Lib Lib.DoubleBuffer

variable {V τ : Type}

/-! ## The snapshot and the writes of a commit -/

/-- The columns of `tsa_pid_info_t` a commit writes. -/
inductive PidColumn where
  | pid | ccErrors | bitrateAvg | bitrateMin | bitrateMax | width | height | exactFps
  | audioSampleRate | audioChannels | audioLoudnessLufs | audioPeakDb | ebFillPct
  | iFrames | pFrames | bFrames | gopN | gopMin | gopMax | gopMs
  | iFrameSizeBytes | pFrameSizeBytes | bFrameSizeBytes | encoderLatencyMs | networkLatencyMs
  | ptsJitterMsPeak | ptsOffsetMsAvg | gopStructure
  deriving DecidableEq

/-- The columns, in the order they are written. -/
def pidColumns : List PidColumn :=
  [.pid, .ccErrors, .bitrateAvg, .bitrateMin, .bitrateMax, .width, .height, .exactFps,
    .audioSampleRate, .audioChannels, .audioLoudnessLufs, .audioPeakDb, .ebFillPct,
    .iFrames, .pFrames, .bFrames, .gopN, .gopMin, .gopMax, .gopMs,
    .iFrameSizeBytes, .pFrameSizeBytes, .bFrameSizeBytes, .encoderLatencyMs, .networkLatencyMs,
    .ptsJitterMsPeak, .ptsOffsetMsAvg, .gopStructure]

/-- The fields of `tsa_snapshot_full_t` a commit writes; the others stay zero. -/
inductive Field where
  | physicalBitrateBps
  | pcrBitrateBps
  | totalPackets
  | signalLock
  | summaryActivePidCount
  | masterHealth
  | predictiveMasterHealth
  /-- A word of `stats`, other than `av_sync_ms`. -/
  | stats (word : Nat)
  | avSyncMs
  | pids (row : Nat) (column : PidColumn)
  | activePidCount
  deriving DecidableEq

def maxActivePids : Nat := 128

/-- What a commit takes from the handle. -/
structure CommitValues (V : Type) where
  physicalBitrateBps : V
  pcrBitrateBps : V
  totalPackets : V
  signalLock : V
  pidTrackerCount : V
  lastHealthScore : V
  /-- The words of `*h->live`, and its `av_sync_ms` before and after the skew analysis. -/
  live : List V
  liveAvSyncMs : V
  avSyncMs : V
  /-- The rows of the active PIDs, and their number. -/
  rows : List (PidColumn → V)
  rows_le : rows.length ≤ maxActivePids
  rowCount : V

def summaryWrites (v : CommitValues V) : List (Field × V) :=
  [(.physicalBitrateBps, v.physicalBitrateBps), (.pcrBitrateBps, v.pcrBitrateBps),
    (.totalPackets, v.totalPackets), (.signalLock, v.signalLock),
    (.summaryActivePidCount, v.pidTrackerCount), (.masterHealth, v.lastHealthScore),
    (.predictiveMasterHealth, v.lastHealthScore)]

/-- `stats = *h->live`. -/
def statsWrites (v : CommitValues V) : List (Field × V) :=
  (v.live.zipIdx.map fun (x, word) => (.stats word, x)) ++ [(.avSyncMs, v.liveAvSyncMs)]

/-- The loop over the active PIDs. -/
def pidWrites (v : CommitValues V) : List (Field × V) :=
  v.rows.zipIdx.flatMap fun (x, row) => pidColumns.map fun column => (.pids row column, x column)

/-- The field writes of `tsa_commit_snapshot`, in program order. -/
def commitWrites (v : CommitValues V) : List (Field × V) :=
  summaryWrites v ++ statsWrites v ++ pidWrites v ++
    [(.activePidCount, v.rowCount), (.avSyncMs, v.avSyncMs)]

/-! ## Interleavings -/

/-- One memory access of the analyzer thread or of a reader. -/
inductive Access (V τ : Type) where
  /-- `tsa_commit_snapshot` loads `active_idx`. -/
  | commitSnapshot (v : CommitValues V)
  /-- Its next field write. -/
  | write
  /-- Its store of `active_idx`. -/
  | publish
  /-- `tsa_take_snapshot_full` loads `active_idx`; the fields will be copied in this order. -/
  | takeSnapshotFull (r : τ) (fields : List Field)
  /-- Its next field copy; with none left, it returns. -/
  | copy (r : τ)

def Access.toAct : Access V τ → Act Field V τ
  | .commitSnapshot v => .begin (commitWrites v)
  | .write => .write
  | .publish => .publish
  | .takeSnapshotFull r fields => .load r fields
  | .copy r => .copy r

variable [DecidableEq τ]

def accessStep (s : System Field V τ) (a : Access V τ) : System Field V τ := step s a.toAct

/-- The access is no field write, or the write changes no field that a reader of that buffer has
    still to copy. -/
def CalmAccess (s : System Field V τ) (a : Access V τ) : Prop := Calm s a.toAct

/-- **Reads are snapshots**, in every interleaving of one committing thread with any readers in
    which no field is changed under a reader that has still to copy it: every snapshot that was read
    is, in all the fields copied, one that was committed. -/
theorem snapshots_of_one_commit (zero : Field → V) (as : List (Access V τ))
    (hcalm : Along CalmAccess accessStep (System.init zero) as) :
    ∀ pre, pre <+: as →
      let s : System Field V τ := pre.foldl accessStep (System.init zero)
      ∀ read ∈ s.reads, OfCommit s.commits read := by
  have hstep : ∀ (s : System Field V τ) (a : Access V τ), Faithful s → CalmAccess s a →
      Faithful (accessStep s a) := fun _ _ hs hc => step_faithful hs hc
  intro pre hpre
  exact (along_inv hstep as _ (init_faithful zero) hcalm pre hpre).reads

/-- A commit that writes the same value everywhere. -/
def uniform (x : Nat) : CommitValues Nat :=
  ⟨x, x, x, x, x, x, [], x, x, [], Nat.zero_le _, x⟩

def wholeCommit (x : Nat) : List (Access Nat Unit) :=
  [.commitSnapshot (uniform x)] ++ List.replicate 10 .write ++ [.publish]

/-- A commit, and then a read that a second commit, to the other buffer, overlaps. -/
def quietRun : List (Access Nat Unit) :=
  wholeCommit 1 ++ [.takeSnapshotFull () [.totalPackets, .masterHealth], .copy ()] ++
    wholeCommit 2 ++ [.copy (), .copy ()]

/-- A reader that two commits overtake. -/
def overtakenRun : List (Access Nat Unit) :=
  [.takeSnapshotFull () [.totalPackets, .masterHealth], .copy ()] ++ wholeCommit 1 ++
    wholeCommit 2 ++ [.copy (), .copy ()]

/-- The state of a run on a new handle. -/
def afterRun (as : List (Access Nat Unit)) : System Field Nat Unit :=
  as.foldl accessStep (System.init fun _ => 0)

/-- The read returns what the first commit wrote. -/
theorem quietRun_of_one_commit :
    [(.totalPackets, 1), (.masterHealth, 1)] ∈ (afterRun quietRun).reads ∧
      OfCommit (afterRun quietRun).commits [(.totalPackets, 1), (.masterHealth, 1)] := by
  have hread : [(.totalPackets, 1), (.masterHealth, 1)] ∈ (afterRun quietRun).reads := by
    decide +kernel
  refine ⟨hread, snapshots_of_one_commit (fun _ => 0) quietRun ?_ quietRun (List.prefix_refl _) _
    hread⟩
  repeat' apply And.intro
  all_goals first | trivial | exact .inr fun _ _ _ h => by cases h

/-- **A reader overtaken by two commits** returns a field of the zeros it started with and a field
    of the second commit: no snapshot that was ever committed. -/
theorem overtakenRun_mixed :
    (afterRun overtakenRun).reads = [[(.totalPackets, 0), (.masterHealth, 2)]] ∧
      ¬ OfCommit (afterRun overtakenRun).commits [(.totalPackets, 0), (.masterHealth, 2)] := by
  refine ⟨by decide +kernel, ?_⟩
  rintro ⟨c, hc, hmatch⟩
  have hnone : ∀ c ∈ (afterRun overtakenRun).commits,
      c .totalPackets = 0 → c .masterHealth ≠ 2 := by decide +kernel
  exact hnone c hc (hmatch (.totalPackets, 0) (by simp)).symm
    (hmatch (.masterHealth, 2) (by simp)).symm

end TsAnalyzer.Snapshot
