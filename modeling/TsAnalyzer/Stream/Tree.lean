/-
  Stream nodes and their PID subscriptions (`src/tsa_stream.c`).

  A node counts, for each PID, how often it has joined it (a `uint16_t`), and tells its PARENT when
  the first subscription of a PID comes and when the last one goes (`join_pid`, `leave_pid`).

  * Nodes are any type with equality; all callbacks are set and do not call back into the tree.
  * `children` is an array of 16 pointers that may hold one node several times, and a node that has
    gone to another parent: `tsa_stream_attach` checks neither.
-/
import TsAnalyzer.Lib.Run

namespace TsAnalyzer.Stream

open Lib List Function

def maxPid : Nat := 8192

def maxStreamChildren : Nat := 16

variable {N : Type} [DecidableEq N]

/-- The nodes. -/
structure Forest (N : Type) where
  parent : N → Option N
  /-- `children[0 .. child_count)`. -/
  children : N → List N
  pidList : N → Nat → Nat

/-- After `tsa_stream_init` of every node. -/
def Forest.init : Forest N := ⟨fun _ => none, fun _ => [], fun _ _ => 0⟩

/-- A callback of this node. -/
inductive Callback (N : Type) where
  | join (node : N) (pid : Nat)
  | leave (node : N) (pid : Nat)
  deriving DecidableEq

/-- `pid_list[pid] = n` for the node `c`. -/
def Forest.setPid (s : Forest N) (c : N) (pid n : Nat) : Forest N :=
  { s with pidList := update s.pidList c (update (s.pidList c) pid n) }

section SetPid

variable (s : Forest N) (c : N) (pid n : Nat)

theorem setPid_self : (s.setPid c pid n).pidList c pid = n := by
  show update s.pidList c _ c pid = n
  rw [update_self, update_self]

theorem setPid_pid {i : Nat} (hi : i ≠ pid) : (s.setPid c pid n).pidList c i = s.pidList c i := by
  show update s.pidList c _ c i = _
  rw [update_self, update_of_ne hi]

theorem setPid_node {d : N} (hd : d ≠ c) : (s.setPid c pid n).pidList d = s.pidList d := by
  show update s.pidList c _ d = _
  rw [update_of_ne hd]

theorem setPid_same : s.setPid c pid (s.pidList c pid) = s := by
  rw [Forest.setPid, update_eq_self, update_eq_self]

end SetPid

/-- What is told to the parent, if there is one. -/
def Forest.tell (s : Forest N) (c : N) (f : N → List (Callback N)) : List (Callback N) :=
  match s.parent c with
  | some p => f p
  | none => []

def tsaStreamDemuxJoinPid (s : Forest N) (c : N) (pid : Nat) : Forest N × List (Callback N) :=
  if maxPid ≤ pid then (s, [])
  else
    let n := (s.pidList c pid + 1) % 2 ^ 16
    (s.setPid c pid n, if n = 1 then s.tell c fun p => [.join p pid] else [])

def tsaStreamDemuxLeavePid (s : Forest N) (c : N) (pid : Nat) : Forest N × List (Callback N) :=
  if maxPid ≤ pid then (s, [])
  else if 0 < s.pidList c pid then
    let n := s.pidList c pid - 1
    (s.setPid c pid n, if n = 0 then s.tell c fun p => [.leave p pid] else [])
  else (s, [])

/-- The PIDs that a node has joined, in the order of the loops over `pid_list`. -/
def Forest.joined (s : Forest N) (c : N) : List Nat :=
  (range maxPid).filter fun i => 0 < s.pidList c i

def tsaStreamAttach (s : Forest N) (p c : N) : Forest N × List (Callback N) :=
  if maxStreamChildren ≤ (s.children p).length then (s, [])
  else
    ({ s with children := update s.children p (s.children p ++ [c])
              parent := update s.parent c (some p) },
      (s.joined c).map (.join p))

/-- `tsa_stream_detach`: of the first entry, whoever the child's parent is now. -/
def tsaStreamDetach (s : Forest N) (p c : N) : Forest N × List (Callback N) :=
  if c ∈ s.children p then
    ({ s with children := update s.children p ((s.children p).erase c)
              parent := update s.parent c none },
      (s.joined c).map (.leave p))
  else (s, [])

/-- One round of `tsa_stream_destroy`: a PID is left ONCE, however often it was joined. -/
def leaveJoined (c : N) (s : Forest N) (pid : Nat) : Forest N × List (Callback N) :=
  if 0 < s.pidList c pid then tsaStreamDemuxLeavePid s c pid else (s, [])

/-- `tsa_stream_destroy`.  The parent keeps its pointer, and the node the one to its parent. -/
def tsaStreamDestroy (s : Forest N) (c : N) : Forest N × List (Callback N) :=
  run (leaveJoined c) s (range maxPid)

/-- A call. -/
inductive Op (N : Type) where
  | attach (p c : N)
  | detach (p c : N)
  | joinPid (c : N) (pid : Nat)
  | leavePid (c : N) (pid : Nat)
  | destroy (c : N)

def opStep (s : Forest N) : Op N → Forest N × List (Callback N)
  | .attach p c => tsaStreamAttach s p c
  | .detach p c => tsaStreamDetach s p c
  | .joinPid c pid => tsaStreamDemuxJoinPid s c pid
  | .leavePid c pid => tsaStreamDemuxLeavePid s c pid
  | .destroy c => tsaStreamDestroy s c

/-! ## `tsa_stream_destroy`, without its loop -/

theorem leaveJoined_eq (c : N) (s : Forest N) {pid : Nat} (hpid : pid < maxPid) :
    leaveJoined c s pid =
      (s.setPid c pid (s.pidList c pid - 1),
        if s.pidList c pid = 1 then s.tell c fun p => [.leave p pid] else []) := by
  rw [leaveJoined, tsaStreamDemuxLeavePid, if_neg (Nat.not_le.mpr hpid)]
  by_cases hpos : 0 < s.pidList c pid
  · have hlast : s.pidList c pid - 1 = 0 ↔ s.pidList c pid = 1 := by omega
    rw [if_pos hpos, if_pos hpos]
    simp only [hlast]
  · -- nothing to leave: the count of zero stays
    have hzero : s.pidList c pid - 1 = s.pidList c pid := by omega
    rw [if_neg hpos, if_neg (by omega), hzero, setPid_same]

theorem run_leaveJoined (c : N) {pids : List Nat} (s : Forest N) (hnodup : pids.Nodup)
    (hlt : ∀ i ∈ pids, i < maxPid) :
    run (leaveJoined c) s pids =
      ({ s with pidList := update s.pidList c fun i =>
          if i ∈ pids then s.pidList c i - 1 else s.pidList c i },
        s.tell c fun p => (pids.filter fun i => s.pidList c i = 1).map (.leave p)) := by
  induction pids generalizing s with
  | nil =>
    have hsame : (fun i => if i ∈ ([] : List Nat) then s.pidList c i - 1 else s.pidList c i) =
        s.pidList c := by
      funext i
      exact if_neg not_mem_nil
    have htell : s.tell c (fun p => (([] : List Nat).filter fun i => s.pidList c i = 1).map
        (.leave p)) = [] := by
      rw [Forest.tell]
      split
      · rfl
      · rfl
    rw [hsame, update_eq_self, htell]
    rfl
  | cons i pids ih =>
    obtain ⟨hi, hrest⟩ := nodup_cons.mp hnodup
    -- the counts of the PIDs still to come are those of the start
    have hlater : ∀ j ∈ pids,
        (s.setPid c i (s.pidList c i - 1)).pidList c j = s.pidList c j := by
      intro j hj
      exact setPid_pid s c i _ fun h => hi (h ▸ hj)
    have hfilter : (pids.filter fun j => (s.setPid c i (s.pidList c i - 1)).pidList c j = 1) =
        pids.filter fun j => s.pidList c j = 1 := by
      refine filter_congr fun j hj => ?_
      rw [hlater j hj]
    rw [run, leaveJoined_eq c s (hlt i mem_cons_self),
      ih _ hrest fun j hj => hlt j (mem_cons_of_mem _ hj), hfilter]
    refine Prod.ext ?_ ?_
    · show Forest.mk s.parent s.children _ = Forest.mk s.parent s.children _
      congr 1
      funext d
      by_cases hd : d = c
      · subst hd
        rw [update_self, update_self]
        funext j
        by_cases hj : j ∈ pids
        · rw [if_pos hj, if_pos (mem_cons_of_mem _ hj), hlater j hj]
        · rw [if_neg hj]
          by_cases hji : j = i
          · rw [hji, setPid_self, if_pos mem_cons_self]
          · rw [setPid_pid s d i _ hji, if_neg]
            intro hmem
            rcases mem_cons.mp hmem with h | h
            · exact hji h
            · exact hj h
      · rw [update_of_ne hd, update_of_ne hd, setPid_node s c i _ hd]
    · show (if s.pidList c i = 1 then s.tell c fun p => [.leave p i] else []) ++
        s.tell c (fun p => (pids.filter fun j => s.pidList c j = 1).map (.leave p)) = _
      rw [filter_cons, Forest.tell, Forest.tell, Forest.tell]
      cases s.parent c with
      | none => split <;> rfl
      | some p =>
        by_cases hone : s.pidList c i = 1
        · simp [hone]
        · simp [hone]

theorem tsaStreamDestroy_eq (s : Forest N) (c : N) :
    tsaStreamDestroy s c =
      ({ s with pidList := update s.pidList c fun i =>
          if i < maxPid then s.pidList c i - 1 else s.pidList c i },
        s.tell c fun p => ((range maxPid).filter fun i => s.pidList c i = 1).map
          (.leave p)) := by
  rw [tsaStreamDestroy, run_leaveJoined c s nodup_range fun i hi => mem_range.mp hi]
  simp only [mem_range]

end TsAnalyzer.Stream
