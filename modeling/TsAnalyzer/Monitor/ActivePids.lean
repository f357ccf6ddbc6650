/-
  The PID tracker (`tsa_update_pid_tracker`) against a set of the most recently used PIDs.

  `pid_active_list` takes a PID the first time it is seen, while there is room, and never gives one
  up.  So it is the set of the FIRST 128 PIDs, not of the last, and the two are the same at every
  moment exactly when no more than 128 PIDs are ever seen.
-/
import TsAnalyzer.Monitor.Handle

namespace TsAnalyzer.Monitor

open Lib Alarm Packet Pipeline List Function

variable {ρ : Type}

/-! ## Specification -/

section Recent

variable {α : Type} [DecidableEq α]

/-- The last `k` distinct elements of a sequence, latest first. -/
def recent (k : Nat) (q : List α) : List α := q.dedup.reverse.take k

theorem last_mem_recent {k : Nat} (hk : 0 < k) (q : List α) (x : α) : x ∈ recent k (q ++ [x]) := by
  have hlast : (q ++ [x]).dedup = (q.filter (· ∉ [x])).dedup ++ [x] := by
    induction q with
    | nil => rfl
    | cons y q ih =>
      rw [cons_append]
      by_cases hy : y ∈ q ++ [x]
      · rw [dedup_cons_of_mem hy, ih]
        by_cases hyx : y = x
        · rw [filter_cons_of_neg (by simp [hyx])]
        · have hmem : y ∈ q.filter (· ∉ [x]) := by simpa [hyx] using hy
          rw [filter_cons_of_pos (by simp [hyx]), dedup_cons_of_mem hmem]
      · have hyx : y ≠ x := fun h => hy (by simp [h])
        have hnot : y ∉ q.filter (· ∉ [x]) := fun h => hy (by simp [mem_of_mem_filter h])
        rw [dedup_cons_of_notMem hy, ih, filter_cons_of_pos (by simp [hyx]),
          dedup_cons_of_notMem hnot, cons_append]
  obtain ⟨k', rfl⟩ : ∃ k', k = k' + 1 := ⟨k - 1, by omega⟩
  rw [recent, hlast, reverse_append]
  exact mem_cons_self

/-- With no more than `k` distinct elements, all of them are recent. -/
theorem mem_recent_of_le {k : Nat} {q : List α} (h : q.dedup.length ≤ k) {x : α} :
    x ∈ recent k q ↔ x ∈ q := by
  rw [recent, take_of_length_le (by rwa [length_reverse]), mem_reverse,
    mem_dedup]

end Recent

/-- What an active-PID set should be, after packets of these PIDs. -/
structure Lru (t : PidTracker) (pids : List Nat) : Prop where
  bounded : t.activeList.length ≤ maxActivePids
  nodup : t.activeList.Nodup
  /-- `pid_to_active_idx` is the inverse of `pid_active_list`, and -1 elsewhere. -/
  inverse : ∀ p i, t.toActiveIdx p = some i ↔ t.activeList[i]? = some p
  recent : ∀ p, p ∈ t.activeList ↔ p ∈ recent maxActivePids pids

/-! ## What the tracker does keep -/

/-- The invariant of the tracker, after packets of these PIDs. -/
structure Tracks (t : PidTracker) (pids : List Nat) : Prop where
  bounded : t.activeList.length ≤ maxActivePids
  nodup : t.activeList.Nodup
  inverse : ∀ p i, t.toActiveIdx p = some i ↔ t.activeList[i]? = some p
  seen : ∀ p ∈ t.activeList, p ∈ pids
  complete : t.activeList.length < maxActivePids → ∀ p ∈ pids, p ∈ t.activeList

variable {t : PidTracker} {pids : List Nat}

theorem Tracks.mem_iff (h : Tracks t pids) (p : Nat) :
    p ∈ t.activeList ↔ t.toActiveIdx p ≠ none := by
  rw [mem_iff_getElem?, ← Option.isSome_iff_ne_none, Option.isSome_iff_exists]
  exact exists_congr fun i => (h.inverse p i).symm

theorem inverse_concat {l : List Nat} {idx : Nat → Option Nat}
    (hinv : ∀ p i, idx p = some i ↔ l[i]? = some p) {p : Nat} (hp : p ∉ l) (x i : Nat) :
    update idx p (some l.length) x = some i ↔ (l ++ [p])[i]? = some x := by
  rw [getElem?_append]
  by_cases hx : x = p
  · subst hx
    rw [update_self, Option.some.injEq]
    split
    · rename_i hi
      refine iff_of_false (Nat.ne_of_gt hi) fun hget => ?_
      exact hp (mem_of_getElem? hget)
    · rw [getElem?_singleton]
      split
      · exact iff_of_true (by omega) rfl
      · exact iff_of_false (by omega) fun h => by cases h
  · rw [update_of_ne hx, hinv]
    split
    · rfl
    · rename_i hi
      rw [getElem?_eq_none (Nat.le_of_not_lt hi), getElem?_singleton]
      refine iff_of_false (fun h => by cases h) fun hget => ?_
      split at hget
      · exact hx (Option.some.inj hget).symm
      · cases hget

/-- What one PID does to the list. -/
inductive UpdateEffect (t : PidTracker) (p : Nat) : PidTracker → Prop
  | known (hp : t.toActiveIdx p ≠ none) : UpdateEffect t p t
  | taken (hp : t.toActiveIdx p = none) (hroom : t.activeList.length < maxActivePids) :
    UpdateEffect t p ⟨t.activeList ++ [p],
      update t.toActiveIdx p (some t.activeList.length),
      update t.pidSeen p true⟩
  | full (hp : t.toActiveIdx p = none) (hfull : maxActivePids ≤ t.activeList.length) :
    UpdateEffect t p { t with pidSeen := update t.pidSeen p true }

theorem tsaUpdatePidTracker_effect (t : PidTracker) (p : Nat) :
    UpdateEffect t p (tsaUpdatePidTracker t p) := by
  unfold tsaUpdatePidTracker
  split
  · rename_i i hi
    exact .known (by rw [hi]; exact Option.some_ne_none i)
  · rename_i hnone
    simp only
    split
    · rename_i hroom
      exact .taken hnone hroom
    · rename_i hfull
      exact .full hnone (Nat.le_of_not_lt hfull)

theorem Tracks.update (h : Tracks t pids) (p : Nat) :
    Tracks (tsaUpdatePidTracker t p) (pids ++ [p]) := by
  have heff := tsaUpdatePidTracker_effect t p
  generalize tsaUpdatePidTracker t p = t' at heff ⊢
  have hseen : ∀ x ∈ t.activeList, x ∈ pids ++ [p] :=
    fun x hx => mem_append_left _ (h.seen x hx)
  cases heff with
  | known hp =>
    refine ⟨h.bounded, h.nodup, h.inverse, hseen, fun hroom x hx => ?_⟩
    rcases mem_append.mp hx with hx | hx
    · exact h.complete hroom x hx
    · rw [mem_singleton.mp hx]
      exact (h.mem_iff p).mpr hp
  | taken hp hroom =>
    have hnew : p ∉ t.activeList := fun hmem => (h.mem_iff p).mp hmem hp
    refine ⟨?_, ?_, ?_, ?_, ?_⟩
    · rw [length_append, length_singleton]
      omega
    · rw [nodup_append]
      refine ⟨h.nodup, nodup_singleton p, ?_⟩
      intro a ha b hb heq
      rw [mem_singleton.mp hb] at heq
      exact hnew (heq ▸ ha)
    · exact inverse_concat h.inverse hnew
    · intro x hx
      rcases mem_append.mp hx with hx | hx
      · exact hseen x hx
      · exact mem_append_right _ hx
    · intro _ x hx
      rcases mem_append.mp hx with hx | hx
      · exact mem_append_left _ (h.complete hroom x hx)
      · exact mem_append_right _ hx
  | full hp hfull =>
    exact ⟨h.bounded, h.nodup, h.inverse, hseen, fun hroom => absurd hroom (Nat.not_lt.mpr hfull)⟩

theorem present_after_update {p : Nat} (h : p ∈ (tsaUpdatePidTracker t p).activeList) :
    p ∈ t.activeList ∨ t.activeList.length < maxActivePids := by
  have heff := tsaUpdatePidTracker_effect t p
  generalize tsaUpdatePidTracker t p = t' at heff h
  cases heff with
  | known | full => exact .inl h
  | taken hp hroom => exact .inr hroom

theorem Tracks.lru (h : Tracks t pids) (hfew : pids.dedup.length ≤ maxActivePids) : Lru t pids := by
  refine ⟨h.bounded, h.nodup, h.inverse, fun p => ?_⟩
  rw [mem_recent_of_le hfew]
  refine ⟨h.seen p, fun hp => ?_⟩
  rcases Nat.lt_or_ge t.activeList.length maxActivePids with hroom | hfull
  · exact h.complete hroom p hp
  · have hsub : t.activeList.toFinset ⊆ pids.toFinset := by
      intro x hx
      exact mem_toFinset.mpr (h.seen x (mem_toFinset.mp hx))
    have hcard : pids.toFinset.card ≤ t.activeList.toFinset.card := by
      rw [card_toFinset, toFinset_card_of_nodup h.nodup]
      omega
    rw [← mem_toFinset, Finset.eq_of_subset_of_card_le hsub hcard]
    exact mem_toFinset.mpr hp

/-! ## The analyzer -/

/-- The PID of a packet that gets past the PID filter. -/
def pidHeard (P : Parts ρ) (h : MonitorHandle ρ) : Input → List Nat
  | .packet m pkt n =>
    match heard P h (m.byte pkt) n with
    | some res => [res.pid]
    | none => []
  | _ => []

/-- The analyzer, and the PIDs it sees. -/
def pidPush (P : Parts ρ) (h : MonitorHandle ρ) (i : Input) : MonitorHandle ρ × List Nat :=
  (inputStep P h i, pidHeard P h i)

theorem inputStep_tracker (P : Parts ρ) (h : MonitorHandle ρ) (i : Input) :
    pidHeard P h i = [] ∧ (inputStep P h i).rest.watch.tracker = h.rest.watch.tracker ∨
      ∃ p, pidHeard P h i = [p] ∧
        (inputStep P h i).rest.watch.tracker = tsaUpdatePidTracker h.rest.watch.tracker p := by
  cases i with
  | internalDrop dropCount => exact .inl ⟨rfl, rfl⟩
  | commitSnapshot n =>
    refine .inl ⟨rfl, ?_⟩
    rw [inputStep, tsaCommitSnapshot_watch]
  | packet m pkt n =>
    cases hheard : heard P h (m.byte pkt) n with
    | none =>
      refine .inl ⟨?_, ?_⟩
      · simp only [pidHeard, hheard]
      · rw [unheard_watch hheard]
    | some res =>
      refine .inr ⟨res.pid, ?_, ?_⟩
      · simp only [pidHeard, hheard]
      · obtain ⟨a, -, -, -, hwatch, -⟩ := heard_effect hheard
        rw [hwatch]
        rfl

theorem tracks_run (P : Parts ρ) (config : AlertConfig) (rest : ρ) (is : List Input) :
    Tracks (run (pidPush P) (freshHandle config rest) is).1.rest.watch.tracker
      (run (pidPush P) (freshHandle config rest) is).2 := by
  have hfresh : Tracks (freshHandle config rest).rest.watch.tracker [] :=
    ⟨Nat.zero_le _, nodup_nil, fun p i => iff_of_false (fun h => by cases h)
      (fun h => by cases h), fun p hp => hp, fun _ p hp => hp⟩
  refine run_history (R := fun _ _ => True)
    (J := fun (h : MonitorHandle ρ) pids => Tracks h.rest.watch.tracker pids) ?_ is
    (freshHandle config rest) [] hfresh (along_true _ _ _)
  intro h pids i hJ _
  show Tracks (inputStep P h i).rest.watch.tracker (pids ++ pidHeard P h i)
  rcases inputStep_tracker P h i with ⟨hnone, hsame⟩ | ⟨p, hp, hnext⟩
  · rw [hnone, hsame, append_nil]
    exact hJ
  · rw [hp, hnext]
    exact hJ.update p

theorem distinct_le {q r : List Nat} (h : q <+: r) : q.dedup.length ≤ r.dedup.length := by
  rw [← card_toFinset, ← card_toFinset]
  refine Finset.card_le_card fun x hx => ?_
  exact mem_toFinset.mpr (h.subset (mem_toFinset.mp hx))

/-- **The tracker is an LRU set, exactly when it never overflows**: over any calls to a new
    analyzer, the list holds at every moment the 128 PIDs seen last iff no more than 128 PIDs are
    seen at all. -/
theorem lru_iff (P : Parts ρ) (config : AlertConfig) (rest : ρ) (is : List Input) :
    (∀ pre, pre <+: is → Lru (run (pidPush P) (freshHandle config rest) pre).1.rest.watch.tracker
        (run (pidPush P) (freshHandle config rest) pre).2) ↔
      (run (pidPush P) (freshHandle config rest) is).2.dedup.length ≤ maxActivePids := by
  constructor
  · induction is using reverseRecOn with
    | nil => exact fun _ => Nat.zero_le _
    | append_singleton is i ih =>
      intro h
      have hbefore := ih fun pre hpre => h pre (hpre.trans (prefix_append is [i]))
      have htracks := tracks_run P config rest is
      have hlast := h (is ++ [i]) (prefix_refl _)
      rw [run_append] at hlast ⊢
      generalize run (pidPush P) (freshHandle config rest) is = r at hbefore htracks hlast ⊢
      have hout : (run (pidPush P) r.1 [i]).2 = pidHeard P r.1 i := append_nil _
      have hstep : (run (pidPush P) r.1 [i]).1 = inputStep P r.1 i := rfl
      rw [hout, hstep] at hlast
      rw [hout]
      rcases inputStep_tracker P r.1 i with ⟨hnone, -⟩ | ⟨p, hp, hnext⟩
      · rw [hnone, append_nil]
        exact hbefore
      · rw [hp, hnext] at hlast
        rw [hp]
        by_cases hold : p ∈ r.2
        · -- a PID seen before: no more distinct ones than there were
          refine Nat.le_trans ?_ hbefore
          rw [← card_toFinset, ← card_toFinset]
          refine Finset.card_le_card fun x hx => ?_
          rcases mem_append.mp (mem_toFinset.mp hx) with hx | hx
          · exact mem_toFinset.mpr hx
          · rw [mem_singleton.mp hx]
            exact mem_toFinset.mpr hold
        · -- a new one is the most recent, so the list must have had room
          have hpresent := (hlast.recent p).mpr (last_mem_recent (by decide) r.2 p)
          rcases present_after_update hpresent with hmem | hroom
          · exact absurd (htracks.seen p hmem) hold
          · have hsub : (r.2 ++ [p]).dedup ⊆ r.1.rest.watch.tracker.activeList ++ [p] := by
              intro x hx
              rcases mem_append.mp (mem_dedup.mp hx) with hx | hx
              · exact mem_append_left _ (htracks.complete hroom x hx)
              · exact mem_append_right _ hx
            have hle := ((nodup_dedup _).subperm hsub).length_le
            rw [length_append, length_singleton] at hle
            exact Nat.le_trans hle hroom
  · intro hfew pre hpre
    obtain ⟨post, rfl⟩ := hpre
    refine (tracks_run P config rest pre).lru (Nat.le_trans (distinct_le ?_) hfew)
    rw [run_append]
    exact prefix_append _ _

def pidPacket (pid : Nat) : Nat → UInt8 := sectionPacket pid []

/-- **No eviction**: 128 PIDs fill the list, and the 129th is not in it; the first one still is. -/
theorem latest_pid_missing :
    let r := run (pidPush Parts.idle) (freshHandle plainConfig ())
      ((range 129).map fun k => packetOf (pidPacket (100 + k)) k)
    r.2.getLast? = some 228 ∧ 228 ∉ r.1.rest.watch.tracker.activeList ∧
      100 ∈ r.1.rest.watch.tracker.activeList := by
  decide +kernel

end TsAnalyzer.Monitor
