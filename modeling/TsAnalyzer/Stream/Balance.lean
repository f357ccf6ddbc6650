/-
  Do the callbacks of a parent balance?

  `join_pid` less `leave_pid` should be the number of children that want the PID.  The count lives
  in the child, the list of children in the parent, and nobody sees to it that the two agree: a
  child may stand in several lists and tells only its last parent; one that is destroyed says
  goodbye once for each PID, however often it had joined it, and stays in the list.
-/
import TsAnalyzer.Stream.Tree

namespace TsAnalyzer.Stream

open Lib List Function

variable {N : Type} [DecidableEq N]

/-! ## Specification -/

/-- What a callback adds to the balance of the node `p` for `pid`. -/
def Callback.weight (p : N) (pid : Nat) : Callback N → Int
  | .join q i => if q = p ∧ i = pid then 1 else 0
  | .leave q i => if q = p ∧ i = pid then -1 else 0

/-- `join_pid` callbacks less `leave_pid` callbacks. -/
def balance (p : N) (pid : Nat) (out : List (Callback N)) : Int :=
  (out.map (Callback.weight p pid)).sum

/-- The nodes, and the children attached to each, `false` for one that was destroyed since. -/
structure Ledger (N : Type) where
  forest : Forest N
  attached : N → List (N × Bool)

def Ledger.init : Ledger N := ⟨Forest.init, fun _ => []⟩

/-- Who is attached after a call. -/
def Ledger.track (s : Ledger N) : Op N → N → List (N × Bool)
  | .attach p c =>
    if maxStreamChildren ≤ (s.attached p).length then s.attached
    else update s.attached p (s.attached p ++ [(c, true)])
  | .detach p c => update s.attached p ((s.attached p).eraseP (·.1 = c))
  | .destroy c => fun q => (s.attached q).map fun e => (e.1, e.2 && e.1 ≠ c)
  | .joinPid _ _ | .leavePid _ _ => s.attached

def ledgerStep (s : Ledger N) (op : Op N) : Ledger N × List (Callback N) :=
  (⟨(opStep s.forest op).1, s.track op⟩, (opStep s.forest op).2)

/-- The live attached children of `p` that want `pid`. -/
def Ledger.subscribers (s : Ledger N) (p : N) (pid : Nat) : Nat :=
  (s.attached p).countP fun e => e.2 && decide (0 < s.forest.pidList e.1 pid)

def Balanced (s : Ledger N) (out : List (Callback N)) : Prop :=
  ∀ p pid, pid < maxPid → balance p pid out = s.subscribers p pid

/-! ## Condition -/

/-- How often `c` is attached to `q`. -/
def Ledger.links (s : Ledger N) (c q : N) : Nat := (s.attached q).countP fun e => e.1 = c && e.2

/-- Attached once, to the parent that is told. -/
def Linked (s : Ledger N) (c : N) : Prop :=
  ∀ q, s.links c q = if s.forest.parent c = some q then 1 else 0

/-- Attached to nobody. -/
def Loose (s : Ledger N) (c : N) : Prop := ∀ q, s.links c q = 0

/-- What a call must find. -/
def Orderly (s : Ledger N) : Op N → Prop
  | .attach _ _ => True
  | .detach p c =>
    -- the entry that goes is live, or there is nothing to leave
    ∀ e, (s.attached p).find? (·.1 = c) = some e →
      e.2 = true ∨ ∀ pid, pid < maxPid → s.forest.pidList c pid = 0
  | .joinPid c pid =>
    pid < maxPid → (s.forest.pidList c pid = 0 → Linked s c) ∧
      -- the counter wraps
      (s.forest.pidList c pid = 2 ^ 16 - 1 → Loose s c)
  | .leavePid c pid => pid < maxPid → s.forest.pidList c pid = 1 → Linked s c
  | .destroy c =>
    ∀ pid, pid < maxPid → (s.forest.pidList c pid = 1 → Linked s c) ∧
      (1 < s.forest.pidList c pid → Loose s c)

/-! ## The balance of one call -/

variable (s : Forest N) (p c q : N) (pid : Nat)

theorem balance_append (xs ys : List (Callback N)) :
    balance p pid (xs ++ ys) = balance p pid xs + balance p pid ys := by
  rw [balance, map_append, sum_append]
  rfl

theorem sum_single (P : Nat → Bool) (b : Prop) [Decidable b] (w : Int) (pid n : Nat) :
    ((((range n).filter P).map fun i => if b ∧ i = pid then w else 0).sum : Int) =
      if b ∧ pid < n ∧ P pid = true then w else 0 := by
  induction n with
  | zero => rw [if_neg fun h => absurd h.2.1 (Nat.not_lt_zero _)]; rfl
  | succ n ih =>
    rw [range_succ, filter_append, map_append, sum_append, ih,
      filter_singleton]
    by_cases hn : pid = n
    · subst hn
      rw [if_neg (fun h => absurd h.2.1 (Nat.lt_irrefl _)), zero_add]
      cases hP : P pid with
      | false | true => simp
    · have hlt : pid < n + 1 ↔ pid < n := by omega
      simp only [hlt]
      cases hP : P n with
      | false => simp
      | true => simp [Ne.symm hn]

theorem balance_joins {pid : Nat} (hpid : pid < maxPid) :
    balance q pid ((s.joined c).map (.join p)) =
      if p = q ∧ 0 < s.pidList c pid then 1 else 0 := by
  rw [balance, map_map]
  refine (sum_single _ (p = q) 1 pid maxPid).trans ?_
  simp [hpid]

theorem balance_leaves (P : Nat → Bool) (p q : N) {pid : Nat} (hpid : pid < maxPid) :
    balance q pid (((range maxPid).filter P).map (.leave p)) =
      if p = q ∧ P pid = true then -1 else 0 := by
  rw [balance, map_map]
  refine (sum_single _ (p = q) (-1) pid maxPid).trans ?_
  simp [hpid]

theorem balance_tell (f : N → List (Callback N)) (w : Int)
    (hf : ∀ p, balance q pid (f p) = if p = q then w else 0) :
    balance q pid (s.tell c f) = if s.parent c = some q then w else 0 := by
  rw [Forest.tell]
  cases s.parent c with
  | none => rfl
  | some p =>
    show balance q pid (f p) = _
    rw [hf]
    by_cases hp : p = q
    · rw [if_pos hp, if_pos (congrArg some hp)]
    · rw [if_neg hp, if_neg fun h => hp (Option.some.inj h)]

theorem balance_tell_join (i : Nat) :
    balance q i (s.tell c fun p => [.join p pid]) =
      if s.parent c = some q then (if pid = i then 1 else 0) else 0 := by
  refine balance_tell s c q i _ _ fun p => ?_
  by_cases hp : p = q
  · simp [balance, Callback.weight, hp]
  · simp [balance, Callback.weight, hp]

theorem balance_tell_leave (i : Nat) :
    balance q i (s.tell c fun p => [.leave p pid]) =
      if s.parent c = some q then (if pid = i then -1 else 0) else 0 := by
  refine balance_tell s c q i _ _ fun p => ?_
  by_cases hp : p = q
  · simp [balance, Callback.weight, hp]
  · simp [balance, Callback.weight, hp]

/-! ## The subscribers, one child apart -/

/-- The subscribers among the other children. -/
def Ledger.others (s : Ledger N) (c q : N) (pid : Nat) : Nat :=
  (s.attached q).countP fun e => !decide (e.1 = c) && (e.2 && decide (0 < s.forest.pidList e.1 pid))

theorem countP_apart (l : List (N × Bool)) (c : N) (P : N → Bool) :
    l.countP (fun e => e.2 && P e.1) =
      l.countP (fun e => !decide (e.1 = c) && (e.2 && P e.1)) +
        if P c = true then l.countP (fun e => e.1 = c && e.2) else 0 := by
  induction l with
  | nil => simp
  | cons e l ih =>
    obtain ⟨d, live⟩ := e
    simp only [countP_cons]
    rw [ih]
    by_cases hd : d = c
    · subst hd
      cases hP : P d with
      | false => simp
      | true =>
        cases live with
        | false => simp
        | true =>
          simp
          omega
    · by_cases hc : P c = true
      · simp only [hd, hc, if_true, decide_false, Bool.not_false, Bool.true_and, Bool.false_and]
        simp
        omega
      · simp [hd, hc]

theorem subscribers_apart (s : Ledger N) (c q : N) (pid : Nat) :
    s.subscribers q pid =
      s.others c q pid + if 0 < s.forest.pidList c pid then s.links c q else 0 := by
  have h := countP_apart (s.attached q) c fun d => decide (0 < s.forest.pidList d pid)
  simp only [decide_eq_true_eq] at h
  exact h

/-- A call that changes the counts of `c` alone. -/
theorem subscribers_after (s s' : Ledger N) (c q : N) (pid : Nat)
    (hattached : s'.attached = s.attached)
    (hothers : ∀ d, d ≠ c → s'.forest.pidList d = s.forest.pidList d) :
    s'.subscribers q pid =
      s.others c q pid + if 0 < s'.forest.pidList c pid then s.links c q else 0 := by
  have hsame : s'.others c q pid = s.others c q pid := by
    rw [Ledger.others, Ledger.others, hattached]
    refine countP_congr fun e _ => ?_
    by_cases he : e.1 = c
    · simp [he]
    · rw [hothers e.1 he]
  have hlinks : s'.links c q = s.links c q := by rw [Ledger.links, Ledger.links, hattached]
  rw [subscribers_apart s' c, hsame, hlinks]

/-! ## One call -/

/-- The array is what is attached; counters fit a `uint16_t`. -/
structure Ledger.Sound (s : Ledger N) : Prop where
  children : ∀ q, (s.attached q).map (·.1) = s.forest.children q
  counts : ∀ c pid, s.forest.pidList c pid < 2 ^ 16

theorem balanced_append_iff {s s' : Ledger N} {out new : List (Callback N)}
    (hbal : Balanced s out) :
    Balanced s' (out ++ new) ↔ ∀ p pid, pid < maxPid →
      (s.subscribers p pid : Int) + balance p pid new = s'.subscribers p pid := by
  refine forall_congr' fun p => forall_congr' fun pid => forall_congr' fun hpid => ?_
  rw [balance_append, hbal p pid hpid]

section Calls

variable {s : Ledger N} {out : List (Callback N)}

/-- **Attaching** always balances: the new entry counts, and is told of. -/
theorem attach_balanced (hs : s.Sound) (hbal : Balanced s out) (p c : N) :
    Balanced (ledgerStep s (.attach p c)).1 (out ++ (ledgerStep s (.attach p c)).2) := by
  have hlen : (s.attached p).length = (s.forest.children p).length := by
    rw [← hs.children p, length_map]
  rw [balanced_append_iff hbal]
  intro q pid hpid
  by_cases hfull : maxStreamChildren ≤ (s.forest.children p).length
  · have hout : (ledgerStep s (.attach p c)).2 = [] := by
      show (tsaStreamAttach s.forest p c).2 = []
      rw [tsaStreamAttach, if_pos hfull]
    have hstate : (ledgerStep s (.attach p c)).1 = s := by
      show Ledger.mk (tsaStreamAttach s.forest p c).1 (s.track (.attach p c)) = s
      rw [tsaStreamAttach, if_pos hfull, Ledger.track, if_pos (by omega)]
    rw [hout, hstate]
    exact add_zero _
  · have hout : (ledgerStep s (.attach p c)).2 = (s.forest.joined c).map (.join p) := by
      show (tsaStreamAttach s.forest p c).2 = _
      rw [tsaStreamAttach, if_neg hfull]
    have hcounts : (ledgerStep s (.attach p c)).1.forest.pidList = s.forest.pidList := by
      show (tsaStreamAttach s.forest p c).1.pidList = _
      rw [tsaStreamAttach, if_neg hfull]
    have hattached : (ledgerStep s (.attach p c)).1.attached =
        update s.attached p (s.attached p ++ [(c, true)]) := by
      show s.track (.attach p c) = _
      rw [Ledger.track, if_neg (by omega)]
    rw [hout, balance_joins s.forest p c q hpid, Ledger.subscribers, Ledger.subscribers, hcounts,
      hattached]
    by_cases hq : p = q
    · subst hq
      rw [update_self, countP_append, countP_singleton]
      by_cases hpos : 0 < s.forest.pidList c pid
      · simp [hpos]
      · simp [hpos]
    · rw [update_of_ne (Ne.symm hq), if_neg fun h => hq h.1, add_zero]

theorem child_of_find {l : List (N × Bool)} {c : N} {e : N × Bool}
    (h : l.find? (·.1 = c) = some e) : e.1 = c := by
  have := find?_some h
  exact of_decide_eq_true this

theorem countP_eraseP (P : N × Bool → Bool) (c : N) {l : List (N × Bool)} {e : N × Bool}
    (h : l.find? (·.1 = c) = some e) :
    l.countP P = (l.eraseP (·.1 = c)).countP P + if P e = true then 1 else 0 := by
  induction l generalizing e with
  | nil => cases h
  | cons a l ih =>
    rw [find?_cons] at h
    by_cases ha : a.1 = c
    · simp only [ha, decide_true] at h
      cases h
      rw [eraseP_cons_of_pos (by simpa using ha), countP_cons]
    · simp only [ha, decide_false] at h
      rw [eraseP_cons_of_neg (by simpa using ha), countP_cons, countP_cons, ih h]
      omega

theorem detach_balanced_iff (hs : s.Sound) (hbal : Balanced s out) (p c : N) :
    Balanced (ledgerStep s (.detach p c)).1 (out ++ (ledgerStep s (.detach p c)).2) ↔
      Orderly s (.detach p c) := by
  have hattached : (ledgerStep s (.detach p c)).1.attached =
      update s.attached p ((s.attached p).eraseP (·.1 = c)) := rfl
  rw [balanced_append_iff hbal]
  by_cases hmem : c ∈ s.forest.children p
  · have hout : (ledgerStep s (.detach p c)).2 = (s.forest.joined c).map (.leave p) := by
      show (tsaStreamDetach s.forest p c).2 = _
      rw [tsaStreamDetach, if_pos hmem]
    have hcounts : (ledgerStep s (.detach p c)).1.forest.pidList = s.forest.pidList := by
      show (tsaStreamDetach s.forest p c).1.pidList = _
      rw [tsaStreamDetach, if_pos hmem]
    -- the entry that goes
    obtain ⟨e, he⟩ : ∃ e, (s.attached p).find? (·.1 = c) = some e := by
      rw [← Option.isSome_iff_exists, find?_isSome]
      rw [← hs.children p] at hmem
      obtain ⟨e, hmem, he⟩ := mem_map.mp hmem
      exact ⟨e, hmem, decide_eq_true he⟩
    have hec : e.1 = c := child_of_find he
    have hchange : ∀ q pid, pid < maxPid →
        ((s.subscribers q pid : Int) + balance q pid (ledgerStep s (.detach p c)).2 =
            (ledgerStep s (.detach p c)).1.subscribers q pid ↔
          (p = q → e.2 = true ∨ s.forest.pidList c pid = 0)) := by
      intro q pid hpid
      rw [hout, Forest.joined, balance_leaves _ p q hpid, Ledger.subscribers, Ledger.subscribers,
        hcounts, hattached]
      by_cases hq : p = q
      · subst hq
        have hone := countP_eraseP (fun e => e.2 && decide (0 < s.forest.pidList e.1 pid)) c he
        rw [update_self, hone, hec]
        cases e.2 with
        | true =>
          by_cases hpos : 0 < s.forest.pidList c pid
          · simp [hpos]
          · simp [hpos]
        | false =>
          by_cases hpos : 0 < s.forest.pidList c pid
          · simp [hpos]
            omega
          · simp [hpos]
            omega
      · rw [update_of_ne (Ne.symm hq), if_neg fun h => hq h.1, add_zero]
        exact iff_of_true rfl fun h => absurd h hq
    constructor
    · intro h e' he'
      rw [he] at he'
      cases he'
      by_cases hlive : e.2 = true
      · exact .inl hlive
      · refine .inr fun pid hpid => ?_
        rcases (hchange p pid hpid).mp (h p pid hpid) rfl with hl | hz
        · exact absurd hl hlive
        · exact hz
    · intro h q pid hpid
      refine (hchange q pid hpid).mpr fun _ => ?_
      rcases h e he with hl | hz
      · exact .inl hl
      · exact .inr (hz pid hpid)
  · -- not a child of `p`: nothing is done
    have hnone : ∀ e ∈ s.attached p, ¬ e.1 = c := by
      intro e hmem' he
      refine hmem ?_
      rw [← hs.children p, ← he]
      exact mem_map_of_mem hmem'
    have hout : (ledgerStep s (.detach p c)).2 = [] := by
      show (tsaStreamDetach s.forest p c).2 = []
      rw [tsaStreamDetach, if_neg hmem]
    have hstate : (ledgerStep s (.detach p c)).1 = s := by
      show Ledger.mk (tsaStreamDetach s.forest p c).1 (s.track (.detach p c)) = s
      rw [tsaStreamDetach, if_neg hmem, Ledger.track,
        eraseP_of_forall_not fun e he => by simpa using hnone e he, update_eq_self]
    rw [hout, hstate]
    refine iff_of_true (fun q pid _ => add_zero _) fun e he => ?_
    exact absurd (child_of_find he) (hnone e (mem_of_find?_eq_some he))

theorem linked_iff {c : N} : Linked s c ↔
    ∀ q, (s.links c q : Int) = if s.forest.parent c = some q then 1 else 0 := by
  refine forall_congr' fun q => ?_
  split
  · exact Nat.cast_eq_one.symm
  · exact Nat.cast_eq_zero.symm

theorem loose_iff {c : N} : Loose s c ↔ ∀ q, (s.links c q : Int) = 0 :=
  forall_congr' fun _ => Nat.cast_eq_zero.symm

/-- A call that sets the count of one PID to `n`, and tells the parent `w`. -/
theorem setPid_balanced_iff {new : List (Callback N)} {c : N} {pid n : Nat} {w : Int}
    (hbal : Balanced s out) (hpid : pid < maxPid)
    (hnew : ∀ q i, balance q i new = if s.forest.parent c = some q then (if pid = i then w else 0)
      else 0) :
    Balanced ⟨s.forest.setPid c pid n, s.attached⟩ (out ++ new) ↔ ∀ q,
      (if 0 < s.forest.pidList c pid then (s.links c q : Int) else 0) +
          (if s.forest.parent c = some q then w else 0) =
        if 0 < n then (s.links c q : Int) else 0 := by
  have hafter : ∀ q i, (Ledger.mk (s.forest.setPid c pid n) s.attached).subscribers q i =
      s.others c q i +
        if 0 < (s.forest.setPid c pid n).pidList c i then s.links c q else 0 := fun q i =>
    subscribers_after s ⟨s.forest.setPid c pid n, s.attached⟩ c q i rfl
      fun d hd => setPid_node s.forest c pid n hd
  rw [balanced_append_iff hbal]
  constructor
  · intro h q
    have hq := h q pid hpid
    rw [subscribers_apart s c, hafter, hnew, setPid_self, if_pos rfl] at hq
    push_cast at hq
    linarith
  · intro h q i hi
    rw [subscribers_apart s c, hafter, hnew]
    by_cases hpi : pid = i
    · subst hpi
      have hq := h q
      rw [setPid_self, if_pos rfl]
      push_cast
      linarith
    · -- another PID keeps its count, and nobody is told
      rw [setPid_pid s.forest c pid n (Ne.symm hpi), if_neg hpi, ite_self, add_zero]

theorem joinPid_balanced_iff (hs : s.Sound) (hbal : Balanced s out) (c : N) (pid : Nat) :
    Balanced (ledgerStep s (.joinPid c pid)).1 (out ++ (ledgerStep s (.joinPid c pid)).2) ↔
      Orderly s (.joinPid c pid) := by
  by_cases hpid : pid < maxPid
  · have hcount := hs.counts c pid
    have hstep : opStep s.forest (.joinPid c pid) =
        (s.forest.setPid c pid ((s.forest.pidList c pid + 1) % 2 ^ 16),
          if (s.forest.pidList c pid + 1) % 2 ^ 16 = 1 then s.forest.tell c fun p => [.join p pid]
          else []) := if_neg (Nat.not_le.mpr hpid)
    have horderly : Orderly s (.joinPid c pid) ↔
        (s.forest.pidList c pid = 0 → Linked s c) ∧
          (s.forest.pidList c pid = 2 ^ 16 - 1 → Loose s c) := ⟨fun h => h hpid, fun h _ => h⟩
    rw [horderly, ledgerStep, hstep]
    by_cases hzero : s.forest.pidList c pid = 0
    · -- the first subscription
      have hn : (s.forest.pidList c pid + 1) % 2 ^ 16 = 1 := by omega
      rw [if_pos hn, hn]
      refine (setPid_balanced_iff (w := 1) hbal hpid
        (balance_tell_join s.forest c · pid ·)).trans ?_
      simp only [hzero, Nat.lt_irrefl, if_false, zero_add, Nat.zero_lt_one, if_true]
      rw [linked_iff]
      constructor
      · exact fun h => ⟨fun _ q => (h q).symm, fun hmax => absurd hmax (by decide)⟩
      · exact fun h q => (h.1 trivial q).symm
    · have hnone : (s.forest.pidList c pid + 1) % 2 ^ 16 ≠ 1 := by omega
      rw [if_neg hnone]
      refine (setPid_balanced_iff (w := 0) hbal hpid fun q i => ?_).trans ?_
      · show (0 : Int) = _
        rw [ite_self, ite_self]
      · simp only [Nat.pos_of_ne_zero hzero, if_true, ite_self, add_zero]
        by_cases hmax : s.forest.pidList c pid = 2 ^ 16 - 1
        · -- the counter wraps to zero
          have hn : (s.forest.pidList c pid + 1) % 2 ^ 16 = 0 := by omega
          simp only [hn, Nat.lt_irrefl, if_false]
          rw [← loose_iff]
          exact ⟨fun h => ⟨fun h0 => absurd h0 hzero, fun _ => h⟩, fun h => h.2 hmax⟩
        · have hn : 0 < (s.forest.pidList c pid + 1) % 2 ^ 16 := by omega
          simp only [hn, if_true]
          exact iff_of_true (fun _ => trivial)
            ⟨fun h0 => absurd h0 hzero, fun hm => absurd hm hmax⟩
  · have hstep : opStep s.forest (.joinPid c pid) = (s.forest, []) :=
      if_pos (Nat.le_of_not_lt hpid)
    rw [ledgerStep, hstep]
    show Balanced s (out ++ []) ↔ _
    rw [append_nil]
    exact iff_of_true hbal fun h => absurd h hpid

theorem leavePid_balanced_iff (hbal : Balanced s out) (c : N) (pid : Nat) :
    Balanced (ledgerStep s (.leavePid c pid)).1 (out ++ (ledgerStep s (.leavePid c pid)).2) ↔
      Orderly s (.leavePid c pid) := by
  by_cases hpid : pid < maxPid
  · have horderly : Orderly s (.leavePid c pid) ↔
        (s.forest.pidList c pid = 1 → Linked s c) := ⟨fun h => h hpid, fun h _ => h⟩
    by_cases hpos : 0 < s.forest.pidList c pid
    · have hstep : opStep s.forest (.leavePid c pid) =
          (s.forest.setPid c pid (s.forest.pidList c pid - 1),
            if s.forest.pidList c pid - 1 = 0 then s.forest.tell c fun p => [.leave p pid]
            else []) := by
        show tsaStreamDemuxLeavePid s.forest c pid = _
        rw [tsaStreamDemuxLeavePid, if_neg (Nat.not_le.mpr hpid), if_pos hpos]
      rw [horderly, ledgerStep, hstep]
      by_cases hlast : s.forest.pidList c pid = 1
      · -- the last subscription
        have hn : s.forest.pidList c pid - 1 = 0 := by omega
        rw [if_pos hn, hn]
        refine (setPid_balanced_iff (w := -1) hbal hpid
          (balance_tell_leave s.forest c · pid ·)).trans ?_
        simp only [hpos, if_true, Nat.lt_irrefl, if_false]
        rw [linked_iff]
        constructor
        · intro h _ q
          have hq := h q
          split at hq
          · rename_i hp
            rw [if_pos hp]
            linarith
          · rename_i hp
            rw [if_neg hp]
            linarith
        · intro h q
          rw [h hlast q]
          split
          · rfl
          · rfl
      · have hn : 0 < s.forest.pidList c pid - 1 := by omega
        rw [if_neg (by omega)]
        refine (setPid_balanced_iff (w := 0) hbal hpid fun q i => ?_).trans ?_
        · show (0 : Int) = _
          rw [ite_self, ite_self]
        · simp only [hpos, hn, if_true, ite_self, add_zero]
          exact iff_of_true (fun _ => trivial) fun h => absurd h hlast
    · have hstep : opStep s.forest (.leavePid c pid) = (s.forest, []) := by
        show tsaStreamDemuxLeavePid s.forest c pid = _
        rw [tsaStreamDemuxLeavePid, if_neg (Nat.not_le.mpr hpid), if_neg hpos]
      rw [horderly, ledgerStep, hstep]
      show Balanced s (out ++ []) ↔ _
      rw [append_nil]
      exact iff_of_true hbal fun h => absurd h (by omega)
  · have hstep : opStep s.forest (.leavePid c pid) = (s.forest, []) :=
      if_pos (Nat.le_of_not_lt hpid)
    rw [ledgerStep, hstep]
    show Balanced s (out ++ []) ↔ _
    rw [append_nil]
    exact iff_of_true hbal fun h => absurd h hpid

theorem ledgerStep_destroy (s : Ledger N) (c : N) :
    ledgerStep s (.destroy c) =
      (⟨{ s.forest with pidList := update s.forest.pidList c fun i =>
            if i < maxPid then s.forest.pidList c i - 1 else s.forest.pidList c i },
          s.track (.destroy c)⟩,
        s.forest.tell c fun p =>
          ((range maxPid).filter fun i => s.forest.pidList c i = 1).map (.leave p)) := by
  rw [ledgerStep, opStep, tsaStreamDestroy_eq]

theorem subscribers_destroyed (c q : N) (pid : Nat) :
    (ledgerStep s (.destroy c)).1.subscribers q pid = s.others c q pid := by
  rw [ledgerStep_destroy, Ledger.subscribers, Ledger.others, Ledger.track, countP_map]
  refine countP_congr fun e _ => ?_
  by_cases he : e.1 = c
  · simp [he]
  · simp [he]

theorem destroy_balanced_iff (hbal : Balanced s out) (c : N) :
    Balanced (ledgerStep s (.destroy c)).1 (out ++ (ledgerStep s (.destroy c)).2) ↔
      Orderly s (.destroy c) := by
  have htold : ∀ q pid, pid < maxPid → balance q pid (ledgerStep s (.destroy c)).2 =
      if s.forest.parent c = some q then (if s.forest.pidList c pid = 1 then -1 else 0) else 0 := by
    intro q pid hpid
    rw [ledgerStep_destroy]
    refine balance_tell s.forest c q pid _ _ fun p => ?_
    rw [balance_leaves _ p q hpid]
    by_cases hp : p = q
    · simp [hp]
    · simp [hp]
  -- what is told must be what is lost
  have hpoint : ∀ q pid, pid < maxPid →
      ((s.subscribers q pid : Int) + balance q pid (ledgerStep s (.destroy c)).2 =
          (ledgerStep s (.destroy c)).1.subscribers q pid ↔
        (s.forest.pidList c pid = 1 →
          (s.links c q : Int) = if s.forest.parent c = some q then 1 else 0) ∧
        (1 < s.forest.pidList c pid → (s.links c q : Int) = 0)) := by
    intro q pid hpid
    rw [htold q pid hpid, subscribers_destroyed, subscribers_apart s c]
    push_cast
    rcases Nat.lt_trichotomy (s.forest.pidList c pid) 1 with hk | hk | hk
    · have hzero : ¬ 0 < s.forest.pidList c pid := by omega
      rw [if_neg hzero, if_neg (show ¬ s.forest.pidList c pid = 1 by omega), ite_self]
      exact iff_of_true (by ring) ⟨fun h => by omega, fun h => by omega⟩
    · rw [if_pos (show 0 < s.forest.pidList c pid by omega), if_pos hk]
      split
      · exact ⟨fun h => ⟨fun _ => by linarith, fun h => by omega⟩, fun h => by linarith [h.1 hk]⟩
      · exact ⟨fun h => ⟨fun _ => by linarith, fun h => by omega⟩, fun h => by linarith [h.1 hk]⟩
    · rw [if_pos (show 0 < s.forest.pidList c pid by omega),
        if_neg (show ¬ s.forest.pidList c pid = 1 by omega), ite_self]
      exact ⟨fun h => ⟨fun h => by omega, fun _ => by linarith⟩, fun h => by linarith [h.2 hk]⟩
  rw [balanced_append_iff hbal]
  constructor
  · intro h pid hpid
    refine ⟨fun hone => linked_iff.mpr fun q => ?_, fun hmore => loose_iff.mpr fun q => ?_⟩
    · exact ((hpoint q pid hpid).mp (h q pid hpid)).1 hone
    · exact ((hpoint q pid hpid).mp (h q pid hpid)).2 hmore
  · intro h q pid hpid
    refine (hpoint q pid hpid).mpr ⟨fun hone => ?_, fun hmore => ?_⟩
    · exact linked_iff.mp ((h pid hpid).1 hone) q
    · exact loose_iff.mp ((h pid hpid).2 hmore) q

/-- **The crux**: a balanced ledger stays balanced exactly when the call is orderly. -/
theorem orderly_iff (hs : s.Sound) (hbal : Balanced s out) (op : Op N) :
    Balanced (ledgerStep s op).1 (out ++ (ledgerStep s op).2) ↔ Orderly s op := by
  cases op with
  | attach p c => exact iff_of_true (attach_balanced hs hbal p c) trivial
  | detach p c => exact detach_balanced_iff hs hbal p c
  | joinPid c pid => exact joinPid_balanced_iff hs hbal c pid
  | leavePid c pid => exact leavePid_balanced_iff hbal c pid
  | destroy c => exact destroy_balanced_iff hbal c

end Calls

/-! ## Whole runs -/

theorem map_eraseP_fst (l : List (N × Bool)) :
    (l.eraseP (·.1 = c)).map (·.1) = (l.map (·.1)).erase c := by
  induction l with
  | nil => rfl
  | cons e l ih =>
    by_cases he : e.1 = c
    · rw [eraseP_cons_of_pos (by simpa using he), map_cons, ← he, erase_cons_head]
    · rw [eraseP_cons_of_neg (by simpa using he), map_cons, map_cons, ih,
        erase_cons_tail (by simpa using he)]

theorem Ledger.Sound.setPid {s : Ledger N} (hs : s.Sound) (c : N) (pid : Nat) {n : Nat}
    (hn : n < 2 ^ 16) : Ledger.Sound ⟨s.forest.setPid c pid n, s.attached⟩ := by
  refine ⟨hs.children, fun d i => ?_⟩
  show (s.forest.setPid c pid n).pidList d i < 2 ^ 16
  by_cases hd : d = c
  · subst hd
    by_cases hi : i = pid
    · rw [hi, setPid_self]
      exact hn
    · rw [setPid_pid s.forest d pid n hi]
      exact hs.counts d i
  · rw [setPid_node s.forest c pid n hd]
    exact hs.counts d i

theorem Ledger.Sound.step {s : Ledger N} (hs : s.Sound) (op : Op N) :
    (ledgerStep s op).1.Sound := by
  cases op with
  | attach p c =>
    have hlen : (s.attached p).length = (s.forest.children p).length := by
      rw [← hs.children p, length_map]
    show Ledger.Sound ⟨(tsaStreamAttach s.forest p c).1, s.track (.attach p c)⟩
    rw [tsaStreamAttach, Ledger.track]
    by_cases hfull : maxStreamChildren ≤ (s.forest.children p).length
    · rw [if_pos hfull, if_pos (by omega)]
      exact hs
    · rw [if_neg hfull, if_neg (by omega)]
      refine ⟨fun q => ?_, hs.counts⟩
      by_cases hq : q = p
      · subst hq
        show (update s.attached q _ q).map _ = update s.forest.children q _ q
        rw [update_self, update_self, map_append, hs.children]
        rfl
      · show (update s.attached p _ q).map _ = update s.forest.children p _ q
        rw [update_of_ne hq, update_of_ne hq]
        exact hs.children q
  | detach p c =>
    show Ledger.Sound ⟨(tsaStreamDetach s.forest p c).1, s.track (.detach p c)⟩
    rw [tsaStreamDetach, Ledger.track]
    have herase : ((s.attached p).eraseP (·.1 = c)).map (·.1) = (s.forest.children p).erase c := by
      rw [map_eraseP_fst, hs.children]
    -- erasing a child that is not there changes nothing
    have hchildren : ∀ q, (update s.attached p ((s.attached p).eraseP (·.1 = c)) q).map
        (·.1) = update s.forest.children p ((s.forest.children p).erase c) q := by
      intro q
      by_cases hq : q = p
      · subst hq
        rw [update_self, update_self]
        exact herase
      · rw [update_of_ne hq, update_of_ne hq]
        exact hs.children q
    by_cases hmem : c ∈ s.forest.children p
    · rw [if_pos hmem]
      exact ⟨hchildren, hs.counts⟩
    · rw [if_neg hmem]
      refine ⟨fun q => ?_, hs.counts⟩
      refine (hchildren q).trans ?_
      rw [erase_of_not_mem hmem, update_eq_self]
  | joinPid c pid =>
    show Ledger.Sound ⟨(tsaStreamDemuxJoinPid s.forest c pid).1, s.attached⟩
    rw [tsaStreamDemuxJoinPid]
    split
    · exact hs
    · exact hs.setPid c pid (Nat.mod_lt _ (by decide))
  | leavePid c pid =>
    have hcount := hs.counts c pid
    show Ledger.Sound ⟨(tsaStreamDemuxLeavePid s.forest c pid).1, s.attached⟩
    rw [tsaStreamDemuxLeavePid]
    split
    · exact hs
    · split
      · exact hs.setPid c pid (by omega)
      · exact hs
  | destroy c =>
    rw [ledgerStep_destroy]
    refine ⟨fun q => ?_, fun d i => ?_⟩
    · show ((s.attached q).map fun e => (e.1, e.2 && e.1 ≠ c)).map (·.1) = _
      rw [map_map]
      exact hs.children q
    · show update s.forest.pidList c _ d i < 2 ^ 16
      by_cases hd : d = c
      · have hcount := hs.counts c i
        rw [hd, update_self]
        split
        · omega
        · exact hcount
      · rw [update_of_ne hd]
        exact hs.counts d i

/-- **Subscriptions balance, exactly while every call is orderly**: over any calls on new nodes, the
    callbacks of every parent balance at every moment iff each call finds what `Orderly` asks. -/
theorem balanced_iff (ops : List (Op N)) :
    (∀ pre, pre <+: ops →
        Balanced (run ledgerStep Ledger.init pre).1 (run ledgerStep Ledger.init pre).2) ↔
      Along Orderly (fun s op => (ledgerStep s op).1) Ledger.init ops := by
  have hinit : Ledger.Sound (Ledger.init : Ledger N) ∧ Balanced (Ledger.init : Ledger N) [] :=
    ⟨⟨fun _ => rfl, fun _ _ => Nat.zero_lt_succ _⟩, fun _ _ _ => rfl⟩
  have hiff := run_history_iff (R := fun _ _ => True) (P := Orderly)
    (J := fun (s : Ledger N) out => s.Sound ∧ Balanced s out)
    (fun s out op hJ _ => (and_iff_right (hJ.1.step op)).trans (orderly_iff hJ.1 hJ.2 op))
    ops Ledger.init [] hinit (along_true _ _ _)
  rw [← hiff]
  -- sound it is in any case
  have hsound : ∀ pre, Ledger.Sound (run ledgerStep (Ledger.init : Ledger N) pre).1 := by
    intro pre
    rw [run_fst]
    exact along_inv (R := fun _ _ => True) (fun s op hs _ => hs.step op) pre Ledger.init hinit.1
      (along_true _ _ _) pre (prefix_refl pre)
  exact ⟨fun h pre hpre => ⟨hsound pre, h pre hpre⟩, fun h pre hpre => (h pre hpre).2⟩

/-- A child with one PID, joined `n` times, attached to node 0. -/
def oneChild (n : Nat) : Ledger Nat where
  forest :=
    { parent := update (fun _ => none) 1 (some 0)
      children := update (fun _ => []) 0 [1]
      pidList := update (fun _ _ => 0) 1 (update (fun _ => 0) 100 n) }
  attached := update (fun _ => []) 0 [(1, true)]

theorem oneChild_join {n : Nat} (hn : n + 1 < 2 ^ 16) :
    ledgerStep (oneChild n) (.joinPid 1 100) =
      (oneChild (n + 1), if n = 0 then [.join 0 100] else []) := by
  have hcount : (oneChild n).forest.pidList 1 100 = n := rfl
  have hset : (oneChild n).forest.setPid 1 100 (n + 1) = (oneChild (n + 1)).forest := by
    simp [Forest.setPid, oneChild]
  show (Ledger.mk (tsaStreamDemuxJoinPid (oneChild n).forest 1 100).1 (oneChild n).attached,
    (tsaStreamDemuxJoinPid (oneChild n).forest 1 100).2) = _
  rw [tsaStreamDemuxJoinPid, if_neg (by decide), hcount, Nat.mod_eq_of_lt hn]
  simp only [hset]
  by_cases h0 : n = 0
  · simp [h0, Forest.tell, oneChild]
  · simp [h0, oneChild]

theorem oneChild_attach : ledgerStep Ledger.init (.attach 0 1) = (oneChild 0, []) := by
  simp [ledgerStep, opStep, tsaStreamAttach, Forest.joined, Ledger.init, Forest.init, Ledger.track,
    maxStreamChildren, oneChild]

/-- **A child that joined twice** leaves once when it is destroyed, and its parent is never told. -/
theorem destroyed_subscriber_remains :
    let r := run ledgerStep (Ledger.init : Ledger Nat)
      [.attach 0 1, .joinPid 1 100, .joinPid 1 100, .destroy 1]
    balance 0 100 r.2 = 1 ∧ r.1.subscribers 0 100 = 0 := by
  have hquiet : (ledgerStep (oneChild 2) (.destroy 1)).2 = [] := by
    have hnone : (range maxPid).filter
        (fun i => (oneChild 2).forest.pidList 1 i = 1) = [] := by
      rw [filter_eq_nil_iff]
      intro i _ hone
      have hone := of_decide_eq_true hone
      have hrow : (oneChild 2).forest.pidList 1 i =
          update (fun _ => 0) 100 2 i := rfl
      rw [hrow] at hone
      by_cases hi : i = 100
      · rw [hi, update_self] at hone
        omega
      · rw [update_of_ne hi] at hone
        omega
    rw [ledgerStep_destroy, hnone]
    rfl
  have hrun : run ledgerStep (Ledger.init : Ledger Nat)
      [.attach 0 1, .joinPid 1 100, .joinPid 1 100, .destroy 1] =
      ((ledgerStep (oneChild 2) (.destroy 1)).1, [.join 0 100]) := by
    simp only [run, oneChild_attach, oneChild_join (show 0 + 1 < 2 ^ 16 by decide),
      oneChild_join (show 1 + 1 < 2 ^ 16 by decide), hquiet]
    rfl
  rw [hrun]
  refine ⟨by decide, ?_⟩
  show (ledgerStep (oneChild 2) (.destroy 1)).1.subscribers 0 100 = 0
  rw [subscribers_destroyed]
  decide +kernel

end TsAnalyzer.Stream
