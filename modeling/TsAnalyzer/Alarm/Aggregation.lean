/-
  The aggregator of the alert engine against the window discipline of `Lib.Window`, one (alert, PID)
  pair at a time.

  A pair that fires takes its slot of 4096 whoever holds it, and a window that is over but not yet
  flushed is overwritten by its own pair; both lose hits that no summary has counted.
-/
import TsAnalyzer.Lib.Window
import TsAnalyzer.Alarm.Lifecycle

namespace TsAnalyzer.Alarm

open Lib Lib.Window Function List

/-! ## One pair -/

/-- What is seen of a pair: its OFF-to-FIRING transitions and its summaries. -/
def pairEvent (id : AlertId) (pid : Nat) : Happening → Option Window.Event
  | .fired id' pid' t suppressed _ =>
    if id' = id ∧ pid' = pid then some (.hit t suppressed) else none
  | .summarised id' pid' count => if id' = id ∧ pid' = pid then some (.summary count) else none
  | _ => none

def pairHistory (id : AlertId) (pid : Nat) (past : List Happening) : List Window.Event :=
  past.filterMap (pairEvent id pid)

/-- The window the pair has in the table. -/
def Alerts.window (h : Alerts) (id : AlertId) (pid : Nat) : Option Window.Open :=
  let e := h.entries (alertAggregatorHash id pid)
  if e.active ∧ e.id = id ∧ e.pid = pid then some ⟨e.windowStartNs, e.hitCount⟩ else none

def AlertConfig.windowNs (c : AlertConfig) : Nat := c.windowMs * 1000000

/-- An alert that fires leaves the pair's window alone, unless it is the pair's own hit inside it
    (and the counter has room), or the window is over and holds no suppressed hit. -/
def Op.Spares (id : AlertId) (pid : Nat) (h : Alerts) : Op → Prop
  | .report id' _ pid' =>
    tsaAlertIsSuppressedByTree h id' = false → (h.alerts id').status = .off →
    alertAggregatorHash id' pid' = alertAggregatorHash id pid →
    ∀ v, h.window id pid = some v →
      if h.inWindow id' pid' then v.count + 1 < 2 ^ 32
      else v.start + h.config.windowNs ≤ h.stcNs ∧ v.count ≤ 1
  | _ => True

/-- The same for all the reports a call makes. -/
@[irreducible] def Call.Spares (id : AlertId) (pid : Nat) (h : Alerts) (c : Call) : Prop :=
  Along (Op.Spares id pid) opStep h (c.ops h)

variable {op : Op} {config : AlertConfig} {pid : Nat} {id : AlertId} {h : Alerts}

theorem Call.spares_iff {c : Call} :
    c.Spares id pid h ↔ Along (Op.Spares id pid) opStep h (c.ops h) := by
  unfold Call.Spares
  exact Iff.rfl

theorem window_eq_some {v : Window.Open} :
    h.window id pid = some v ↔
      let e := h.entries (alertAggregatorHash id pid)
      e.active = true ∧ e.id = id ∧ e.pid = pid ∧ e.windowStartNs = v.start ∧
        e.hitCount = v.count := by
  simp only [Alerts.window]
  split
  · next hown =>
    rw [Option.some.injEq]
    constructor
    · rintro rfl
      exact ⟨hown.1, hown.2.1, hown.2.2, rfl, rfl⟩
    · rintro ⟨-, -, -, hstart, hcount⟩
      rw [hstart, hcount]
  · next hother =>
    constructor
    · intro hv
      cases hv
    · rintro ⟨hactive, hid, hpid, -⟩
      exact absurd ⟨hactive, hid, hpid⟩ hother

theorem window_congr {h' : Alerts}
    (heq : h'.entries (alertAggregatorHash id pid) = h.entries (alertAggregatorHash id pid)) :
    h'.window id pid = h.window id pid := by
  simp only [Alerts.window, heq]

theorem window_eq_none
    (hother : ¬ ((h.entries (alertAggregatorHash id pid)).id = id ∧
      (h.entries (alertAggregatorHash id pid)).pid = pid)) : h.window id pid = none :=
  if_neg fun hown => hother hown.2

/-- Entries in use are in the slot of their pair, and their windows began in the past. -/
structure Placed (now : Nat) (entries : Nat → AggregatorEntry) : Prop where
  now_lt : now < 2 ^ 64
  slot : ∀ i, (entries i).active = true → alertAggregatorHash (entries i).id (entries i).pid = i
  start : ∀ i, (entries i).active = true → (entries i).windowStartNs ≤ now

theorem placed_fresh (config : AlertConfig) :
    Placed (Alerts.fresh config).stcNs (Alerts.fresh config).entries where
  now_lt := Nat.two_pow_pos 64
  slot := fun _ hactive => (by cases hactive)
  start := fun _ hactive => (by cases hactive)

theorem aggregated_placed (hp : Placed h.stcNs h.entries) (id : AlertId) (name : String)
    (pid : Nat) : Placed h.stcNs (h.aggregated id name pid) := by
  by_cases hwindow : h.config.windowMs = 0
  · rw [aggregated_windowless h id name pid hwindow]
    exact hp
  have hother : ∀ i, i ≠ alertAggregatorHash id pid → h.aggregated id name pid i = h.entries i :=
    fun i hi => aggregated_of_ne h id name pid hi
  have hpair := aggregated_pair h id name pid hwindow
  refine ⟨hp.now_lt, fun i hactive => ?_, fun i hactive => ?_⟩
  · by_cases hi : i = alertAggregatorHash id pid
    · rw [hi, hpair.1, hpair.2]
    · rw [hother i hi] at hactive ⊢
      exact hp.slot i hactive
  · by_cases hi : i = alertAggregatorHash id pid
    · subst hi
      cases hin : h.inWindow id pid with
      | true =>
        rw [aggregated_inWindow h id name pid hin, update_self] at hactive ⊢
        exact hp.start _ hactive
      | false =>
        obtain ⟨e, heq, -, -, -, -, hstart⟩ := aggregated_opens h id name pid hin hwindow
        rw [heq, update_self, hstart]
    · rw [hother i hi] at hactive ⊢
      exact hp.start i hactive

theorem Placed.of_active {now : Nat} {entries entries' : Nat → AggregatorEntry}
    (hp : Placed now entries) (hactive : ∀ i, (entries' i).active = true → entries' i = entries i) :
    Placed now entries' where
  now_lt := hp.now_lt
  slot := by
    intro i hi
    have heq := hactive i hi
    rw [heq] at hi ⊢
    exact hp.slot i hi
  start := by
    intro i hi
    have heq := hactive i hi
    rw [heq] at hi ⊢
    exact hp.start i hi

theorem step_placed (hp : Placed h.stcNs h.entries) (htimely : op.Timely h) :
    Placed (opStep h op).stcNs (opStep h op).entries := by
  cases op with
  | tick stcNs => exact ⟨htimely.2, hp.slot, fun i hi => (hp.start i hi).trans htimely.1⟩
  | report id name pid =>
    show Placed (tsaAlertUpdate h id true name pid).stcNs
      (tsaAlertUpdate h id true name pid).entries
    rw [(report_keeps h id name pid).2, report_entries]
    split
    · exact aggregated_placed hp id name pid
    · exact hp
  | flush j =>
    show Placed (flushEntry h j).stcNs (flushEntry h j).entries
    rw [(flush_keeps h j).2.1]
    exact hp.of_active fun i hi => flush_active h hi
  | resolve id =>
    show Placed (resolveAlert h id).stcNs (resolveAlert h id).entries
    rw [(resolve_keeps h id).2.1, (resolve_keeps h id).2.2]
    exact hp

/-! ## Each operation takes a turn -/

section Turn

variable {h : Alerts} {id : AlertId} {pid : Nat}

theorem inWindow_iff (hp : Placed h.stcNs h.entries) (hwindow : h.config.windowMs ≠ 0) :
    h.inWindow id pid = true ↔
      ∃ v, h.window id pid = some v ∧ h.stcNs < v.start + h.config.windowNs := by
  simp only [Alerts.inWindow, decide_eq_true_eq]
  constructor
  · rintro ⟨-, hactive, hid, hpid, hlt⟩
    have hstart := hp.start _ hactive
    rw [sub64_of_le hstart hp.now_lt] at hlt
    refine ⟨⟨(h.entries (alertAggregatorHash id pid)).windowStartNs, _⟩,
      window_eq_some.mpr ⟨hactive, hid, hpid, rfl, rfl⟩, ?_⟩
    show _ < (h.entries (alertAggregatorHash id pid)).windowStartNs + h.config.windowMs * 1000000
    omega
  · rintro ⟨v, hv, hlt⟩
    obtain ⟨hactive, hid, hpid, hstart, -⟩ := window_eq_some.mp hv
    have hle := hp.start _ hactive
    refine ⟨hwindow, hactive, hid, hpid, ?_⟩
    rw [sub64_of_le hle hp.now_lt, hstart]
    rw [hstart] at hle
    simp only [AlertConfig.windowNs] at hlt
    omega

theorem own_turn (hp : Placed h.stcNs h.entries) (hwindow : h.config.windowMs ≠ 0) {name : String}
    (hspares : ∀ v, h.window id pid = some v →
      if h.inWindow id pid then v.count + 1 < 2 ^ 32
      else v.start + h.config.windowNs ≤ h.stcNs ∧ v.count ≤ 1) {h' : Alerts}
    (hentries : h'.entries = h.aggregated id name pid) :
    Turn h.config.windowNs h.stcNs (h.window id pid) [.hit h.stcNs (h.inWindow id pid)]
      (h'.window id pid) := by
  cases hin : h.inWindow id pid with
  | true =>
    obtain ⟨v, hv, hlt⟩ := (inWindow_iff hp hwindow).mp hin
    have hroom := hspares v hv
    rw [hin, if_pos rfl] at hroom
    obtain ⟨hactive, hid, hpid, hstart, hcount⟩ := window_eq_some.mp hv
    have hafter : h'.window id pid = some { v with count := v.count + 1 } := by
      refine window_eq_some.mpr ?_
      rw [hentries, aggregated_inWindow h id name pid hin]
      simp only [update_self]
      refine ⟨hactive, hid, hpid, hstart, ?_⟩
      rw [hcount, Nat.mod_eq_of_lt hroom]
    rw [hv, hafter]
    exact .counted hlt
  | false =>
    obtain ⟨e, heq, hactive, hid, hpid, hcount, hstart⟩ :=
      aggregated_opens h id name pid hin hwindow
    have hafter : h'.window id pid = some ⟨h.stcNs, 1⟩ := by
      refine window_eq_some.mpr ?_
      rw [hentries, heq]
      simp only [update_self]
      exact ⟨hactive, hid, hpid, hstart, hcount⟩
    rw [hafter]
    refine .opened fun v hv => ?_
    have hfree := hspares v hv
    rwa [hin, if_neg Bool.false_ne_true] at hfree

theorem window_taken (hwindow : h.config.windowMs ≠ 0) {id' : AlertId} {pid' : Nat} {name : String}
    (hne : ¬ (id' = id ∧ pid' = pid))
    (hhash : alertAggregatorHash id' pid' = alertAggregatorHash id pid) {h' : Alerts}
    (hentries : h'.entries = h.aggregated id' name pid') : h'.window id pid = none := by
  have hpair := aggregated_pair h id' name pid' hwindow
  refine window_eq_none ?_
  rw [hentries, ← hhash, hpair.1, hpair.2]
  exact hne

theorem other_turn (hp : Placed h.stcNs h.entries) (hwindow : h.config.windowMs ≠ 0)
    {id' : AlertId} {pid' : Nat} {name : String} (hne : ¬ (id' = id ∧ pid' = pid))
    (hhash : alertAggregatorHash id' pid' = alertAggregatorHash id pid)
    (hspares : ∀ v, h.window id pid = some v →
      if h.inWindow id' pid' then v.count + 1 < 2 ^ 32
      else v.start + h.config.windowNs ≤ h.stcNs ∧ v.count ≤ 1) {h' : Alerts}
    (hentries : h'.entries = h.aggregated id' name pid') :
    Turn h.config.windowNs h.stcNs (h.window id pid) [] (h'.window id pid) := by
  rw [window_taken hwindow hne hhash hentries]
  cases hbefore : h.window id pid with
  | none => exact .idle none
  | some v =>
    have hin : h.inWindow id' pid' = false := by
      by_contra hin
      obtain ⟨v', hv', -⟩ := (inWindow_iff hp hwindow).mp (Bool.not_eq_false _ ▸ hin)
      obtain ⟨-, hid', hpid', -⟩ := window_eq_some.mp hv'
      obtain ⟨-, hid, hpid, -⟩ := window_eq_some.mp hbefore
      rw [hhash] at hid' hpid'
      exact hne ⟨hid'.symm.trans hid, hpid'.symm.trans hpid⟩
    have hfree := hspares v hbefore
    rw [hin, if_neg Bool.false_ne_true] at hfree
    exact .dropped hfree.1 hfree.2

theorem pairHistory_append (xs ys : List Happening) :
    pairHistory id pid (xs ++ ys) = pairHistory id pid xs ++ pairHistory id pid ys :=
  filterMap_append

theorem pairHistory_fired (id' : AlertId) (pid' t : Nat) (suppressed critical : Bool) (u : Nat) :
    pairHistory id pid [.reported id' u, .fired id' pid' t suppressed critical] =
      if id' = id ∧ pid' = pid then [.hit t suppressed] else [] := by
  by_cases hpair : id' = id ∧ pid' = pid
  · rw [if_pos hpair]
    obtain ⟨rfl, rfl⟩ := hpair
    simp [pairHistory, filterMap_cons, pairEvent]
  · rw [if_neg hpair]
    simp [pairHistory, filterMap_cons, pairEvent, hpair]

theorem pairHistory_summarised (id' : AlertId) (pid' count : Nat) :
    pairHistory id pid [.summarised id' pid' count] =
      if id' = id ∧ pid' = pid then [.summary count] else [] := by
  by_cases hpair : id' = id ∧ pid' = pid
  · rw [if_pos hpair]
    obtain ⟨rfl, rfl⟩ := hpair
    simp [pairHistory, pairEvent]
  · rw [if_neg hpair]
    simp [pairHistory, pairEvent, hpair]

theorem flush_turn (hp : Placed h.stcNs h.entries) (j : Nat) :
    Turn h.config.windowNs h.stcNs (h.window id pid) (pairHistory id pid (observe h (.flush j)))
      ((flushEntry h j).window id pid) := by
  rw [observe_flush]
  by_cases hover : (h.entries j).active = true ∧
      h.config.windowMs * 1000000 ≤ sub64 h.stcNs (h.entries j).windowStartNs
  swap
  · -- Not over: nothing happens.
    have hsame : (flushEntry h j).window id pid = h.window id pid := by
      refine window_congr ?_
      rw [flush_entries, if_neg hover]
    rw [hsame, if_neg fun hall => hover ⟨hall.1, hall.2.1⟩]
    exact .idle _
  have hentries : (flushEntry h j).entries = _ := (flush_entries h j).trans (if_pos hover)
  have hstart := hp.start j hover.1
  have hnow : (h.entries j).windowStartNs + h.config.windowNs ≤ h.stcNs := by
    have hle := hover.2
    rw [sub64_of_le hstart hp.now_lt] at hle
    show _ + h.config.windowMs * 1000000 ≤ _
    omega
  by_cases hj : alertAggregatorHash id pid = j
  · have hafter : (flushEntry h j).window id pid = none := by
      refine if_neg fun hown => ?_
      rw [hentries, hj, update_self] at hown
      cases hown.1
    rw [hafter]
    by_cases hpair : (h.entries j).id = id ∧ (h.entries j).pid = pid
    · have hbefore : h.window id pid =
          some ⟨(h.entries j).windowStartNs, (h.entries j).hitCount⟩ := by
        refine window_eq_some.mpr ?_
        rw [hj]
        exact ⟨hover.1, hpair.1, hpair.2, rfl, rfl⟩
      rw [hbefore]
      by_cases hmany : 1 < (h.entries j).hitCount
      · rw [if_pos ⟨hover.1, hover.2, hmany⟩, pairHistory_summarised, if_pos hpair]
        exact .closed hnow hmany
      · rw [if_neg fun hall => hmany hall.2.2]
        exact .dropped hnow (Nat.le_of_not_lt hmany)
    · have hbefore : h.window id pid = none := window_eq_none (by rw [hj]; exact hpair)
      rw [hbefore]
      split
      · rw [pairHistory_summarised, if_neg hpair]
        exact .idle none
      · exact .idle none
  · -- The entry of another slot is of another pair.
    have hsame : (flushEntry h j).window id pid = h.window id pid :=
      window_congr (by rw [hentries, update_of_ne hj])
    have hpair : ¬ ((h.entries j).id = id ∧ (h.entries j).pid = pid) := by
      rintro ⟨hid, hpid⟩
      have hslot := hp.slot j hover.1
      rw [hid, hpid] at hslot
      exact hj hslot
    rw [hsame]
    split
    · rw [pairHistory_summarised, if_neg hpair]
      exact .idle _
    · exact .idle _

/-- **An operation that spares the pair's window takes a turn.** -/
theorem step_turn (hp : Placed h.stcNs h.entries) (hwindow : h.config.windowMs ≠ 0) {op : Op}
    (hspares : op.Spares id pid h) :
    Turn h.config.windowNs h.stcNs (h.window id pid) (pairHistory id pid (observe h op))
      ((opStep h op).window id pid) := by
  cases op with
  | tick stcNs => exact .idle _
  | flush j => exact flush_turn hp j
  | resolve id' =>
    have hsame : (opStep h (.resolve id')).window id pid = h.window id pid :=
      window_congr (by
        show (resolveAlert h id').entries _ = _
        rw [(resolve_keeps h id').2.2])
    rw [hsame, observe_resolve]
    split <;> exact .idle _
  | report id' name pid' =>
    have hentries := report_entries h id' name pid'
    rw [observe_report]
    by_cases hfires : tsaAlertIsSuppressedByTree h id' = false ∧ (h.alerts id').status = .off
    · rw [if_pos hfires] at hentries ⊢
      rw [pairHistory_fired]
      have hspares' := hspares hfires.1 hfires.2
      by_cases hpair : id' = id ∧ pid' = pid
      · rw [if_pos hpair]
        obtain ⟨rfl, rfl⟩ := hpair
        exact own_turn hp hwindow (hspares' rfl) hentries
      · rw [if_neg hpair]
        by_cases hhash : alertAggregatorHash id' pid' = alertAggregatorHash id pid
        · exact other_turn hp hwindow hpair hhash (hspares' hhash) hentries
        · have hsame : (opStep h (.report id' name pid')).window id pid = h.window id pid := by
            refine window_congr ?_
            show (tsaAlertUpdate h id' true name pid').entries _ = _
            rw [hentries, aggregated_of_ne h id' name pid' (Ne.symm hhash)]
          rw [hsame]
          exact .idle _
    · rw [if_neg hfires] at hentries ⊢
      have hsame : (opStep h (.report id' name pid')).window id pid = h.window id pid :=
        window_congr (congrFun hentries _)
      rw [hsame]
      exact .idle _

end Turn

/-! ## Whole runs -/

/-- The books of one pair along a run. -/
structure Kept (id : AlertId) (pid : Nat) (config : AlertConfig) (h : Alerts)
    (past : List Happening) : Prop where
  same : h.config = config
  placed : Placed h.stcNs h.entries
  books : Books config.windowNs h.stcNs (h.window id pid) (pairHistory id pid past)

theorem opStep_stcNs_le (htimely : op.Timely h) : h.stcNs ≤ (opStep h op).stcNs := by
  cases op with
  | tick stcNs => exact htimely.1
  | report id name pid => exact (report_keeps h id name pid).2.ge
  | flush j => exact (flush_keeps h j).2.1.ge
  | resolve id => exact (resolve_keeps h id).2.1.ge

theorem step_kept {past : List Happening} (hk : Kept id pid config h past)
    (hwindow : config.windowMs ≠ 0) (htimely : op.Timely h) (hspares : op.Spares id pid h) :
    Kept id pid config (opStep h op) (past ++ observe h op) where
  same := (opStep_config h op).trans hk.same
  placed := step_placed hk.placed htimely
  books := by
    have hturn := step_turn hk.placed (hk.same ▸ hwindow) hspares
    rw [hk.same] at hturn
    rw [pairHistory_append]
    exact (hk.books.turn hturn).later (opStep_stcNs_le htimely)

theorem run_kept (id : AlertId) (pid : Nat) (hwindow : config.windowMs ≠ 0) {cs : List Call}
    (htimely : Along Call.Timely callStep (.fresh config) cs)
    (hspares : Along (Call.Spares id pid) callStep (.fresh config) cs) :
    Kept id pid config (run engine (.fresh config) cs).1 (run engine (.fresh config) cs).2 := by
  have hops : Along (fun h op => op.Timely h ∧ op.Spares id pid h) opStep (.fresh config)
      (expand (.fresh config) cs) :=
    along_expand (fun h c hboth => along_and hboth.1.ops (Call.spares_iff.mp hboth.2))
      (along_and htimely hspares)
  rw [run_engine_eq]
  refine run_history (J := Kept id pid config)
    (fun h past op hk hop => step_kept hk hwindow hop.1 hop.2) (expand (.fresh config) cs)
    (.fresh config) [] ⟨rfl, placed_fresh config, ?_⟩ hops
  exact Books.start _ _

theorem foldl_placed {ops : List Op} (hp : Placed h.stcNs h.entries)
    (hops : ∀ op ∈ ops, ∀ t, op ≠ .tick t) :
    Placed (ops.foldl opStep h).stcNs (ops.foldl opStep h).entries ∧
      (ops.foldl opStep h).config = h.config := by
  induction ops generalizing h with
  | nil => exact ⟨hp, rfl⟩
  | cons op ops ih =>
    have hstep := step_placed hp (Op.timely_of_no_tick (hops op mem_cons_self) h)
    obtain ⟨hplaced, hconfig⟩ := ih hstep fun op' hop' => hops op' (mem_cons_of_mem _ hop')
    exact ⟨hplaced, hconfig.trans (opStep_config h op)⟩

theorem check_closes (hp : Placed h.stcNs h.entries) (m : Monitors) {v : Window.Open}
    (hv : (callStep h (.check m)).window id pid = some v) :
    (callStep h (.check m)).stcNs < v.start + h.config.windowNs := by
  obtain ⟨hr, hhr⟩ : ∃ hr, hr = (m.reports h.stcNs).foldl opStep h := ⟨_, rfl⟩
  obtain ⟨hplaced, hconfig⟩ : Placed hr.stcNs hr.entries ∧ hr.config = h.config :=
    hhr ▸ foldl_placed hp reports_no_tick
  have hstep : callStep h (.check m) =
      AlertId.all.foldl resolveAlert ((range alertAggregatorSize).foldl flushEntry hr) := by
    rw [hhr, ← checkTimeouts_eq]
    rfl
  obtain ⟨-, k2, -, k4⟩ := settled_state hr
  rw [← hstep] at k2 k4
  obtain ⟨hactive, -, -, hstart, -⟩ := window_eq_some.mp hv
  rw [k4 _ (hash_lt id pid)] at hactive hstart
  rw [k2]
  unfold AggregatorEntry.expire at hactive hstart
  split at hactive
  · cases hactive
  · next hover =>
    rw [if_neg hover] at hstart
    have hle := hplaced.start _ hactive
    have hlt := Nat.lt_of_not_le fun hge => hover ⟨hactive, hge⟩
    rw [sub64_of_le hle hplaced.now_lt, hstart, hconfig] at hlt
    rw [hstart] at hle
    show _ < v.start + h.config.windowMs * 1000000
    omega

/-- **Aggregation is lossless for a pair whose window is spared.**  Over every sequence of calls
    with non-decreasing `stc_ns`: its notifications are a whole window apart; each of its summaries
    counts the hit that opened the window and the hits suppressed since the summary before, and the
    hits in no summary yet are those its open window holds; and every check leaves only windows open
    that are not over, so that they are summarised by the first check after that. -/
theorem aggregation_lossless (id : AlertId) (pid : Nat) (config : AlertConfig)
    (hwindow : 0 < config.windowMs) (cs : List Call)
    (htimely : Along Call.Timely callStep (.fresh config) cs)
    (hspares : Along (Call.Spares id pid) callStep (.fresh config) cs) :
    let r := run engine (.fresh config) cs
    Throughout (Spaced config.windowNs) (pairHistory id pid r.2) ∧
      tally (pairHistory id pid r.2) = some (pending (r.1.window id pid)) ∧
      ∀ m v, (callStep r.1 (.check m)).window id pid = some v →
        (callStep r.1 (.check m)).stcNs < v.start + config.windowNs := by
  intro r
  have hkept : Kept id pid config r.1 r.2 := run_kept id pid (Nat.ne_of_gt hwindow) htimely hspares
  refine ⟨hkept.books.spaced, hkept.books.tallied, fun m v hv => ?_⟩
  have hclosed := check_closes hkept.placed m hv
  rwa [hkept.same] at hclosed

/-! ## Two pairs in one slot -/

theorem spares_of_forall {c : Call} (hops : ∀ op ∈ c.ops h, ∀ h, op.Spares id pid h) :
    c.Spares id pid h :=
  Call.spares_iff.mpr (along_of_forall hops)

theorem once_spares (i : AlertId) (config : AlertConfig) :
    Along (Call.Spares i 0) callStep (.fresh config) (onceCalls i) := by
  refine ⟨?_, ?_, ?_, trivial⟩
  · exact Call.spares_iff.mpr ⟨fun _ _ _ v hv => (by cases hv), trivial⟩
  · exact Call.spares_iff.mpr ⟨trivial, trivial⟩
  · refine spares_of_forall fun op hop h => ?_
    rw [unlocked_ops] at hop
    rcases settling_cases hop with ⟨j, rfl⟩ | ⟨id, rfl⟩
    · trivial
    · trivial

theorem once_timely (i : AlertId) (hwide : pidTimeoutNs < config.windowMs * 1000000) :
    Along Call.Timely callStep (.fresh config) (onceCalls i) := by
  have htwice := twice_timely i hwide
  simp only [twiceCalls, along_append] at htwice
  exact htwice.1.1.1

/-- The second hit of an alert that fires twice in its window leaves the window alone. -/
theorem twice_spares (i : AlertId) (hwide : pidTimeoutNs < config.windowMs * 1000000) :
    Along (Call.Spares i 0) callStep (.fresh config) (twiceCalls i) := by
  have hchecks : ∀ h, Call.Spares i 0 h (.check .unlocked) := by
    intro h
    refine spares_of_forall fun op hop h => ?_
    rw [unlocked_ops] at hop
    rcases settling_cases hop with ⟨j, rfl⟩ | ⟨id, rfl⟩
    · trivial
    · trivial
  refine along_append.mpr ⟨along_append.mpr ⟨along_append.mpr ⟨once_spares i config, ?_, trivial⟩,
    Call.spares_iff.mpr ⟨trivial, trivial⟩, trivial⟩, hchecks _, trivial⟩
  obtain ⟨-, -, -, hin, -, hone⟩ := once_inWindow i hwide
  rw [← run_engine_fst]
  generalize (run engine (.fresh config) (onceCalls i)).1 = h3 at hin hone ⊢
  refine Call.spares_iff.mpr ⟨?_, trivial⟩
  intro _ _ _ v hv
  obtain ⟨-, -, -, -, hcount⟩ := window_eq_some.mp hv
  rw [if_pos hin, ← hcount, hone]
  decide

/-- The second check closes the window. -/
theorem twice_closed (i : AlertId) (hwide : pidTimeoutNs < config.windowMs * 1000000)
    (hover : config.windowMs * 1000000 ≤ 2 * pidTimeoutNs + 2) :
    (run engine (.fresh config) (twiceCalls i)).1.window i 0 = none := by
  obtain ⟨hconfig, -, hoff, hin, hstart, -⟩ := once_inWindow i hwide
  obtain ⟨h3, hh3⟩ : ∃ h3, h3 = (run engine (.fresh config) (onceCalls i)).1 := ⟨_, rfl⟩
  rw [← hh3] at hconfig hoff hin hstart
  obtain ⟨h4, hh4⟩ : ∃ h4, h4 = tsaAlertUpdate h3 i true (tsaAlertGetName i) 0 := ⟨_, rfl⟩
  have hstart4 : (h4.entries (alertAggregatorHash i 0)).windowStartNs = 0 := by
    rw [hh4, report_entries, if_pos ⟨tree_of_all_off hoff i, hoff i⟩, aggregated_inWindow h3 i _ 0 hin,
      update_self]
    exact hstart
  have hconfig4 : h4.config = config := by
    rw [hh4]
    exact (report_keeps h3 i _ 0).1.trans hconfig
  obtain ⟨-, -, -, k4⟩ := unlocked_state { h4 with stcNs := 2 * pidTimeoutNs + 2 }
  have hrun : (run engine (.fresh config) (twiceCalls i)).1 =
      callStep { h4 with stcNs := 2 * pidTimeoutNs + 2 } (.check .unlocked) := by
    rw [twiceCalls, run_engine_snoc_fst, run_engine_snoc_fst, run_engine_snoc_fst, ← hh3, hh4]
    rfl
  rw [hrun, Alerts.window]
  refine if_neg fun hown => ?_
  have hactive := hown.1
  rw [k4 _ (hash_lt i 0)] at hactive
  unfold AggregatorEntry.expire at hactive
  split at hactive
  · cases hactive
  · next hopen =>
    refine hopen ⟨hactive, ?_⟩
    show h4.config.windowMs * 1000000 ≤ sub64 (2 * pidTimeoutNs + 2) _
    rw [hstart4, hconfig4, sub64_of_le (Nat.zero_le _) (by decide)]
    exact hover

theorem twice_suppressed (i : AlertId) (hwide : pidTimeoutNs < config.windowMs * 1000000) :
    .hit (pidTimeoutNs + 1) true ∈
      pairHistory i 0 (run engine (.fresh config) (twiceCalls i)).2 := by
  obtain ⟨-, hstc, hoff, hin, -⟩ := once_inWindow i hwide
  rw [twiceCalls, run_engine_snoc, run_engine_snoc, run_engine_snoc,
    engine_fires (tree_of_all_off hoff i) (hoff i), hin, hstc, pairHistory_append,
    pairHistory_append, pairHistory_append, pairHistory_fired, if_pos ⟨rfl, rfl⟩]
  exact mem_append_left _ (mem_append_left _ (mem_append_right _ (mem_singleton_self _)))

/-- A PMT error fires twice in its window: the second hit is suppressed, and no window holds it
    after the second check, so that it is in a summary. -/
theorem twiceRun_lossless :
    let r := run engine (.fresh webhookConfig) (twiceCalls .pmt)
    (Throughout (Spaced webhookConfig.windowNs) (pairHistory .pmt 0 r.2) ∧
      tally (pairHistory .pmt 0 r.2) = some (pending (r.1.window .pmt 0)) ∧
      ∀ m v, (callStep r.1 (.check m)).window .pmt 0 = some v →
        (callStep r.1 (.check m)).stcNs < v.start + webhookConfig.windowNs) ∧
      .hit (pidTimeoutNs + 1) true ∈ pairHistory .pmt 0 r.2 ∧ r.1.window .pmt 0 = none :=
  ⟨aggregation_lossless .pmt 0 webhookConfig (by decide) (twiceCalls .pmt)
    (twice_timely .pmt (by decide)) (twice_spares .pmt (by decide)),
    twice_suppressed .pmt (by decide), twice_closed .pmt (by decide) (by decide)⟩

/-- A PMT error that fires twice within its window, and then a PAT error that takes its slot. -/
def collidingCalls : List Call :=
  onceCalls .pmt ++ [.update .pmt true "PMT" 0] ++ [.update .pat true "PAT" 31]

/-- The second hit of PMT is suppressed, and then in no summary and no window. -/
theorem collidingRun_loses :
    let r := run engine (.fresh webhookConfig) collidingCalls
    Along Call.Timely callStep (.fresh webhookConfig) collidingCalls ∧
      tally (pairHistory .pmt 0 r.2) ≠ some (pending (r.1.window .pmt 0)) := by
  intro r
  have htimely : Along Call.Timely callStep (.fresh webhookConfig) collidingCalls :=
    along_append.mpr ⟨along_append.mpr ⟨once_timely .pmt (by decide), trivial, trivial⟩,
      trivial, trivial⟩
  refine ⟨htimely, ?_⟩
  have hkept := run_kept .pmt 0 (by decide) (once_timely .pmt (by decide))
    (once_spares .pmt webhookConfig)
  obtain ⟨hconfig, -, hoff, hin, -⟩ := @once_inWindow webhookConfig .pmt (by decide)
  obtain ⟨h3, hh3⟩ : ∃ h3, h3 = (run engine (.fresh webhookConfig) (onceCalls .pmt)).1 := ⟨_, rfl⟩
  rw [← hh3] at hkept hconfig hoff hin
  -- The second hit of PMT is suppressed.
  have htree := tree_of_all_off hoff .pmt
  obtain ⟨h4, hh4⟩ : ∃ h4, h4 = callStep h3 (.update .pmt true "PMT" 0) := ⟨_, rfl⟩
  have hseen4 := engine_fires htree (hoff .pmt) "PMT" 0
  rw [hin] at hseen4
  have halerts4 : h4.alerts = update h3.alerts .pmt ((h3.alerts .pmt).hit h3.stcNs) := by
    rw [hh4]
    show (tsaAlertUpdate h3 .pmt true "PMT" 0).alerts = _
    rw [report_alerts, htree]
    rfl
  have hwindow4 : h4.config.windowMs ≠ 0 := by
    rw [hh4, show (callStep h3 (.update .pmt true "PMT" 0)).config = _ from
      (report_keeps h3 .pmt "PMT" 0).1, hconfig]
    decide
  -- The hit of PAT takes its slot.
  have htree4 : tsaAlertIsSuppressedByTree h4 .pat = false := by
    simp [tsaAlertIsSuppressedByTree, halerts4, hoff]
  have hoff4 : (h4.alerts .pat).status = .off := by
    rw [halerts4, update_of_ne (by decide), hoff]
  have hseen5 := engine_fires htree4 hoff4 "PAT" 31
  have hnone : (callStep h4 (.update .pat true "PAT" 31)).window .pmt 0 = none := by
    refine @window_taken h4 .pmt 0 hwindow4 .pat 31 "PAT" (by decide) rfl _ ?_
    exact (report_entries h4 .pat "PAT" 31).trans (if_pos ⟨htree4, hoff4⟩)
  have hrun4 : (run engine (.fresh webhookConfig)
      (onceCalls .pmt ++ [.update .pmt true "PMT" 0])).1 = h4 := by
    rw [run_engine_snoc_fst, ← hh3, hh4]
  have hstate : r.1 = callStep h4 (.update .pat true "PAT" 31) := by
    show (run engine (.fresh webhookConfig) collidingCalls).1 = _
    rw [collidingCalls, run_engine_snoc_fst, hrun4]
  have hhistory : pairHistory .pmt 0 r.2 =
      pairHistory .pmt 0 (run engine (.fresh webhookConfig) (onceCalls .pmt)).2 ++
        [.hit h3.stcNs true] := by
    show pairHistory .pmt 0 (run engine (.fresh webhookConfig) collidingCalls).2 = _
    rw [collidingCalls, run_engine_snoc, run_engine_snoc, hrun4, ← hh3, hseen4, hseen5]
    rw [pairHistory_append, pairHistory_append, pairHistory_fired, pairHistory_fired,
      if_pos ⟨rfl, rfl⟩, if_neg (by decide), append_nil]
  have htally := hkept.books.tallied
  rw [hstate, hnone, hhistory, tally, foldl_append, ← tally, htally]
  simp [tallyStep, pending]

end TsAnalyzer.Alarm
