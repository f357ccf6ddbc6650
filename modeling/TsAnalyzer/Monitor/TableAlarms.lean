/-
  Table alarms: when `TSA_ALERT_PAT` and `TSA_ALERT_PMT` fire.

  The section filter stamps a table with `current_ns`, which still holds the arrival time of the
  packet BEFORE.  The plugin compares the stamps with each packet's arrival time, the resolver with
  the clock.
-/
import TsAnalyzer.Monitor.ProgramTable
import TsAnalyzer.Monitor.Resolver

namespace TsAnalyzer.Monitor

open Lib Alarm Essence Packet Pipeline List
open Psi

variable {ρ : Type}

/-! ## History -/

/-- A packet that gets to the plugins. -/
structure Arrival where
  atNs : Nat
  /-- It brings a PAT. -/
  pat : Bool
  /-- The program whose PMT it brings. -/
  pmt : Option Nat
  /-- The programs then in the table, but those on PID 0. -/
  programs : List Nat
  /-- A firing SYNC alert hides the alarms of tables. -/
  hidden : Bool

/-- What an observer notes. -/
inductive Sighting where
  | arrival (x : Arrival)
  /-- A snapshot at this clock; `watching` with the signal locked and the clock started. -/
  | check (stcNs : Nat) (watching hidden : Bool)

/-- The packets of a history. -/
def arrivals (out : List Sighting) : List Arrival :=
  out.filterMap fun
    | .arrival x => some x
    | .check .. => none

def lastAt (xs : List Arrival) : Nat := (xs.getLast?.map Arrival.atNs).getD 0

/-- The arrival time of the packet in front of the last one that `sel` selects; 0 where there is
    none. -/
def stamp (sel : Arrival → Bool) (xs : List Arrival) : Nat :=
  lastAt (xs.rdropWhile fun x => !sel x).dropLast

theorem lastAt_snoc (xs : List Arrival) (x : Arrival) : lastAt (xs ++ [x]) = x.atNs := by
  simp [lastAt]

theorem stamp_snoc (sel : Arrival → Bool) (xs : List Arrival) (x : Arrival) :
    stamp sel (xs ++ [x]) = if sel x then lastAt xs else stamp sel xs := by
  simp only [stamp, rdropWhile_concat]
  cases sel x with
  | true => simp
  | false => simp

theorem arrivals_snoc_arrival (out : List Sighting) (x : Arrival) :
    arrivals (out ++ [.arrival x]) = arrivals out ++ [x] := by
  simp [arrivals]

theorem arrivals_snoc_check (out : List Sighting) (stcNs : Nat) (watching hidden : Bool) :
    arrivals (out ++ [.check stcNs watching hidden]) = arrivals out := by
  simp [arrivals]

def Arrival.bringsPmt (n : Nat) (x : Arrival) : Bool := x.pmt = some n

/-- **No table is overdue**: not in front of the packet, as far as the plugin looks at it, and not
    at the snapshot. -/
def Punctual (out : List Sighting) : Sighting → Prop
  | .arrival x => x.hidden = true ∨
      (sub64 x.atNs (stamp Arrival.pat (arrivals out ++ [x])) ≤ patTimeoutNs ∧
        ∀ n ∈ x.programs,
          sub64 x.atNs (stamp (Arrival.bringsPmt n) (arrivals out ++ [x])) ≤ pmtTimeoutNs)
  | .check stcNs watching hidden => hidden = true ∨ watching = false ∨
      stamp Arrival.pat (arrivals out) = 0 ∨
      sub64 stcNs (stamp Arrival.pat (arrivals out)) ≤ patTimeoutNs

/-- The programs of the table whose PMT the plugin waits for. -/
def awaited (t : Tables) : List Nat :=
  (t.programs.rows.filter fun q => q.pmtPid ≠ 0).map ProgramInfo.programNumber

variable {t : Tables}

variable {m : Memory} {n : Nat} {pkt : PacketPtr} (P : Parts ρ)

theorem mem_awaited :
    n ∈ awaited t ↔ ∃ q ∈ t.programs.rows, q.pmtPid ≠ 0 ∧ q.programNumber = n := by
  simp [awaited, and_assoc]

def pmtProgram (t : Tables) (pid : Nat) : Option Nat :=
  (t.programs.rows.find? fun q => q.pmtPid = pid).map ProgramInfo.programNumber

/-- What is noted of a call. -/
def sightings (P : Parts ρ) (h : MonitorHandle ρ) : Input → List Sighting
  | .packet m pkt n =>
    let i := Input.packet m pkt n
    if (heard P h (m.byte pkt) n).isSome then
      [.arrival
        { atNs := n
          pat := (sectionHeard P 0x00 h i).isSome
          pmt := if (sectionHeard P 0x02 h i).isSome then pmtProgram h.rest.watch.tables i.pid
            else none
          programs := awaited (inputStep P h i).rest.watch.tables
          hidden := hides h.alarms }]
    else []
  | .internalDrop _ => []
  | .commitSnapshot n =>
    [.check h.alarms.stcNs (h.alarms.signalLock && 0 < h.alarms.stcNs)
      (hides h.alarms || silent h n)]

/-- The analyzer, and what is noted. -/
def sightingPush (P : Parts ρ) (h : MonitorHandle ρ) (i : Input) :
    MonitorHandle ρ × List Sighting :=
  (inputStep P h i, sightings P h i)

/-! ## Stamps -/

/-- The PMT stamps of the table are those of `f`, which knows no stamp of other programs. -/
structure Timed (f : Nat → Nat) (t : Tables) : Prop where
  rows : ∀ q ∈ t.programs.rows, q.lastPmtNs = f q.programNumber
  absent : ∀ n, n ∉ t.programs.keys → f n = 0

variable {f : Nat → Nat}

theorem Timed.listProgram (h : Timed f t) (e : Nat × Nat) : Timed f (listProgram t e) := by
  obtain ⟨n, ppid⟩ := e
  rw [Psi.listProgram]
  split
  · exact h
  · split
    · constructor
      · intro q hq
        simp only [KeyTable.mem_update] at hq
        rcases hq with ⟨hq, -⟩ | ⟨r, hr, -, rfl⟩
        · exact h.rows q hq
        · exact h.rows r hr
      · intro k hk
        simp only [KeyTable.keys_update] at hk
        exact h.absent k hk
    · rename_i hfind
      split
      · constructor
        · intro q hq
          simp only [KeyTable.mem_add] at hq
          rcases hq with hq | rfl
          · exact h.rows q hq
          · exact (h.absent n (KeyTable.find?_eq_none.mp hfind)).symm
        · intro k hk
          simp only [KeyTable.keys_add, mem_append, not_or] at hk
          exact h.absent k hk.1
      · exact h

theorem Timed.processPat (h : Timed f t) (p : Nat → UInt8)
    (now : Nat) : Timed f (processPat t p now) := by
  have hloop : ∀ (es : List (Nat × Nat)) (t : Tables), Timed f t →
      Timed f (es.foldl Psi.listProgram t) := by
    intro es
    induction es with
    | nil => exact fun t ht => ht
    | cons e es ih => exact fun t ht => ih _ (ht.listProgram e)
  exact hloop (patLoop p) _ ⟨h.rows, h.absent⟩

theorem Timed.processPmt (h : Timed f t) (pid : Nat) (p : Nat → UInt8) (now : Nat) :
    Timed (fun n => if pmtProgram t pid = some n then now else f n) (processPmt t pid p now) := by
  rw [Psi.processPmt, pmtProgram]
  simp only
  cases hfind : t.programs.rows.find? fun q => q.pmtPid = pid with
  | none =>
    simp only [Option.map_none, reduceCtorEq, if_false]
    exact ⟨h.rows, h.absent⟩
  | some q0 =>
    simp only [Option.map_some, Option.some.injEq]
    constructor
    · intro q hq
      simp only [KeyTable.mem_update] at hq
      rcases hq with ⟨hq, hne⟩ | ⟨r, hr, hkey, rfl⟩
      · rw [if_neg (Ne.symm hne)]
        exact h.rows q hq
      · rw [if_pos hkey.symm]
    · intro k hk
      simp only [KeyTable.keys_update] at hk
      have hmem : q0.programNumber ∈ t.programs.keys :=
        mem_map_of_mem (mem_of_find?_eq_some hfind)
      have hne : q0.programNumber ≠ k := fun heq => hk (heq ▸ hmem)
      rw [if_neg hne]
      exact h.absent k hk

theorem processPat_lastPatNs (t : Tables) (p : Nat → UInt8) (now : Nat) :
    (processPat t p now).lastPatNs = now := by
  have hloop : ∀ (es : List (Nat × Nat)) (t : Tables),
      (es.foldl listProgram t).lastPatNs = t.lastPatNs := by
    intro es
    induction es with
    | nil => exact fun t => rfl
    | cons e es ih =>
      intro t
      rw [foldl_cons, ih]
      obtain ⟨n, ppid⟩ := e
      rw [listProgram]
      split
      · rfl
      · split
        · rfl
        · split <;> rfl
  exact hloop (patLoop p) _

theorem processPmt_lastPatNs (t : Tables) (pid : Nat) (p : Nat → UInt8) (now : Nat) :
    (processPmt t pid p now).lastPatNs = t.lastPatNs := by
  rw [processPmt]
  simp only
  split <;> rfl

/-- The stamps of the handle are those of the history. -/
structure Stamped (h : MonitorHandle ρ) (out : List Sighting) : Prop where
  current : h.rest.watch.currentNs = lastAt (arrivals out)
  pat : h.rest.watch.tables.lastPatNs = stamp Arrival.pat (arrivals out)
  pmt : Timed (fun n => stamp (Arrival.bringsPmt n) (arrivals out)) h.rest.watch.tables

variable {h : MonitorHandle ρ} {out : List Sighting}

theorem Stamped.congr {h' : MonitorHandle ρ} {out' : List Sighting} (hst : Stamped h out)
    (hwatch : h'.rest.watch = h.rest.watch) (hsame : arrivals out' = arrivals out) :
    Stamped h' out' := by
  constructor
  · rw [hwatch, hsame]
    exact hst.current
  · rw [hwatch, hsame]
    exact hst.pat
  · rw [hwatch, hsame]
    exact hst.pmt

theorem stamped_step (hst : Stamped h out) (i : Input) :
    Stamped (sightingPush P h i).1 (out ++ (sightingPush P h i).2) := by
  rw [sightingPush]
  cases i with
  | internalDrop dropCount =>
    show Stamped (tsaHandleInternalDrop h dropCount) (out ++ [])
    rw [append_nil]
    exact ⟨hst.current, hst.pat, hst.pmt⟩
  | commitSnapshot n =>
    exact hst.congr (tsaCommitSnapshot_watch P h n) (arrivals_snoc_check out _ _ _)
  | packet m pkt n =>
    simp only [sightings]
    cases hheard : heard P h (m.byte pkt) n with
    | none =>
      rw [Option.isSome_none, if_neg (by decide), append_nil]
      exact hst.congr (unheard_watch hheard) rfl
    | some res =>
      rw [Option.isSome_some, if_pos rfl]
      have hcurrent := heard_currentNs hheard
      have heff := inputStep_tables P h (.packet m pkt n)
      generalize (inputStep P h (.packet m pkt n)) = h' at hcurrent heff ⊢
      obtain ⟨t', ht'⟩ : ∃ t', h'.rest.watch.tables = t' := ⟨_, rfl⟩
      rw [ht'] at heff
      -- the clock is the same for all three cases, the tables are not
      refine ⟨?_, ?_, ?_⟩
      · rw [arrivals_snoc_arrival, lastAt_snoc]
        exact hcurrent
      · rw [arrivals_snoc_arrival, stamp_snoc, ht']
        cases heff with
        | pat p hp =>
          simp only [hp, Option.isSome_some, if_true]
          rw [processPat_lastPatNs, hst.current]
        | pmt p hp hnone =>
          simp only [hnone, Option.isSome_none, Bool.false_eq_true, if_false]
          rw [processPmt_lastPatNs, hst.pat]
        | other crcErrorCount hnone hpmt =>
          simp only [hnone, Option.isSome_none, Bool.false_eq_true, if_false]
          exact hst.pat
      · rw [arrivals_snoc_arrival, ht']
        simp only [stamp_snoc, Arrival.bringsPmt]
        cases heff with
        | pat p hp =>
          have hnone : sectionHeard P 0x02 h (.packet m pkt n) = none := by
            by_contra hsome
            obtain ⟨q, hq⟩ := Option.ne_none_iff_exists'.mp hsome
            exact absurd (sectionHeard_unique hp hq) (by decide)
          simp only [hnone, Option.isSome_none, Bool.false_eq_true, if_false, reduceCtorEq,
            decide_false]
          exact hst.pmt.processPat p h.rest.watch.currentNs
        | pmt p hp hnone =>
          simp only [hp, Option.isSome_some, if_true, decide_eq_true_eq, ← hst.current]
          exact hst.pmt.processPmt _ p h.rest.watch.currentNs
        | other crcErrorCount hnone hpmt =>
          simp only [hpmt, Option.isSome_none, Bool.false_eq_true, if_false, reduceCtorEq,
            decide_false]
          exact ⟨hst.pmt.rows, hst.pmt.absent⟩

/-! ## Alarms of one packet -/

/-- Neither table alarm is firing. -/
structure Quiet (a : Alerts) : Prop where
  pat : (a.alerts .pat).status = .off
  pmt : (a.alerts .pmt).status = .off

theorem Quiet.congr {a b : Alerts} (hpat : b.alerts .pat = a.alerts .pat)
    (hpmt : b.alerts .pmt = a.alerts .pmt) : Quiet b ↔ Quiet a := by
  constructor
  · intro h
    exact ⟨hpat ▸ h.pat, hpmt ▸ h.pmt⟩
  · intro h
    exact ⟨hpat.symm ▸ h.pat, hpmt.symm ▸ h.pmt⟩

variable {id : AlertId}

theorem report_table_off (h : Alerts) (hid : id = .pat ∨ id = .pmt) (name : String)
    (pid : Nat) : ((tsaAlertUpdate h id true name pid).alerts id).status = .off ↔
      (h.alerts id).status = .off ∧ (h.alerts .sync).status = .firing := by
  rw [report_alerts, tree_table h hid]
  by_cases hsync : (h.alerts .sync).status = .firing
  · simp [hsync]
  · simp [hsync, AlertState.hit]

theorem update_table_off (a : Alarms) (hid : id = .pat ∨ id = .pmt) (name : String)
    (pid : Nat) : ((a.update id true name pid).alerts id).status = .off ↔
      (a.alerts id).status = .off ∧ hides a = true := by
  rw [hides, decide_eq_true_eq]
  exact report_table_off a.toAlerts hid name pid

theorem checkPat_off (a : Alarms) (lastPatNs now : Nat) :
    ((Tr101290.checkPat a lastPatNs now).alerts .pat).status = .off ↔
      (a.alerts .pat).status = .off ∧ (hides a = true ∨ sub64 now lastPatNs ≤ patTimeoutNs) := by
  rw [Tr101290.checkPat]
  split
  · rename_i hlate
    rw [update_table_off a (.inl rfl)]
    have hnot : ¬ sub64 now lastPatNs ≤ patTimeoutNs := Nat.not_le.mpr hlate
    simp only [hnot, or_false]
  · rename_i hlate
    have hin : sub64 now lastPatNs ≤ patTimeoutNs := Nat.not_lt.mp hlate
    simp only [hin, or_true, and_true]
    exact Iff.rfl

theorem checkPmt_off (now : Nat) (a : Alarms) (q : ProgramInfo) :
    ((Tr101290.checkPmt now a q).alerts .pmt).status = .off ↔
      (a.alerts .pmt).status = .off ∧
        (hides a = true ∨ (q.pmtPid ≠ 0 → sub64 now q.lastPmtNs ≤ pmtTimeoutNs)) := by
  rw [Tr101290.checkPmt]
  split
  · rename_i hzero
    simp only [hzero, ne_eq, not_true, false_imp_iff, or_true, and_true]
  · rename_i hzero
    split
    · rename_i hlate
      rw [update_table_off a (.inr rfl)]
      have hnot : ¬ sub64 now q.lastPmtNs ≤ pmtTimeoutNs := Nat.not_le.mpr hlate
      simp only [ne_eq, hzero, not_false_eq_true, true_imp_iff, hnot, or_false]
    · rename_i hlate
      have hin : sub64 now q.lastPmtNs ≤ pmtTimeoutNs := Nat.not_lt.mp hlate
      simp only [hin, implies_true, or_true, and_true]
      exact Iff.rfl

theorem hides_congr {ids : List AlertId} {a b : Alarms} (h : AlarmPath ids a b)
    (hsync : .sync ∉ ids) : hides b = hides a := by
  rw [hides, hides, h.alerts hsync]

theorem checkPmts_off (now : Nat) (qs : List ProgramInfo) (a : Alarms) :
    ((qs.foldl (Tr101290.checkPmt now) a).alerts .pmt).status = .off ↔
      (a.alerts .pmt).status = .off ∧
        (hides a = true ∨ ∀ q ∈ qs, q.pmtPid ≠ 0 → sub64 now q.lastPmtNs ≤ pmtTimeoutNs) := by
  induction qs generalizing a with
  | nil => simp
  | cons q qs ih =>
    rw [foldl_cons, ih, checkPmt_off, forall_mem_cons,
      hides_congr (Tr101290.checkPmt_updates now a q).path (by decide), and_assoc, or_and_left]

theorem checks_quiet_iff {a : Alarms} (hquiet : Quiet a.toAlerts) (t : Tables) (now : Nat) :
    Quiet (t.programs.rows.foldl (Tr101290.checkPmt now)
        (Tr101290.checkPat a t.lastPatNs now)).toAlerts ↔
      hides a = true ∨ (sub64 now t.lastPatNs ≤ patTimeoutNs ∧
        ∀ q ∈ t.programs.rows, q.pmtPid ≠ 0 → sub64 now q.lastPmtNs ≤ pmtTimeoutNs) := by
  have hpat := (Tr101290.checkPat_updates a t.lastPatNs now).path
  have hpmt := (Tr101290.checkPmts_updates now t.programs.rows
    (Tr101290.checkPat a t.lastPatNs now)).path
  have hpatOff := checkPat_off a t.lastPatNs now
  have hpmtOff := checkPmts_off now t.programs.rows (Tr101290.checkPat a t.lastPatNs now)
  rw [← hpmt.alerts (by decide : AlertId.pat ∉ [AlertId.pmt])] at hpatOff
  rw [hpat.alerts (by decide), hides_congr hpat (by decide)] at hpmtOff
  rw [or_and_left]
  constructor
  · intro h
    exact ⟨(hpatOff.mp h.pat).2, (hpmtOff.mp h.pmt).2⟩
  · rintro ⟨hin, hins⟩
    exact ⟨hpatOff.mpr ⟨hquiet.pat, hin⟩, hpmtOff.mpr ⟨hquiet.pmt, hins⟩⟩

variable {i : AlertId}

theorem syncError_alerts {σ : Type} (h : Handle σ) (hi : i ≠ .sync) :
    (syncError h).alarms.alerts i = h.alarms.alerts i := by
  rw [syncError]
  simp only
  split
  · refine push_other _ (fun c id name haction => ?_) 0 0
    cases haction
    exact hi
  · rfl

theorem unheard_alerts {P : Parts ρ} (hnone : heard P h (m.byte pkt) n = none) (hi : i ≠ .sync)
    (hids : i ∉ essenceAlerts) :
    (inputStep P h (.packet m pkt n)).alarms.alerts i = h.alarms.alerts i := by
  have heff := packet_effect P h m pkt n
  rw [inputStep]
  generalize (tsaProcessPacket P.engines h m pkt n).handle = h' at heff ⊢
  rw [hnone] at heff
  cases heff with
  | noSync hsync hwatch =>
    rw [syncError_alerts _ hi, (arrive_calm (engines_tame P) h n).alarms.alerts hids]
  | filtered _ hsync hwatch halarms hloss => exact halarms.alerts hids

theorem unheard_quiet {P : Parts ρ} (hnone : heard P h (m.byte pkt) n = none)
    (hquiet : Quiet h.alarms.toAlerts) : Quiet (inputStep P h (.packet m pkt n)).alarms.toAlerts :=
  (Quiet.congr (unheard_alerts hnone (by decide) (by decide))
    (unheard_alerts hnone (by decide) (by decide))).mpr hquiet

/-- **Alarms of one packet**: both stay off exactly when they are hidden or no stamp the plugin
    finds is too old. -/
theorem plugin_quiet_iff {P : Parts ρ} {res : DecodeResult}
    (hheard : heard P h (m.byte pkt) n = some res) (hquiet : Quiet h.alarms.toAlerts) :
    Quiet (inputStep P h (.packet m pkt n)).alarms.toAlerts ↔ hides h.alarms = true ∨
      (sub64 n (inputStep P h (.packet m pkt n)).rest.watch.tables.lastPatNs ≤ patTimeoutNs ∧
        ∀ q ∈ (inputStep P h (.packet m pkt n)).rest.watch.tables.programs.rows, q.pmtPid ≠ 0 →
          sub64 n q.lastPmtNs ≤ pmtTimeoutNs) := by
  obtain ⟨a, -, -, hbefore, hwatch, hafter⟩ := heard_effect hheard
  generalize inputStep P h (.packet m pkt n) = h' at hwatch hafter ⊢
  have htables : h'.rest.watch.tables = h.rest.watch.filterSection res (m.byte pkt) := by
    rw [hwatch]
    rfl
  rw [htables]
  obtain ⟨a1, hin, hout⟩ := Tr101290.trOnTs_path
    { h.rest.watch.tracks res.pid with lastSeenVstc := a.stcNs }
    (h.rest.watch.filterSection res (m.byte pkt)) a (m.byte pkt) res n
  have hrest : AlarmPath essenceAlerts (Tr101290.trOnTs
    { h.rest.watch.tracks res.pid with lastSeenVstc := a.stcNs }
    (h.rest.watch.filterSection res (m.byte pkt)) a (m.byte pkt) res n).2 h'.alarms := hafter
  generalize h.rest.watch.filterSection res (m.byte pkt) = t' at hout hrest ⊢
  generalize (Tr101290.trOnTs _ t' a (m.byte pkt) res n).2 = a2 at hout hrest
  -- what comes before the two checks touches neither alert nor SYNC, what comes after no alert
  have hfront : hides a1 = hides h.alarms ∧ Quiet a1.toAlerts := by
    constructor
    · rw [hides_congr hin (by decide), hides_congr hbefore (by decide)]
    · constructor
      · rw [hin.alerts (by decide), hbefore.alerts (by decide)]
        exact hquiet.pat
      · rw [hin.alerts (by decide), hbefore.alerts (by decide)]
        exact hquiet.pmt
  have hback : Quiet h'.alarms.toAlerts ↔ Quiet (t'.programs.rows.foldl (Tr101290.checkPmt n)
      (Tr101290.checkPat a1 t'.lastPatNs n)).toAlerts :=
    Quiet.congr (by rw [hrest.alerts (by decide), hout.alerts (by decide)])
      (by rw [hrest.alerts (by decide), hout.alerts (by decide)])
  rw [hback, ← hfront.1]
  exact checks_quiet_iff hfront.2 t' n

/-! ## Alarms of one snapshot -/

theorem off_iff_not_firing (s : AlertStatus) : s = .off ↔ ¬ s = .firing := by
  cases s <;> decide

/-- **Alarms of one snapshot.** -/
theorem snapshot_quiet_iff (hquiet : Quiet h.alarms.toAlerts) (n : Nat) :
    Quiet (tsaCommitSnapshot P h n).alarms.toAlerts ↔
      (hides h.alarms || silent h n) = true ∨
      (h.alarms.signalLock && decide (0 < h.alarms.stcNs)) = false ∨
      h.rest.watch.tables.lastPatNs = 0 ∨
      sub64 h.alarms.stcNs h.rest.watch.tables.lastPatNs ≤ patTimeoutNs := by
  -- an alert that was off fires only if it times out, and no commit reports a PMT
  have hfires : ∀ i, (h.alarms.alerts i).status = .off →
      (((tsaCommitSnapshot P h n).alarms.alerts i).status = .off ↔ ¬ TimesOut P h n i) := by
    intro i hoff
    rw [off_iff_not_firing, commit_firing_before, hoff]
    simp
  have hsplit : Quiet (tsaCommitSnapshot P h n).alarms.toAlerts ↔ ¬ TimesOut P h n .pat :=
    ⟨fun hq => (hfires .pat hquiet.pat).mp hq.pat, fun hpat =>
      ⟨(hfires .pat hquiet.pat).mpr hpat, (hfires .pmt hquiet.pmt).mpr id⟩⟩
  rw [hsplit, TimesOut, ← Bool.not_eq_true, Bool.and_eq_true, decide_eq_true_eq,
    ← Bool.or_eq_true]
  by_cases hhidden : (hides h.alarms || silent h n) = true
  · exact iff_of_true (fun hall => hall.2.2.2 hhidden) (Or.inl hhidden)
  rw [and_iff_left hhidden, or_iff_right hhidden]
  by_cases hwatching : h.alarms.signalLock = true ∧ 0 < h.alarms.stcNs
  · rw [and_iff_right hwatching, or_iff_right (not_not_intro hwatching)]
    omega
  · exact iff_of_true (fun hall => hwatching hall.1) (Or.inl hwatching)

/-! ## Runs -/

theorem quiet_step_iff (hst : Stamped h out) (hquiet : Quiet h.alarms.toAlerts) (i : Input) :
    Quiet (sightingPush P h i).1.alarms.toAlerts ↔
      Throughout (fun pre x => Punctual (out ++ pre) x) (sightingPush P h i).2 := by
  have hnext := stamped_step P hst i
  rw [sightingPush] at hnext ⊢
  simp only at hnext ⊢
  cases i with
  | internalDrop dropCount => exact ⟨fun _ => throughout_nil _, fun _ => hquiet⟩
  | commitSnapshot n =>
    rw [sightings, throughout_singleton, append_nil, Punctual, ← hst.pat]
    exact snapshot_quiet_iff P hquiet n
  | packet m pkt n =>
    rw [sightings] at hnext ⊢
    cases hheard : heard P h (m.byte pkt) n with
    | none =>
      rw [Option.isSome_none, if_neg (by decide)]
      exact ⟨fun _ => throughout_nil _, fun _ => unheard_quiet hheard hquiet⟩
    | some res =>
      rw [hheard, Option.isSome_some, if_pos rfl] at hnext
      rw [Option.isSome_some, if_pos rfl, throughout_singleton, append_nil, Punctual,
        plugin_quiet_iff hheard hquiet]
      have hpat := hnext.pat
      have hpmt := hnext.pmt
      rw [arrivals_snoc_arrival] at hpat hpmt
      rw [← hpat]
      refine or_congr_right (and_congr_right fun _ => ?_)
      constructor
      · intro hrows k hk
        obtain ⟨q, hq, hpid, rfl⟩ := mem_awaited.mp hk
        rw [← hpmt.rows q hq]
        exact hrows q hq hpid
      · intro hks q hq hpid
        rw [hpmt.rows q hq]
        exact hks _ (mem_awaited.mpr ⟨q, hq, hpid, rfl⟩)

/-- **Table alarms**: in every run, neither `TSA_ALERT_PAT` nor `TSA_ALERT_PMT` ever fires exactly
    when the history of the run is punctual throughout. -/
theorem table_alarms_iff (P : Parts ρ) (config : AlertConfig) (rest : ρ) (is : List Input) :
    (∀ pre, pre <+: is →
        Quiet (run (sightingPush P) (freshHandle config rest) pre).1.alarms.toAlerts) ↔
      Throughout Punctual (run (sightingPush P) (freshHandle config rest) is).2 := by
  have hstart : Stamped (freshHandle config rest) [] :=
    ⟨rfl, rfl, ⟨fun q hq => absurd hq not_mem_nil, fun n _ => rfl⟩⟩
  exact run_throughout_iff (I := Stamped) (K := fun h => Quiet h.alarms.toAlerts) (P := Punctual)
    (fun h out i hst => stamped_step P hst i)
    (fun h out i hst hquiet => quiet_step_iff P hst hquiet i) is (freshHandle config rest) []
    hstart ⟨rfl, rfl⟩

/-- **A false alarm**: a stream whose first packet is a good PAT, at 600 ms on the clock. -/
theorem first_pat_fires :
    (sectionHeard Parts.idle 0x00 (freshHandle plainConfig ()) (packetOf patOne 600000000)).isSome ∧
      ((run (sightingPush Parts.idle) (freshHandle plainConfig ())
        [packetOf patOne 600000000]).1.alarms.alerts .pat).status = .firing := by
  decide +kernel

end TsAnalyzer.Monitor
