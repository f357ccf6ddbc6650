/-
  The program table against the PATs that filled it.

  `process_pat` only ever ADDS to the table: a program that is no longer listed stays, and
  `pid_is_pmt` is written when a program is appended and never again.
-/
import TsAnalyzer.Monitor.Handle

namespace TsAnalyzer.Monitor

open List Function

open Lib Alarm Packet Pipeline Psi
open Tr101290

variable {ρ : Type}

/-! ## One PAT -/

/-- The (program number, PMT PID) pairs of the table. -/
def tablePairs (t : Tables) : List (Nat × Nat) :=
  t.programs.rows.map fun q => (q.programNumber, q.pmtPid)

/-- The programs a PAT lists: its pairs with non-zero program number. -/
def patPrograms (pat : Nat → UInt8) : List (Nat × Nat) := (patLoop pat).filter fun e => e.1 ≠ 0

/-- The table holds exactly the programs of the PAT, and exactly their PIDs are marked. -/
structure Reflects (t : Tables) (pat : Nat → UInt8) : Prop where
  pairs : ∀ e, e ∈ tablePairs t ↔ e ∈ patPrograms pat
  marks : ∀ pid, t.pidIsPmt pid = true ↔ ∃ n, (n, pid) ∈ tablePairs t

/-- What a PAT must be like for the table it finds. -/
structure Faithful (t : Tables) (pat : Nat → UInt8) : Prop where
  relists : ∀ n ∈ t.programs.keys, ∃ pid, (n, pid) ∈ patPrograms pat
  consistent : ∀ n pid pid', (n, pid) ∈ patPrograms pat → (n, pid') ∈ patPrograms pat → pid = pid'
  marks : ∀ pid, (t.pidIsPmt pid = true ∨ ∃ n, (n, pid) ∈ patPrograms pat ∧ n ∉ t.programs.keys) ↔
    ∃ n, (n, pid) ∈ patPrograms pat

variable (t : Tables)

theorem mem_keys_iff (n : Nat) : n ∈ t.programs.keys ↔ ∃ pid, (n, pid) ∈ tablePairs t := by
  simp [KeyTable.keys, tablePairs]

theorem pmtPid_unique {n pid pid' : Nat} (h : (n, pid) ∈ tablePairs t)
    (h' : (n, pid') ∈ tablePairs t) : pid = pid' := by
  obtain ⟨q, hq, heq⟩ := mem_map.mp h
  obtain ⟨q', hq', heq'⟩ := mem_map.mp h'
  injection heq with hn hpid
  injection heq' with hn' hpid'
  have hrow : q = q' := t.programs.row_unique hq hq' (hn.trans hn'.symm)
  rw [← hpid, ← hpid', hrow]

/-- The three things a listed program can meet. -/
inductive ListEffect (t : Tables) (n ppid : Nat) : Tables → Prop
  | found (t' : Tables) (hmem : n ∈ t.programs.keys) (hkeys : t'.programs.keys = t.programs.keys)
      (hpairs : ∀ m pid, (m, pid) ∈ tablePairs t' ↔
        if m = n then pid = ppid else (m, pid) ∈ tablePairs t)
      (hmarks : t'.pidIsPmt = t.pidIsPmt) : ListEffect t n ppid t'
  | added (t' : Tables) (hnew : n ∉ t.programs.keys)
      (hkeys : t'.programs.keys = t.programs.keys ++ [n])
      (hpairs : ∀ m pid, (m, pid) ∈ tablePairs t' ↔
        if m = n then pid = ppid else (m, pid) ∈ tablePairs t)
      (hmarks : t'.pidIsPmt = update t.pidIsPmt ppid true) : ListEffect t n ppid t'
  | full (hnew : n ∉ t.programs.keys) (hfull : ¬ t.programs.rows.length < maxPrograms) :
    ListEffect t n ppid t

theorem listProgram_effect {n : Nat} (hn : n ≠ 0) (ppid : Nat) :
    ListEffect t n ppid (listProgram t (n, ppid)) := by
  simp only [listProgram, if_neg hn]
  split
  · rename_i q hfind
    obtain ⟨hq, hkey⟩ := KeyTable.mem_of_find? hfind
    refine .found _ (hkey ▸ mem_map_of_mem hq) ?_ ?_ rfl
    · simp only [KeyTable.keys_update]
    intro m pid
    simp only [tablePairs, mem_map, KeyTable.mem_update, Prod.mk.injEq]
    split
    · -- the program itself: its one row now has the listed PID
      rename_i hm
      constructor
      · rintro ⟨r, ⟨-, hr⟩ | ⟨r', -, -, rfl⟩, hnum, hpid⟩
        · exact absurd (hnum.trans hm) hr
        · exact hpid.symm
      · rintro rfl
        exact ⟨{ q with pmtPid := pid }, .inr ⟨q, hq, hkey, rfl⟩, hkey.trans hm.symm, rfl⟩
    · rename_i hm
      constructor
      · rintro ⟨r, ⟨hr, -⟩ | ⟨r', -, hr', rfl⟩, hnum, hpid⟩
        · exact ⟨r, hr, hnum, hpid⟩
        · exact absurd (hnum.symm.trans hr') hm
      · rintro ⟨r, hr, hnum, hpid⟩
        exact ⟨r, .inl ⟨hr, fun heq => hm (hnum.symm.trans heq)⟩, hnum, hpid⟩
  · rename_i hfind
    have hnew : n ∉ t.programs.keys := KeyTable.find?_eq_none.mp hfind
    split
    · rename_i hroom
      refine .added _ hnew (KeyTable.keys_add t.programs hnew hroom) ?_ rfl
      intro m pid
      simp only [tablePairs, mem_map, KeyTable.mem_add, Prod.mk.injEq]
      split
      · rename_i hm
        constructor
        · rintro ⟨r, hr | rfl, hnum, hpid⟩
          · have hkey : n ∈ t.programs.keys := hm ▸ hnum ▸ mem_map_of_mem hr
            exact absurd hkey hnew
          · exact hpid.symm
        · rintro rfl
          exact ⟨⟨n, pid, 0, []⟩, .inr rfl, hm.symm, rfl⟩
      · rename_i hm
        constructor
        · rintro ⟨r, hr | rfl, hnum, hpid⟩
          · exact ⟨r, hr, hnum, hpid⟩
          · exact absurd hnum.symm hm
        · rintro ⟨r, hr, hnum, hpid⟩
          exact ⟨r, .inl hr, hnum, hpid⟩
    · rename_i hroom
      exact .full hnew hroom

theorem keys_listProgram (e : Nat × Nat) : t.programs.keys ⊆ (listProgram t e).programs.keys := by
  obtain ⟨n, ppid⟩ := e
  rcases Decidable.em (n = 0) with rfl | hn
  · exact List.Subset.refl _
  · have heff := listProgram_effect t hn ppid
    generalize listProgram t (n, ppid) = t' at heff ⊢
    cases heff with
    | found _ hmem hkeys hpairs hmarks => rw [hkeys]; exact List.Subset.refl _
    | added _ hnew hkeys hpairs hmarks => rw [hkeys]; exact subset_append_left _ _
    | full hnew hfull => exact List.Subset.refl _

theorem keys_listPrograms (es : List (Nat × Nat)) (t : Tables) :
    t.programs.keys ⊆ (es.foldl listProgram t).programs.keys := by
  induction es generalizing t with
  | nil => exact List.Subset.refl _
  | cons e es ih => exact List.Subset.trans (keys_listProgram t e) (ih _)

/-- Listing programs is last-wins on the pairs; only a program that was not there yet marks its
    PID. -/
structure Listed (t : Tables) (es : List (Nat × Nat)) (t' : Tables) : Prop where
  pairs : ∀ n pid, (n, pid) ∈ tablePairs t' ↔
    (n, pid) ∈ es ∨ ((n, pid) ∈ tablePairs t ∧ ∀ pid', (n, pid') ∉ es)
  marks : ∀ pid, t'.pidIsPmt pid = true ↔
    t.pidIsPmt pid = true ∨ ∃ n, (n, pid) ∈ es ∧ n ∉ t.programs.keys

theorem Listed.snoc {t t1 : Tables} {es : List (Nat × Nat)} {n ppid : Nat} (h : Listed t es t1)
    (hn : n ≠ 0) (hsame : ∀ pid, (n, pid) ∈ es → pid = ppid)
    (hroom : n ∉ t1.programs.keys → t1.programs.rows.length < maxPrograms) :
    Listed t (es ++ [(n, ppid)]) (listProgram t1 (n, ppid)) := by
  have hkeys : n ∈ t.programs.keys → n ∈ t1.programs.keys := by
    intro hmem
    obtain ⟨pid, hpid⟩ := (mem_keys_iff t n).mp hmem
    rw [mem_keys_iff]
    by_cases hes : ∃ pid', (n, pid') ∈ es
    · obtain ⟨pid', hpid'⟩ := hes
      exact ⟨pid', (h.pairs n pid').mpr (.inl hpid')⟩
    · exact ⟨pid, (h.pairs n pid).mpr (.inr ⟨hpid, not_exists.mp hes⟩)⟩
  have hpairs : ∀ t2 : Tables, (∀ m pid, (m, pid) ∈ tablePairs t2 ↔
      if m = n then pid = ppid else (m, pid) ∈ tablePairs t1) → ∀ m pid, (m, pid) ∈ tablePairs t2 ↔
        (m, pid) ∈ es ++ [(n, ppid)] ∨
          ((m, pid) ∈ tablePairs t ∧ ∀ pid', (m, pid') ∉ es ++ [(n, ppid)]) := by
    intro t2 ht2 m pid
    rw [ht2]
    simp only [mem_append, mem_singleton, Prod.mk.injEq, not_or]
    split
    · rename_i hm
      subst hm
      constructor
      · intro hpid
        exact .inl (.inr ⟨rfl, hpid⟩)
      · rintro ((hes | ⟨-, hpid⟩) | ⟨-, hnone⟩)
        · exact hsame pid hes
        · exact hpid
        · exact absurd ⟨rfl, rfl⟩ (hnone ppid).2
    · rename_i hm
      rw [h.pairs]
      simp only [hm, false_and, or_false, not_false_eq_true, and_true]
  have heff := listProgram_effect t1 hn ppid
  generalize listProgram t1 (n, ppid) = t2 at heff ⊢
  cases heff with
  | found _ hmem _ ht2 hmarks =>
    refine ⟨hpairs t2 ht2, fun pid => ?_⟩
    rw [hmarks, h.marks]
    simp only [mem_append, mem_singleton, Prod.mk.injEq]
    constructor
    · rintro (hold | ⟨m, hm, hnew⟩)
      · exact .inl hold
      · exact .inr ⟨m, .inl hm, hnew⟩
    · rintro (hold | ⟨m, hm | ⟨rfl, rfl⟩, hnew⟩)
      · exact .inl hold
      · exact .inr ⟨m, hm, hnew⟩
      · -- the program is new to the table but was listed before, so under this PID
        obtain ⟨pid', hpid'⟩ := (mem_keys_iff t1 m).mp hmem
        rcases (h.pairs m pid').mp hpid' with hes | ⟨hold, -⟩
        · exact .inr ⟨m, hsame pid' hes ▸ hes, hnew⟩
        · exact absurd ((mem_keys_iff t m).mpr ⟨pid', hold⟩) hnew
  | added _ hnew1 _ ht2 hmarks =>
    refine ⟨hpairs t2 ht2, fun pid => ?_⟩
    rw [hmarks]
    simp only [mem_append, mem_singleton, Prod.mk.injEq]
    rcases Decidable.em (pid = ppid) with rfl | hpid
    · rw [update_self]
      exact ⟨fun _ => .inr ⟨n, .inr ⟨rfl, rfl⟩, fun hmem => hnew1 (hkeys hmem)⟩, fun _ => rfl⟩
    · rw [update_of_ne hpid, h.marks]
      simp only [hpid, and_false, or_false]
  | full hnew1 hfull => exact absurd (hroom hnew1) hfull

/-- **The PAT loop**, when all programs of the table come from a consistent list that fits. -/
theorem listPrograms_listed {t : Tables} {es : List (Nat × Nat)} (hzero : ∀ e ∈ es, e.1 ≠ 0)
    (hsub : ∀ n ∈ t.programs.keys, ∃ pid, (n, pid) ∈ es)
    (hsame : ∀ n pid pid', (n, pid) ∈ es → (n, pid') ∈ es → pid = pid')
    (hfit : es.length ≤ maxPrograms) :
    ∀ done, done <+: es → Listed t done (done.foldl listProgram t) := by
  intro done
  induction done using reverseRecOn with
  | nil =>
    intro _
    exact ⟨fun n pid => by simp, fun pid => by simp⟩
  | append_singleton done e ih =>
    intro hpre
    obtain ⟨n, ppid⟩ := e
    have hdone : done <+: es := (prefix_append done _).trans hpre
    have he : (n, ppid) ∈ es := hpre.subset (mem_append_right _ (mem_singleton_self _))
    have hlisted := ih hdone
    rw [foldl_append]
    refine hlisted.snoc (hzero _ he) (fun pid hpid => hsame n pid ppid (hdone.subset hpid) he) ?_
    intro hnew
    have hkeys : (done.foldl listProgram t).programs.keys ⊆ es.map Prod.fst := by
      intro m hm
      obtain ⟨pid, hpid⟩ := (mem_keys_iff _ m).mp hm
      rcases (hlisted.pairs m pid).mp hpid with hmem | ⟨hold, -⟩
      · exact mem_map_of_mem (hdone.subset hmem)
      · obtain ⟨pid', hpid'⟩ := hsub m ((mem_keys_iff t m).mpr ⟨pid, hold⟩)
        exact mem_map_of_mem hpid'
    refine KeyTable.rows_lt_of_keys_subset hkeys (mem_map_of_mem he) hnew ?_
    rw [length_map]
    exact hfit

theorem foldl_listProgram_filter (es : List (Nat × Nat)) (t : Tables) :
    es.foldl listProgram t = (es.filter fun e => e.1 ≠ 0).foldl listProgram t := by
  induction es generalizing t with
  | nil => rfl
  | cons e es ih =>
    rw [foldl_cons, ih, filter_cons]
    split
    · rfl
    · rename_i hzero
      have hsame : listProgram t e = t := by
        simp only [ne_eq, decide_not, Bool.not_eq_true', decide_eq_false_iff_not, not_not] at hzero
        simp only [listProgram, hzero, if_true]
      rw [hsame]

/-- **One PAT**: it shows in table and marks exactly when it is faithful to what it finds. -/
theorem processPat_reflects_iff (pat : Nat → UInt8) (now : Nat)
    (hfit : (patPrograms pat).length ≤ maxPrograms) :
    Reflects (processPat t pat now) pat ↔ Faithful t pat := by
  obtain ⟨t0, ht0⟩ : ∃ t0 : Tables, { t with seenPat := true, lastPatNs := now } = t0 := ⟨_, rfl⟩
  have hkeys0 : t0.programs.keys = t.programs.keys := by rw [← ht0]
  have hmarks0 : t0.pidIsPmt = t.pidIsPmt := by rw [← ht0]
  have hpat : processPat t pat now = (patPrograms pat).foldl listProgram t0 := by
    rw [processPat, foldl_listProgram_filter, ht0]
    rfl
  have hzero : ∀ e ∈ patPrograms pat, e.1 ≠ 0 := by
    intro e he
    simpa using (mem_filter.mp he).2
  rw [hpat]
  constructor
  · intro hr
    have hrelists : ∀ n ∈ t.programs.keys, ∃ pid, (n, pid) ∈ patPrograms pat := by
      intro n hn
      have hstays := keys_listPrograms (patPrograms pat) t0 (hkeys0 ▸ hn)
      obtain ⟨pid, hpid⟩ := (mem_keys_iff _ n).mp hstays
      exact ⟨pid, (hr.pairs _).mp hpid⟩
    have hsame : ∀ n pid pid', (n, pid) ∈ patPrograms pat → (n, pid') ∈ patPrograms pat →
        pid = pid' := fun n pid pid' hpid hpid' =>
      pmtPid_unique _ ((hr.pairs _).mpr hpid) ((hr.pairs _).mpr hpid')
    refine ⟨hrelists, hsame, fun pid => ?_⟩
    have hlisted := listPrograms_listed (t := t0) hzero (by rw [hkeys0]; exact hrelists) hsame hfit
      (patPrograms pat) prefix_rfl
    rw [← hmarks0, ← hkeys0, ← hlisted.marks, hr.marks]
    exact exists_congr fun n => hr.pairs (n, pid)
  · rintro ⟨hrelists, hsame, hmarks⟩
    have hlisted := listPrograms_listed (t := t0) hzero (by rw [hkeys0]; exact hrelists) hsame hfit
      (patPrograms pat) prefix_rfl
    -- every program of the old table is listed again, so only the list remains
    have hpairs : ∀ e, e ∈ tablePairs ((patPrograms pat).foldl listProgram t0) ↔
        e ∈ patPrograms pat := by
      rintro ⟨n, pid⟩
      rw [hlisted.pairs]
      constructor
      · rintro (hmem | ⟨hold, hnone⟩)
        · exact hmem
        · have hkey : n ∈ t.programs.keys := hkeys0 ▸ (mem_keys_iff t0 n).mpr ⟨pid, hold⟩
          obtain ⟨pid', hpid'⟩ := hrelists n hkey
          exact absurd hpid' (hnone pid')
      · exact .inl
    refine ⟨hpairs, fun pid => ?_⟩
    rw [hlisted.marks, hmarks0, hkeys0, hmarks]
    exact exists_congr fun n => (hpairs (n, pid)).symm

/-! ## Runs -/

theorem processPmt_pairs (pid : Nat) (p : Nat → UInt8) (now : Nat) :
    tablePairs (processPmt t pid p now) = tablePairs t ∧
      (processPmt t pid p now).pidIsPmt = t.pidIsPmt := by
  unfold processPmt
  simp only
  split
  · exact ⟨rfl, rfl⟩
  · refine ⟨?_, rfl⟩
    simp only [tablePairs, KeyTable.update, KeyTable.updateRows, map_map]
    refine map_congr_left fun q _ => ?_
    simp only [Function.comp_apply]
    split
    · rfl
    · rfl

/-- The analyzer, and the PATs it hears. -/
def patPush (P : Parts ρ) (h : MonitorHandle ρ) (i : Input) :
    MonitorHandle ρ × List (Nat → UInt8) :=
  (inputStep P h i, (sectionHeard P 0x00 h i).toList)

def ShowsLast (h : MonitorHandle ρ) (pats : List (Nat → UInt8)) : Prop :=
  ∀ pat, pats.getLast? = some pat → Reflects h.rest.watch.tables pat

theorem Reflects.congr {t t' : Tables} (hpairs : tablePairs t' = tablePairs t)
    (hmarks : t'.pidIsPmt = t.pidIsPmt) {pat : Nat → UInt8} (h : Reflects t pat) :
    Reflects t' pat := by
  constructor
  · rw [hpairs]
    exact h.pairs
  · rw [hpairs, hmarks]
    exact h.marks

theorem showsLast_step (P : Parts ρ) {h : MonitorHandle ρ} {pats : List (Nat → UInt8)}
    (hlast : ShowsLast h pats) (i : Input)
    (hfit : ∀ pat, sectionHeard P 0x00 h i = some pat → (patPrograms pat).length ≤ maxPrograms) :
    ShowsLast (patPush P h i).1 (pats ++ (patPush P h i).2) ↔
      ∀ pat, sectionHeard P 0x00 h i = some pat → Faithful h.rest.watch.tables pat := by
  have heff := inputStep_tables P h i
  simp only [ShowsLast, patPush]
  generalize (inputStep P h i).rest.watch.tables = t' at heff ⊢
  cases heff with
  | pat p hp =>
    have hexact := processPat_reflects_iff h.rest.watch.tables p h.rest.watch.currentNs (hfit p hp)
    simp only [hp, Option.toList_some, getLast?_append, getLast?_singleton,
      Option.some_or, Option.some.injEq, forall_eq']
    exact hexact
  | pmt p hp hnone =>
    obtain ⟨hpairs, hmarks⟩ := processPmt_pairs h.rest.watch.tables i.pid p h.rest.watch.currentNs
    simp only [hnone, Option.toList_none, append_nil, reduceCtorEq, false_imp_iff,
      implies_true, iff_true]
    exact fun pat hpat => (hlast pat hpat).congr hpairs hmarks
  | other crcErrorCount hnone hpmt =>
    simp only [hnone, Option.toList_none, append_nil, reduceCtorEq, false_imp_iff,
      implies_true, iff_true]
    intro pat hpat
    have hshown := hlast pat hpat
    exact ⟨hshown.pairs, hshown.marks⟩

/-- **The program table**, for every sequence of packets and other calls whose PATs list at most 16
    programs each: the table shows the last PAT at every moment exactly when every PAT is faithful
    to the table it finds. -/
theorem program_table_iff (P : Parts ρ) (config : AlertConfig) (rest : ρ) (is : List Input)
    (hfit : Along (fun h i => ∀ pat, sectionHeard P 0x00 h i = some pat →
      (patPrograms pat).length ≤ maxPrograms) (inputStep P) (freshHandle config rest) is) :
    (∀ pre, pre <+: is → ShowsLast (run (patPush P) (freshHandle config rest) pre).1
        (run (patPush P) (freshHandle config rest) pre).2) ↔
      Along (fun h i => ∀ pat, sectionHeard P 0x00 h i = some pat →
        Faithful h.rest.watch.tables pat) (inputStep P) (freshHandle config rest) is := by
  have hstart : ShowsLast (freshHandle config rest) [] := by
    intro pat hpat
    cases hpat
  have hstep : ∀ h pats i, ShowsLast h pats →
      (∀ pat, sectionHeard P 0x00 h i = some pat → (patPrograms pat).length ≤ maxPrograms) →
      (ShowsLast (patPush P h i).1 (pats ++ (patPush P h i).2) ↔
        ∀ pat, sectionHeard P 0x00 h i = some pat → Faithful h.rest.watch.tables pat) :=
    fun h pats i hlast hfit => showsLast_step P hlast i hfit
  have hrun := run_history_iff hstep is (freshHandle config rest) [] hstart hfit
  simp only [nil_append] at hrun
  exact hrun

/-- A PAT with program 1 on PID 0x100. -/
def patOne : Nat → UInt8 := sectionPacket 0x0000
  [0x00, 0xB0, 0x0D, 0x00, 0x01, 0xC1, 0x00, 0x00, 0x00, 0x01, 0xE1, 0x00, 0xE8, 0xF9, 0x5E, 0x7D]

/-- A PAT with program 2 on PID 0x200. -/
def patTwo : Nat → UInt8 := sectionPacket 0x0000
  [0x00, 0xB0, 0x0D, 0x00, 0x01, 0xC1, 0x00, 0x00, 0x00, 0x02, 0xE2, 0x00, 0x98, 0x7B, 0xF4, 0x27]

theorem patOne_carries : ∃ pat, carried patOne 0x00 = some pat ∧ patPrograms pat = [(1, 0x100)] :=
  Option.map_eq_some_iff.mp (by decide +kernel)

theorem patTwo_carries : ∃ pat, carried patTwo 0x00 = some pat ∧ patPrograms pat = [(2, 0x200)] :=
  Option.map_eq_some_iff.mp (by decide +kernel)

theorem patOne_heard (h : MonitorHandle Unit) (n : Nat) :
    sectionHeard Parts.idle 0x00 h (packetOf patOne n) = carried patOne 0x00 :=
  sectionHeard_idle h rfl (.inl (by decide)) n

theorem patTwo_heard (h : MonitorHandle Unit) (n : Nat) :
    sectionHeard Parts.idle 0x00 h (packetOf patTwo n) = carried patTwo 0x00 :=
  sectionHeard_idle h rfl (.inl (by decide)) n

theorem Faithful.first {t : Tables} {pat : Nat → UInt8} {n ppid : Nat}
    (hkeys : t.programs.keys = []) (hmarks : ∀ pid, t.pidIsPmt pid = false)
    (hpat : patPrograms pat = [(n, ppid)]) : Faithful t pat := by
  refine ⟨fun m hm => absurd hm (hkeys ▸ not_mem_nil), ?_, fun pid => ?_⟩
  · intro m pid pid' h h'
    rw [hpat, mem_singleton] at h h'
    exact (Prod.mk.inj (h.trans h'.symm)).2
  · constructor
    · rintro (hmark | ⟨m, hm, -⟩)
      · rw [hmarks pid] at hmark
        cases hmark
      · exact ⟨m, hm⟩
    · rintro ⟨m, hm⟩
      exact .inr ⟨m, hm, hkeys ▸ not_mem_nil⟩

/-- What the table shows can come again. -/
theorem Reflects.faithful {t : Tables} {pat : Nat → UInt8} (h : Reflects t pat) :
    Faithful t pat := by
  refine ⟨fun n hn => ?_, fun n pid pid' hpid hpid' => ?_, fun pid => ?_⟩
  · obtain ⟨pid, hpid⟩ := (mem_keys_iff t n).mp hn
    exact ⟨pid, (h.pairs _).mp hpid⟩
  · exact pmtPid_unique t ((h.pairs _).mpr hpid) ((h.pairs _).mpr hpid')
  · rw [h.marks]
    constructor
    · rintro (⟨n, hn⟩ | ⟨n, hn, -⟩)
      · exact ⟨n, (h.pairs _).mp hn⟩
      · exact ⟨n, hn⟩
    · rintro ⟨n, hn⟩
      exact .inl ⟨n, (h.pairs _).mpr hn⟩

theorem patOne_reflects {pat : Nat → UInt8} (hcarried : carried patOne 0x00 = some pat)
    (hprograms : patPrograms pat = [(1, 0x100)]) (n : Nat) :
    Reflects (inputStep Parts.idle (freshHandle plainConfig ())
      (packetOf patOne n)).rest.watch.tables pat := by
  rw [tables_of_pat ((patOne_heard (freshHandle plainConfig ()) n).trans hcarried)]
  exact (processPat_reflects_iff (freshHandle plainConfig ()).rest.watch.tables pat
    (freshHandle plainConfig ()).rest.watch.currentNs (by rw [hprograms]; decide)).mpr
    (Faithful.first rfl (fun _ => rfl) hprograms)

theorem patOne_listed (n : Nat) :
    (1, 0x100) ∈ tablePairs (inputStep Parts.idle (freshHandle plainConfig ())
      (packetOf patOne n)).rest.watch.tables := by
  obtain ⟨pat, hcarried, hprograms⟩ := patOne_carries
  exact ((patOne_reflects hcarried hprograms n).pairs _).mpr (by rw [hprograms]; decide)

theorem run_patPush_two (P : Parts ρ) (h : MonitorHandle ρ) (i j : Input) :
    run (patPush P) h [i, j] = (inputStep P (inputStep P h i) j,
      (sectionHeard P 0x00 h i).toList ++ (sectionHeard P 0x00 (inputStep P h i) j).toList) := by
  simp only [run, patPush, append_nil]

/-- The first PAT on a fresh handle is faithful, and so is its repetition. -/
theorem patOne_shown :
    let r := run (patPush Parts.idle) (freshHandle plainConfig ())
      [packetOf patOne 0, packetOf patOne 1]
    r.2.map patPrograms = [[(1, 0x100)], [(1, 0x100)]] ∧ ShowsLast r.1 r.2 := by
  intro r
  obtain ⟨pat, hcarried, hprograms⟩ := patOne_carries
  have hheard : ∀ (h : MonitorHandle Unit) n,
      sectionHeard Parts.idle 0x00 h (packetOf patOne n) = some pat :=
    fun h n => (patOne_heard h n).trans hcarried
  have honly : ∀ h n pat', sectionHeard Parts.idle 0x00 h (packetOf patOne n) = some pat' →
      pat = pat' := fun h n pat' hpat' => Option.some.inj ((hheard h n).symm.trans hpat')
  have hfit : ∀ h n pat', sectionHeard Parts.idle 0x00 h (packetOf patOne n) = some pat' →
      (patPrograms pat').length ≤ maxPrograms := by
    intro h n pat' hpat'
    rw [← honly h n pat' hpat', hprograms]
    decide
  constructor
  · rw [show r = _ from run_patPush_two Parts.idle _ _ _, hheard, hheard]
    exact congrArg (fun x => [x, x]) hprograms
  · refine (program_table_iff Parts.idle plainConfig () [packetOf patOne 0, packetOf patOne 1]
      ⟨hfit _ 0, hfit _ 1, trivial⟩).mpr ⟨?_, ?_, trivial⟩ _ prefix_rfl
    · intro pat' hpat'
      rw [← honly _ 0 pat' hpat']
      exact Faithful.first rfl (fun _ => rfl) hprograms
    · intro pat' hpat'
      rw [← honly _ 1 pat' hpat']
      exact (patOne_reflects hcarried hprograms 0).faithful

/-- **Program 1 stays**: after a PAT with program 1 and a PAT with program 2, the table still holds
    program 1. -/
theorem patTwo_not_shown :
    let r := run (patPush Parts.idle) (freshHandle plainConfig ()) [packetOf patOne 0,
      packetOf patTwo 0]
    1 ∈ r.1.rest.watch.tables.programs.keys ∧
      r.2.map patPrograms = [[(1, 0x100)], [(2, 0x200)]] ∧ ¬ ShowsLast r.1 r.2 := by
  intro r
  obtain ⟨pat1, hcarried1, hprograms1⟩ := patOne_carries
  obtain ⟨pat2, hcarried2, hprograms2⟩ := patTwo_carries
  obtain ⟨h1, hh1⟩ : ∃ h1, inputStep Parts.idle (freshHandle plainConfig ()) (packetOf patOne 0) =
      h1 := ⟨_, rfl⟩
  have hheard1 := (patOne_heard (freshHandle plainConfig ()) 0).trans hcarried1
  have hheard2 := (patTwo_heard h1 0).trans hcarried2
  have hr : r = (inputStep Parts.idle h1 (packetOf patTwo 0), [pat1, pat2]) := by
    rw [show r = _ from run_patPush_two Parts.idle _ _ _, hheard1, hh1, hheard2]
    rfl
  have hr1 : r.1 = inputStep Parts.idle h1 (packetOf patTwo 0) := by rw [hr]
  have hr2 : r.2 = [pat1, pat2] := by rw [hr]
  -- the first PAT puts program 1 into the table, and nothing takes it out
  have hone : 1 ∈ h1.rest.watch.tables.programs.keys := by
    rw [← hh1, mem_keys_iff]
    exact ⟨0x100, patOne_listed 0⟩
  have htwo : 1 ∈ r.1.rest.watch.tables.programs.keys := by
    rw [hr1, tables_of_pat hheard2]
    exact keys_listPrograms _ _ hone
  refine ⟨htwo, by rw [hr2, map_cons, map_singleton, hprograms1, hprograms2], ?_⟩
  intro hshows
  obtain ⟨pid, hpid⟩ := (mem_keys_iff _ 1).mp htwo
  have hstale := ((hshows pat2 (by rw [hr2]; rfl)).pairs (1, pid)).mp hpid
  rw [hprograms2, mem_singleton] at hstale
  exact absurd (Prod.mk.inj hstale).1 (by decide)

end TsAnalyzer.Monitor
