/-
  The life of one alert over whole histories of the engine: OFF, FIRING, and OFF again.

  1. **Quiet before OK** — an alert is resolved 5 s after the last report that was HEARD: a fault
     that goes on behind a sync loss is resolved.
  2. **CRITICAL before OK** — the aggregator may keep back the CRITICAL of an alert that fires
     again, with windows longer than the 5 s it rests.
-/
import TsAnalyzer.Alarm.Resolution

namespace TsAnalyzer.Alarm

open Lib List Function

/-! ## Quiet before OK -/

/-- The interval `[t - TSA_TR101290_PID_TIMEOUT_NS, t]` before a resolution at `t` has no report. -/
def QuietBefore (i : AlertId) (past : List Happening) (x : Happening) : Prop :=
  ∀ t ok, x = .resolved i t ok → ∀ u, .reported i u ∈ past → ¬ (t ≤ u + pidTimeoutNs ∧ u ≤ t)

/-- No report of the alert is hidden by the tree while the alert is firing. -/
def Op.Heard (i : AlertId) (h : Alerts) : Op → Prop
  | .report id _ _ =>
    id = i → (h.alerts i).status = .firing → tsaAlertIsSuppressedByTree h i = false
  | _ => True

/-- The same for all the reports a call makes. -/
@[irreducible] def Call.Heard (i : AlertId) (h : Alerts) (c : Call) : Prop :=
  Along (Op.Heard i) opStep h (c.ops h)

variable {op : Op} {h : Alerts} {i : AlertId}

theorem Call.heard_iff {c : Call} : c.Heard i h ↔ Along (Op.Heard i) opStep h (c.ops h) := by
  unfold Call.Heard
  exact Iff.rfl

/-- All reports are in the past, and those of a firing alert are no later than its clock. -/
structure Clocked (i : AlertId) (h : Alerts) (past : List Happening) : Prop where
  stc : h.stcNs < 2 ^ 64
  last : (h.alerts i).lastOccurrenceNs ≤ h.stcNs
  reports : ∀ u, .reported i u ∈ past → u ≤ h.stcNs
  heard : (h.alerts i).status = .firing →
    ∀ u, .reported i u ∈ past → u ≤ (h.alerts i).lastOccurrenceNs
  quiet : Throughout (QuietBefore i) past

theorem clocked_fresh (i : AlertId) (config : AlertConfig) : Clocked i (.fresh config) [] where
  stc := Nat.two_pow_pos 64
  last := Nat.le_refl _
  reports := fun _ hu => absurd hu not_mem_nil
  heard := fun _ _ hu => absurd hu not_mem_nil
  quiet := throughout_nil _

namespace Clocked

variable {i : AlertId} {h h' : Alerts} {past new : List Happening}

theorem unconcerned (hc : Clocked i h past) (hstc : h.stcNs ≤ h'.stcNs) (hlt : h'.stcNs < 2 ^ 64)
    (halert : h'.alerts i = h.alerts i) (hreports : ∀ u, .reported i u ∉ new)
    (hresolved : ∀ t ok, .resolved i t ok ∉ new) : Clocked i h' (past ++ new) where
  stc := hlt
  last := by rw [halert]; exact hc.last.trans hstc
  reports := by
    intro u hu
    rcases mem_append.mp hu with hu | hu
    · exact (hc.reports u hu).trans hstc
    · exact absurd hu (hreports u)
  heard := by
    rw [halert]
    intro hs u hu
    rcases mem_append.mp hu with hu | hu
    · exact hc.heard hs u hu
    · exact absurd hu (hreports u)
  quiet := throughout_append hc.quiet fun x hx pre t ok heq =>
    absurd (heq ▸ hx) (hresolved t ok)

theorem reported (hc : Clocked i h past) (hstc : h'.stcNs = h.stcNs)
    (halert : h'.alerts i = h.alerts i ∧ (h.alerts i).status = .off ∨
      (h'.alerts i).lastOccurrenceNs = h.stcNs) (hreports : ∀ u, .reported i u ∈ new → u = h.stcNs)
    (hresolved : ∀ t ok, .resolved i t ok ∉ new) : Clocked i h' (past ++ new) := by
  have hpast : ∀ u, .reported i u ∈ past ++ new → u ≤ h.stcNs := by
    intro u hu
    rcases mem_append.mp hu with hu | hu
    · exact hc.reports u hu
    · exact (hreports u hu).le
  refine ⟨hstc ▸ hc.stc, ?_, hstc ▸ hpast, ?_, ?_⟩
  · rw [hstc]
    rcases halert with ⟨halert, -⟩ | hlast
    · rw [halert]
      exact hc.last
    · exact hlast.le
  · intro hs u hu
    rcases halert with ⟨halert, hoff⟩ | hlast
    · rw [halert, hoff] at hs
      cases hs
    · rw [hlast]
      exact hpast u hu
  · exact throughout_append hc.quiet fun x hx pre t ok heq => absurd (heq ▸ hx) (hresolved t ok)

theorem resolved (hc : Clocked i h past) {ok : Bool} (hs : (h.alerts i).status = .firing)
    (hquiet : pidTimeoutNs < sub64 h.stcNs (h.alerts i).lastOccurrenceNs)
    (hstc : h'.stcNs = h.stcNs) (hoff : (h'.alerts i).status = .off)
    (hlast : (h'.alerts i).lastOccurrenceNs = (h.alerts i).lastOccurrenceNs) :
    Clocked i h' (past ++ [.resolved i h.stcNs ok]) := by
  have hpast : ∀ u, .reported i u ∈ past ++ [.resolved i h.stcNs ok] → .reported i u ∈ past := by
    intro u hu
    rcases mem_append.mp hu with hu | hu
    · exact hu
    · cases mem_singleton.mp hu
  refine ⟨hstc ▸ hc.stc, ?_, fun u hu => hstc ▸ hc.reports u (hpast u hu), ?_, ?_⟩
  · rw [hlast, hstc]
    exact hc.last
  · intro hs'
    rw [hoff] at hs'
    cases hs'
  · refine throughout_snoc hc.quiet ?_
    intro t ok' heq u hu
    obtain ⟨-, rfl, -⟩ := Happening.resolved.inj heq
    have hheard := hc.heard hs u hu
    rw [sub64_of_le hc.last hc.stc] at hquiet
    omega

end Clocked

/-- A resolution ends an alert that was quiet for long enough, or does nothing. -/
theorem resolve_cases (h : Alerts) (i id : AlertId) :
    ((h.alerts i).status = .firing ∧
        pidTimeoutNs < sub64 h.stcNs (h.alerts i).lastOccurrenceNs ∧
        ((resolveAlert h id).alerts i).status = .off ∧
        ((resolveAlert h id).alerts i).lastOccurrenceNs = (h.alerts i).lastOccurrenceNs ∧
        ∃ ok, observe h (.resolve id) = [.resolved i h.stcNs ok]) ∨
      (resolveAlert h id).alerts i = h.alerts i ∧
        ∀ t ok, .resolved i t ok ∉ observe h (.resolve id) := by
  by_cases hid : id = i
  · subst hid
    rw [resolve_alerts, observe_resolve]
    split
    · rename_i hquiet
      rw [update_self]
      exact .inl ⟨hquiet.1, hquiet.2, rfl, rfl, _, rfl⟩
    · exact .inr ⟨rfl, fun t ok => not_mem_nil⟩
  · exact .inr ⟨resolve_other h id (Ne.symm hid),
      fun t ok hx => hid (Op.resolve.inj (resolved_mem_observe hx).1)⟩

theorem step_clocked {past : List Happening} (hc : Clocked i h past) (htimely : op.Timely h)
    (hheard : op.Heard i h) : Clocked i (opStep h op) (past ++ observe h op) := by
  cases op with
  | tick stcNs =>
    exact hc.unconcerned htimely.1 htimely.2 rfl (fun u => not_mem_nil)
      (fun t ok => not_mem_nil)
  | report id name pid =>
    have hstc : (opStep h (.report id name pid)).stcNs = h.stcNs := (report_keeps h id name pid).2
    have hresolved : ∀ t ok, .resolved i t ok ∉ observe h (.report id name pid) :=
      fun t ok hx => (by cases (resolved_mem_observe hx).1)
    by_cases hid : id = i
    · subst hid
      refine hc.reported hstc ?_ (fun u hu => (reported_mem_observe hu).2) hresolved
      show (tsaAlertUpdate h id true name pid).alerts id = _ ∧ _ ∨
        ((tsaAlertUpdate h id true name pid).alerts id).lastOccurrenceNs = _
      cases htree : tsaAlertIsSuppressedByTree h id with
      | true =>
        -- Hidden, so the alert is not firing.
        left
        rw [report_hidden h id name pid htree]
        cases hs : (h.alerts id).status with
        | off => exact ⟨rfl, rfl⟩
        | firing => rw [hheard rfl hs] at htree; cases htree
      | false =>
        right
        rw [report_alerts, htree]
        simp [AlertState.hit]
    · refine hc.unconcerned hstc.ge (hstc ▸ hc.stc) (report_other h id name pid (Ne.symm hid)) ?_
        hresolved
      intro u hu
      obtain ⟨⟨_, _, hop⟩, -⟩ := reported_mem_observe hu
      exact hid (Op.report.inj hop).1
  | flush j =>
    obtain ⟨-, hstc, halerts⟩ := flush_keeps h j
    refine hc.unconcerned hstc.ge (hstc ▸ hc.stc) (congrFun halerts i) ?_ ?_
    · intro u hu
      obtain ⟨⟨_, _, hop⟩, -⟩ := reported_mem_observe hu
      cases hop
    · intro t ok hx
      cases (resolved_mem_observe hx).1
  | resolve id =>
    obtain ⟨-, hstc, -⟩ := resolve_keeps h id
    rcases resolve_cases h i id with ⟨hs, hquiet, hoff, hlast, ok, hseen⟩ | ⟨hsame, hresolved⟩
    · rw [hseen]
      exact hc.resolved hs hquiet hstc hoff hlast
    · refine hc.unconcerned hstc.ge (hstc ▸ hc.stc) hsame ?_ hresolved
      intro u hu
      obtain ⟨⟨_, _, hop⟩, -⟩ := reported_mem_observe hu
      cases hop

/-- **A resolved fault has been quiet.**  Over every sequence of calls with non-decreasing `stc_ns`
    in which no report of the firing alert is hidden by the tree: an alert that a check turns from
    FIRING to OFF at `t` was not reported in `[t - TSA_TR101290_PID_TIMEOUT_NS, t]`. -/
theorem resolved_quiet (i : AlertId) (config : AlertConfig) (cs : List Call)
    (htimely : Along Call.Timely callStep (.fresh config) cs)
    (hheard : Along (Call.Heard i) callStep (.fresh config) cs) :
    Throughout (QuietBefore i) (run engine (.fresh config) cs).2 := by
  have hops : Along (fun h op => op.Timely h ∧ op.Heard i h) opStep (.fresh config)
      (expand (.fresh config) cs) :=
    along_expand (fun h c hboth => along_and hboth.1.ops (Call.heard_iff.mp hboth.2))
      (along_and htimely hheard)
  rw [run_engine_eq]
  exact (run_history (J := Clocked i) (fun h past op hc hop => step_clocked hc hop.1 hop.2)
    (expand (.fresh config) cs) (.fresh config) [] (clocked_fresh i config) hops).quiet

def webhookConfig : AlertConfig := ⟨"", 0, 10000, true, false⟩

/-- A PAT error that is quiet for long enough. -/
def quietRun : List Call :=
  [.update .pat true "PAT" 0, .tick (pidTimeoutNs + 1), .check .unlocked]

theorem heard_of_forall {c : Call} (hops : ∀ op ∈ c.ops h, ∀ h, op.Heard i h) : c.Heard i h :=
  Call.heard_iff.mpr (along_of_forall hops)

theorem heard_unlocked (i : AlertId) (h : Alerts) : (Call.check .unlocked).Heard i h := by
  refine heard_of_forall fun op hop h' => ?_
  rw [unlocked_ops] at hop
  rcases settling_cases hop with ⟨j, rfl⟩ | ⟨id, rfl⟩
  · trivial
  · trivial

theorem quietRun_quiet :
    Throughout (QuietBefore .pat) (run engine (.fresh webhookConfig) quietRun).2 := by
  refine resolved_quiet .pat webhookConfig quietRun (by decide) ?_
  refine ⟨?_, ?_, heard_unlocked _ _, trivial⟩
  · exact Call.heard_iff.mpr ⟨fun _ hs => (by cases hs), trivial⟩
  · exact Call.heard_iff.mpr ⟨trivial, trivial⟩

/-- A PAT error, then a sync loss, behind which the PAT error goes on. -/
def hiddenCalls : List Call :=
  [.update .pat true "PAT" 0, .update .sync true "SYNC" 0, .tick 1, .update .pat true "PAT" 0,
    .tick (pidTimeoutNs + 1)]

/-- The check resolves the PAT error at 5.000000001 s, though it was reported at 0.000000001 s. -/
theorem hiddenRun_not_quiet :
    Along Call.Timely callStep (.fresh webhookConfig) (hiddenCalls ++ [.check .unlocked]) ∧
      ¬ Throughout (QuietBefore .pat)
        (run engine (.fresh webhookConfig) (hiddenCalls ++ [.check .unlocked])).2 := by
  refine ⟨by decide, fun hquiet => ?_⟩
  have hfiring :
      ((run engine (.fresh webhookConfig) hiddenCalls).1.alerts .pat).status = .firing := by decide
  obtain ⟨pre, post, hout, -⟩ := unlocked_resolves hfiring (by decide)
  have hnow : (run engine (.fresh webhookConfig) hiddenCalls).1.stcNs = pidTimeoutNs + 1 := by
    decide
  have hreport : .reported .pat 1 ∈ (run engine (.fresh webhookConfig) hiddenCalls).2 := by decide
  rw [run_engine_snoc, hout, hnow, ← append_assoc] at hquiet
  exact hquiet _ _ _ rfl _ _ rfl 1 (mem_append_left _ hreport) (by decide)

/-! ## CRITICAL before OK -/

/-- For each time the alert fired: was CRITICAL pushed? -/
def openings (i : AlertId) (past : List Happening) : List Bool :=
  past.filterMap fun
    | .fired id _ _ _ critical => if id = i then some critical else none
    | _ => none

/-- When OK is pushed for the alert, the update that last made it fire had pushed CRITICAL. -/
def Announced (i : AlertId) (past : List Happening) (x : Happening) : Prop :=
  ∀ t, x = .resolved i t true → (openings i past).getLast? = some true

theorem openings_append (i : AlertId) (xs ys : List Happening) :
    openings i (xs ++ ys) = openings i xs ++ openings i ys := filterMap_append

theorem openings_eq_nil {xs : List Happening}
    (h : ∀ x ∈ xs, ∀ pid t suppressed critical, x ≠ .fired i pid t suppressed critical) :
    openings i xs = [] := by
  refine filterMap_eq_nil_iff.mpr fun x hx => ?_
  cases x with
  | fired id pid t suppressed critical =>
    have hne : id ≠ i := fun he => h _ hx pid t suppressed critical (by rw [he])
    exact if_neg hne
  | _ => rfl

/-- With the webhook open to the alert and windows no longer than the time an alert rests between
    two firings: the windows of the alert began no later than its last error, which is further back
    than any window reaches once the alert is off. -/
structure Spoken (i : AlertId) (h : Alerts) (past : List Happening) : Prop where
  takes : h.config.webhookTakes i = true
  narrow : h.config.windowMs * 1000000 ≤ pidTimeoutNs
  stc : h.stcNs < 2 ^ 64
  last : (h.alerts i).lastOccurrenceNs ≤ h.stcNs
  windows : ∀ slot, (h.entries slot).active = true → (h.entries slot).id = i →
    (h.entries slot).windowStartNs ≤ (h.alerts i).lastOccurrenceNs
  rested : (h.alerts i).status = .off → ∀ slot, (h.entries slot).active = true →
    (h.entries slot).id = i → (h.alerts i).lastOccurrenceNs + pidTimeoutNs < h.stcNs
  begun : (h.alerts i).status = .firing → openings i past ≠ []
  critical : ∀ b ∈ openings i past, b = true
  announced : Throughout (Announced i) past

variable {config : AlertConfig}

theorem spoken_fresh (htakes : config.webhookTakes i = true)
    (hnarrow : config.windowMs * 1000000 ≤ pidTimeoutNs) : Spoken i (.fresh config) [] where
  takes := htakes
  narrow := hnarrow
  stc := Nat.two_pow_pos 64
  last := Nat.le_refl _
  windows := fun _ hactive => (by cases hactive)
  rested := fun _ _ hactive => (by cases hactive)
  begun := fun hs => (by cases hs)
  critical := fun _ hb => absurd hb not_mem_nil
  announced := throughout_nil _

namespace Spoken

variable {i : AlertId} {h h' : Alerts} {past new : List Happening}

theorem not_inWindow (hv : Spoken i h past) (hs : (h.alerts i).status = .off) (pid : Nat) :
    h.inWindow i pid = false := by
  by_contra hin
  simp only [Alerts.inWindow, Bool.not_eq_false, decide_eq_true_eq] at hin
  obtain ⟨-, hactive, hid, -, hlt⟩ := hin
  have hwindow := hv.windows _ hactive hid
  have hrested := hv.rested hs _ hactive hid
  have hnarrow := hv.narrow
  rw [sub64_of_le (by omega) hv.stc] at hlt
  omega

theorem unconcerned (hv : Spoken i h past) (hconfig : h'.config = h.config)
    (hstc : h.stcNs ≤ h'.stcNs) (hlt : h'.stcNs < 2 ^ 64) (halert : h'.alerts i = h.alerts i)
    (hentries : ∀ slot, (h'.entries slot).active = true → (h'.entries slot).id = i →
      h'.entries slot = h.entries slot)
    (hfired : openings i new = []) (hresolved : ∀ t ok, .resolved i t ok ∉ new) :
    Spoken i h' (past ++ new) where
  takes := by rw [hconfig]; exact hv.takes
  narrow := by rw [hconfig]; exact hv.narrow
  stc := hlt
  last := by rw [halert]; exact hv.last.trans hstc
  windows := by
    intro slot hactive hid
    have heq := hentries slot hactive hid
    rw [heq] at hactive hid ⊢
    rw [halert]
    exact hv.windows slot hactive hid
  rested := by
    rw [halert]
    intro hs slot hactive hid
    have heq := hentries slot hactive hid
    rw [heq] at hactive hid
    exact (hv.rested hs slot hactive hid).trans_le hstc
  begun := by
    rw [halert, openings_append, hfired, append_nil]
    exact hv.begun
  critical := by
    rw [openings_append, hfired, append_nil]
    exact hv.critical
  announced := throughout_append hv.announced fun x hx pre t heq =>
    absurd (heq ▸ hx) (hresolved t true)

theorem again (hv : Spoken i h past) (hs : (h.alerts i).status = .firing)
    (hconfig : h'.config = h.config) (hstc : h'.stcNs = h.stcNs)
    (hhit : h'.alerts i = (h.alerts i).hit h.stcNs) (hentries : h'.entries = h.entries)
    (hfired : openings i new = []) (hresolved : ∀ t ok, .resolved i t ok ∉ new) :
    Spoken i h' (past ++ new) where
  takes := by rw [hconfig]; exact hv.takes
  narrow := by rw [hconfig]; exact hv.narrow
  stc := hstc ▸ hv.stc
  last := by rw [hhit, hstc]; exact Nat.le_refl _
  windows := by
    rw [hentries, hhit]
    exact fun slot hactive hid => (hv.windows slot hactive hid).trans hv.last
  rested := by
    rw [hhit]
    exact fun hoff => (by cases hoff)
  begun := by
    rw [openings_append, hfired, append_nil]
    exact fun _ => hv.begun hs
  critical := by
    rw [openings_append, hfired, append_nil]
    exact hv.critical
  announced := throughout_append hv.announced fun x hx pre t heq =>
    absurd (heq ▸ hx) (hresolved t true)

theorem fires (hv : Spoken i h past) {name : String} {pid : Nat} (hs : (h.alerts i).status = .off)
    (hconfig : h'.config = h.config) (hstc : h'.stcNs = h.stcNs)
    (hhit : h'.alerts i = (h.alerts i).hit h.stcNs)
    (hentries : h'.entries = h.aggregated i name pid) (hfired : openings i new = [true])
    (hresolved : ∀ t ok, .resolved i t ok ∉ new) : Spoken i h' (past ++ new) where
  takes := by rw [hconfig]; exact hv.takes
  narrow := by rw [hconfig]; exact hv.narrow
  stc := hstc ▸ hv.stc
  last := by rw [hhit, hstc]; exact Nat.le_refl _
  windows := by
    rw [hentries, hhit]
    intro slot hactive hid
    show _ ≤ h.stcNs
    by_cases hwindow : h.config.windowMs = 0
    · rw [aggregated_windowless h i name pid hwindow] at hactive hid ⊢
      exact (hv.windows slot hactive hid).trans hv.last
    · obtain ⟨e, heq, -, -, -, -, hstart⟩ :=
        aggregated_opens h i name pid (hv.not_inWindow hs pid) hwindow
      rw [heq] at hactive hid ⊢
      by_cases hslot : slot = alertAggregatorHash i pid
      · rw [hslot, update_self, hstart]
      · rw [update_of_ne hslot] at hactive hid ⊢
        exact (hv.windows slot hactive hid).trans hv.last
  rested := by
    rw [hhit]
    exact fun hoff => (by cases hoff)
  begun := by
    rw [openings_append, hfired]
    exact fun _ => append_ne_nil_of_right_ne_nil _ (cons_ne_nil _ _)
  critical := by
    rw [openings_append, hfired]
    intro b hb
    rcases mem_append.mp hb with hb | hb
    · exact hv.critical b hb
    · exact mem_singleton.mp hb
  announced := throughout_append hv.announced fun x hx pre t heq =>
    absurd (heq ▸ hx) (hresolved t true)

theorem resolved (hv : Spoken i h past) {ok : Bool} (hs : (h.alerts i).status = .firing)
    (hquiet : pidTimeoutNs < sub64 h.stcNs (h.alerts i).lastOccurrenceNs)
    (hconfig : h'.config = h.config) (hstc : h'.stcNs = h.stcNs)
    (hoff : (h'.alerts i).status = .off)
    (hlast : (h'.alerts i).lastOccurrenceNs = (h.alerts i).lastOccurrenceNs)
    (hentries : h'.entries = h.entries) :
    Spoken i h' (past ++ [.resolved i h.stcNs ok]) where
  takes := by rw [hconfig]; exact hv.takes
  narrow := by rw [hconfig]; exact hv.narrow
  stc := hstc ▸ hv.stc
  last := by rw [hlast, hstc]; exact hv.last
  windows := by
    rw [hentries, hlast]
    exact hv.windows
  rested := by
    intro _ _ _ _
    rw [sub64_of_le hv.last hv.stc] at hquiet
    rw [hlast, hstc]
    omega
  begun := by
    rw [hoff]
    exact fun hs' => (by cases hs')
  critical := by
    rw [openings_append, show openings i [.resolved i h.stcNs ok] = [] from rfl, append_nil]
    exact hv.critical
  announced := by
    refine throughout_snoc hv.announced fun t _ => ?_
    obtain ⟨b, hb⟩ := getLast?_isSome.mpr (hv.begun hs) |> Option.isSome_iff_exists.mp
    rw [hb, hv.critical b (mem_of_getLast? hb)]

end Spoken

theorem openings_observe (hop : ∀ name pid, op ≠ .report i name pid) :
    openings i (observe h op) = [] := by
  refine openings_eq_nil fun x hx pid t suppressed critical heq => ?_
  obtain ⟨name, hreport⟩ := fired_mem_observe (heq ▸ hx)
  exact hop name pid hreport

theorem report_entries_other {id : AlertId} (hid : id ≠ i) (h : Alerts) (name : String)
    (pid slot : Nat) (hslot : ((tsaAlertUpdate h id true name pid).entries slot).id = i) :
    (tsaAlertUpdate h id true name pid).entries slot = h.entries slot := by
  rw [report_entries] at hslot ⊢
  split at hslot
  · next hfires =>
    rw [if_pos hfires]
    by_cases hwindow : h.config.windowMs = 0
    · rw [aggregated_windowless h id name pid hwindow]
    · by_cases hhash : slot = alertAggregatorHash id pid
      · rw [hhash, (aggregated_pair h id name pid hwindow).1] at hslot
        exact absurd hslot hid
      · rw [aggregated_of_ne h id name pid hhash]
  · next hfires => rw [if_neg hfires]

theorem step_spoken {past : List Happening} (hv : Spoken i h past) (htimely : op.Timely h) :
    Spoken i (opStep h op) (past ++ observe h op) := by
  cases op with
  | tick stcNs =>
    exact hv.unconcerned rfl htimely.1 htimely.2 rfl (fun _ _ _ => rfl) rfl
      (fun t ok => not_mem_nil)
  | report id name pid =>
    obtain ⟨hconfig, hstc⟩ := report_keeps h id name pid
    have hresolved : ∀ t ok, .resolved i t ok ∉ observe h (.report id name pid) :=
      fun t ok hx => (by cases (resolved_mem_observe hx).1)
    by_cases hid : id = i
    · subst hid
      have halerts := report_alerts h id name pid
      have hentries := report_entries h id name pid
      have hseen := observe_report h id name pid
      cases htree : tsaAlertIsSuppressedByTree h id with
      | true =>
        rw [htree] at halerts hentries hseen
        refine hv.unconcerned hconfig hstc.ge (hstc ▸ hv.stc) (congrFun halerts id)
          (fun slot _ _ => congrFun (hentries.trans (if_neg (by simp))) slot) ?_ hresolved
        rw [hseen]
        rfl
      | false =>
        rw [htree] at halerts hentries hseen
        have hhit : (tsaAlertUpdate h id true name pid).alerts id = (h.alerts id).hit h.stcNs := by
          rw [halerts]
          simp
        cases hs : (h.alerts id).status with
        | firing =>
          refine hv.again hs hconfig hstc hhit (hentries.trans (if_neg (by simp [hs]))) ?_ hresolved
          rw [hseen, hs]
          rfl
        | off =>
          refine hv.fires hs hconfig hstc hhit (hentries.trans (if_pos ⟨rfl, hs⟩)) ?_ hresolved
          rw [hseen, hs, hv.not_inWindow hs pid, hv.takes]
          simp [openings]
    · refine hv.unconcerned hconfig hstc.ge (hstc ▸ hv.stc)
        (report_other h id name pid (Ne.symm hid)) ?_ ?_ hresolved
      · exact fun slot _ hslot => report_entries_other hid h name pid slot hslot
      · exact openings_observe fun _ _ hop => hid (Op.report.inj hop).1
  | flush j =>
    obtain ⟨hconfig, hstc, halerts⟩ := flush_keeps h j
    refine hv.unconcerned hconfig hstc.ge (hstc ▸ hv.stc) (congrFun halerts i)
      (fun slot hactive _ => flush_active h hactive) ?_ ?_
    · exact openings_observe fun _ _ hop => (by cases hop)
    · exact fun t ok hx => (by cases (resolved_mem_observe hx).1)
  | resolve id =>
    obtain ⟨hconfig, hstc, hentries⟩ := resolve_keeps h id
    rcases resolve_cases h i id with ⟨hs, hquiet, hoff, hlast, ok, hseen⟩ | ⟨hsame, hresolved⟩
    · rw [hseen]
      exact hv.resolved hs hquiet hconfig hstc hoff hlast hentries
    · exact hv.unconcerned hconfig hstc.ge (hstc ▸ hv.stc) hsame
        (fun slot _ _ => congrFun hentries slot)
        (openings_observe fun _ _ hop => (by cases hop)) hresolved

theorem mute_announced (config : AlertConfig) (hmute : config.webhookTakes i = false)
    (ops : List Op) : Throughout (Announced i) (run opEngine (.fresh config) ops).2 := by
  have hstep : ∀ (h : Alerts) past op, h.config = config ∧ Throughout (Announced i) past → True →
      (opEngine h op).1.config = config ∧ Throughout (Announced i) (past ++ (opEngine h op).2) := by
    rintro h past op ⟨hconfig, hpast⟩ -
    refine ⟨(opStep_config h op).trans hconfig, throughout_append hpast ?_⟩
    rintro x hx pre t rfl
    have hok := (resolved_mem_observe (h := h) hx).2
    rw [hconfig, hmute, Bool.and_false] at hok
    cases hok
  exact (run_history (R := fun _ _ => True)
    (J := fun (h : Alerts) past => h.config = config ∧ Throughout (Announced i) past) hstep ops
    (.fresh config) [] ⟨rfl, throughout_nil _⟩ (along_true _ ops _)).2

/-- The alert fires and is resolved as early as it can be. -/
def onceCalls (i : AlertId) : List Call :=
  [.update i true (tsaAlertGetName i) 0, .tick (pidTimeoutNs + 1), .check .unlocked]

/-- Then it fires again, and is resolved again. -/
def twiceCalls (i : AlertId) : List Call :=
  onceCalls i ++ [.update i true (tsaAlertGetName i) 0] ++ [.tick (2 * pidTimeoutNs + 2)] ++
    [.check .unlocked]

theorem tree_of_all_off (hoff : ∀ id, (h.alerts id).status = .off) (i : AlertId) :
    tsaAlertIsSuppressedByTree h i = false := by
  simp [tsaAlertIsSuppressedByTree, hoff]

/-- When windows are wider than the rest, an alert that fires again is still in the window that it
    opened the first time. -/
theorem once_inWindow (i : AlertId) (hwide : pidTimeoutNs < config.windowMs * 1000000) :
    let h := (run engine (.fresh config) (onceCalls i)).1
    h.config = config ∧ h.stcNs = pidTimeoutNs + 1 ∧ (∀ id, (h.alerts id).status = .off) ∧
      h.inWindow i 0 = true ∧ (h.entries (alertAggregatorHash i 0)).windowStartNs = 0 ∧
      (h.entries (alertAggregatorHash i 0)).hitCount = 1 := by
  intro h
  have hwindow : config.windowMs ≠ 0 := by
    rintro hzero
    rw [hzero] at hwide
    exact absurd hwide (by decide)
  have hoff : ∀ id, ((Alerts.fresh config).alerts id).status = .off := fun _ => rfl
  -- The first update fires and opens the window.
  obtain ⟨h1, hh1⟩ : ∃ h1, h1 = callStep (.fresh config) (.update i true (tsaAlertGetName i) 0) :=
    ⟨_, rfl⟩
  have hupdate : h1 = tsaAlertUpdate (.fresh config) i true (tsaAlertGetName i) 0 := hh1
  have hconfig : h1.config = config := by
    rw [hupdate]
    exact (report_keeps _ _ _ _).1
  have halerts : h1.alerts = update (fun _ => ⟨.off, 0, 0, false⟩) i
      (AlertState.hit ⟨.off, 0, 0, false⟩ 0) := by
    rw [hupdate, report_alerts, tree_of_all_off hoff]
    rfl
  obtain ⟨e, hopened, hactive, hid, hpid, hcount, hstart⟩ := aggregated_opens (.fresh config) i
    (tsaAlertGetName i) 0 (by simp [Alerts.inWindow, Alerts.fresh]) hwindow
  have hentry : h1.entries (alertAggregatorHash i 0) = e := by
    rw [hupdate, report_entries, if_pos ⟨tree_of_all_off hoff i, rfl⟩, hopened,
      update_self]
  -- The check finds the alert quiet, and the window open.
  have hh : h = callStep { h1 with stcNs := pidTimeoutNs + 1 } (.check .unlocked) := by
    have htick : callStep h1 (.tick (pidTimeoutNs + 1)) = { h1 with stcNs := pidTimeoutNs + 1 } :=
      rfl
    show (run engine (.fresh config) (onceCalls i)).1 = _
    rw [run_engine_fst, onceCalls, foldl_cons, foldl_cons, foldl_cons,
      foldl_nil, ← hh1, htick]
  obtain ⟨k1, k2, k3, k4⟩ := unlocked_state { h1 with stcNs := pidTimeoutNs + 1 }
  rw [← hh] at k1 k2 k3 k4
  have hslot : h.entries (alertAggregatorHash i 0) = e := by
    rw [k4 _ (hash_lt i 0)]
    show (h1.entries _).expire (h1.config.windowMs * 1000000) (pidTimeoutNs + 1) = e
    rw [hentry, hconfig, AggregatorEntry.expire, hstart]
    refine if_neg fun hover => ?_
    have hle := hover.2
    rw [show (Alerts.fresh config).stcNs = 0 from rfl,
      sub64_of_le (Nat.zero_le _) (by decide)] at hle
    simp only [pidTimeoutNs] at hle hwide
    omega
  refine ⟨k1.trans hconfig, k2, fun id => ?_, ?_, by rw [hslot, hstart]; rfl, by rw [hslot, hcount]⟩
  · rw [k3]
    show ((h1.alerts id).settle (pidTimeoutNs + 1)).status = .off
    rw [halerts]
    by_cases hne : id = i
    · rw [hne, update_self]
      decide
    · rw [update_of_ne hne]
      decide
  · simp only [Alerts.inWindow, decide_eq_true_eq]
    rw [hslot, k1, k2, hstart]
    refine ⟨hconfig ▸ hwindow, hactive, hid, hpid, ?_⟩
    show sub64 (pidTimeoutNs + 1) 0 < h1.config.windowMs * 1000000
    rw [hconfig, sub64_of_le (Nat.zero_le _) (by decide)]
    simp only [pidTimeoutNs] at hwide ⊢
    omega

theorem twice_timely (i : AlertId) (hwide : pidTimeoutNs < config.windowMs * 1000000) :
    Along Call.Timely callStep (.fresh config) (twiceCalls i) := by
  obtain ⟨-, hstc, -⟩ := once_inWindow i hwide
  rw [run_engine_fst] at hstc
  have hupdate : ∀ h, (callStep h (.update i true (tsaAlertGetName i) 0)).stcNs = h.stcNs :=
    fun h => (report_keeps h i (tsaAlertGetName i) 0).2
  refine along_append.mpr ⟨along_append.mpr ⟨along_append.mpr ⟨?_, trivial, trivial⟩, ?_⟩,
    trivial, trivial⟩
  · refine ⟨trivial, ⟨?_, by decide⟩, trivial, trivial⟩
    rw [hupdate]
    exact Nat.zero_le _
  · refine ⟨⟨?_, by decide⟩, trivial⟩
    rw [foldl_append, foldl_cons, foldl_nil, hupdate, hstc]
    decide

theorem twice_unannounced (htakes : config.webhookTakes i = true)
    (hwide : pidTimeoutNs < config.windowMs * 1000000) :
    ¬ Throughout (Announced i) (run engine (.fresh config) (twiceCalls i)).2 := by
  obtain ⟨hconfig, hstc, hoff, hin, -⟩ := once_inWindow i hwide
  obtain ⟨h3, hh3⟩ : ∃ h3, h3 = (run engine (.fresh config) (onceCalls i)).1 := ⟨_, rfl⟩
  rw [← hh3] at hconfig hstc hoff hin
  have htree := tree_of_all_off hoff i
  -- The second firing is suppressed.
  have hseen : (engine h3 (.update i true (tsaAlertGetName i) 0)).2 =
      [.reported i h3.stcNs, .fired i 0 h3.stcNs true false] := by
    rw [engine_fires htree (hoff i), hin]
    rfl
  obtain ⟨h5, hh5⟩ : ∃ h5, h5 = (run engine (.fresh config) (onceCalls i ++
    [.update i true (tsaAlertGetName i) 0] ++ [.tick (2 * pidTimeoutNs + 2)])).1 := ⟨_, rfl⟩
  have hstate : h5 = { tsaAlertUpdate h3 i true (tsaAlertGetName i) 0 with
      stcNs := 2 * pidTimeoutNs + 2 } := by
    rw [hh5, run_engine_snoc_fst, run_engine_snoc_fst, ← hh3]
    rfl
  have halert : h5.alerts i = (h3.alerts i).hit h3.stcNs := by
    rw [hstate]
    show (tsaAlertUpdate h3 i true (tsaAlertGetName i) 0).alerts i = _
    rw [report_alerts, htree]
    simp
  have hquiet : pidTimeoutNs < sub64 h5.stcNs (h5.alerts i).lastOccurrenceNs := by
    rw [halert, hstate]
    show pidTimeoutNs < sub64 (2 * pidTimeoutNs + 2) h3.stcNs
    rw [hstc]
    decide
  obtain ⟨pre, post, hresolved, hpre⟩ := unlocked_resolves (by rw [halert]; rfl) hquiet
  have hok : ((h5.alerts i).needsResolveMsg && h5.config.webhookTakes i) = true := by
    have hneeds : (h5.alerts i).needsResolveMsg = true := by
      rw [halert]
      exact if_pos (hoff i)
    have hcfg : h5.config = config := by
      rw [hstate]
      exact (report_keeps h3 i (tsaAlertGetName i) 0).1.trans hconfig
    rw [hneeds, hcfg, htakes]
    rfl
  intro hann
  rw [twiceCalls, run_engine_snoc, ← hh5, hresolved, hok, ← append_assoc] at hann
  have hlast := hann _ _ _ rfl _ rfl
  rw [run_engine_snoc, run_engine_snoc, ← hh3, hseen, openings_append, openings_append,
    openings_append, openings_eq_nil fun x hx pid t => hpre x hx i pid t] at hlast
  have htick : ∀ h, openings i (engine h (.tick (2 * pidTimeoutNs + 2))).2 = [] := fun _ => rfl
  rw [htick] at hlast
  simp [openings] at hlast

/-- **CRITICAL before OK.**  That every OK of the alert follows a CRITICAL of the same episode, in
    all histories with non-decreasing `stc_ns`, comes down to the configuration: no webhook event of
    the alert passes, or the aggregation window is no longer than the 5 s an alert must be quiet. -/
theorem ok_announced_iff (i : AlertId) (config : AlertConfig) :
    (∀ cs, Along Call.Timely callStep (.fresh config) cs →
      Throughout (Announced i) (run engine (.fresh config) cs).2) ↔
      (config.webhookTakes i = true → config.windowMs * 1000000 ≤ pidTimeoutNs) := by
  constructor
  · intro h htakes
    by_contra hwide
    have hwide' := Nat.lt_of_not_le hwide
    exact twice_unannounced htakes hwide' (h _ (twice_timely i hwide'))
  · intro hnarrow cs htimely
    rw [run_engine_eq]
    cases htakes : config.webhookTakes i with
    | false => exact mute_announced config htakes _
    | true =>
      have hops : Along Op.Timely opStep (.fresh config) (expand (.fresh config) cs) :=
        along_expand (fun h c hc => hc.ops) htimely
      exact (run_history (J := Spoken i) (fun h past op hv hop => step_spoken hv hop)
        (expand (.fresh config) cs) (.fresh config) [] (spoken_fresh htakes (hnarrow htakes))
        hops).announced

/-- With the default window of 10 s: the second PAT error is resolved with an OK, unannounced. -/
theorem webhookConfig_unannounced :
    Along Call.Timely callStep (.fresh webhookConfig) (twiceCalls .pat) ∧
      ¬ Throughout (Announced .pat) (run engine (.fresh webhookConfig) (twiceCalls .pat)).2 :=
  ⟨twice_timely .pat (by decide), twice_unannounced (by decide) (by decide)⟩

end TsAnalyzer.Alarm
