/-
  What becomes of the events pushed to the webhook engine.

  1. **Conservation** — every event of a pair is a message, or counted in a summary of the pair, or
     held by an entry of it.
  2. **State changes** — suppression looks at no level, so an OK soon after a CRITICAL is counted as
     one more CRITICAL.
-/
import TsAnalyzer.Webhook.Engine

namespace TsAnalyzer.Webhook

open Lib List Function

/-! ## Conservation -/

def pushes (p : Pair) (past : List Happening) : Nat :=
  past.countP fun
    | .pushed q _ _ _ => q = p
    | .enqueued .. => false

/-- Messages of the pair that were enqueued on their own. -/
def singles (p : Pair) (past : List Happening) : Nat :=
  past.countP fun
    | .pushed .. => false
    | .enqueued m _ => m.pair = p ∧ m.count = 1

/-- The sum over the summaries of the pair of `count - 1`. -/
def summed (p : Pair) (past : List Happening) : Nat :=
  (past.map fun
    | .pushed .. => 0
    | .enqueued m _ => if m.pair = p then m.count - 1 else 0).sum

/-- Suppressed events of the pair that an entry holds. -/
def heldIn (p : Pair) (e : SuppressionEntry) : Nat := if e.pair = p then e.count - 1 else 0

/-- No event of the pair is lost or counted twice. -/
def Conserved (p : Pair) (eng : Engine) (past : List Happening) : Prop :=
  pushes p past = singles p past + summed p past + ∑ i, heldIn p (eng.cache i)
deriving Decidable

/-- A push that is suppressed is so by an entry of its own pair with room in the counter, and one
    that is not replaces an entry that holds nothing. -/
def Fair (eng : Engine) : Op → Prop
  | .push now _ e =>
    match eng.suppressor now e with
    | some i => (eng.cache i).pair = e.pair ∧ (eng.cache i).count + 1 < 2 ^ 32
    | none => (eng.cache (eng.victim now)).count ≤ 1
  | _ => True

instance (eng : Engine) : (op : Op) → Decidable (Fair eng op)
  | .push now _ e =>
    match h : eng.suppressor now e with
    | some i =>
      decidable_of_iff ((eng.cache i).pair = e.pair ∧ (eng.cache i).count + 1 < 2 ^ 32)
        (by simp only [Fair, h])
    | none =>
      decidable_of_iff ((eng.cache (eng.victim now)).count ≤ 1) (by simp only [Fair, h])
  | .flush .. | .take => isTrue trivial

section Conserved

variable {eng eng' : Engine} {past new : List Happening} {now : Nat} {e : PushEvent} {op : Op}
  {i : Fin suppressionCacheSize}

theorem conserved_iff {p : Pair} (h : Conserved p eng past) {entry : SuppressionEntry}
    (hcache : eng'.cache = update eng.cache i entry) :
    Conserved p eng' (past ++ new) ↔
      pushes p new + heldIn p (eng.cache i) = singles p new + summed p new + heldIn p entry := by
  have hheld := sum_update_add (heldIn p) (Finset.mem_univ i) eng.cache entry
  rw [← hcache] at hheld
  simp only [Conserved, pushes, singles, summed, countP_append, map_append,
    sum_append] at h ⊢
  omega

theorem suppressed_conserved_iff (h : ∀ p, Conserved p eng past) {level : CString}
    (hpos : 0 < (eng.cache i).count)
    (hcache : eng'.cache = update eng.cache i
      { eng.cache i with count := ((eng.cache i).count + 1) % 2 ^ 32 }) :
    (∀ p, Conserved p eng' (past ++ [.pushed e.pair level now true])) ↔
      (eng.cache i).pair = e.pair ∧ (eng.cache i).count + 1 < 2 ^ 32 := by
  have hpair : ∀ p, Conserved p eng' (past ++ [.pushed e.pair level now true]) ↔
      (if e.pair = p then 1 else 0) + heldIn p (eng.cache i) =
        if (eng.cache i).pair = p then ((eng.cache i).count + 1) % 2 ^ 32 - 1 else 0 := by
    intro p
    rw [conserved_iff (h p) hcache]
    have hnew : ∀ count, heldIn p { eng.cache i with count := count } =
        if (eng.cache i).pair = p then count - 1 else 0 := fun _ => rfl
    simp [pushes, singles, summed, hnew, countP_cons]
  simp only [hpair, heldIn]
  constructor
  · intro hall
    have hown := hall e.pair
    rw [if_pos rfl] at hown
    by_cases hq : (eng.cache i).pair = e.pair
    · rw [if_pos hq, if_pos hq] at hown
      exact ⟨hq, by omega⟩
    · rw [if_neg hq, if_neg hq] at hown
      omega
  · rintro ⟨hq, hfits⟩ p
    rw [hq]
    split <;> omega

theorem sent_conserved_iff (h : ∀ p, Conserved p eng past) {level : CString}
    (hcache : eng'.cache = update eng.cache i (e.entry now)) :
    (∀ p, Conserved p eng'
        (past ++ [.pushed e.pair level now false, .enqueued e.single now])) ↔
      (eng.cache i).count ≤ 1 := by
  have hpair : ∀ p, Conserved p eng'
      (past ++ [.pushed e.pair level now false, .enqueued e.single now]) ↔
      heldIn p (eng.cache i) = 0 := by
    intro p
    rw [conserved_iff (h p) hcache]
    have hown : e.single.pair = e.pair := rfl
    have hcount : e.single.count = 1 := rfl
    have hnone : heldIn p (e.entry now) = 0 := by
      simp [heldIn, PushEvent.entry]
    simp [pushes, singles, summed, countP_cons, hown, hnone, hcount]
  simp only [hpair, heldIn]
  constructor
  · intro hall
    have hown := hall (eng.cache i).pair
    rw [if_pos rfl] at hown
    omega
  · intro hfew p
    split <;> omega

theorem summed_conserved {p : Pair} (h : Conserved p eng past) (hmany : 1 < (eng.cache i).count)
    (hcache : eng'.cache = update eng.cache i { eng.cache i with count := 0 }) :
    Conserved p eng' (past ++ [.enqueued (eng.cache i).summary now]) := by
  rw [conserved_iff h hcache]
  have hpair : (eng.cache i).summary.pair = (eng.cache i).pair := rfl
  have hcount : (eng.cache i).summary.count = (eng.cache i).count := rfl
  have hmore : (eng.cache i).count ≠ 1 := Nat.ne_of_gt hmany
  simp [pushes, singles, summed, heldIn, hpair, hcount, hmore]

/-- **An operation keeps all events exactly when it is fair.** -/
theorem effect_conserved_iff (h : ∀ p, Conserved p eng past) (heff : Effect eng op eng' new) :
    (∀ p, Conserved p eng' (past ++ new)) ↔ Fair eng op := by
  cases heff with
  | suppressed hs =>
    simp only [Fair, hs]
    exact suppressed_conserved_iff h (suppressor_some hs).2.1 rfl
  | sent hs =>
    simp only [Fair, hs]
    exact sent_conserved_iff h rfl
  | summed hmany _ => exact iff_of_true (fun p => summed_conserved (h p) hmany rfl) trivial
  | idle | taken =>
    rw [append_nil]
    exact iff_of_true h trivial

end Conserved

/-! ## What suppresses an event -/

/-- The names fit the fields of an entry. -/
def Op.Fits : Op → Prop
  | .push _ _ e => (e.streamId.getD unknownName).length ≤ 63 ∧ e.eventType.length ≤ 31
  | _ => True

instance : (op : Op) → Decidable op.Fits
  | .push _ _ e =>
    inferInstanceAs
      (Decidable ((e.streamId.getD unknownName).length ≤ 63 ∧ e.eventType.length ≤ 31))
  | .flush .. | .take => isTrue trivial

/-- An event is suppressed only if the same pair was sent on its own less than 10 s before. -/
def SentBefore (past : List Happening) (x : Happening) : Prop :=
  ∀ p level now, x = .pushed p level now true →
    ∃ m sent, .enqueued m sent ∈ past ∧ m.pair = p ∧ m.count = 1 ∧ sent ≤ now ∧
      now < sent + cooldownNs

/-- No entry is of the future. -/
def Recent (eng : Engine) : Prop := ∀ i, (eng.cache i).lastSentNs ≤ eng.clockNs

/-- An entry in use goes back to a message of its pair. -/
def Traced (eng : Engine) (past : List Happening) : Prop :=
  ∀ i, 0 < (eng.cache i).count → ∃ m, .enqueued m (eng.cache i).lastSentNs ∈ past ∧
    m.pair = (eng.cache i).pair ∧ m.count = 1

section Traced

variable {eng eng' : Engine} {past new : List Happening} {now timestamp : Nat} {e : PushEvent}
  {op : Op} {i : Fin suppressionCacheSize}

theorem recent_update {c : Fin suppressionCacheSize → SuppressionEntry} {entry : SuppressionEntry}
    (h : ∀ j, (c j).lastSentNs ≤ now) (hentry : entry.lastSentNs ≤ now) :
    ∀ j, (update c i entry j).lastSentNs ≤ now := by
  intro j
  by_cases hj : j = i
  · rw [hj, update_self]
    exact hentry
  · rw [update_of_ne hj]
    exact h j

theorem effect_recent (h : Recent eng) (heff : Effect eng op eng' new) (htimely : Timely eng op) :
    Recent eng' := by
  have hnow : ∀ now, eng.clockNs ≤ now → ∀ j, (eng.cache j).lastSentNs ≤ now :=
    fun now hclock j => (h j).trans hclock
  cases heff with
  | suppressed | summed => exact recent_update (hnow _ htimely.1) (hnow _ htimely.1 _)
  | sent hs => exact recent_update (hnow _ htimely.1) (Nat.le_refl _)
  | idle _ => exact hnow _ htimely.1
  | taken => exact h

theorem entry_pair (h : (Op.push now timestamp e).Fits) : (e.entry now).pair = e.pair := by
  simp only [SuppressionEntry.pair, PushEvent.entry, PushEvent.pair, take_of_length_le h.1,
    take_of_length_le h.2]

theorem Traced.mono (h : Traced eng past) (new : List Happening) : Traced eng (past ++ new) := by
  intro i hi
  obtain ⟨m, hm, hrest⟩ := h i hi
  exact ⟨m, mem_append_left _ hm, hrest⟩

theorem Traced.update {entry : SuppressionEntry} (h : Traced eng past)
    (hcache : eng'.cache = update eng.cache i entry)
    (hentry : 0 < entry.count → ∃ m, .enqueued m entry.lastSentNs ∈ past ++ new ∧
      m.pair = entry.pair ∧ m.count = 1) : Traced eng' (past ++ new) := by
  intro j hj
  rw [hcache] at hj ⊢
  by_cases hji : j = i
  · rw [hji, update_self] at hj ⊢
    exact hentry hj
  · rw [update_of_ne hji] at hj ⊢
    exact h.mono new j hj

theorem effect_traced (h : Traced eng past) (heff : Effect eng op eng' new) (hfits : op.Fits) :
    Traced eng' (past ++ new) := by
  cases heff with
  | suppressed hs => exact h.update rfl fun _ => h.mono _ _ (suppressor_some hs).2.1
  | @sent now timestamp e hs =>
    refine h.update rfl fun _ => ⟨e.single, ?_, (entry_pair hfits).symm, rfl⟩
    exact mem_append_right _ (mem_cons_of_mem _ mem_cons_self)
  | summed _ _ => exact h.update rfl fun hpos => absurd hpos (Nat.lt_irrefl 0)
  | idle | taken => exact h.mono _

theorem effect_sentBefore (hpast : Throughout SentBefore past) (hrecent : Recent eng)
    (htraced : Traced eng past) (heff : Effect eng op eng' new) (htimely : Timely eng op)
    (hfair : Fair eng op) : Throughout SentBefore (past ++ new) := by
  have hquiet : (∀ p level now, .pushed p level now true ∉ new) →
      Throughout SentBefore (past ++ new) := by
    intro hnone
    refine throughout_append hpast fun x hx pre p level t hpushed => ?_
    exact absurd (hpushed ▸ hx) (hnone p level t)
  cases heff with
  | @suppressed now timestamp e i hs =>
    refine throughout_snoc hpast fun p level t hx => ?_
    obtain ⟨rfl, -, rfl, -⟩ := Happening.pushed.inj hx
    obtain ⟨-, hpos, hcool⟩ := suppressor_some hs
    obtain ⟨m, hm, hpair, hcount⟩ := htraced i hpos
    have hold : (eng.cache i).lastSentNs ≤ now := (hrecent i).trans htimely.1
    rw [sub64_of_le hold htimely.2] at hcool
    simp only [Fair, hs] at hfair
    exact ⟨m, _, hm, hpair.trans hfair.1, hcount, hold, by omega⟩
  | _ => exact hquiet (by simp)

end Traced

/-- **Conservation.**  For every run of pushes and flushes that never finds the queue full: at every
    moment each pair's pushes are its messages, plus `count - 1` for each of its summaries, plus
    what the cache holds for it, exactly when every operation is fair.  And then, if names fit, an
    event is suppressed only if its pair was sent less than 10 s before. -/
theorem webhook_conserves_iff (ops : List Op) (hroom : Along Room step .init ops) :
    ((∀ pre, pre <+: ops → ∀ p, Conserved p (run engine .init pre).1 (run engine .init pre).2) ↔
      Along Fair step .init ops) ∧
    (Along Fair step .init ops → Along Timely step .init ops → (∀ op ∈ ops, op.Fits) →
      Throughout SentBefore (run engine .init ops).2) := by
  constructor
  · have hstart : ∀ p, Conserved p .init [] := by
      intro p
      simp [Conserved, pushes, singles, summed, heldIn, Engine.init]
    exact run_history_iff (J := fun eng past => ∀ p, Conserved p eng past)
      (fun _ _ _ h hroom => effect_conserved_iff h (step_effect hroom)) ops .init [] hstart hroom
  · intro hfair htimely hfits
    have hfit : Along (fun _ op => op.Fits) step Engine.init ops :=
      along_of_forall fun op hop _ => hfits op hop
    have hstart : Recent .init ∧ Traced .init [] ∧ Throughout SentBefore [] :=
      ⟨fun _ => Nat.le_refl 0, fun _ hpos => absurd hpos (Nat.lt_irrefl 0), throughout_nil _⟩
    refine (run_history (J := fun eng past => Recent eng ∧ Traced eng past ∧
      Throughout SentBefore past) ?_ ops .init [] hstart
      (along_and (along_and hroom hfair) (along_and htimely hfit))).2.2
    rintro eng past op ⟨hrecent, htraced, hpast⟩ ⟨⟨hroom, hfair⟩, htimely, hfits⟩
    have heff := step_effect hroom
    exact ⟨effect_recent hrecent heff htimely, effect_traced htraced heff hfits,
      effect_sentBefore hpast hrecent htraced heff htimely hfair⟩

/-- An event of stream `ab`. -/
def eventC : PushEvent := ⟨some [0x61, 0x62], [0x63], [], none⟩

/-- And one of stream `a` that has the same hash. -/
def eventBC : PushEvent := ⟨some [0x61], [0x62, 0x63], [], none⟩

/-- An event, the same again, and the summary. -/
def repeatedOps : List Op :=
  [.push 0 0 eventC, .push 1 0 eventC, .flush cooldownNs 10 (Engine.init.victim 0)]

theorem repeatedOps_conserve :
    (∀ pre, pre <+: repeatedOps →
        ∀ p, Conserved p (run engine .init pre).1 (run engine .init pre).2) ∧
      Throughout SentBefore (run engine .init repeatedOps).2 := by
  have hfair : Along Fair step .init repeatedOps := by decide +kernel
  obtain ⟨hiff, hsent⟩ := webhook_conserves_iff repeatedOps (by decide +kernel)
  exact ⟨hiff.mpr hfair, hsent hfair (by decide +kernel) (by decide +kernel)⟩

/-- The second event is suppressed by the entry of the first, and counted nowhere as its own. -/
theorem collidingEvents_lost :
    let ops : List Op := [.push 0 0 eventC, .push 1 0 eventBC]
    let r := run engine .init ops
    Along Room step .init ops ∧ Along Timely step .init ops ∧ (∀ op ∈ ops, op.Fits) ∧
      ¬ Conserved eventBC.pair r.1 r.2 := by
  decide +kernel

/-! ## State changes -/

/-- The entry will be summed up for the pair, with the level. -/
def SuppressionEntry.Holds (p : Pair) (level : CString) (e : SuppressionEntry) : Prop :=
  e.pair = p ∧ e.lastLevel = level ∧ 1 < e.count

/-- Some entry will. -/
def Engine.Holds (p : Pair) (level : CString) (eng : Engine) : Prop :=
  ∃ i, (eng.cache i).Holds p level

instance (p : Pair) (level : CString) (eng : Engine) : Decidable (eng.Holds p level) :=
  inferInstanceAs (Decidable (∃ i, (eng.cache i).pair = p ∧ (eng.cache i).lastLevel = level ∧
    1 < (eng.cache i).count))

/-- A message for the pair, with the level, is enqueued. -/
def Happening.Says (p : Pair) (level : CString) : Happening → Prop
  | .pushed .. => False
  | .enqueued m _ => m.pair = p ∧ m.level = level

def Sends (p : Pair) (level : CString) (seen : List Happening) : Prop :=
  ∃ x ∈ seen, x.Says p level

instance (p : Pair) (level : CString) : (x : Happening) → Decidable (x.Says p level)
  | .pushed .. => isFalse id
  | .enqueued m _ => inferInstanceAs (Decidable (m.pair = p ∧ m.level = level))

/-- The receiver hears that the pair is OK, and not CRITICAL. -/
def Delivered (p : Pair) (seen : List Happening) : Prop :=
  Sends p okLevel seen ∧ ¬ Sends p criticalLevel seen

instance (p : Pair) (seen : List Happening) : Decidable (Delivered p seen) :=
  inferInstanceAs
    (Decidable ((∃ x ∈ seen, x.Says p okLevel) ∧ ¬ ∃ x ∈ seen, x.Says p criticalLevel))

/-- The operation pushes no event of the pair. -/
def Op.Other (p : Pair) : Op → Prop
  | .push _ _ e => e.pair ≠ p
  | _ => True

/-- A push of another pair is not counted in an entry of this one, is not taken for it (names are
    cut), and replaces no entry that holds events of it. -/
def Apart (p : Pair) (eng : Engine) : Op → Prop
  | .push now _ e =>
    match eng.suppressor now e with
    | some i => (eng.cache i).pair ≠ p
    | none => (e.entry now).pair ≠ p ∧
        ((eng.cache (eng.victim now)).pair = p → (eng.cache (eng.victim now)).count ≤ 1)
  | _ => True

/-- What an entry counts once the event is pushed: one more if it suppresses the event, and 1 if it
    is given up for it. -/
def Engine.countWith (eng : Engine) (now : Nat) (e : PushEvent) (i : Fin suppressionCacheSize) :
    Nat :=
  match eng.suppressor now e with
  | some j => if i = j then ((eng.cache i).count + 1) % 2 ^ 32 else (eng.cache i).count
  | none => if i = eng.victim now then 1 else (eng.cache i).count

/-- Some entry of the pair of the event will hold a summary of this level. -/
def Engine.WillHold (eng : Engine) (now : Nat) (e : PushEvent) (level : CString) : Prop :=
  ∃ i, (eng.cache i).pair = e.pair ∧ (eng.cache i).lastLevel = level ∧ 1 < eng.countWith now e i

instance (eng : Engine) (now : Nat) (e : PushEvent) (level : CString) :
    Decidable (eng.WillHold now e level) :=
  inferInstanceAs (Decidable (∃ i, (eng.cache i).pair = e.pair ∧ (eng.cache i).lastLevel = level ∧
    1 < eng.countWith now e i))

/-- The event is sent, or held with another OK, and no CRITICAL of the pair is held. -/
def Heard (eng : Engine) (now : Nat) (e : PushEvent) : Prop :=
  (eng.suppressor now e = none ∨ eng.WillHold now e okLevel) ∧ ¬ eng.WillHold now e criticalLevel
deriving Decidable

theorem holds_push_iff (eng : Engine) (now timestamp : Nat) (e : PushEvent) (level : CString) :
    (tsaWebhookPushEvent eng now timestamp e).Holds e.pair level ↔ eng.WillHold now e level := by
  refine exists_congr fun i => ?_
  unfold tsaWebhookPushEvent Engine.countWith
  cases eng.suppressor now e with
  | some j =>
    by_cases hi : i = j
    · subst hi
      simp [SuppressionEntry.Holds, SuppressionEntry.pair]
    · simp [SuppressionEntry.Holds, hi]
  | none =>
    have hcache : (sendNowLocked
        { eng with
          cache := Function.update eng.cache (eng.victim now) (e.entry now), clockNs := now }
        e.single timestamp).cache = Function.update eng.cache (eng.victim now) (e.entry now) := by
      unfold sendNowLocked
      split <;> rfl
    dsimp only
    rw [hcache]
    by_cases hi : i = eng.victim now
    · simp [SuppressionEntry.Holds, hi, PushEvent.entry]
    · simp [SuppressionEntry.Holds, hi]

theorem sends_append {p : Pair} {level : CString} {seen new : List Happening} :
    Sends p level (seen ++ new) ↔ Sends p level seen ∨ Sends p level new := by
  simp only [Sends, mem_append, or_and_right, exists_or]

theorem not_sends_nil (p : Pair) (level : CString) : ¬ Sends p level [] := by
  simp [Sends]

theorem sends_cons {p : Pair} {level : CString} {x : Happening} {seen : List Happening} :
    Sends p level (x :: seen) ↔ x.Says p level ∨ Sends p level seen := by
  simp only [Sends, exists_mem_cons_iff]

theorem sends_single {p : Pair} {level : CString} {m : Message} {now : Nat} :
    Sends p level [.enqueued m now] ↔ m.pair = p ∧ m.level = level := by
  rw [sends_cons, or_iff_left (not_sends_nil p level), Happening.Says]

theorem sends_pushed {p q : Pair} {level lvl : CString} {now : Nat} {suppressed : Bool}
    {seen : List Happening} :
    Sends p level (.pushed q lvl now suppressed :: seen) ↔ Sends p level seen := by
  rw [sends_cons, Happening.Says, false_or]

section Delivery

variable {eng eng' : Engine} {new : List Happening} {p : Pair} {level : CString} {op : Op}
  {i : Fin suppressionCacheSize}

theorem holds_of_update {entry : SuppressionEntry} (hcache : eng'.cache = update eng.cache i entry)
    (hentry : ¬ entry.Holds p level) (h : eng'.Holds p level) : eng.Holds p level := by
  obtain ⟨j, hj⟩ := h
  rw [hcache] at hj
  by_cases hji : j = i
  · rw [hji, update_self] at hj
    exact absurd hj hentry
  · rw [update_of_ne hji] at hj
    exact ⟨j, hj⟩

theorem effect_silent (h : ¬ eng.Holds p level) (heff : Effect eng op eng' new)
    (hother : op.Other p) (hapart : Apart p eng op) :
    ¬ eng'.Holds p level ∧ ¬ Sends p level new := by
  cases heff with
  | suppressed hs =>
    simp only [Apart, hs] at hapart
    rw [sends_pushed]
    refine ⟨fun hnew => h (holds_of_update rfl ?_ hnew), not_sends_nil p level⟩
    exact fun hentry => hapart hentry.1
  | sent hs =>
    simp only [Apart, hs] at hapart
    rw [sends_pushed, sends_single]
    refine ⟨fun hnew => h (holds_of_update rfl ?_ hnew), fun hsingle => hother hsingle.1⟩
    exact fun hentry => hapart.1 hentry.1
  | summed hmany _ =>
    rw [sends_single]
    refine ⟨fun hnew => h (holds_of_update rfl ?_ hnew),
      fun hsummary => h ⟨_, hsummary.1, hsummary.2, hmany⟩⟩
    exact fun hentry => absurd hentry.2.2 (Nat.not_lt_zero 1)
  | idle | taken => exact ⟨h, not_sends_nil p level⟩

theorem effect_holds (h : (eng.cache i).Holds p level) (heff : Effect eng op eng' new)
    (hapart : Apart p eng op) : eng'.cache i = eng.cache i ∨ Sends p level new := by
  cases heff with
  | @suppressed now timestamp e j hs =>
    simp only [Apart, hs] at hapart
    have hij : i ≠ j := by
      rintro rfl
      exact hapart h.1
    exact Or.inl (update_of_ne hij _ _)
  | @sent now timestamp e hs =>
    simp only [Apart, hs] at hapart
    have hij : i ≠ eng.victim now := by
      rintro rfl
      exact absurd h.2.2 (Nat.not_lt.mpr (hapart.2 h.1))
    exact Or.inl (update_of_ne hij _ _)
  | @summed now timestamp j _ _ =>
    by_cases hij : i = j
    · subst hij
      exact Or.inr (sends_single.mpr ⟨h.1, h.2.1⟩)
    · exact Or.inl (update_of_ne hij _ _)
  | idle | taken => exact Or.inl rfl

theorem flush_sends {now timestamp : Nat} (h : (eng.cache i).Holds p level)
    (hold : (eng.cache i).lastSentNs + cooldownNs ≤ now) (htimely : now < 2 ^ 64)
    (heff : Effect eng (.flush now timestamp i) eng' new) : Sends p level new := by
  cases heff with
  | summed _ _ => exact sends_single.mpr ⟨h.1, h.2.1⟩
  | idle hidle =>
    refine absurd ⟨h.2.2, ?_⟩ hidle
    rw [sub64_of_le (by omega) htimely]
    omega

/-- **While others push, what is sent for a pair is what the cache holds for it**, in every run in
    which the worker comes round to each entry after its cooldown. -/
theorem sends_iff_holds {ops : List Op} {now : Nat} (hrecent : ∀ i, (eng.cache i).lastSentNs ≤ now)
    (htimely : Along Timely step eng ops) (hroom : Along Room step eng ops)
    (hother : ∀ op ∈ ops, op.Other p) (hapart : Along (Apart p) step eng ops)
    (hpass : ∀ i, ∃ later timestamp, now + cooldownNs ≤ later ∧ .flush later timestamp i ∈ ops) :
    Sends p level (run engine eng ops).2 ↔ eng.Holds p level := by
  have halong := along_and hroom hapart
  constructor
  · intro hsends
    by_contra hholds
    have hothers : Along (fun _ op => op.Other p) step eng ops :=
      along_of_forall fun op hop _ => hother op hop
    refine (run_history (J := fun eng past => ¬ eng.Holds p level ∧ ¬ Sends p level past) ?_ ops
      eng [] ⟨hholds, not_sends_nil p level⟩ (along_and halong hothers)).2 hsends
    rintro eng past op ⟨hholds, hpast⟩ ⟨⟨hroom, hapart⟩, hother⟩
    obtain ⟨hholds', hnew⟩ := effect_silent hholds (step_effect hroom) hother hapart
    exact ⟨hholds', fun hsends => (sends_append.mp hsends).elim hpast hnew⟩
  · rintro ⟨i, hi⟩
    obtain ⟨later, timestamp, hlater, hmem⟩ := hpass i
    have hold : (eng.cache i).lastSentNs + cooldownNs ≤ later := by
      have := hrecent i
      omega
    -- Until it is sent, the entry stays as it is.
    refine run_emits (I := fun eng' => eng'.cache i = eng.cache i) ?_ ?_ ops eng rfl
      (along_and halong htimely) hmem
    · rintro eng' op hsame ⟨⟨hroom, hapart⟩, -⟩
      rw [← hsame] at hi ⊢
      exact effect_holds hi (step_effect hroom) hapart
    · rintro eng' hsame ⟨⟨hroom, -⟩, htimely⟩
      rw [← hsame] at hi hold
      exact flush_sends hi hold htimely.2 (step_effect hroom)

theorem push_clock {now timestamp : Nat} {e : PushEvent}
    (heff : Effect eng (.push now timestamp e) eng' new) : eng'.clockNs = now := by
  cases heff with
  | suppressed | sent => rfl

theorem push_sends_iff {now timestamp : Nat} {e : PushEvent}
    (heff : Effect eng (.push now timestamp e) eng' new) :
    Sends e.pair level new ↔
      eng.suppressor now e = none ∧ e.level.getD criticalLevel = level := by
  cases heff with
  | @suppressed _ _ _ i hs =>
    rw [sends_pushed, hs]
    exact iff_of_false (not_sends_nil _ _) fun h => absurd h.1 (Option.some_ne_none i)
  | sent hs =>
    rw [sends_pushed, sends_single]
    exact and_congr_left' (iff_of_true rfl hs)

end Delivery

/-- **State changes.**  Let an OK be the last event of its pair, in any run with a clock that does
    not run backwards, a queue that is never full and a worker that comes round to every entry after
    the cooldown; and let the pushes of other pairs after it leave its pair alone.  Then an OK for
    the pair is enqueued at or after that push, and no CRITICAL, exactly when the push is heard. -/
theorem ok_delivered_iff (before after : List Op) (now timestamp : Nat) (e : PushEvent)
    (hok : e.level.getD criticalLevel = okLevel)
    (htimely : Along Timely step .init (before ++ .push now timestamp e :: after))
    (hroom : Along Room step .init (before ++ .push now timestamp e :: after))
    (hlast : ∀ op ∈ after, op.Other e.pair)
    (hapart : Along (Apart e.pair) step
      (tsaWebhookPushEvent (before.foldl step .init) now timestamp e) after)
    (hpass : ∀ i, ∃ later stamp, now + cooldownNs ≤ later ∧ .flush later stamp i ∈ after) :
    Delivered e.pair
        (run engine (before.foldl step .init) (.push now timestamp e :: after)).2 ↔
      Heard (before.foldl step .init) now e := by
  obtain ⟨htimely₁, htimely₂, htimely₃⟩ := along_append.mp htimely
  obtain ⟨hroom₁, hroom₂, hroom₃⟩ := along_append.mp hroom
  have hrecent : Recent (before.foldl step .init) :=
    along_inv (fun _ _ h hR => effect_recent h (step_effect hR.2) hR.1) before .init
      (fun _ => Nat.le_refl 0) (along_and htimely₁ hroom₁) before prefix_rfl
  generalize before.foldl step .init = eng at *
  have heff : Effect eng (.push now timestamp e) (tsaWebhookPushEvent eng now timestamp e)
      (observe eng (.push now timestamp e)) := step_effect hroom₂
  have hnow : ∀ i, ((tsaWebhookPushEvent eng now timestamp e).cache i).lastSentNs ≤ now := by
    intro i
    have := effect_recent hrecent heff htimely₂ i
    rwa [push_clock heff] at this
  have hsends : ∀ level,
      Sends e.pair level (run engine eng (.push now timestamp e :: after)).2 ↔
        (eng.suppressor now e = none ∧ okLevel = level) ∨
          (tsaWebhookPushEvent eng now timestamp e).Holds e.pair level := by
    intro level
    rw [← hok, ← push_sends_iff heff,
      ← sends_iff_holds hnow htimely₃ hroom₃ hlast hapart hpass, ← sends_append]
    rfl
  have hdiffer : okLevel ≠ criticalLevel := by decide
  simp only [Delivered, Heard, hsends, holds_push_iff, hdiffer, and_true, and_false, false_or]

theorem workerOps_other (p : Pair) (now timestamp : Nat) :
    ∀ op ∈ workerOps now timestamp, op.Other p ∧ ∀ eng, Apart p eng op := by
  intro op hop
  rcases mem_append.mp hop with hop | hop
  · obtain ⟨i, -, rfl⟩ := mem_map.mp hop
    exact ⟨trivial, fun _ => trivial⟩
  · obtain rfl := mem_singleton.mp hop
    exact ⟨trivial, fun _ => trivial⟩

theorem mem_workerOps (now timestamp : Nat) (i : Fin suppressionCacheSize) :
    .flush now timestamp i ∈ workerOps now timestamp :=
  mem_append_left _ (mem_map_of_mem (mem_finRange i))

/-- An alert, and its resolution. -/
def criticalEvent : PushEvent := ⟨some [0x61], [0x62], [], some criticalLevel⟩
def okEvent : PushEvent := ⟨some [0x61], [0x62], [], some okLevel⟩

/-- A resolution 10 s after the alert. -/
theorem lateOk_delivered :
    Delivered okEvent.pair (run engine ([.push 0 0 criticalEvent].foldl step .init)
      (.push cooldownNs 10 okEvent :: workerOps (2 * cooldownNs) 20)).2 := by
  refine (ok_delivered_iff [.push 0 0 criticalEvent] (workerOps (2 * cooldownNs) 20) cooldownNs 10
    okEvent rfl (by decide +kernel) (by decide +kernel) ?_ ?_ ?_).mpr (by decide +kernel)
  · exact fun op hop => (workerOps_other okEvent.pair _ _ op hop).1
  · exact along_of_forall fun op hop => (workerOps_other okEvent.pair _ _ op hop).2
  · exact fun i => ⟨2 * cooldownNs, 20, by decide, mem_workerOps _ _ i⟩

/-- A resolution 1 ns after the alert is suppressed, and what goes out for it 10 s later is a second
    alert. -/
theorem earlyOk_hidden :
    let before : List Op := [.push 0 0 criticalEvent]
    let late : List Op := .push 1 0 okEvent :: workerOps cooldownNs 10
    Along Timely step .init (before ++ late) ∧ Along Room step .init (before ++ late) ∧
      (∀ op ∈ workerOps cooldownNs 10, op.Other okEvent.pair) ∧
      ¬ Delivered okEvent.pair (run engine (before.foldl step .init) late).2 := by
  refine ⟨by decide +kernel, by decide +kernel, ?_, by decide +kernel⟩
  exact fun op hop => (workerOps_other okEvent.pair _ _ op hop).1

end TsAnalyzer.Webhook
