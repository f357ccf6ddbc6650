/-
  The sliding bit-rate window (`src/tsa_histogram.c`): a ring of 100 buckets of 10 ms.

  1. **Program** — a call advances the ring by the slots since the last one.  Their number is cut to
     32 bits BEFORE it is compared with 100, and the extremes are taken over the whole ring.
  2. **Specification** (`Timeline`) — the packets since the first one, or the last long gap.
-/
import TsAnalyzer.Lib.Run

namespace TsAnalyzer.Rate

open Lib List Function

/-! ## Program -/

def tsaHistBuckets : Nat := 100

def nsPerResolution : Nat := 10000000

/-- `tsa_histogram_t`. -/
structure Histogram where
  bitsInBucket : Nat → Nat
  lastBucketNs : Nat
  currentBucketIdx : Nat
  minBps : Nat
  maxBps : Nat
  p99Bps : Nat
  initialized : Bool

def tsaHistInit : Histogram := ⟨fun _ => 0, 0, 0, 0, 0, 0, false⟩

/-- `bits * 1000 / TSA_HIST_RESOLUTION_MS`. -/
def bpsOf (bits : Nat) : Nat := bits * 1000 % 2 ^ 64 / 10

def tsaHistUpdateMetrics (h : Histogram) : Histogram :=
  let bitrates := (range tsaHistBuckets).map fun i => bpsOf (h.bitsInBucket i)
  { h with
    minBps := bitrates.foldl (fun m bps => if bps < m then bps else m) (2 ^ 64 - 1)
    maxBps := bitrates.foldl (fun m bps => if m < bps then bps else m) 0
    p99Bps := (bitrates.mergeSort).getD (tsaHistBuckets - 2) 0 }

/-- A round of the loop of `tsa_hist_update`. -/
def openBucket (h : Histogram) : Histogram :=
  let idx := (h.currentBucketIdx + 1) % tsaHistBuckets
  { h with currentBucketIdx := idx, bitsInBucket := update h.bitsInBucket idx 0 }

/-- What `tsa_hist_update` does with so many slots. -/
def skipBuckets (h : Histogram) (nowNs bucketsToSkip : Nat) : Histogram :=
  if tsaHistBuckets ≤ bucketsToSkip then
    { h with bitsInBucket := fun _ => 0, currentBucketIdx := 0, lastBucketNs := nowNs }
  else
    let h' := openBucket^[bucketsToSkip] h
    { h' with lastBucketNs := (h.lastBucketNs + bucketsToSkip * nsPerResolution) % 2 ^ 64 }

def tsaHistUpdate (h : Histogram) (nowNs : Nat) : Histogram :=
  if !h.initialized ∨ nowNs < h.lastBucketNs then h
  else
    let elapsed := nowNs - h.lastBucketNs
    if nsPerResolution ≤ elapsed then
      tsaHistUpdateMetrics (skipBuckets h nowNs (elapsed / nsPerResolution % 2 ^ 32))
    else h

/-- `bits_in_bucket[current_bucket_idx] += bits`. -/
def Histogram.count (h : Histogram) (bits : Nat) : Histogram :=
  { h with
    bitsInBucket := update h.bitsInBucket h.currentBucketIdx
      ((h.bitsInBucket h.currentBucketIdx + bits) % 2 ^ 64) }

/-- The first packet initializes. -/
def Histogram.start (h : Histogram) (nowNs : Nat) : Histogram :=
  if h.initialized then h
  else { h with lastBucketNs := nowNs, currentBucketIdx := 0, initialized := true }

def tsaHistAddPacket (h : Histogram) (nowNs bits : Nat) : Histogram :=
  (tsaHistUpdate (h.start nowNs) nowNs).count bits

inductive Call where
  | addPacket (nowNs bits : Nat)
  | update (nowNs : Nat)

def Call.nowNs : Call → Nat
  | .addPacket nowNs _ => nowNs
  | .update nowNs => nowNs

def callStep (h : Histogram) : Call → Histogram
  | .addPacket nowNs bits => tsaHistAddPacket h nowNs bits
  | .update nowNs => tsaHistUpdate h nowNs

/-! ## Specification -/

/-- The slots since the first packet, or since the last gap of 100 slots. -/
structure Timeline where
  started : Bool
  /-- Where slot 0 begins. -/
  anchor : Nat
  /-- The slot of the last call. -/
  slot : Nat
  /-- The time of the last call. -/
  clock : Nat
  /-- Slot and bits of the packets. -/
  packets : List (Nat × Nat)

def Timeline.empty : Timeline := ⟨false, 0, 0, 0, []⟩

/-- So many slots after the slot of the last call. -/
def Timeline.gap (t : Timeline) (nowNs : Nat) : Nat :=
  (nowNs - (t.anchor + t.slot * nsPerResolution)) / nsPerResolution

def Timeline.moveTo (t : Timeline) (nowNs : Nat) : Timeline :=
  if !t.started then { t with clock := nowNs }
  else if tsaHistBuckets ≤ t.gap nowNs then ⟨true, nowNs, 0, nowNs, []⟩
  else { t with slot := t.slot + t.gap nowNs, clock := nowNs }

/-- The first packet starts the time line. -/
def Timeline.start (t : Timeline) (nowNs : Nat) : Timeline :=
  if t.started then t else ⟨true, nowNs, 0, nowNs, []⟩

def Timeline.step (t : Timeline) : Call → Timeline
  | .addPacket nowNs bits =>
    let t' := (t.start nowNs).moveTo nowNs
    { t' with packets := t'.packets ++ [(t'.slot, bits)] }
  | .update nowNs => t.moveTo nowNs

def bitsIn (packets : List (Nat × Nat)) (sel : Nat → Bool) : Nat :=
  (packets.map fun x => if sel x.1 then x.2 else 0).sum

def windowBits (packets : List (Nat × Nat)) (slot : Nat) : Nat :=
  bitsIn packets fun s => slot < s + tsaHistBuckets

/-- The call does not come before the last one. -/
def Ordered (t : Timeline) (c : Call) : Prop := t.clock ≤ c.nowNs ∧ c.nowNs < 2 ^ 64
deriving Decidable

/-- A gap of 100 slots is one of 100 slots also in 32 bits. -/
def Noticed (t : Timeline) (c : Call) : Prop :=
  t.started → tsaHistBuckets ≤ t.gap c.nowNs → tsaHistBuckets ≤ t.gap c.nowNs % 2 ^ 32
deriving Decidable

/-- The `uint64_t` sum of the buckets. -/
def Histogram.windowSum (h : Histogram) : Nat :=
  (∑ j ∈ Finset.range tsaHistBuckets, h.bitsInBucket j) % 2 ^ 64

/-! ## Buckets and slots -/

variable {h : Histogram} {t : Timeline} {ps : List (Nat × Nat)} {slot : Nat}

theorem bitsIn_congr {p q : Nat → Bool} (hpq : ∀ x ∈ ps, p x.1 = q x.1) :
    bitsIn ps p = bitsIn ps q := by
  refine congrArg sum (map_congr_left fun x hx => ?_)
  rw [hpq x hx]

theorem bitsIn_none {p : Nat → Bool} (hp : ∀ x ∈ ps, p x.1 = false) : bitsIn ps p = 0 := by
  refine sum_eq_zero fun n hn => ?_
  obtain ⟨x, hx, rfl⟩ := mem_map.mp hn
  rw [hp x hx]; rfl

theorem bitsIn_snoc (p : Nat → Bool) (s bits : Nat) :
    bitsIn (ps ++ [(s, bits)]) p = bitsIn ps p + if p s then bits else 0 := by
  rw [bitsIn, map_append, sum_append, map_singleton, sum_singleton, bitsIn]

/-- A bucket holds the bits of the one slot of the window that it stands for. -/
structure Agrees (h : Histogram) (slot : Nat) (ps : List (Nat × Nat)) : Prop where
  index : h.currentBucketIdx = slot % tsaHistBuckets
  buckets : ∀ j < tsaHistBuckets, h.bitsInBucket j =
    bitsIn ps (fun s => s % tsaHistBuckets = j ∧ slot < s + tsaHistBuckets) % 2 ^ 64
  past : ∀ x ∈ ps, x.1 ≤ slot

theorem Agrees.openBucket (ha : Agrees h slot ps) : Agrees (openBucket h) (slot + 1) ps := by
  refine ⟨?_, fun j hj => ?_, fun x hx => Nat.le_succ_of_le (ha.past x hx)⟩
  · show (h.currentBucketIdx + 1) % tsaHistBuckets = (slot + 1) % tsaHistBuckets
    rw [ha.index, Nat.mod_add_mod]
  · show update h.bitsInBucket ((h.currentBucketIdx + 1) % tsaHistBuckets) 0 j = _
    rw [ha.index, Nat.mod_add_mod]
    by_cases hidx : j = (slot + 1) % tsaHistBuckets
    · -- the slot that leaves the window is the one whose bucket is cleared
      have hnone : bitsIn ps
          (fun s => s % tsaHistBuckets = j ∧ slot + 1 < s + tsaHistBuckets) = 0 := by
        refine bitsIn_none fun x hx => decide_eq_false ?_
        have hpast := ha.past x hx
        simp only [tsaHistBuckets] at hidx ⊢; omega
      rw [hnone, hidx, update_self, Nat.zero_mod]
    · rw [update_of_ne hidx, ha.buckets j hj]
      refine congrArg (· % 2 ^ 64) (bitsIn_congr fun x hx => decide_eq_decide.mpr ?_)
      simp only [tsaHistBuckets] at hidx ⊢; omega

theorem Agrees.skip (ha : Agrees h slot ps) (n : Nat) :
    Agrees (Rate.openBucket^[n] h) (slot + n) ps := by
  induction n with
  | zero => exact ha
  | succ n ih => rw [iterate_succ_apply']; exact ih.openBucket

theorem Agrees.fields (ha : Agrees h slot ps) (last min max p99 : Nat) (init : Bool) :
    Agrees ⟨h.bitsInBucket, last, h.currentBucketIdx, min, max, p99, init⟩ slot ps :=
  ⟨ha.index, ha.buckets, ha.past⟩

theorem Agrees.skipBuckets (ha : Agrees h slot ps) (now : Nat) {n : Nat} (hn : n < tsaHistBuckets) :
    Agrees (skipBuckets h now n) (slot + n) ps := by
  rw [Rate.skipBuckets, if_neg (Nat.not_le.mpr hn)]
  exact (ha.skip n).fields ..

theorem Agrees.metrics (ha : Agrees h slot ps) : Agrees (tsaHistUpdateMetrics h) slot ps :=
  ha.fields ..

theorem Agrees.cleared (h : Histogram) (now : Nat) {n : Nat} (hn : tsaHistBuckets ≤ n) :
    Agrees (Rate.skipBuckets h now n) 0 [] := by
  rw [Rate.skipBuckets, if_pos hn]
  exact ⟨rfl, fun _ _ => rfl, fun _ hx => absurd hx not_mem_nil⟩

theorem Agrees.count (ha : Agrees h slot ps) (bits : Nat) :
    Agrees (h.count bits) slot (ps ++ [(slot, bits)]) := by
  refine ⟨ha.index, fun j hj => ?_, fun x hx => ?_⟩
  · show update h.bitsInBucket h.currentBucketIdx _ j = _
    rw [bitsIn_snoc]
    by_cases hj' : j = h.currentBucketIdx
    · have hself : slot % tsaHistBuckets = j ∧ slot < slot + tsaHistBuckets :=
        ⟨(hj'.trans ha.index).symm, Nat.lt_add_of_pos_right (by decide)⟩
      rw [if_pos (decide_eq_true hself), hj', update_self, ha.buckets _ (hj' ▸ hj),
        Nat.mod_add_mod]
    · have hother : ¬ (slot % tsaHistBuckets = j ∧ slot < slot + tsaHistBuckets) :=
        fun hself => hj' (hself.1.symm.trans ha.index.symm)
      rw [if_neg (by simpa using hother), update_of_ne hj', ha.buckets j hj, Nat.add_zero]
  · rcases mem_append.mp hx with hx | hx
    · exact ha.past x hx
    · rw [mem_singleton.mp hx]

/-- **The sum**: every packet of the window is in one bucket. -/
theorem Agrees.sum (ha : Agrees h slot ps) : h.windowSum = windowBits ps slot % 2 ^ 64 := by
  have hparts : ∑ j ∈ Finset.range tsaHistBuckets,
      bitsIn ps (fun s => s % tsaHistBuckets = j ∧ slot < s + tsaHistBuckets) =
        windowBits ps slot := by
    clear ha
    induction ps with
    | nil => simp [bitsIn, windowBits]
    | cons x ps ih =>
      simp only [bitsIn, windowBits, map_cons, sum_cons, Finset.sum_add_distrib] at ih ⊢
      rw [ih]
      have hlt : x.1 % tsaHistBuckets < tsaHistBuckets := Nat.mod_lt _ (by decide)
      by_cases hin : slot < x.1 + tsaHistBuckets <;> simp [hin, hlt]
  rw [Histogram.windowSum, ← hparts,
    Finset.sum_congr rfl fun j hj => ha.buckets j (Finset.mem_range.mp hj)]
  exact (Finset.sum_nat_mod _ _ _).symm

/-! ## Calls -/

/-- The histogram has come as far as the time line. -/
structure Follows (h : Histogram) (t : Timeline) : Prop where
  started : h.initialized = t.started
  last : t.started → h.lastBucketNs = t.anchor + t.slot * nsPerResolution
  early : t.started → t.anchor + t.slot * nsPerResolution ≤ t.clock
  fresh : t.started = false → t.slot = 0 ∧ t.packets = []
  agrees : Agrees h t.slot t.packets

theorem follows_init : Follows tsaHistInit Timeline.empty :=
  ⟨rfl, Bool.noConfusion, Bool.noConfusion, fun _ => ⟨rfl, rfl⟩, Nat.zero_mod _ |>.symm,
    fun _ _ => (Nat.zero_mod _).symm, fun _ hx => absurd hx not_mem_nil⟩

variable {now : Nat}

theorem Follows.update_eq (hf : Follows h t) (hstarted : t.started)
    (hclock : t.clock ≤ now) : tsaHistUpdate h now =
      if 1 ≤ t.gap now then tsaHistUpdateMetrics (skipBuckets h now (t.gap now % 2 ^ 32))
      else h := by
  have hlast := hf.last hstarted
  have hearly := hf.early hstarted
  have hrun : ¬ (!h.initialized ∨ now < h.lastBucketNs) := by
    rw [hf.started, hstarted, hlast]; simp; omega
  rw [tsaHistUpdate, if_neg hrun, hlast]
  have hpos : 0 < nsPerResolution := by unfold nsPerResolution; omega
  have hgap : nsPerResolution ≤ now - (t.anchor + t.slot * nsPerResolution) ↔ 1 ≤ t.gap now := by
    rw [Timeline.gap, Nat.le_div_iff_mul_le hpos, Nat.one_mul]
  exact if_congr hgap (by rw [Timeline.gap]) rfl

theorem Follows.update_agrees (hf : Follows h t) (hstarted : t.started)
    (hclock : t.clock ≤ now) (hshort : t.gap now % 2 ^ 32 < tsaHistBuckets) :
    Agrees (tsaHistUpdate h now) (t.slot + t.gap now % 2 ^ 32) t.packets := by
  rw [hf.update_eq hstarted hclock]
  split
  · exact (hf.agrees.skipBuckets now hshort).metrics
  · rename_i hgap
    rw [Nat.lt_one_iff.mp (Nat.not_le.mp hgap), Nat.zero_mod]; exact hf.agrees

theorem Follows.update_cleared (hf : Follows h t) (hstarted : t.started) (hclock : t.clock ≤ now)
    (hlong : tsaHistBuckets ≤ t.gap now % 2 ^ 32) : Agrees (tsaHistUpdate h now) 0 [] := by
  have hpos : 1 ≤ t.gap now :=
    (Nat.le_trans (by decide) hlong).trans (Nat.mod_le _ _)
  rw [hf.update_eq hstarted hclock, if_pos hpos]
  exact (Agrees.cleared h now hlong).metrics

theorem openBucket_keeps (h : Histogram) (n : Nat) :
    (openBucket^[n] h).initialized = h.initialized := by
  induction n with
  | zero => rfl
  | succ n ih => rw [iterate_succ_apply']; exact ih

theorem update_initialized (h : Histogram) (now : Nat) :
    (tsaHistUpdate h now).initialized = h.initialized := by
  rw [tsaHistUpdate]
  split
  · rfl
  · dsimp only; split
    · rw [tsaHistUpdateMetrics, skipBuckets]
      split
      · rfl
      · exact openBucket_keeps ..
    · rfl

theorem metrics_eq (h : Histogram) : ∃ min max p99, tsaHistUpdateMetrics h =
    ⟨h.bitsInBucket, h.lastBucketNs, h.currentBucketIdx, min, max, p99, h.initialized⟩ :=
  ⟨_, _, _, rfl⟩

theorem skip_last (h : Histogram) (now n : Nat) :
    (tsaHistUpdateMetrics (skipBuckets h now n)).lastBucketNs = if tsaHistBuckets ≤ n then now
      else (h.lastBucketNs + n * nsPerResolution) % 2 ^ 64 := by
  obtain ⟨min, max, p99, hmetrics⟩ := metrics_eq (skipBuckets h now n)
  rw [hmetrics, skipBuckets]
  split <;> rfl

/-- **An update of which a long gap is noticed follows the time line.** -/
theorem Follows.update (hf : Follows h t) (hclock : t.clock ≤ now) (hnow : now < 2 ^ 64)
    (hnoticed : Noticed t (.update now)) : Follows (tsaHistUpdate h now) (t.moveTo now) := by
  by_cases hstarted : t.started
  · have hearly := hf.early hstarted
    rw [Timeline.moveTo, if_neg (by simpa using hstarted)]
    split
    · rename_i hlong
      have hcut : tsaHistBuckets ≤ t.gap now % 2 ^ 32 := hnoticed hstarted hlong
      have hlast : (tsaHistUpdate h now).lastBucketNs = now := by
        have hpos : 1 ≤ t.gap now := Nat.le_trans (by decide) hlong
        rw [hf.update_eq hstarted hclock, if_pos hpos, skip_last, if_pos hcut]
      exact ⟨(update_initialized h now).trans (hf.started.trans hstarted),
        fun _ => by rw [hlast]; simp, fun _ => by simp, Bool.noConfusion,
        hf.update_cleared hstarted hclock hcut⟩
    · rename_i hshort
      have hshort := Nat.not_le.mp hshort
      have hcut : t.gap now % 2 ^ 32 = t.gap now :=
        Nat.mod_eq_of_lt (hshort.trans (by decide))
      have hfloor : t.gap now * nsPerResolution ≤ now - (t.anchor + t.slot * nsPerResolution) :=
        Nat.div_mul_le_self ..
      have hlast : (tsaHistUpdate h now).lastBucketNs =
          t.anchor + (t.slot + t.gap now) * nsPerResolution := by
        rw [hf.update_eq hstarted hclock, hcut]
        split
        · rw [skip_last, if_neg (Nat.not_le.mpr hshort), hf.last hstarted, Nat.add_mul,
            ← Nat.add_assoc]
          exact Nat.mod_eq_of_lt (by omega)
        · rename_i hzero
          rw [hf.last hstarted, Nat.lt_one_iff.mp (Nat.not_le.mp hzero)]; rfl
      refine ⟨(update_initialized h now).trans hf.started, fun _ => hlast, fun _ => ?_,
        fun hnot => absurd hstarted (by rw [hnot]; exact Bool.false_ne_true), ?_⟩
      · show t.anchor + (t.slot + t.gap now) * nsPerResolution ≤ now
        rw [Nat.add_mul]; omega
      · exact hcut ▸ hf.update_agrees hstarted hclock (hcut.symm ▸ hshort)
  · have hnot := Bool.eq_false_iff.mpr hstarted
    rw [Timeline.moveTo, if_pos (by rw [hnot]; rfl), tsaHistUpdate,
      if_pos (.inl (by rw [hf.started, hnot]; rfl))]
    exact ⟨hf.started, fun h => absurd h hstarted, fun h => absurd h hstarted, hf.fresh, hf.agrees⟩

theorem Follows.count (hf : Follows h t) (hstarted : t.started = true) (bits : Nat) :
    Follows (h.count bits) { t with packets := t.packets ++ [(t.slot, bits)] } :=
  ⟨hf.started, hf.last, hf.early,
    fun hnot => absurd hstarted (by rw [hnot]; exact Bool.false_ne_true), hf.agrees.count bits⟩

theorem Follows.start (hf : Follows h t) (now : Nat) : Follows (h.start now) (t.start now) := by
  rw [Histogram.start, Timeline.start, hf.started]
  split
  · exact hf
  · rename_i hnot
    obtain ⟨hslot, hnone⟩ := hf.fresh (Bool.eq_false_iff.mpr hnot)
    have hagrees := hf.agrees
    rw [hslot, hnone] at hagrees
    exact ⟨rfl, fun _ => by simp, fun _ => by simp, Bool.noConfusion, rfl, hagrees.buckets,
      hagrees.past⟩

theorem moveTo_started (hstarted : t.started = true) (now : Nat) :
    (t.moveTo now).started = true := by
  rw [Timeline.moveTo, if_neg (by simpa using hstarted)]
  split
  · rfl
  · exact hstarted

theorem start_started (t : Timeline) (now : Nat) : (t.start now).started = true := by
  rw [Timeline.start]
  split
  · assumption
  · rfl

theorem start_noticed {bits : Nat} (hclock : t.clock ≤ now)
    (hnoticed : Noticed t (.addPacket now bits)) :
    (t.start now).clock ≤ now ∧ Noticed (t.start now) (.update now) := by
  rw [Timeline.start]
  split
  · exact ⟨hclock, hnoticed⟩
  · refine ⟨le_refl _, fun _ hlong => absurd hlong ?_⟩
    simp [Timeline.gap, Call.nowNs, tsaHistBuckets]

/-- **Step**: a call of which a long gap is noticed. -/
theorem Follows.step {c : Call} (hf : Follows h t) (hord : Ordered t c) (hnoticed : Noticed t c) :
    Follows (callStep h c) (t.step c) := by
  cases c with
  | update now => exact hf.update hord.1 hord.2 hnoticed
  | addPacket now bits =>
    obtain ⟨hclock, hstart⟩ := start_noticed hord.1 hnoticed
    exact ((hf.start now).update hclock hord.2 hstart).count
      (moveTo_started (start_started t now) now) bits

/-- **Run**: calls of which every long gap is noticed. -/
theorem follows_run (cs : List Call)
    (hcs : Along (fun t c => Ordered t c ∧ Noticed t c) Timeline.step Timeline.empty cs) :
    Follows (cs.foldl callStep tsaHistInit) (cs.foldl Timeline.step Timeline.empty) := by
  have hrun := along_sim (f := id) (S := fun t h => Follows h t)
    (fun t h c hf hc => Follows.step (h := h) hf hc.1 hc.2) cs _ _ follows_init hcs cs
    (prefix_refl cs)
  rwa [map_id] at hrun

/-! ## The sum -/

theorem windowBits_snoc (bits : Nat) :
    windowBits (ps ++ [(slot, bits)]) slot = windowBits ps slot + bits := by
  rw [windowBits, bitsIn_snoc, if_pos (decide_eq_true (Nat.lt_add_of_pos_right (by decide)))]; rfl

theorem Follows.missed {c : Call} (hf : Follows h t) (hord : Ordered t c)
    (hmissed : ¬ Noticed t c) :
    (callStep h c).windowSum = windowBits (t.step c).packets (t.step c).slot % 2 ^ 64 ↔
      windowBits t.packets (t.slot + t.gap c.nowNs % 2 ^ 32) % 2 ^ 64 = 0 := by
  rw [Noticed, Classical.not_imp, Classical.not_imp, Nat.not_le] at hmissed
  obtain ⟨hstarted, hlong, hcut⟩ := hmissed
  have hagrees := hf.update_agrees hstarted hord.1 hcut
  have hmove : t.moveTo c.nowNs = ⟨true, c.nowNs, 0, c.nowNs, []⟩ := by
    rw [Timeline.moveTo, if_neg (by simpa using hstarted), if_pos hlong]
  cases c with
  | update now =>
    show (tsaHistUpdate h now).windowSum =
      windowBits (t.moveTo now).packets (t.moveTo now).slot % 2 ^ 64 ↔ _
    rw [show t.moveTo now = _ from hmove]
    exact iff_of_eq (congrArg (· = 0) hagrees.sum)
  | addPacket now bits =>
    have hhist : callStep h (.addPacket now bits) = (tsaHistUpdate h now).count bits := by
      rw [callStep, tsaHistAddPacket, Histogram.start, if_pos (hf.started.trans hstarted)]
    have hstep : t.step (.addPacket now bits) = ⟨true, now, 0, now, [(0, bits)]⟩ := by
      rw [Timeline.step, Timeline.start, if_pos hstarted, show t.moveTo now = _ from hmove]; rfl
    rw [hhist, show ((tsaHistUpdate h now).count bits).windowSum = _ from (hagrees.count bits).sum,
      hstep, windowBits_snoc]
    have hone : windowBits [(0, bits)] 0 = bits :=
      (@windowBits_snoc [] 0 bits).trans (Nat.zero_add bits)
    show _ = windowBits [(0, bits)] 0 % 2 ^ 64 ↔ _
    rw [hone]
    generalize windowBits t.packets _ = old
    omega

/-- **The sum of the buckets** is the bits of the packets of the window, as long as every gap of 100
    slots is noticed.  A call that misses one leaves the packets from before the gap in the sum. -/
theorem window_sum_iff (cs : List Call)
    (hcs : Along (fun t c => Ordered t c ∧ Noticed t c) Timeline.step Timeline.empty cs) (c : Call)
    (hc : Ordered (cs.foldl Timeline.step Timeline.empty) c) :
    let t := cs.foldl Timeline.step Timeline.empty
    let h := cs.foldl callStep tsaHistInit
    h.windowSum = windowBits t.packets t.slot % 2 ^ 64 ∧
      ((callStep h c).windowSum = windowBits (t.step c).packets (t.step c).slot % 2 ^ 64 ↔
        Noticed t c ∨ windowBits t.packets (t.slot + t.gap c.nowNs % 2 ^ 32) % 2 ^ 64 = 0) := by
  intro t h
  have hf : Follows h t := follows_run cs hcs
  refine ⟨hf.agrees.sum, ?_⟩
  by_cases hnoticed : Noticed t c
  · exact iff_of_true (hf.step hc hnoticed).agrees.sum (.inl hnoticed)
  · rw [hf.missed hc hnoticed, or_iff_right hnoticed]

/-- A packet, and another one `2 ^ 32` slots later. -/
def farApart : List Call := [.addPacket 0 1504, .addPacket (2 ^ 32 * nsPerResolution) 1504]

theorem farApart_missed :
    ¬ (callStep (callStep tsaHistInit (.addPacket 0 1504))
      (.addPacket (2 ^ 32 * nsPerResolution) 1504)).windowSum = windowBits [(0, 1504)] 0 % 2 ^ 64 :=
  fun hsum => absurd ((window_sum_iff [.addPacket 0 1504] (by decide +kernel)
    (.addPacket (2 ^ 32 * nsPerResolution) 1504) (by decide +kernel)).2.mp hsum) (by decide +kernel)

theorem farApart_kept : Along Ordered Timeline.step Timeline.empty farApart ∧
    (farApart.foldl callStep tsaHistInit).windowSum = 3008 ∧
    windowBits (farApart.foldl Timeline.step Timeline.empty).packets
      (farApart.foldl Timeline.step Timeline.empty).slot = 1504 := by
  decide +kernel

/-! ## The extremes -/

/-- The bit rates of the closed slots of the window. -/
def closedRates (t : Timeline) : Set Nat :=
  { r | ∃ s, s < t.slot ∧ t.slot < s + tsaHistBuckets ∧
    bpsOf (bitsIn t.packets (fun x => x = s) % 2 ^ 64) = r }

def NoGap (t : Timeline) (c : Call) : Prop := t.started → t.gap c.nowNs < tsaHistBuckets
deriving Decidable

/-- The update closes a slot. -/
def Closes (t : Timeline) (now : Nat) : Prop := t.started ∧ 1 ≤ t.gap now
deriving Decidable

theorem metrics_least (h : Histogram) {j : Nat} (hj : j < tsaHistBuckets) :
    (tsaHistUpdateMetrics h).minBps ≤ bpsOf (h.bitsInBucket j) := by
  have hmin := min?_eq_some_iff.mp (rfl : ((2 ^ 64 - 1) ::
    (range tsaHistBuckets).map fun i => bpsOf (h.bitsInBucket i)).min? = some _)
  rw [tsaHistUpdateMetrics]
  simp only [← min_def_lt, min_comm]
  exact hmin.2 _ (mem_cons_of_mem _ (mem_map.mpr ⟨j, mem_range.mpr hj, rfl⟩))

theorem metrics_greatest (h : Histogram) :
    (∀ j < tsaHistBuckets, bpsOf (h.bitsInBucket j) ≤ (tsaHistUpdateMetrics h).maxBps) ∧
      ((tsaHistUpdateMetrics h).maxBps = 0 ∨
        ∃ j < tsaHistBuckets, bpsOf (h.bitsInBucket j) = (tsaHistUpdateMetrics h).maxBps) := by
  obtain ⟨hmem, hmax⟩ := max?_eq_some_iff.mp (rfl : (0 ::
    (range tsaHistBuckets).map fun i => bpsOf (h.bitsInBucket i)).max? = some _)
  rw [tsaHistUpdateMetrics]
  simp only [← max_def_lt]
  refine ⟨fun j hj => hmax _ (mem_cons_of_mem _
    (mem_map.mpr ⟨j, mem_range.mpr hj, rfl⟩)), ?_⟩
  rcases mem_cons.mp hmem with hzero | hin
  · exact .inl hzero
  · obtain ⟨j, hj, hrate⟩ := mem_map.mp hin
    exact .inr ⟨j, mem_range.mp hj, hrate⟩

theorem Agrees.closed (ha : Agrees h slot ps) {s : Nat} (hs : s < slot)
    (hin : slot < s + tsaHistBuckets) :
    h.bitsInBucket (s % tsaHistBuckets) = bitsIn ps (fun x => x = s) % 2 ^ 64 := by
  rw [ha.buckets _ (Nat.mod_lt _ (by decide))]
  refine congrArg (· % 2 ^ 64) (bitsIn_congr fun x hx => decide_eq_decide.mpr ?_)
  have hpast := ha.past x hx
  simp only [tsaHistBuckets] at hin ⊢; omega

theorem Agrees.bucket (ha : Agrees h slot ps) (hopen : ∀ x ∈ ps, x.1 < slot) {j : Nat}
    (hj : j < tsaHistBuckets) : h.bitsInBucket j = 0 ∨
      ∃ s, s < slot ∧ slot < s + tsaHistBuckets ∧ s % tsaHistBuckets = j := by
  by_cases hclosed : ∃ s, s < slot ∧ slot < s + tsaHistBuckets ∧ s % tsaHistBuckets = j
  · exact .inr hclosed
  · left
    have hnone : bitsIn ps (fun s => s % tsaHistBuckets = j ∧ slot < s + tsaHistBuckets) = 0 :=
      bitsIn_none fun x hx => decide_eq_false fun hx' =>
        hclosed ⟨x.1, hopen x hx, hx'.2, hx'.1⟩
    rw [ha.buckets j hj, hnone, Nat.zero_mod]

/-- **The metrics of a ring whose open slot is empty.** -/
theorem Agrees.extremes (ha : Agrees h t.slot t.packets) (hopen : ∀ x ∈ t.packets, x.1 < t.slot)
    (hpos : 0 < t.slot) : (tsaHistUpdateMetrics h).minBps = 0 ∧
      IsGreatest (closedRates t) (tsaHistUpdateMetrics h).maxBps := by
  obtain ⟨hmax, hsome⟩ := metrics_greatest h
  have hupper : (tsaHistUpdateMetrics h).maxBps ∈ upperBounds (closedRates t) := by
    rintro r ⟨s, hs, hin, rfl⟩
    rw [← ha.closed hs hin]
    exact hmax _ (Nat.mod_lt _ (by decide))
  refine ⟨?_, ?_, hupper⟩
  · -- the open slot's bucket
    have hmod : t.slot % tsaHistBuckets < tsaHistBuckets := Nat.mod_lt _ (by decide)
    have hleast := metrics_least h hmod
    rcases ha.bucket hopen hmod with hzero | ⟨s, hs, hin, hmod⟩
    · rw [hzero] at hleast
      exact Nat.le_zero.mp hleast
    · simp only [tsaHistBuckets] at hin hmod; omega
  · by_cases hzero : (tsaHistUpdateMetrics h).maxBps = 0
    · -- the last closed slot
      have hlast : ∃ r, r ∈ closedRates t :=
        ⟨_, t.slot - 1, by omega, by simp only [tsaHistBuckets]; omega, rfl⟩
      obtain ⟨r, hr⟩ := hlast
      have hr0 : r = 0 := Nat.le_zero.mp (hzero ▸ hupper hr)
      rw [hzero]; exact hr0 ▸ hr
    · obtain ⟨j, hj, hrate⟩ := hsome.resolve_left hzero
      rcases ha.bucket hopen hj with hnone | ⟨s, hs, hin, rfl⟩
      · rw [hnone] at hrate; exact absurd hrate.symm hzero
      · exact ⟨s, hs, hin, by rw [← ha.closed hs hin, hrate]⟩

theorem Follows.closes (hf : Follows h t) (hclock : t.clock ≤ now)
    (hcloses : Closes t now) (hshort : t.gap now < tsaHistBuckets) :
    (tsaHistUpdate h now).minBps = 0 ∧
      IsGreatest (closedRates (t.moveTo now)) (tsaHistUpdate h now).maxBps := by
  obtain ⟨hstarted, hone⟩ := hcloses
  have hcut := Nat.mod_eq_of_lt (hshort.trans (by decide : tsaHistBuckets < 2 ^ 32))
  rw [hf.update_eq hstarted hclock, if_pos hone, hcut, Timeline.moveTo,
    if_neg (by simpa using hstarted), if_neg (Nat.not_le.mpr hshort)]
  refine (hf.agrees.skipBuckets now hshort).extremes
    (t := { t with slot := t.slot + t.gap now, clock := now }) (fun x hx => ?_)
    (Nat.add_pos_right _ hone)
  exact Nat.lt_of_le_of_lt (hf.agrees.past x hx) (Nat.lt_add_of_pos_right hone)

/-- **The extremes after an update that closes a slot**: the greatest rate is right, and the least,
    which the empty open slot always makes 0, exactly if a closed slot of the window has rate 0. -/
theorem extremes_iff (cs : List Call)
    (hcs : Along (fun t c => Ordered t c ∧ NoGap t c) Timeline.step Timeline.empty cs) (now : Nat)
    (hord : Ordered (cs.foldl Timeline.step Timeline.empty) (.update now))
    (hgap : NoGap (cs.foldl Timeline.step Timeline.empty) (.update now))
    (hcloses : Closes (cs.foldl Timeline.step Timeline.empty) now) :
    let t := (cs.foldl Timeline.step Timeline.empty).moveTo now
    let h := tsaHistUpdate (cs.foldl callStep tsaHistInit) now
    IsGreatest (closedRates t) h.maxBps ∧
      (IsLeast (closedRates t) h.minBps ↔ 0 ∈ closedRates t) := by
  intro t h
  have hf := follows_run cs (along_of_along (I := fun _ => True) (fun _ _ _ _ => trivial)
    (fun t c _ hc => ⟨hc.1, fun hstarted hlong => absurd (hc.2 hstarted) (Nat.not_lt.mpr hlong)⟩)
    cs _ trivial hcs)
  obtain ⟨hmin, hmax⟩ := hf.closes hord.1 hcloses (hgap hcloses.1)
  refine ⟨hmax, ?_⟩
  rw [show h.minBps = 0 from hmin]
  exact ⟨fun hleast => hleast.1, fun hzero => ⟨hzero, fun _ _ => Nat.zero_le _⟩⟩

/-- One packet, and the next slot. -/
def onePacket : List Call := [.addPacket 0 1504]

theorem onePacket_not_least :
    ¬ IsLeast (closedRates ((onePacket.foldl Timeline.step Timeline.empty).moveTo nsPerResolution))
      (tsaHistUpdate (onePacket.foldl callStep tsaHistInit) nsPerResolution).minBps := by
  rw [(extremes_iff onePacket (by decide +kernel) nsPerResolution (by decide +kernel)
    (by decide +kernel) (by decide +kernel)).2]
  rintro ⟨s, hs, -, hrate⟩
  obtain rfl : s = 0 := Nat.lt_one_iff.mp hs
  exact absurd hrate (by decide +kernel)

theorem onePacket_min : Closes (onePacket.foldl Timeline.step Timeline.empty) nsPerResolution ∧
    (tsaHistUpdate (onePacket.foldl callStep tsaHistInit) nsPerResolution).minBps = 0 ∧
    (tsaHistUpdate (onePacket.foldl callStep tsaHistInit) nsPerResolution).maxBps = 150400 ∧
    closedRates ((onePacket.foldl Timeline.step Timeline.empty).moveTo nsPerResolution) =
      {150400} := by
  refine ⟨by decide +kernel, by decide +kernel, by decide +kernel, Set.ext fun r => ?_⟩
  constructor
  · rintro ⟨s, hs, -, hrate⟩
    obtain rfl : s = 0 := Nat.lt_one_iff.mp hs
    exact hrate.symm
  · rintro rfl
    exact ⟨0, by decide +kernel, by decide +kernel, by decide +kernel⟩

end TsAnalyzer.Rate
