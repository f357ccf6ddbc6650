/-
  The hard constraint of the decoding model: no transport buffer TB_n runs over.

  A slot leaks all buffers and adds 1504 bits to the buffer of the PID it sends from.  Five paths
  lead to a packet; only `tss_pick_es_pid` asks whether there is room.
-/
import TsAnalyzer.Shaper.Buckets

namespace TsAnalyzer.Shaper

open Lib

variable {μ : Type}

/-! ## Sound buffers -/

/-- The buffer holds no less than nothing and no more than its size. -/
def TbInRange (p : PidState) : Prop := 0 ≤ p.tbFullnessBits ∧ p.tbFullnessBits ≤ p.tbSizeBits
deriving Decidable

/-- Nothing about the buffer is negative. -/
structure TbSound (p : PidState) : Prop where
  size : 0 ≤ p.tbSizeBits
  rate : 0 ≤ p.rxRateBps
  remainder : 0 ≤ p.tbLeakRemainder
  fullness : 0 ≤ p.tbFullnessBits

theorem newPid_tb (cfg : Config) (pidNum : Nat) (type : PidType) (br : Nat) :
    TbSound (newPid cfg pidNum type br) ∧ TbInRange (newPid cfg pidNum type br) := by
  have hsize : 0 ≤ (pidRates cfg br type).tbSizeBits := by
    cases type with
    | video => show (0 : Int) ≤ 3 * tsPacketBits; decide
    | _ => show (0 : Int) ≤ 512 * 8; decide
  have hrate : 0 ≤ (pidRates cfg br type).rxRateBps := by
    cases type with
    | video => exact Int.le_trans (by decide) (Int.le_max_right _ (20000000 : Int))
    | _ => show (0 : Int) ≤ 2000000; decide
  exact ⟨⟨hsize, hrate, Int.le_refl 0, Int.le_refl 0⟩, Int.le_refl 0, hsize⟩

def TbKept (p q : PidState) : Prop := TbSound p → TbSound q ∧ (TbInRange p → TbInRange q)

theorem tbKept_chain : Chain TbKept where
  refl _ h := ⟨h, id⟩
  trans h h' hp := ⟨(h' (h hp).1).1, fun hr => (h' (h hp).1).2 ((h hp).2 hr)⟩

theorem SameBuckets.tb {p q : PidState} (h : SameBuckets p q) :
    q.tbFullnessBits = p.tbFullnessBits ∧ q.tbSizeBits = p.tbSizeBits ∧
      q.rxRateBps = p.rxRateBps ∧ q.tbLeakRemainder = p.tbLeakRemainder :=
  ⟨congrArg Buckets.tbFullnessBits h, congrArg Buckets.tbSizeBits h,
    congrArg Buckets.rxRateBps h, congrArg Buckets.tbLeakRemainder h⟩

theorem tbKept_of_same {p q : PidState} (h : SameBuckets p q) : TbKept p q := by
  obtain ⟨hfull, hsize, hrate, hrem⟩ := h.tb
  intro hp
  refine ⟨⟨?_, ?_, ?_, ?_⟩, ?_⟩
  · rw [hsize]; exact hp.size
  · rw [hrate]; exact hp.rate
  · rw [hrem]; exact hp.remainder
  · rw [hfull]; exact hp.fullness
  · unfold TbInRange
    rw [hfull, hsize]
    exact id

theorem tbKept_input : InputStable TbKept :=
  inputStable_of_buckets tbKept_of_same fun _ h => ⟨⟨h.size, h.rate, h.remainder, h.fullness⟩, id⟩

theorem tbKept_jump : JumpStable TbKept where
  translate _ h := ⟨⟨h.size, h.rate, h.remainder, h.fullness⟩, id⟩
  reanchor _ h := ⟨⟨h.size, h.rate, h.remainder, Int.le_refl 0⟩, fun _ => ⟨Int.le_refl 0, h.size⟩⟩
  restart _ h := ⟨⟨h.size, h.rate, h.remainder, h.fullness⟩, id⟩

theorem leakPid_sound {delta : Int} (hdelta : 0 < delta) (p : PidState) :
    TbKept p (leakPid delta p) := by
  intro h
  have hwork : 0 ≤ delta * p.rxRateBps + p.tbLeakRemainder :=
    Int.add_nonneg (Int.mul_nonneg (Int.le_of_lt hdelta) h.rate) h.remainder
  have hleak : 0 ≤ (delta * p.rxRateBps + p.tbLeakRemainder).tdiv sysClockFreq :=
    Int.tdiv_nonneg hwork (by decide)
  refine ⟨⟨h.size, h.rate, Int.tmod_nonneg _ hwork, Int.le_max_left _ _⟩, ?_⟩
  rintro ⟨-, hle⟩
  refine ⟨Int.le_max_left _ _, Int.max_le.mpr ⟨h.size, ?_⟩⟩
  show p.tbFullnessBits - _ ≤ p.tbSizeBits
  omega

theorem leakAll_sound (c : Core μ) : Across TbKept c.pids (leakAll c) := by
  unfold leakAll
  dsimp only
  split
  · rename_i h
    exact mapPids_across tbKept_chain _ _ (leakPid_sound h.2)
  · exact tbKept_chain.across _

theorem refillAll_tb (c : Core μ) (next : Int) (k : Nat) :
    (refillAll c next k).tbFullnessBits = (c.pids k).tbFullnessBits ∧
      (refillAll c next k).tbSizeBits = (c.pids k).tbSizeBits ∧
      (refillAll c next k).rxRateBps = (c.pids k).rxRateBps ∧
      (refillAll c next k).tbLeakRemainder = (c.pids k).tbLeakRemainder := by
  by_cases hturns : Turns c next
  · by_cases hk : k < c.layout.nbAllPids
    · rw [refillAll_turns hturns hk]
      exact ⟨rfl, rfl, rfl, rfl⟩
    · rw [refillAll_beyond c next hk]
      exact ⟨rfl, rfl, rfl, rfl⟩
  · rw [refillAll_rests hturns]
    exact ⟨rfl, rfl, rfl, rfl⟩

/-! ## One slot -/

/-- The buffer has room for a packet, once it has leaked. -/
def HasRoom (c : Core μ) (i : Nat) : Prop :=
  (leakAll c i).tbFullnessBits + tsPacketBits ≤ (leakAll c i).tbSizeBits
deriving Decidable

theorem slot_tb (si : SiCallback μ) {c : Core μ} (hdue : Due c) (k : Nat) :
    ((tssStepInternal si c).pids k).tbFullnessBits = (leakAll c k).tbFullnessBits +
        (if SendsFrom c k then tsPacketBits else 0) ∧
      ((tssStepInternal si c).pids k).tbSizeBits = (leakAll c k).tbSizeBits ∧
      ((tssStepInternal si c).pids k).rxRateBps = (leakAll c k).rxRateBps ∧
      ((tssStepInternal si c).pids k).tbLeakRemainder = (leakAll c k).tbLeakRemainder := by
  obtain ⟨hslot, hsent⟩ := slot_charged si hdue k
  obtain ⟨a1, a2, a3, a4⟩ := SameBuckets.tb hslot
  obtain ⟨b1, b2, b3, b4⟩ := refillAll_tb (sentCore c) (nextPhysicalStc c) k
  obtain ⟨c1, c2, c3, c4⟩ := SameBuckets.tb hsent
  obtain ⟨d1, d2, d3, d4⟩ := SameBuckets.tb (scheduled_buckets c k)
  rw [a1, a2, a3, a4, b1, b2, b3, b4, c1, c2, c3, c4, ← d1, ← d2, ← d3, ← d4]
  by_cases hk : SendsFrom c k
  · rw [chargeAll_self hk, if_pos hk]
    exact ⟨rfl, rfl, rfl, rfl⟩
  · rw [chargeAll_other hk, if_neg hk, Int.add_zero]
    exact ⟨rfl, rfl, rfl, rfl⟩

theorem esPick_hasRoom {c : Core μ} {i : Nat} (h : esPick c = some i) : HasRoom c i := by
  have hroom := (esPick_eligible h).room
  obtain ⟨hfull, hsize, -⟩ := SameBuckets.tb (scheduled_buckets c i)
  rw [hfull, hsize] at hroom
  exact hroom

/-- Every packet that the scheduler did not pick (a PCR-only packet, a table packet, a packet of the
    fallback) finds room in the buffer it is charged to. -/
def UnpickedFit (c : Core μ) : Prop :=
  Due c → ∀ i, i < c.layout.nbAllPids → SendsFrom c i → esPick c ≠ some i → HasRoom c i

instance (c : Core μ) : Decidable (UnpickedFit c) :=
  inferInstanceAs (Decidable (Due c → ∀ i, i < c.layout.nbAllPids → SendsFrom c i →
    esPick c ≠ some i → HasRoom c i))

/-- The transport buffers of all PIDs are within bounds. -/
def AllInRange (c : Core μ) : Prop := ∀ i, i < c.layout.nbAllPids → TbInRange (c.pids i)

instance (c : Core μ) : Decidable (AllInRange c) :=
  inferInstanceAs (Decidable (∀ i, i < c.layout.nbAllPids → TbInRange (c.pids i)))

def AllSound (c : Core μ) : Prop := ∀ i, i < c.layout.nbAllPids → TbSound (c.pids i)

theorem slot_sound (si : SiCallback μ) {c : Core μ} (h : AllSound c) :
    AllSound (tssStepInternal si c) := by
  by_cases hdue : Due c
  · intro k hk
    rw [(slot_sameSetUp si c).layout] at hk
    have hleak := (leakAll_sound c k (h k hk)).1
    obtain ⟨hfull, hsize, hrate, hrem⟩ := slot_tb si hdue k
    have hadd : 0 ≤ (if SendsFrom c k then tsPacketBits else 0 : Int) := by
      split <;> decide
    refine ⟨?_, ?_, ?_, ?_⟩
    · rw [hsize]; exact hleak.size
    · rw [hrate]; exact hleak.rate
    · rw [hrem]; exact hleak.remainder
    · rw [hfull]; exact Int.add_nonneg hleak.fullness hadd
  · rw [tssStepInternal_notDue si hdue]
    exact h

/-- **One slot**: the buffers stay within bounds exactly when what the scheduler did not pick has
    room. -/
theorem slot_inRange_iff (si : SiCallback μ) {c : Core μ} (hsound : AllSound c)
    (hrange : AllInRange c) : AllInRange (tssStepInternal si c) ↔ UnpickedFit c := by
  have hlayout := (slot_sameSetUp si c).layout
  constructor
  · intro hall hdue i hi hsends _
    have hafter := (hall i (by rw [hlayout]; exact hi)).2
    obtain ⟨hfull, hsize, -⟩ := slot_tb si hdue i
    rw [hfull, hsize, if_pos hsends] at hafter
    exact hafter
  · intro hfit
    by_cases hdue : Due c
    · intro k hk
      rw [hlayout] at hk
      obtain ⟨hleaked, hbound⟩ := leakAll_sound c k (hsound k hk)
      obtain ⟨hfull, hsize, -⟩ := slot_tb si hdue k
      unfold TbInRange
      rw [hfull, hsize]
      by_cases hsends : SendsFrom c k
      · have hroom : HasRoom c k := by
          by_cases hpick : esPick c = some k
          · exact esPick_hasRoom hpick
          · exact hfit hdue k hk hsends hpick
        rw [if_pos hsends]
        exact ⟨Int.add_nonneg hleaked.fullness (by decide), hroom⟩
      · rw [if_neg hsends, Int.add_zero]
        exact hbound (hrange k hk)
    · rw [tssStepInternal_notDue si hdue]
      exact hrange

/-! ## Runs -/

theorem tbKept_between (si : SiCallback μ) (s : Tsshaper μ) {e : Event} (he : e ≠ .slot) :
    Across TbKept s.core.pids (eventStep si s e).core.pids :=
  eventStep_between (afterStable_of_buckets tbKept_chain tbKept_of_same) tbKept_input tbKept_jump
    si s he

/-- **TB_n, exactly.**  In every run of a shaper, all transport buffers are within bounds after
    every `tss_step_internal` if and only if every packet that `tss_pick_es_pid` did not pick finds
    room in the buffer it is charged to. -/
theorem tb_bounded_iff (si : SiCallback μ) (s : Tsshaper μ) (hs : SetUp s) (events : List Event) :
    Along (fun s e => e = .slot → AllInRange (eventStep si s e).core) (eventStep si) s events ↔
      Along (fun s e => e = .slot → UnpickedFit s.core) (eventStep si) s events := by
  refine along_iff_while (I := fun s => AllSound s.core ∧ AllInRange s.core) ?_ ?_ events s ?_
  · rintro s e ⟨hsound, hrange⟩ hP
    have hlayout := (eventStep_sameSetUp si s e).layout
    by_cases he : e = .slot
    · subst he
      exact ⟨slot_sound si hsound, hP rfl⟩
    · have hkept := tbKept_between si s he
      constructor
      · intro i hi
        rw [hlayout] at hi
        exact (hkept i (hsound i hi)).1
      · intro i hi
        rw [hlayout] at hi
        exact (hkept i (hsound i hi)).2 (hrange i hi)
  · rintro s e ⟨hsound, hrange⟩
    refine imp_congr_right ?_
    rintro rfl
    exact slot_inRange_iff si hsound hrange
  · constructor
    · intro i hi
      obtain ⟨pidNum, type, br, hnew⟩ := hs.pids i hi
      rw [hnew]
      exact (newPid_tb _ _ _ _).1
    · intro i hi
      obtain ⟨pidNum, type, br, hnew⟩ := hs.pids i hi
      rw [hnew]
      exact (newPid_tb _ _ _ _).2

/-- A video stream with a PCR in every slot, for the first two slots of a drive: the buffer of a
    video PID leaks faster than packets can come. -/
theorem video_tb_bounded :
    Along (fun s e => e = .slot → AllInRange (eventStep noTables s e).core) (eventStep noTables)
      ⟨Timeline.init, oneStream ⟨10000000, 35, 0, 0, 1⟩ 1⟩
      [.enqueueDts 0 0 true, .enqueueDts 0 8112000 false, .enterDrive, .slot, .slot] :=
  (tb_bounded_iff noTables _ (oneStream_setUp _ _) _).mpr (by decide +kernel)

/-- A 10 Mbit/s multiplex whose one PID carries the PAT; no PCR is due for a while. -/
def patOnly : Core Unit :=
  let cfg : Config := ⟨10000000, 35, 0, 0, 1⟩
  let c := oneStream cfg 1
  { c with
    layout := { c.layout with
      pidMap := fun n => if n = 0 then some 0 else none
      patPidState := some 0 }
    programs := fun g => { c.programs g with nextPcrPacket := 1000, pids := [] }
    pids := fun _ => newPid cfg 0 .psi 0 }

def patPacket : Packet := fun i => [0x47, 0x40, 0x00, 0x10].getD i 0xff

/-- **Four table packets in five slots**: PSI preemption sends two in a row, lets one slot pass and
    sends two more, while 300 bits leak in a slot.  After the fourth packet the buffer of 4096 bits
    holds 4813. -/
theorem tableBurst_overflows :
    let calls : List Call := [.enqueueDts 0 0 true, .enqueueTs 0 patPacket, .enqueueTs 0 patPacket,
      .enqueueTs 0 patPacket, .enqueueTs 0 patPacket, .enqueueDts 0 8118273 false, .drive]
    let p := (calls.foldl (callStep noTables) ⟨Timeline.init, patOnly⟩).core.pids 0
    p.tbFullnessBits = 4813 ∧ p.tbSizeBits = 4096 ∧
    ¬ Along (fun s e => e = .slot → AllInRange (eventStep noTables s e).core) (eventStep noTables)
      ⟨Timeline.init, patOnly⟩
      [.enqueueDts 0 0 true, .enqueueTs 0 patPacket, .enqueueTs 0 patPacket, .enqueueTs 0 patPacket,
        .enqueueTs 0 patPacket, .enqueueDts 0 8118273 false, .enterDrive, .slot, .slot, .slot,
        .slot, .slot] := by
  decide +kernel

end TsAnalyzer.Shaper
