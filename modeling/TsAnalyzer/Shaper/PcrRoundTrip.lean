/-
  A PCR of the shaper, written and read back.

  1. **Program** — `inject_pcr` divides by 300 with the division of C, which rounds towards zero.
     `tsa_pkt_get_pcr` joins the pieces again.
  2. **Specification** — what is read is the PCR modulo `2^33 * 300`.
-/
import TsAnalyzer.Lib.Bits
import TsAnalyzer.Packet.Pcr
import TsAnalyzer.Shaper.Discontinuity

namespace TsAnalyzer.Shaper

open Lib

variable {μ : Type}

def readPcr (pkt : List UInt8) : Nat := Packet.tsaPktGetPcr fun i => pkt.getD i 0

/-- Every PCR packet the event writes is read back as the PCR it carries. -/
def PcrsReadBack (si : SiCallback μ) (s : Tsshaper μ) (e : Event) : Prop :=
  ∀ x ∈ (eventStep si s e).core.out.drop s.core.out.length, ∀ sent, x.pcr = some sent →
    (readPcr x.pkt : Int) = sent.value % timelineModulo

/-- A PCR that the slot is about to send is not negative, or a multiple of 300. -/
def PcrFits (s : Tsshaper μ) (e : Event) : Prop :=
  e = .slot → Due s.core → ∀ g, (scheduled s.core).2 = .pcrOnly g →
    0 ≤ pcrOf (scheduled s.core).1 g ∨ 300 ∣ pcrOf (scheduled s.core).1 g

/-! ## The bytes -/

theorem byteOf_toNat (x : Int) : ((byteOf x).toNat : Int) = x % 256 := by
  rw [byteOf, UInt8.toNat_ofNat']
  omega

theorem byteOf_shift (x : Int) (n : Nat) :
    ((byteOf (x >>> (n : Int))).toNat : Int) = x / 2 ^ n % 256 := by
  have hshift : x >>> (n : Int) = x >>> n := by cases x <;> cases n <;> rfl
  rw [byteOf_toNat, hshift, Int.shiftRight_eq_div_pow]
  norm_num

theorem shared_byte : ∀ b < 2, ∀ e < 256, (b <<< 7 % 2 ^ 8 ||| 126 ||| e) >>> 7 =
    (if 128 ≤ e then 1 else b) ∧ (b <<< 7 % 2 ^ 8 ||| 126 ||| e) &&& 1 = e % 2 := by
  decide +kernel

theorem pcrTicks_written {p : Nat → UInt8} (base ext : Int) (hpos : 0 ≤ base) (hlt : base < 2 ^ 33)
    (h6 : p 6 = byteOf (base >>> 25)) (h7 : p 7 = byteOf (base >>> 17))
    (h8 : p 8 = byteOf (base >>> 9)) (h9 : p 9 = byteOf (base >>> 1))
    (h10 : p 10 = byteOf (base % 2) <<< 7 ||| (0x7e : UInt8) ||| byteOf (ext >>> 8))
    (h11 : p 11 = byteOf ext) :
    (Packet.pcrTicks p : Int) =
      (base - base % 2 + if 128 ≤ ext / 256 % 256 then 1 else base % 2) * 300 +
        (ext / 256 % 2 * 256 + ext % 256) := by
  have e6 : ((byteOf (base >>> 25)).toNat : Int) = base / 2 ^ 25 % 256 := byteOf_shift base 25
  have e7 : ((byteOf (base >>> 17)).toNat : Int) = base / 2 ^ 17 % 256 := byteOf_shift base 17
  have e8 : ((byteOf (base >>> 9)).toNat : Int) = base / 2 ^ 9 % 256 := byteOf_shift base 9
  have e9 : ((byteOf (base >>> 1)).toNat : Int) = base / 2 ^ 1 % 256 := byteOf_shift base 1
  have ee : ((byteOf (ext >>> 8)).toNat : Int) = ext / 2 ^ 8 % 256 := byteOf_shift ext 8
  have eb := byteOf_toNat (base % 2); have ex := byteOf_toNat ext
  obtain ⟨hhigh, hlow⟩ := shared_byte (byteOf (base % 2)).toNat (by omega) _
    (byteOf (ext >>> 8)).toNat_lt
  have hten : (p 10).toNat =
      (byteOf (base % 2)).toNat <<< 7 % 2 ^ 8 ||| 126 ||| (byteOf (ext >>> 8)).toNat := by
    rw [h10, UInt8.toNat_or, UInt8.toNat_or, UInt8.toNat_shiftLeft]
    rfl
  rw [← hten] at hhigh hlow
  rw [Packet.pcrTicks, Packet.pcrBase, Packet.pcrExt, h6, h7, h8, h9, h11, hhigh, UInt8.toNat_and,
    show (0x01 : UInt8).toNat = 1 from rfl, hlow, Nat.lor_assoc, Nat.lor_assoc, Nat.lor_assoc]
  have hbit : (if 128 ≤ (byteOf (ext >>> 8)).toNat then 1 else (byteOf (base % 2)).toNat) <
      2 ^ 1 := by
    split <;> omega
  rw [join_eq_add hbit, join_eq_add (n := 9) (by omega), join_eq_add (n := 17) (by omega),
    join_eq_add (n := 25) (by omega), join_eq_add (n := 8) (by omega)]
  push_cast
  rw [e6, e7, e8, e9, ex, ee, eb]
  split <;> split <;> omega

/-- **A PCR is read back** exactly if it is not negative, or a multiple of 300. -/
theorem readPcr_iff (pid : Nat) (cc : UInt8) (discontinuity : Bool) (pcr : Int) :
    (readPcr (pcrPacket pid cc discontinuity pcr) : Int) = pcr % timelineModulo ↔
      0 ≤ pcr ∨ 300 ∣ pcr := by
  have h3 : ∀ cc : UInt8, (0x20 ||| (cc &&& 0x0f)) &&& 0x20 ≠ 0 := by decide +kernel
  have h4 : ¬ (183 : UInt8) < 2 := by decide
  have h5 : ∀ d : Bool, (if d then 0x90 else 0x10 : UInt8) &&& 0x10 ≠ 0 := by decide
  have hticks : readPcr (pcrPacket pid cc discontinuity pcr) =
      Packet.pcrTicks fun i => (pcrPacket pid cc discontinuity pcr).getD i 0 := by
    have hpass : ∀ p : Nat → UInt8, p 0 = 0x47 → p 3 &&& 0x20 ≠ 0 → ¬ p 4 < 2 →
        p 5 &&& 0x10 ≠ 0 → Packet.tsaPktGetPcr p = Packet.pcrTicks p := by
      intro p h0 h3 h4 h5
      rw [Packet.tsaPktGetPcr, if_neg (not_not.mpr h0), if_neg (not_or.mpr ⟨h3, h4⟩), if_neg h5]
    exact hpass _ rfl (h3 cc) h4 (h5 discontinuity)
  rw [hticks, pcrTicks_written (pcr.tdiv 300 % 2 ^ 33) (pcr.tmod 300) (by omega)
    (by omega) rfl rfl rfl rfl rfl rfl]
  have hwant : pcr % timelineModulo = 300 * (pcr / 300 % 2 ^ 33) + pcr % 300 := by
    unfold timelineModulo; omega
  rw [hwant, Int.tdiv_eq_ediv, Int.tmod_eq_emod]
  by_cases hfits : 0 ≤ pcr ∨ 300 ∣ pcr
  · rw [if_pos hfits, if_pos hfits]
    refine iff_of_true ?_ hfits
    generalize pcr / 300 = q
    split <;> omega
  · rw [if_neg hfits, if_neg hfits, show (300 : Int).sign = 1 from rfl,
      show (300 : Int).natAbs = 300 from rfl]
    refine iff_of_false ?_ hfits
    have hrest : 0 < pcr % 300 := by omega
    generalize pcr / 300 = q
    split <;> omega

/-! ## Runs -/

theorem pcrsReadBack_iff (si : SiCallback μ) (s : Tsshaper μ) (e : Event) :
    PcrsReadBack si s e ↔ PcrFits s e := by
  by_cases hslot : e = .slot → ¬ Due s.core
  · refine iff_of_true ?_ fun h hdue => absurd hdue (hslot h)
    rw [PcrsReadBack, (eventStep_sameOutput si s hslot).out, List.drop_length]
    exact fun x hx => absurd hx List.not_mem_nil
  · obtain ⟨rfl, hdue⟩ := Classical.not_imp.mp hslot
    have hdue := not_not.mp hdue
    -- what the slot writes behind what was written before
    have hnew : ∀ new, (sentCore s.core).out = s.core.out ++ new →
        (PcrsReadBack si s .slot ↔ ∀ x ∈ new, ∀ sent, x.pcr = some sent →
          (readPcr x.pkt : Int) = sent.value % timelineModulo) := by
      intro new hnew
      show (∀ x ∈ (tssStepInternal si s.core).out.drop _, _) ↔ _
      rw [(slot_output si hdue).2.2, hnew, List.drop_left]
    have hfits : PcrFits s .slot ↔ ∀ g, (scheduled s.core).2 = .pcrOnly g →
        0 ≤ pcrOf (scheduled s.core).1 g ∨ 300 ∣ pcrOf (scheduled s.core).1 g :=
      ⟨fun h => h rfl hdue, fun h _ _ => h⟩
    rw [hfits]
    unfold sentCore at hnew
    cases haction : (scheduled s.core).2 with
    | null =>
      rw [haction] at hnew
      refine iff_of_true ?_ (by simp)
      by_cases hdrain : (scheduled s.core).1.inDrain = true
      · refine (hnew [] ?_).mpr (by simp)
        rw [List.append_nil]
        show (emitNull (scheduled s.core).1).out = s.core.out
        unfold emitNull
        rw [if_pos hdrain]
        rfl
      · refine (hnew _ (congrArg Core.out (if_neg hdrain))).mpr ?_
        simp
    | payload i =>
      rw [haction] at hnew
      refine iff_of_true ((hnew _ rfl).mpr ?_) (by simp)
      simp
    | pcrOnly g =>
      rw [haction] at hnew
      rw [hnew _ rfl]
      simp [readPcr_iff]

/-- **The PCRs of a run are read back exactly if** none of them is negative, multiples of 300
    apart, when its slot comes. -/
theorem pcrs_readBack_iff (si : SiCallback μ) (s : Tsshaper μ) (events : List Event) :
    Along (PcrsReadBack si) (eventStep si) s events ↔ Along PcrFits (eventStep si) s events :=
  along_iff (I := fun _ => True) (fun _ _ _ => trivial) (fun s e _ => pcrsReadBack_iff si s e)
    events s trivial

/-- A slot sends no PCR below the physical clock. -/
theorem pcrFits_of_clock {s : Tsshaper μ} (h : 0 ≤ s.core.clock.physicalStc) (e : Event) :
    PcrFits s e := by
  rintro - - g -
  have hideal : 0 ≤ pcrIdeal (scheduled s.core).1 := by
    rw [scheduled_ideal]
    exact Int.add_nonneg h (Int.tdiv_nonneg (by decide) (Int.natCast_nonneg _))
  left
  unfold pcrOf
  dsimp only
  split <;> omega

theorem clock_nonneg {s : Tsshaper μ} (h : 0 ≤ s.core.clock.physicalStc) (si : SiCallback μ)
    {e : Event} (hcalm : Undisturbed s e) : 0 ≤ (eventStep si s e).core.clock.physicalStc := by
  have hsame : ∀ {d : Core μ}, SameSlot s.core d → 0 ≤ d.clock.physicalStc :=
    fun hd => h.trans_eq hd.physicalStc.symm
  cases e with
  | enqueueDts pidNum dts isKey => exact hsame (enqueueDts_sameSlot hcalm)
  | enqueueTs pidNum pkt => exact hsame (tsshaperEnqueueTs_beside _ _ _).sameSlot
  | enterDrive => exact hsame (driveFuse_sameSlot hcalm)
  | slot =>
    have hticks := ticksPerPacket_nonneg s.core.cfg
    rcases tssStepInternal_slot si s.core with hgate | ⟨d, a, -, hnext⟩
    · exact h.trans_eq (congrArg (·.clock.physicalStc) hgate).symm
    · refine Int.le_trans ?_ hnext.physicalStc.ge
      show 0 ≤ nextPhysicalStc s.core
      rw [nextPhysicalStc, if_neg (by unfold noptsValue; omega)]
      omega
  | leaveDrive | enterDrain => exact h
  | resetTimeline => exact hcalm.elim

/-- **Once the physical clock has reached 0**, every PCR is read back until it is set anew. -/
theorem pcrs_readBack_of_clock (si : SiCallback μ) (s : Tsshaper μ) (events : List Event)
    (h : 0 ≤ s.core.clock.physicalStc) (hcalm : Along Undisturbed (eventStep si) s events) :
    Along (PcrsReadBack si) (eventStep si) s events :=
  along_of_along (I := fun s => 0 ≤ s.core.clock.physicalStc)
    (fun _ _ hs he => clock_nonneg hs si he)
    (fun s e hs _ => (pcrsReadBack_iff si s e).mpr (pcrFits_of_clock hs e)) events s h hcalm

/-- **With a mux delay of 100 ms the clock starts at -310 ms**, and the first PCR is read back as
    another one. -/
theorem shortDelay_pcr_wrong :
    let s : Tsshaper Unit := [Event.enqueueDts 0 0 true, .enterDrive, .slot].foldl
      (eventStep noTables) ⟨Timeline.init, oneStream ⟨10000000, 35, 100, 0, 1⟩ 100⟩
    s.core.out.filterMap (·.pcr) = [⟨0, -8369763, false⟩] ∧
      s.core.out.map (fun x => readPcr x.pkt) = [2576972008349] ∧
      -8369763 % timelineModulo = 2576972007837 := by
  decide +kernel

end TsAnalyzer.Shaper
