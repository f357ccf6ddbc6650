/-
  The deadline of a PCR: with one program, PCR number `k` leaves within two slots of slot
  `k * period`.

  A PCR is due from slot `next_pcr_packet` on.  A congested stream may go first, but not from the
  second slot behind it on.  So the slot counter never gets more than two past the deadline, however
  often the PCR is put off (`OnTime`), and sending it moves the deadline by a period.
-/
import TsAnalyzer.Shaper.Buckets

namespace TsAnalyzer.Shaper

open Lib

variable {μ : Type}

def pcrSlots (c : Core μ) : List Int := (c.out.filter (·.pcr.isSome)).map (·.slot)

/-- A slot that sends a PCR is the one it was due in, or one of the next two. -/
def PcrInTime (s : Tsshaper μ) (e : Event) : Prop :=
  e = .slot → Due s.core → ∀ g, (scheduled s.core).2 = .pcrOnly g →
    (s.core.programs g).nextPcrPacket ≤ s.core.clock.packetCount ∧
      s.core.clock.packetCount ≤ (s.core.programs g).nextPcrPacket + 2

/-- One program, whose PCRs have left in time and whose next one can. -/
structure OnTime (period : Int) (c : Core μ) : Prop where
  one : c.layout.nbPrograms = 1
  same : (c.programs 0).pcrPacketPeriod = period
  next : (c.programs 0).nextPcrPacket = period * (pcrSlots c).length
  count : c.clock.packetCount ≤ (c.programs 0).nextPcrPacket + 2
  sent : ∀ (k : Nat) slot, (pcrSlots c)[k]? = some slot → period * k ≤ slot ∧ slot ≤ period * k + 2

theorem chooseAction_deadline {c : Core μ} (hone : c.layout.nbPrograms = 1) (es : Option Nat) :
    (chooseAction c es = .pcrOnly 0 ∧ (c.programs 0).nextPcrPacket ≤ c.clock.packetCount) ∨
      (∀ g, chooseAction c es ≠ .pcrOnly g) ∧
        c.clock.packetCount < (c.programs 0).nextPcrPacket + 2 := by
  by_cases hdue : c.clock.packetCount ≥ (c.programs 0).nextPcrPacket
  · have hfirst : duePcr c = some 0 := by simp [duePcr, hone, hdue]
    by_cases hsends : chooseAction c es = .pcrOnly 0
    · exact .inl ⟨hsends, hdue⟩
    · have hway := mt (fun h => chooseAction_pcrOnly_iff.mpr ⟨hfirst, h⟩) hsends
      obtain ⟨i, -, -, hlate⟩ := not_not.mp hway
      refine .inr ⟨fun g hg => ?_, hlate⟩
      obtain rfl := Option.some.inj (hfirst.symm.trans (chooseAction_pcrOnly_iff.mp hg).1)
      exact hsends hg
  · have hnone : duePcr c = none := by simp [duePcr, hone, hdue]
    refine .inr ⟨fun g hg => ?_, by omega⟩
    cases hnone.symm.trans (chooseAction_pcrOnly_iff.mp hg).1

theorem scheduled_deadline {c : Core μ} (hone : c.layout.nbPrograms = 1) :
    ((scheduled c).2 = .pcrOnly 0 ∧ (c.programs 0).nextPcrPacket ≤ c.clock.packetCount) ∨
      (∀ g, (scheduled c).2 ≠ .pcrOnly g) ∧
        c.clock.packetCount < (c.programs 0).nextPcrPacket + 2 := by
  have h := chooseAction_deadline (c := (scheduled c).1) hone (esPick c)
  rwa [scheduled_count] at h

theorem emit_noPcr (c : Core μ) {a : Action} (h : ∀ g, a ≠ .pcrOnly g) :
    (emit c a).programs = c.programs ∧ pcrSlots (emit c a) = pcrSlots c := by
  cases a with
  | null =>
    show (emitNull c).programs = _ ∧ pcrSlots (emitNull c) = _
    unfold emitNull
    split
    · exact ⟨rfl, rfl⟩
    · exact ⟨rfl, by simp [pcrSlots]⟩
  | pcrOnly g => exact absurd rfl (h g)
  | payload i => exact ⟨rfl, by simp [pcrSlots, emit, emitPayload]⟩

theorem emit_pcrOnly (c : Core μ) (g : Nat) :
    ((emit c (.pcrOnly g)).programs g).pcrPacketPeriod = (c.programs g).pcrPacketPeriod ∧
      ((emit c (.pcrOnly g)).programs g).nextPcrPacket =
        (c.programs g).nextPcrPacket + (c.programs g).pcrPacketPeriod ∧
      pcrSlots (emit c (.pcrOnly g)) = pcrSlots c ++ [c.clock.packetCount] := by
  have hwindow : ∀ pcr, (pcrWindow c g pcr).2.1.pcrPacketPeriod = (c.programs g).pcrPacketPeriod ∧
      (pcrWindow c g pcr).2.1.nextPcrPacket = (c.programs g).nextPcrPacket := by
    intro pcr
    unfold pcrWindow
    dsimp only
    split <;> exact ⟨rfl, rfl⟩
  simp [pcrSlots, emit, emitPcr, hwindow]

section Run

variable {period : Int} {c : Core μ}

theorem OnTime.kept (h : OnTime period c) {d : Core μ} (hlayout : d.layout = c.layout)
    (hprograms : d.programs = c.programs) (hslots : pcrSlots d = pcrSlots c)
    (hcount : d.clock.packetCount ≤ (c.programs 0).nextPcrPacket + 2) : OnTime period d :=
  ⟨hlayout ▸ h.one, hprograms ▸ h.same, hprograms ▸ hslots ▸ h.next, hprograms ▸ hcount,
    hslots ▸ h.sent⟩

theorem OnTime.slot (hpos : 1 ≤ period) (si : SiCallback μ) (h : OnTime period c)
    (hdue : Due c) : OnTime period (tssStepInternal si c) := by
  obtain ⟨hcount, hprograms, hout⟩ := slot_output si hdue
  have hlayout := tssStepInternal_layout si c
  have hslots : pcrSlots (tssStepInternal si c) = pcrSlots (sentCore c) := by
    rw [pcrSlots, pcrSlots, hout]
  rcases scheduled_deadline h.one with ⟨haction, hle⟩ | ⟨haction, hlt⟩
  · -- the PCR goes, within two slots of its deadline
    obtain ⟨hperiod, hnext, hsent⟩ := emit_pcrOnly (scheduled c).1 0
    rw [← haction] at hperiod hnext hsent
    have hsent : pcrSlots (tssStepInternal si c) = pcrSlots c ++ [c.clock.packetCount] :=
      hslots.trans (hsent.trans (by rw [scheduled_count]; rfl))
    have hnext : ((tssStepInternal si c).programs 0).nextPcrPacket =
        (c.programs 0).nextPcrPacket + period := by
      rw [hprograms, ← h.same]
      exact hnext
    have hafter := h.count
    have hbefore := h.next
    refine ⟨hlayout ▸ h.one, ?_, ?_, ?_, ?_⟩
    · rw [hprograms, ← h.same]
      exact hperiod
    · rw [hnext, hsent, List.length_append, List.length_singleton, h.next]
      push_cast
      ring
    · rw [hcount, hnext]
      omega
    · intro k slot hk
      rw [hsent, List.getElem?_append] at hk
      split at hk
      · exact h.sent k slot hk
      · rename_i hge
        have hlt := (List.getElem?_eq_some_iff.mp hk).1
        obtain rfl : k = (pcrSlots c).length := by
          rw [List.length_singleton] at hlt
          omega
        rw [Nat.sub_self] at hk
        cases hk
        rw [← hbefore]
        exact ⟨hle, hafter⟩
  · -- something else goes: the deadline stays, and is not out of reach
    obtain ⟨hkept, hsent⟩ := emit_noPcr (scheduled c).1 haction
    exact h.kept hlayout (hprograms.trans hkept) (hslots.trans hsent) (by omega)

theorem OnTime.step (hpos : 1 ≤ period) (si : SiCallback μ) {s : Tsshaper μ}
    (h : OnTime period s.core) (e : Event) : OnTime period (eventStep si s e).core := by
  by_cases hslot : e = .slot → ¬ Due s.core
  · have hsame := eventStep_sameOutput si s hslot
    refine h.kept (eventStep_sameSetUp si s e).layout hsame.programs ?_ (hsame.count ▸ h.count)
    rw [pcrSlots, pcrSlots, hsame.out]
  · obtain ⟨rfl, hdue⟩ := Classical.not_imp.mp hslot
    exact h.slot hpos si (not_not.mp hdue)

end Run

/-- **The PCR deadline**: at every moment of a run the deadline of the next PCR is its number times
    the period, and not more than two slots past; a slot that sends it is within two of
    `next_pcr_packet`, and PCR number `k` within two of slot `k * period`. -/
theorem pcr_deadline (si : SiCallback μ) (s : Tsshaper μ) (hone : s.core.layout.nbPrograms = 1)
    {period : Int} (hperiod : (s.core.programs 0).pcrPacketPeriod = period) (hpos : 1 ≤ period)
    (hnext : (s.core.programs 0).nextPcrPacket = 0) (hcount : s.core.clock.packetCount = 0)
    (hout : s.core.out = []) (events : List Event) :
    (∀ pre, pre <+: events →
      let c := (pre.foldl (eventStep si) s).core
      (c.programs 0).nextPcrPacket = period * (pcrSlots c).length ∧
        c.clock.packetCount ≤ (c.programs 0).nextPcrPacket + 2) ∧
      Along PcrInTime (eventStep si) s events ∧
      ∀ (k : Nat) slot, (pcrSlots (events.foldl (eventStep si) s).core)[k]? = some slot →
        period * k ≤ slot ∧ slot ≤ period * k + 2 := by
  have hstart : OnTime period s.core := by
    refine ⟨hone, hperiod, ?_, by omega, ?_⟩
    · simp [pcrSlots, hout, hnext]
    · simp [pcrSlots, hout]
  have hstep : ∀ (t : Tsshaper μ) (e : Event), OnTime period t.core → True →
      OnTime period (eventStep si t e).core := fun t e ht _ => ht.step hpos si e
  have hrun := along_true (eventStep si) events s
  have hall := along_inv (I := fun t => OnTime period t.core) hstep events s hstart hrun
  refine ⟨fun pre hpre => ⟨(hall pre hpre).next, (hall pre hpre).count⟩, ?_,
    (hall events List.prefix_rfl).sent⟩
  refine along_of_along (I := fun t => OnTime period t.core) hstep (fun t e ht _ _ _ g hg => ?_)
    events s hstart hrun
  rcases scheduled_deadline ht.one with ⟨haction, hle⟩ | ⟨haction, -⟩
  · cases haction.symm.trans hg
    exact ⟨hle, ht.count⟩
  · exact absurd hg (haction g)

/-- A stream of 20 kbit/s, with more than a second of data at once. -/
def slowStream : Tsshaper Unit :=
  let cfg : Config := ⟨10000000, 35, 0, 0, 1⟩
  ⟨Timeline.init, { oneStream cfg 4 with pids := fun _ => newPid cfg 0x100 .video 20000 }⟩

def burst : List Event :=
  .enqueueDts 0 0 true ::
    List.replicate 24 (.enqueueTs 0x100 fun i => [0x47, 0x01, 0x00, 0x10].getD i 0) ++
    .enterDrive :: List.replicate 6 .slot

/-- The congested stream takes the first slot, and the PCRs leave in slots 1 and 4. -/
theorem burst_deadline :
    (pcrSlots (burst.foldl (eventStep noTables) slowStream).core = [1, 4] ∧
      (burst.foldl (eventStep noTables) slowStream).core.clock.packetCount = 6) ∧
    (∀ pre, pre <+: burst →
      let c := (pre.foldl (eventStep noTables) slowStream).core
      (c.programs 0).nextPcrPacket = 4 * (pcrSlots c).length ∧
        c.clock.packetCount ≤ (c.programs 0).nextPcrPacket + 2) ∧
      Along PcrInTime (eventStep noTables) slowStream burst ∧
      ∀ (k : Nat) slot, (pcrSlots (burst.foldl (eventStep noTables) slowStream).core)[k]? =
        some slot → 4 * k ≤ slot ∧ slot ≤ 4 * k + 2 :=
  ⟨by decide +kernel, pcr_deadline noTables slowStream rfl rfl (by decide) rfl rfl rfl burst⟩

end TsAnalyzer.Shaper
