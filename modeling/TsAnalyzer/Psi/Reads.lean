/-
  Where the section parser reads (`tsa_section_filter_push`, `process_pat`, `process_pmt` in
  `src/tsa_psi.c`).

  1. **Program** — the functions of `Psi.Section` again, with every byte loaded from a position of
     the packet; `sectionFilterRead_value`: they compute what those do.
  2. **Bounds** — one lemma for each function.  A section that was found ends in the packet, and the
     loops stop before its end.  `process_pmt`, though, reads the program info length at bytes 10 and
     11 of ANY section: nothing says that it has that many.
-/
import TsAnalyzer.Lib.Traced
import TsAnalyzer.Psi.Section

namespace TsAnalyzer.Psi

open Lib Lib.Traced Packet List

/-! ## Program -/

def pidRead (pkt : Nat → UInt8) (i : Nat) : Traced Nat := do
  let high ← load pkt i
  let low ← load pkt (i + 1)
  return (high &&& 0x1F).toNat <<< 8 ||| low.toNat

def lengthRead (pkt : Nat → UInt8) (i : Nat) : Traced Nat := do
  let high ← load pkt i
  let low ← load pkt (i + 1)
  return (high &&& 0x0F).toNat <<< 8 ||| low.toNat

def sectionLengthRead (pkt : Nat → UInt8) (start : Nat) : Traced Nat := do
  let length ← lengthRead pkt (start + 1)
  return length + 3

/-- `mpegts_crc32(pkt + start, l)`: every byte is read once for each of its bits. -/
def crcRead (pkt : Nat → UInt8) (start l : Nat) : Traced (BitVec 32) :=
  foldM (fun crc i =>
    foldM (fun crc j => do
      let b ← load pkt (start + i)
      return crcBit crc (b.toNat.testBit (7 - j))) (range 8) crc) (range l) 0xffffffff

/-- Turn `i` of the PAT loop. -/
def patEntryRead (pkt : Nat → UInt8) (start i : Nat) : Traced (Nat × Nat) := do
  let high ← load pkt (start + (8 + i * 4))
  let low ← load pkt (start + (9 + i * 4))
  let ppid ← pidRead pkt (start + (10 + i * 4))
  return (high.toNat <<< 8 ||| low.toNat, ppid)

def processPatRead (t : Tables) (pkt : Nat → UInt8) (start now : Nat) : Traced Tables := do
  let sl ← sectionLengthRead pkt start
  let entries ← each (patEntryRead pkt start) (range ((sl - 12) / 4))
  return entries.foldl listProgram { t with seenPat := true, lastPatNs := now }

def esLoopRead (pkt : Nat → UInt8) (start stop offset : Nat) : Traced (List StreamInfo) :=
  if offset < stop then do
    let type ← load pkt (start + offset)
    let pid ← pidRead pkt (start + (offset + 1))
    let length ← lengthRead pkt (start + (offset + 3))
    let streams ← esLoopRead pkt start stop (offset + 5 + length)
    return ⟨pid, type⟩ :: streams
  else pure []
  termination_by stop - offset
  decreasing_by omega

def processPmtRead (t : Tables) (pid : Nat) (pkt : Nat → UInt8) (start now : Nat) :
    Traced Tables :=
  let t := { t with seenPmt := true }
  match t.programs.rows.find? fun q => q.pmtPid = pid with
  | none => pure t
  | some q => do
    let sl ← sectionLengthRead pkt start
    let infoLength ← lengthRead pkt (start + 10)
    let streams ← esLoopRead pkt start (sl - 4) (12 + infoLength)
    return { t with
      programs := t.programs.update q.programNumber
        (fun q => { q with lastPmtNs := now, streams := streams.take maxStreamsPerProg })
        (fun _ => rfl)
      pidTypes := streams.foldl
        (fun types e => Function.update types e.pid (pidTypeOf e.streamType)) t.pidTypes }

/-- A section that ends in the packet. -/
def checkedRead (t : Tables) (pid : Nat) (pkt : Nat → UInt8) (start sl : Nat) (tid : UInt8)
    (now : Nat) : Traced Tables := do
  let crc ← crcRead pkt start sl
  if crc = 0 then
    if tid = 0x00 then processPatRead t pkt start now
    else if tid = 0x02 then processPmtRead t pid pkt start now
    else pure t
  else pure { t with crcErrorCount := (t.crcErrorCount + 1) % 2 ^ 64 }

def startedRead (t : Tables) (pid : Nat) (pkt : Nat → UInt8) (start now : Nat) : Traced Tables :=
  if 184 ≤ start then pure t
  else do
    let tid ← load pkt start
    if tid = 0xFF then pure t
    else do
      let sl ← sectionLengthRead pkt start
      if 188 < start + sl then pure t else checkedRead t pid pkt start sl tid now

def pointerRead (pkt : Nat → UInt8) (afc : UInt8) : Traced Nat :=
  if afc &&& 0x02 ≠ 0 then do
    let length ← load pkt 4
    return 4 + (length.toNat + 1)
  else pure 4

/-- `tsa_section_filter_push`. -/
def sectionFilterRead (t : Tables) (pid : Nat) (pkt : Nat → UInt8) (r : DecodeResult) (now : Nat) :
    Traced Tables := do
  let flags ← load pkt 3
  let afc := (flags >>> 4) &&& 0x03
  if afc &&& 0x01 = 0 then pure t
  else if !r.pusi then pure t
  else do
    let offset ← pointerRead pkt afc
    if 187 ≤ offset then pure t
    else do
      let pointer ← load pkt offset
      startedRead t pid pkt (offset + (pointer.toNat + 1)) now

/-! ## What is computed -/

section Values

variable (pkt : Nat → UInt8) (start : Nat)

@[simp] theorem pidRead_value (i : Nat) : (pidRead pkt i).value = pidAt pkt i := rfl

@[simp] theorem lengthRead_value (i : Nat) : (lengthRead pkt i).value = lengthAt pkt i := rfl

@[simp] theorem sectionLengthRead_value :
    (sectionLengthRead pkt start).value = sectionLength fun i => pkt (start + i) := rfl

@[simp] theorem crcRead_value (l : Nat) :
    (crcRead pkt start l).value = mpegtsCrc32 (fun i => pkt (start + i)) l := by
  rw [crcRead, foldM_value]
  simp only [foldM_value, bind_value, load_value, pure_value]
  rfl

theorem processPatRead_value (t : Tables) (now : Nat) :
    (processPatRead t pkt start now).value = processPat t (fun i => pkt (start + i)) now := by
  rw [processPatRead, bind_value, bind_value, pure_value, each_value]
  rfl

theorem esLoopRead_value (stop offset : Nat) :
    (esLoopRead pkt start stop offset).value = esLoop (fun i => pkt (start + i)) stop offset := by
  fun_induction esLoop (fun i => pkt (start + i)) stop offset with
  | case1 offset hlt ih =>
    rw [esLoopRead, if_pos hlt]
    simp only [bind_value, pure_value, load_value, pidRead_value, lengthRead_value]
    exact congrArg (List.cons _) ih
  | case2 offset hge =>
    rw [esLoopRead, if_neg hge, pure_value]

theorem processPmtRead_value (t : Tables) (pid now : Nat) :
    (processPmtRead t pid pkt start now).value =
      processPmt t pid (fun i => pkt (start + i)) now := by
  rw [processPmtRead, processPmt]
  cases t.programs.rows.find? fun q => decide (q.pmtPid = pid) with
  | none => rfl
  | some q =>
    simp only [bind_value, pure_value, sectionLengthRead_value, lengthRead_value, esLoopRead_value]
    rfl

theorem checkedRead_value (t : Tables) (pid sl : Nat) (tid : UInt8) (now : Nat) :
    (checkedRead t pid pkt start sl tid now).value =
      if tsaCrc32Check (fun i => pkt (start + i)) sl = 0 then
        if tid = 0x00 then processPat t (fun i => pkt (start + i)) now
        else if tid = 0x02 then processPmt t pid (fun i => pkt (start + i)) now
        else t
      else { t with crcErrorCount := (t.crcErrorCount + 1) % 2 ^ 64 } := by
  rw [checkedRead, bind_value, crcRead_value, tsaCrc32Check]
  simp only [ite_value, pure_value, processPatRead_value, processPmtRead_value]

end Values

/-! ## Bounds -/

section Bounds

variable {pkt : Nat → UInt8} {start n : Nat}

theorem within_pidRead {i : Nat} (h : i + 1 < n) : Within n (pidRead pkt i) :=
  within_bind.mpr ⟨within_load.mpr (by omega), within_map.mpr (within_load.mpr h)⟩

theorem within_lengthRead {i : Nat} : Within n (lengthRead pkt i) ↔ i + 1 < n := by
  rw [lengthRead, within_bind, within_map, within_load, within_load]
  omega

theorem within_sectionLengthRead (h : start + 2 < n) : Within n (sectionLengthRead pkt start) :=
  within_map.mpr (within_lengthRead.mpr h)

theorem within_crcRead {l : Nat} (h : start + l ≤ n) : Within n (crcRead pkt start l) := by
  apply within_foldM
  intro i hi crc
  apply within_foldM
  intro j _ crc
  have hlt := mem_range.mp hi
  exact within_map.mpr (within_load.mpr (by omega))

theorem within_processPatRead {t : Tables} {now : Nat}
    (h : start + (sectionLength fun i => pkt (start + i)) ≤ n) :
    Within n (processPatRead t pkt start now) := by
  have hthree : 3 ≤ sectionLength fun i => pkt (start + i) := Nat.le_add_left 3 _
  refine within_bind.mpr ⟨within_sectionLengthRead (by omega), within_map.mpr (within_each ?_)⟩
  intro i hi
  rw [sectionLengthRead_value, mem_range] at hi
  refine within_bind.mpr ⟨within_load.mpr (by omega), ?_⟩
  refine within_bind.mpr ⟨within_load.mpr (by omega), ?_⟩
  exact within_map.mpr (within_pidRead (by omega))

theorem within_esLoopRead {stop offset : Nat} (h : start + (stop + 4) ≤ n) :
    Within n (esLoopRead pkt start stop offset) := by
  fun_induction esLoopRead pkt start stop offset with
  | case1 offset hlt ih =>
    refine within_bind.mpr ⟨within_load.mpr (by omega), ?_⟩
    refine within_bind.mpr ⟨within_pidRead (by omega), ?_⟩
    refine within_bind.mpr ⟨within_lengthRead.mpr (by omega), ?_⟩
    exact within_map.mpr (ih _)
  | case2 offset hge => exact within_pure n _

/-- `process_pmt` reads bytes 10 and 11 for the first program with the PID, and nothing else that
    may be outside. -/
theorem within_processPmtRead {t : Tables} {pid now : Nat}
    (h : start + (sectionLength fun i => pkt (start + i)) ≤ n) :
    Within n (processPmtRead t pid pkt start now) ↔
      ((∃ q ∈ t.programs.rows, q.pmtPid = pid) → start + 11 < n) := by
  have hthree : 3 ≤ sectionLength fun i => pkt (start + i) := Nat.le_add_left 3 _
  rw [processPmtRead]
  dsimp only
  cases hfind : t.programs.rows.find? fun q => decide (q.pmtPid = pid) with
  | none =>
    refine iff_of_true (within_pure n _) ?_
    rintro ⟨q, hq, hpid⟩
    exact absurd (decide_eq_true hpid) (find?_eq_none.mp hfind q hq)
  | some q =>
    have hpid := find?_some hfind
    have hlisted : ∃ q ∈ t.programs.rows, q.pmtPid = pid :=
      ⟨q, mem_of_find?_eq_some hfind, of_decide_eq_true hpid⟩
    rw [forall_prop_of_true hlisted]
    have hfirst : Within n (sectionLengthRead pkt start) := within_sectionLengthRead (by omega)
    dsimp only
    rw [within_bind, and_iff_right hfirst, within_bind, within_lengthRead, within_map]
    rw [sectionLengthRead_value]
    constructor
    · intro hin
      exact hin.1
    · intro hin
      exact ⟨hin, within_esLoopRead (by omega)⟩

end Bounds

/-! ## Where a section starts -/

/-- Where the pointer of a unit start is. -/
def pointerAt (pkt : Nat → UInt8) : Nat :=
  if ((pkt 3 >>> 4) &&& 0x03) &&& 0x02 ≠ 0 then 4 + ((pkt 4).toNat + 1) else 4

def sectionStart (pkt : Nat → UInt8) : Nat := pointerAt pkt + ((pkt (pointerAt pkt)).toNat + 1)

/-- The packet has a payload, a unit start and a pointer. -/
structure HasPointer (pkt : Nat → UInt8) (pusi : Bool) : Prop where
  payload : ((pkt 3 >>> 4) &&& 0x03) &&& 0x01 ≠ 0
  pusi : pusi = true
  pointer : pointerAt pkt < 187

/-- A section starts at `start`, and ends in the packet. -/
structure EndsInside (pkt : Nat → UInt8) (start : Nat) : Prop where
  starts : start < 184
  used : pkt start ≠ 0xFF
  ends : start + (sectionLength fun i => pkt (start + i)) ≤ 188

theorem pointerRead_value (pkt : Nat → UInt8) :
    (pointerRead pkt ((pkt 3 >>> 4) &&& 0x03)).value = pointerAt pkt := by
  rw [pointerRead, pointerAt, ite_value, bind_value, pure_value, pure_value, load_value]

variable {pkt : Nat → UInt8} (t : Tables) (pid : Nat)

theorem sectionFilterRead_cases (pkt : Nat → UInt8) (r : DecodeResult) (now : Nat) :
    (HasPointer pkt r.pusi ∧
      (sectionFilterRead t pid pkt r now).value =
        (startedRead t pid pkt (sectionStart pkt) now).value ∧
      (Within 188 (sectionFilterRead t pid pkt r now) ↔
        Within 188 (startedRead t pid pkt (sectionStart pkt) now))) ∨
    (¬ HasPointer pkt r.pusi ∧ (sectionFilterRead t pid pkt r now).value = t ∧
      Within 188 (sectionFilterRead t pid pkt r now)) := by
  have hfirst : Within 188 (load pkt 3) := within_load.mpr (by decide)
  have hpointer : Within 188 (pointerRead pkt ((pkt 3 >>> 4) &&& 0x03)) := by
    rw [pointerRead]
    split
    · exact within_map.mpr (within_load.mpr (by decide))
    · exact within_pure _ _
  rw [sectionFilterRead, bind_value, within_bind, and_iff_right hfirst, load_value]
  dsimp only
  split
  · rename_i hpayload
    exact Or.inr ⟨fun h => h.payload hpayload, rfl, within_pure _ _⟩
  · rename_i hpayload
    split
    · rename_i hpusi
      refine Or.inr ⟨fun h => ?_, rfl, within_pure _ _⟩
      rw [h.pusi] at hpusi
      cases hpusi
    · rename_i hpusi
      rw [bind_value, within_bind, and_iff_right hpointer, pointerRead_value]
      split
      · rename_i hroom
        exact Or.inr ⟨fun h => Nat.not_le_of_lt h.pointer hroom, rfl, within_pure _ _⟩
      · rename_i hroom
        have hload : Within 188 (load pkt (pointerAt pkt)) := within_load.mpr (by omega)
        refine Or.inl ⟨⟨hpayload, by simpa using hpusi, Nat.lt_of_not_le hroom⟩, rfl, ?_⟩
        rw [within_bind, and_iff_right hload]
        rfl

theorem findSection_unfold (pkt : Nat → UInt8) (pusi : Bool) :
    findSection pkt pusi =
      if ((pkt 3 >>> 4) &&& 0x03) &&& 0x01 = 0 then none
      else if !pusi then none
      else if 187 ≤ pointerAt pkt then none
      else if 184 ≤ sectionStart pkt then none
      else if pkt (sectionStart pkt) = 0xFF then none
      else if 188 < sectionStart pkt + sectionLength fun i => pkt (sectionStart pkt + i) then none
      else some fun i => pkt (sectionStart pkt + i) := rfl

theorem findSection_eq_some {pusi : Bool} (h : HasPointer pkt pusi)
    (hin : EndsInside pkt (sectionStart pkt)) :
    findSection pkt pusi = some fun i => pkt (sectionStart pkt + i) := by
  rw [findSection_unfold, if_neg h.payload, if_neg (by rw [h.pusi]; decide)]
  rw [if_neg (Nat.not_le_of_lt h.pointer), if_neg (Nat.not_le_of_lt hin.starts), if_neg hin.used]
  rw [if_neg (Nat.not_lt_of_le hin.ends)]

theorem findSection_eq_none {pusi : Bool}
    (h : ¬ (HasPointer pkt pusi ∧ EndsInside pkt (sectionStart pkt))) :
    findSection pkt pusi = none := by
  rw [findSection_unfold]
  split_ifs with hpayload hpusi hpointer hstart hused hends
  all_goals first | rfl | skip
  refine absurd ⟨⟨hpayload, by simpa using hpusi, Nat.lt_of_not_le hpointer⟩, ?_⟩ h
  exact ⟨Nat.lt_of_not_le hstart, hused, Nat.le_of_not_lt hends⟩

theorem startedRead_cases (pkt : Nat → UInt8) (start now : Nat) :
    (EndsInside pkt start ∧
      (startedRead t pid pkt start now).value =
        (checkedRead t pid pkt start (sectionLength fun i => pkt (start + i)) (pkt start) now).value ∧
      (Within 188 (startedRead t pid pkt start now) ↔
        Within 188
          (checkedRead t pid pkt start (sectionLength fun i => pkt (start + i)) (pkt start) now))) ∨
    (¬ EndsInside pkt start ∧ (startedRead t pid pkt start now).value = t ∧
      Within 188 (startedRead t pid pkt start now)) := by
  rw [startedRead]
  split
  · rename_i hstart
    exact Or.inr ⟨fun h => Nat.not_le_of_lt h.starts hstart, rfl, within_pure _ _⟩
  · rename_i hstart
    have htid : Within 188 (load pkt start) := within_load.mpr (by omega)
    have hlength : Within 188 (sectionLengthRead pkt start) :=
      within_sectionLengthRead (by omega)
    rw [bind_value, within_bind, and_iff_right htid, load_value]
    split
    · rename_i hused
      exact Or.inr ⟨fun h => h.used hused, rfl, within_pure _ _⟩
    · rename_i hused
      rw [bind_value, within_bind, and_iff_right hlength, sectionLengthRead_value]
      split
      · rename_i hends
        exact Or.inr ⟨fun h => Nat.not_lt_of_le h.ends hends, rfl, within_pure _ _⟩
      · rename_i hends
        exact Or.inl ⟨⟨Nat.lt_of_not_le hstart, hused, Nat.le_of_not_lt hends⟩, rfl, Iff.rfl⟩

/-- **The same program**: the reads do not change what is computed. -/
theorem sectionFilterRead_value (pkt : Nat → UInt8) (r : DecodeResult) (now : Nat) :
    (sectionFilterRead t pid pkt r now).value = tsaSectionFilterPush t pid pkt r now := by
  rw [tsaSectionFilterPush]
  rcases sectionFilterRead_cases t pid pkt r now with ⟨hpointer, hvalue, -⟩ | ⟨hnone, hvalue, -⟩
  · rw [hvalue]
    rcases startedRead_cases t pid pkt (sectionStart pkt) now with
      ⟨hin, hvalue, -⟩ | ⟨hout, hvalue, -⟩
    · rw [hvalue, findSection_eq_some hpointer hin, checkedRead_value]
      rfl
    · rw [hvalue, findSection_eq_none fun h => hout h.2]
  · rw [hvalue, findSection_eq_none fun h => hnone h.1]

/-- A PMT with a good checksum, for a program of the table, so late in the packet that it has no
    byte 11 there. -/
structure LatePmt (t : Tables) (pid : Nat) (pkt : Nat → UInt8) (pusi : Bool) : Prop where
  found : findSection pkt pusi = some fun i => pkt (sectionStart pkt + i)
  crc : tsaCrc32Check (fun i => pkt (sectionStart pkt + i))
    (sectionLength fun i => pkt (sectionStart pkt + i)) = 0
  tableId : pkt (sectionStart pkt) = 0x02
  listed : ∃ q ∈ t.programs.rows, q.pmtPid = pid
  late : 177 ≤ sectionStart pkt

theorem within_checkedRead {t : Tables} {pid : Nat} {start now : Nat} (hin : EndsInside pkt start) :
    Within 188
      (checkedRead t pid pkt start (sectionLength fun i => pkt (start + i)) (pkt start) now) ↔
    ¬ (tsaCrc32Check (fun i => pkt (start + i)) (sectionLength fun i => pkt (start + i)) = 0 ∧
      pkt start = 0x02 ∧ (∃ q ∈ t.programs.rows, q.pmtPid = pid) ∧ 177 ≤ start) := by
  rw [checkedRead, within_bind, and_iff_right (within_crcRead hin.ends), crcRead_value,
    ← tsaCrc32Check]
  split
  · rename_i hcrc
    split
    · rename_i hpat
      refine iff_of_true (within_processPatRead hin.ends) ?_
      rintro ⟨-, hpmt, -⟩
      rw [hpat] at hpmt
      cases hpmt
    · split
      · rename_i hpmt
        rw [within_processPmtRead hin.ends]
        constructor
        · rintro hinside ⟨-, -, hlisted, hlate⟩
          have := hinside hlisted
          omega
        · intro hnot hlisted
          by_contra hlate
          exact hnot ⟨hcrc, hpmt, hlisted, by omega⟩
      · rename_i hother
        exact iff_of_true (within_pure _ _) fun h => hother h.2.1
  · rename_i hcrc
    exact iff_of_true (within_pure _ _) fun h => hcrc h.1

/-- **Section parsing stays inside the packet** exactly when the packet does not carry a PMT that
    is too late in it. -/
theorem reads_inside_iff (t : Tables) (pid : Nat) (pkt : Nat → UInt8) (r : DecodeResult)
    (now : Nat) : Within 188 (sectionFilterRead t pid pkt r now) ↔ ¬ LatePmt t pid pkt r.pusi := by
  rcases sectionFilterRead_cases t pid pkt r now with ⟨hpointer, -, hwithin⟩ | ⟨hnone, -, hwithin⟩
  · rw [hwithin]
    rcases startedRead_cases t pid pkt (sectionStart pkt) now with
      ⟨hin, -, hwithin⟩ | ⟨hout, -, hwithin⟩
    · rw [hwithin, within_checkedRead hin]
      apply not_congr
      constructor
      · rintro ⟨hcrc, htid, hlisted, hlate⟩
        exact ⟨findSection_eq_some hpointer hin, hcrc, htid, hlisted, hlate⟩
      · intro h
        exact ⟨h.crc, h.tableId, h.listed, h.late⟩
    · refine iff_of_true hwithin fun h => ?_
      have hfound := h.found
      rw [findSection_eq_none fun h => hout h.2] at hfound
      cases hfound
  · refine iff_of_true hwithin fun h => ?_
    have hfound := h.found
    rw [findSection_eq_none fun h => hnone h.1] at hfound
    cases hfound

/-- A packet whose pointer leads to its last seven bytes: a PMT of length 4, which is only its own
    checksum. -/
def latePmtPacket : Nat → UInt8 := fun i =>
  if i < 181 then [0x47, 0x41, 0x00, 0x10, 0xB0].getD i 0xFF
  else [0x02, 0x00, 0x04, 0xA7, 0xD1, 0x52, 0xD2].getD (i - 181) 0x00

/-- Byte 192 is read, four bytes after the end of the packet. -/
theorem latePmt_reads_outside :
    ¬ Within 188 (sectionFilterRead (listProgram Tables.fresh (1, 0x100)) 0x100 latePmtPacket
      (tsaDecodePacketPure latePmtPacket ⟨0, false, false, 0, 0, 0⟩) 0) := by
  intro h
  exact absurd (h 192 (by decide +kernel)) (by decide)

end TsAnalyzer.Psi
