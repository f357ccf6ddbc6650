/-
  PSI sections (`src/tsa_psi.c`, `mpegts_crc32` in `src/tsa_utils.c`): from a packet to the program
  table.

  1. **Finding the section** (`findSection`) — a section is taken only when it starts AND ends in
     its packet.
  2. **PAT** (`processPat`) — a program that is listed gets its PMT PID; one that is new is appended
     while there is room, and only then its PID is marked as a PMT PID.
  3. **PMT** (`processPmt`) — the first program with the packet's PID gets the ES loop.

  A section is read through a pointer, so it is a function `p : Nat → UInt8`, like a packet.
-/
import TsAnalyzer.Lib.KeyTable
import TsAnalyzer.Packet.Decode

namespace TsAnalyzer.Psi

open Lib Packet

/-! ## The checksum -/

def crcBit (crc : BitVec 32) (bit : Bool) : BitVec 32 :=
  if crc.msb ^^ bit then (crc <<< 1) ^^^ 0x04c11db7 else crc <<< 1

/-- `mpegts_crc32` on the first `l` bytes of `d`. -/
def mpegtsCrc32 (d : Nat → UInt8) (l : Nat) : BitVec 32 :=
  (List.range l).foldl (fun crc i =>
    (List.range 8).foldl (fun crc j => crcBit crc ((d i).toNat.testBit (7 - j))) crc) 0xffffffff

/-- `tsa_crc32_check`: zero for a section that carries its own checksum. -/
def tsaCrc32Check (data : Nat → UInt8) (len : Nat) : BitVec 32 := mpegtsCrc32 data len

/-! ## The tables -/

def maxPrograms : Nat := 16
def maxStreamsPerProg : Nat := 32

structure StreamInfo where
  pid : Nat
  streamType : UInt8
  deriving DecidableEq

/-- `tsa_program_info_t` (its `pcr_pid` is never used). -/
structure ProgramInfo where
  programNumber : Nat
  pmtPid : Nat
  lastPmtNs : Nat
  /-- `streams[0 .. stream_count)`. -/
  streams : List StreamInfo
  deriving DecidableEq

/-- The values of `pid_types`. -/
inductive PidType where
  | unknown
  | video
  | audio
  | data
  deriving DecidableEq

/-- The fields of the handle that the section parser owns. -/
structure Tables where
  seenPat : Bool
  seenPmt : Bool
  lastPatNs : Nat
  /-- `programs[0 .. program_count)`; a program is appended only under a new number. -/
  programs : KeyTable ProgramInfo.programNumber maxPrograms
  pidIsPmt : Nat → Bool
  pidTypes : Nat → PidType
  /-- `live->crc_error.count`. -/
  crcErrorCount : Nat

/-- The `calloc`ed tables of `tsa_create`. -/
def Tables.fresh : Tables where
  seenPat := false
  seenPmt := false
  lastPatNs := 0
  programs := KeyTable.empty _ _
  pidIsPmt _ := false
  pidTypes _ := .unknown
  crcErrorCount := 0

/-! ## PAT -/

/-- A 13-bit PID at `p[i .. i + 2)`. -/
def pidAt (p : Nat → UInt8) (i : Nat) : Nat := (p i &&& 0x1F).toNat <<< 8 ||| (p (i + 1)).toNat

/-- A 12-bit length at `p[i .. i + 2)`. -/
def lengthAt (p : Nat → UInt8) (i : Nat) : Nat := (p i &&& 0x0F).toNat <<< 8 ||| (p (i + 1)).toNat

/-- `sl`: all bytes of the section. -/
def sectionLength (p : Nat → UInt8) : Nat := lengthAt p 1 + 3

/-- The (program number, PMT PID) pairs of the PAT loop, the network PID (number 0) included. -/
def patLoop (p : Nat → UInt8) : List (Nat × Nat) :=
  (List.range ((sectionLength p - 12) / 4)).map fun i =>
    ((p (8 + i * 4)).toNat <<< 8 ||| (p (9 + i * 4)).toNat, pidAt p (10 + i * 4))

/-- One turn of the PAT loop.  A program whose PMT PID changes does not get the new PID marked. -/
def listProgram (t : Tables) (entry : Nat × Nat) : Tables :=
  let (pn, ppid) := entry
  if pn = 0 then t
  else
    match hfind : t.programs.find? pn with
    | some _ =>
      { t with programs :=
          t.programs.update pn (fun q => { q with pmtPid := ppid }) (fun _ => rfl) }
    | none =>
      if hroom : t.programs.rows.length < maxPrograms then
        { t with
          programs := t.programs.add ⟨pn, ppid, 0, []⟩ (KeyTable.find?_eq_none.mp hfind) hroom
          pidIsPmt := Function.update t.pidIsPmt ppid true }
      else t

def processPat (t : Tables) (p : Nat → UInt8) (now : Nat) : Tables :=
  (patLoop p).foldl listProgram { t with seenPat := true, lastPatNs := now }

/-! ## PMT -/

def esLoop (p : Nat → UInt8) (stop offset : Nat) : List StreamInfo :=
  if offset < stop then
    ⟨pidAt p (offset + 1), p offset⟩ :: esLoop p stop (offset + 5 + lengthAt p (offset + 3))
  else []
  termination_by stop - offset
  decreasing_by omega

def pmtStreams (p : Nat → UInt8) : List StreamInfo :=
  esLoop p (sectionLength p - 4) (12 + lengthAt p 10)

/-- `pid_types` of a stream type. -/
def pidTypeOf (type : UInt8) : PidType :=
  if type ∈ [0x1B, 0x10, 0x06] then .video else if type ∈ [0x0F, 0x03, 0x04] then .audio else .data

def processPmt (t : Tables) (pid : Nat) (p : Nat → UInt8) (now : Nat) : Tables :=
  let t := { t with seenPmt := true }
  match t.programs.rows.find? fun q => q.pmtPid = pid with
  | none => t
  | some q =>
    let streams := pmtStreams p
    { t with
      programs := t.programs.update q.programNumber
        (fun q => { q with lastPmtNs := now, streams := streams.take maxStreamsPerProg })
        (fun _ => rfl)
      pidTypes := streams.foldl
        (fun types e => Function.update types e.pid (pidTypeOf e.streamType)) t.pidTypes }

/-! ## The section filter -/

/-- The section that starts in a packet: it needs a payload, a unit start and a pointer, must not
    be stuffing, and must end in the packet. -/
def findSection (pkt : Nat → UInt8) (pusi : Bool) : Option (Nat → UInt8) :=
  let afc := (pkt 3 >>> 4) &&& 0x03
  if afc &&& 0x01 = 0 then none
  else if !pusi then none
  else
    let offset := if afc &&& 0x02 ≠ 0 then 4 + ((pkt 4).toNat + 1) else 4
    if 187 ≤ offset then none
    else
      let offset := offset + ((pkt offset).toNat + 1)
      let p := fun i => pkt (offset + i)
      if 184 ≤ offset then none
      else if p 0 = 0xFF then none
      else if 188 < offset + sectionLength p then none
      else some p

/-- `tsa_section_filter_push`, with `h->current_ns` as `now`. -/
def tsaSectionFilterPush (t : Tables) (pid : Nat) (pkt : Nat → UInt8) (r : DecodeResult)
    (now : Nat) : Tables :=
  match findSection pkt r.pusi with
  | none => t
  | some p =>
    if tsaCrc32Check p (sectionLength p) = 0 then
      if p 0 = 0x00 then processPat t p now
      else if p 0 = 0x02 then processPmt t pid p now
      else t
    else { t with crcErrorCount := (t.crcErrorCount + 1) % 2 ^ 64 }

/-- The packet carries a complete section `p` of a table, with a good checksum. -/
structure Carries (pkt : Nat → UInt8) (tableId : UInt8) (p : Nat → UInt8) : Prop where
  found : findSection pkt (pusiOf pkt) = some p
  crc : tsaCrc32Check p (sectionLength p) = 0
  tableId : p 0 = tableId

/-- The complete section of that table in a packet, if it carries one. -/
def carried (pkt : Nat → UInt8) (tableId : UInt8) : Option (Nat → UInt8) :=
  (findSection pkt (pusiOf pkt)).filter fun p =>
    tsaCrc32Check p (sectionLength p) = 0 ∧ p 0 = tableId

variable {pkt : Nat → UInt8}

theorem carried_eq_some {tableId : UInt8} {p : Nat → UInt8} :
    carried pkt tableId = some p ↔ Carries pkt tableId p := by
  rw [carried, Option.filter_eq_some_iff]
  constructor
  · rintro ⟨hfound, hgood⟩
    obtain ⟨hcrc, htid⟩ := of_decide_eq_true hgood
    exact ⟨hfound, hcrc, htid⟩
  · rintro ⟨hfound, hcrc, htid⟩
    exact ⟨hfound, decide_eq_true ⟨hcrc, htid⟩⟩

theorem carried_eq_none {tableId : UInt8} :
    carried pkt tableId = none ↔ ∀ p, ¬ Carries pkt tableId p := by
  rw [Option.eq_none_iff_forall_ne_some]
  exact forall_congr' fun p => not_congr carried_eq_some

/-- **What the filter does**: a good PAT or PMT is parsed; anything else changes at most the count
    of checksum errors. -/
inductive SectionEffect (t : Tables) (pid : Nat) (pkt : Nat → UInt8) (now : Nat) : Tables → Prop
  | pat (p : Nat → UInt8) (hp : Carries pkt 0x00 p) :
    SectionEffect t pid pkt now (processPat t p now)
  | pmt (p : Nat → UInt8) (hp : Carries pkt 0x02 p) :
    SectionEffect t pid pkt now (processPmt t pid p now)
  | none (crcErrorCount : Nat) (hpat : ∀ p, ¬ Carries pkt 0x00 p)
    (hpmt : ∀ p, ¬ Carries pkt 0x02 p) :
    SectionEffect t pid pkt now { t with crcErrorCount := crcErrorCount }

theorem tsaSectionFilterPush_effect (t : Tables) (pid : Nat) {r : DecodeResult}
    (hr : r.pusi = pusiOf pkt) (now : Nat) :
    SectionEffect t pid pkt now (tsaSectionFilterPush t pid pkt r now) := by
  unfold tsaSectionFilterPush
  rw [hr]
  split
  · rename_i hfind
    exact .none t.crcErrorCount
      (fun p hp => by rw [hp.found] at hfind; cases hfind)
      (fun p hp => by rw [hp.found] at hfind; cases hfind)
  · rename_i p hfind
    have hsame : ∀ {tid q}, Carries pkt tid q → q = p := by
      intro tid q hq
      rw [hq.found] at hfind
      exact Option.some.inj hfind
    split
    · rename_i hcrc
      split
      · rename_i htid
        exact .pat p ⟨hfind, hcrc, htid⟩
      · rename_i hpat
        split
        · rename_i htid
          exact .pmt p ⟨hfind, hcrc, htid⟩
        · rename_i hpmt
          exact .none t.crcErrorCount
            (fun q hq => hpat (hsame hq ▸ hq.tableId)) (fun q hq => hpmt (hsame hq ▸ hq.tableId))
    · rename_i hcrc
      exact .none _ (fun q hq => hcrc (hsame hq ▸ hq.crc)) (fun q hq => hcrc (hsame hq ▸ hq.crc))

theorem Carries.unique {tid tid' : UInt8} {p q : Nat → UInt8}
    (hp : Carries pkt tid p) (hq : Carries pkt tid' q) : p = q ∧ tid = tid' := by
  have hpq : p = q := Option.some.inj (hp.found.symm.trans hq.found)
  exact ⟨hpq, by rw [← hp.tableId, hpq, hq.tableId]⟩

end TsAnalyzer.Psi
