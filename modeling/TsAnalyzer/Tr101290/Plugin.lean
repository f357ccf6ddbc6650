/-
  The TR 101 290 plugin (`src/tsa_engine_tr101290.c`; `cc_classify_error` in `src/tsa_utils.c`).

  For each packet it makes six checks, in this order: transport error, continuity counter, PAT, PMT,
  PCR and PTS repetition.  Each of them ends in a `tsa_alert_update`; the counters of `live` are not
  touched.

  * An update with `has_error = false` does nothing (see `tsaAlertUpdate`); it stands here because
    it stands in the source.
  * The PAT and PMT checks compare the arrival time of the packet with `last_pat_ns` and
    `last_pmt_ns`, which start at zero.
-/
import TsAnalyzer.Alarm.Path
import TsAnalyzer.Psi.Section

namespace TsAnalyzer.Tr101290

open Lib Alarm Packet Psi

def patTimeoutNs : Nat := 500000000
def pmtTimeoutNs : Nat := 500000000
def pcrTimeoutNs : Nat := 40000000
def ptsTimeoutNs : Nat := 700000000

/-! ## Continuity -/

inductive CcStatus where
  | ok
  | duplicate
  | loss
  | outOfOrder
  deriving DecidableEq

/-- `cc_classify_error`: last counter, counter, has the packet a payload, is it adaptation field
    only? -/
def ccClassifyError (l c : Nat) (p a : Bool) : CcStatus :=
  if !p ∨ a then .ok
  else if c = l then .duplicate
  else if c = (l + 1) % 16 then .ok
  else if ((c : Int) - l) % 16 < 8 then .loss else .outOfOrder

/-- The fields of an ES track that belong to the plugin. -/
structure TrTrack where
  /-- `0x10` before the first packet. -/
  lastCc : Nat
  ignoreNextCc : Bool
  lastPcrNs : Nat
  lastSeenVstc : Nat
  deriving DecidableEq

/-- A track as `tsa_create` leaves it. -/
def TrTrack.fresh : TrTrack := ⟨0x10, false, 0, 0⟩

/-- What the counter of a packet is classified as. -/
def TrTrack.ccStatus (t : TrTrack) (pkt : Nat → UInt8) (res : DecodeResult) : CcStatus :=
  ccClassifyError t.lastCc res.cc res.hasPayload (pkt 3 &&& 0x20 ≠ 0 ∧ pkt 3 &&& 0x10 = 0)

/-- The packet is classified as lost or out of order, without `ignore_next_cc` and without
    discontinuity_indicator. -/
def TrTrack.CcError (t : TrTrack) (pkt : Nat → UInt8) (res : DecodeResult) : Prop :=
  t.lastCc ≠ 0x10 ∧ res.hasDiscontinuity = false ∧
    (t.ccStatus pkt res = .loss ∨ t.ccStatus pkt res = .outOfOrder) ∧ t.ignoreNextCc = false
deriving Decidable

/-! ## The checks -/

def checkTransport (a : Alarms) (pkt : Nat → UInt8) (pid : Nat) : Alarms :=
  if pkt 1 &&& 0x80 ≠ 0 then a.update .transport true "TRANSPORT" pid else a

def checkCc (a : Alarms) (t : TrTrack) (pkt : Nat → UInt8) (res : DecodeResult) : Alarms :=
  if t.CcError pkt res then a.update .cc true "CC" res.pid else a

def checkPat (a : Alarms) (lastPatNs now : Nat) : Alarms :=
  if patTimeoutNs < sub64 now lastPatNs then a.update .pat true "PAT_TIMEOUT" 0
  else a.update .pat false "PAT_OK" 0

def checkPmt (now : Nat) (a : Alarms) (q : ProgramInfo) : Alarms :=
  if q.pmtPid = 0 then a
  else if pmtTimeoutNs < sub64 now q.lastPmtNs then a.update .pmt true "PMT_TIMEOUT" q.pmtPid
  else a.update .pmt false "PMT_OK" q.pmtPid

def checkPcr (a : Alarms) (t : TrTrack) (res : DecodeResult) (now : Nat) : Alarms :=
  if res.hasPcr ∧ 0 < t.lastPcrNs then
    if pcrTimeoutNs < sub64 now t.lastPcrNs then a.update .pcr true "PCR_REPETITION" res.pid
    else a.update .pcr false "PCR_OK" res.pid
  else a

def checkPts (a : Alarms) (t : TrTrack) (res : DecodeResult) : Alarms :=
  if res.hasPesHeader ∧ 0 < t.lastSeenVstc then
    if ptsTimeoutNs < sub64 a.stcNs t.lastSeenVstc then a.update .pts true "PTS_TIMEOUT" res.pid
    else a.update .pts false "PTS_OK" res.pid
  else a

/-- `tr_on_ts` on the track of the packet's PID; `now` is `h->current_ns`. -/
def trOnTs (t : TrTrack) (tables : Tables) (a : Alarms) (pkt : Nat → UInt8) (res : DecodeResult)
    (now : Nat) : TrTrack × Alarms :=
  let a := checkTransport a pkt res.pid
  let a := checkCc a t pkt res
  let a := checkPat a tables.lastPatNs now
  let a := tables.programs.rows.foldl (checkPmt now) a
  let a := checkPcr a t res now
  let a := checkPts a t res
  ({ lastCc := res.cc
     ignoreNextCc := false
     lastPcrNs := if res.hasPcr then now else t.lastPcrNs
     lastSeenVstc := if res.hasPesHeader then a.stcNs else t.lastSeenVstc }, a)

/-! ## What the checks may raise -/

/-- From `a` to `a'` only alerts of `ids` are updated, and the clock is left alone. -/
structure Updates (ids : List AlertId) (a a' : Alarms) : Prop where
  path : AlarmPath ids a a'
  stcNs : a'.stcNs = a.stcNs

namespace Updates

variable {ids ids' : List AlertId} {a b c : Alarms}

theorem refl (a : Alarms) : Updates ids a a := ⟨.refl a, rfl⟩

theorem mono (hsub : ids ⊆ ids') (h : Updates ids a b) : Updates ids' a b :=
  ⟨h.path.mono hsub, h.stcNs⟩

theorem trans (hab : Updates ids a b) (hbc : Updates ids b c) : Updates ids a c :=
  ⟨hab.path.trans hbc.path, hbc.stcNs.trans hab.stcNs⟩

theorem single (a : Alarms) (id : AlertId) (hasError : Bool) (name : String) (pid : Nat) :
    Updates [id] a (a.update id hasError name pid) := by
  refine ⟨.single (.update id hasError name pid (List.mem_singleton_self id)), ?_⟩
  cases hasError with
  | false => rfl
  | true => exact (report_keeps a.toAlerts id name pid).2

end Updates

variable (now : Nat) (a : Alarms) (t : TrTrack) (pkt : Nat → UInt8) (res : DecodeResult)
  (tables : Tables)

theorem checkTransport_updates (pid : Nat) : Updates [.transport] a (checkTransport a pkt pid) := by
  unfold checkTransport
  split
  · exact .single a _ _ _ _
  · exact .refl a

theorem checkCc_updates : Updates [.cc] a (checkCc a t pkt res) := by
  unfold checkCc
  split
  · exact .single a _ _ _ _
  · exact .refl a

theorem checkPat_updates (lastPatNs now : Nat) : Updates [.pat] a (checkPat a lastPatNs now) := by
  unfold checkPat
  split
  · exact .single a _ _ _ _
  · exact .single a _ _ _ _

theorem checkPmt_updates (q : ProgramInfo) : Updates [.pmt] a (checkPmt now a q) := by
  unfold checkPmt
  split
  · exact .refl a
  · split
    · exact .single a _ _ _ _
    · exact .single a _ _ _ _

theorem checkPmts_updates (qs : List ProgramInfo) (a : Alarms) :
    Updates [.pmt] a (qs.foldl (checkPmt now) a) := by
  induction qs generalizing a with
  | nil => exact .refl a
  | cons q qs ih => exact (checkPmt_updates now a q).trans (ih _)

theorem checkPcr_updates (now : Nat) : Updates [.pcr] a (checkPcr a t res now) := by
  unfold checkPcr
  split
  · split
    · exact .single a _ _ _ _
    · exact .single a _ _ _ _
  · exact .refl a

theorem checkPts_updates : Updates [.pts] a (checkPts a t res) := by
  unfold checkPts
  split
  · split
    · exact .single a _ _ _ _
    · exact .single a _ _ _ _
  · exact .refl a

def pluginAlerts : List AlertId := [.transport, .cc, .pat, .pmt, .pcr, .pts]

/-- **The plugin**: around the PAT and PMT checks it raises neither of their alerts. -/
theorem trOnTs_path (a : Alarms) (pkt : Nat → UInt8) (res : DecodeResult) (now : Nat) :
    ∃ a1, AlarmPath [.transport, .cc] a a1 ∧ AlarmPath [.pcr, .pts]
      (tables.programs.rows.foldl (checkPmt now) (checkPat a1 tables.lastPatNs now))
      (trOnTs t tables a pkt res now).2 := by
  refine ⟨checkCc (checkTransport a pkt res.pid) t pkt res, ?_, ?_⟩
  · exact ((checkTransport_updates a pkt res.pid).path.mono (by decide)).trans
      ((checkCc_updates _ t pkt res).path.mono (by decide))
  · exact ((checkPcr_updates _ t res now).path.mono (by decide)).trans
      ((checkPts_updates _ t res).path.mono (by decide))

theorem trOnTs_cc (a : Alarms) (pkt : Nat → UInt8) (res : DecodeResult) (now : Nat) :
    ∃ a1, Updates [.transport] a a1 ∧ Updates [.pat, .pmt, .pcr, .pts] (checkCc a1 t pkt res)
      (trOnTs t tables a pkt res now).2 := by
  refine ⟨checkTransport a pkt res.pid, checkTransport_updates a pkt res.pid, ?_⟩
  refine ((checkPat_updates _ tables.lastPatNs now).mono (by decide)).trans ?_
  refine ((checkPmts_updates now tables.programs.rows _).mono (by decide)).trans ?_
  exact ((checkPcr_updates _ t res now).mono (by decide)).trans
    ((checkPts_updates _ t res).mono (by decide))

theorem trOnTs_pts (a : Alarms) (pkt : Nat → UInt8) (res : DecodeResult) (now : Nat) :
    ∃ a1, Updates [.transport, .cc, .pat, .pmt, .pcr] a a1 ∧
      (trOnTs t tables a pkt res now).2 = checkPts a1 t res := by
  refine ⟨_, ?_, rfl⟩
  refine ((checkTransport_updates a pkt res.pid).mono (by decide)).trans ?_
  refine ((checkCc_updates _ t pkt res).mono (by decide)).trans ?_
  refine ((checkPat_updates _ tables.lastPatNs now).mono (by decide)).trans ?_
  exact ((checkPmts_updates now tables.programs.rows _).mono (by decide)).trans
    ((checkPcr_updates _ t res now).mono (by decide))

theorem trOnTs_updates (a : Alarms) (pkt : Nat → UInt8) (res : DecodeResult) (now : Nat) :
    Updates pluginAlerts a (trOnTs t tables a pkt res now).2 := by
  obtain ⟨a1, hfront, hlast⟩ := trOnTs_pts t tables a pkt res now
  rw [hlast]
  exact (hfront.mono (by decide)).trans ((checkPts_updates a1 t res).mono (by decide))

end TsAnalyzer.Tr101290
