/-
  The LEDGER of a PID: everything that happens to its FIFO and to its byte counters, in order.

  Packets are offered, also by the muxer in the middle of a slot, and sent; the FIFO is flushed by a
  re-anchor or cleared by a reset; a DTS is counted.  An event changes the books of a PID by such
  acts and by nothing else (`eventStep_kept`).
-/
import TsAnalyzer.Shaper.Buckets
import TsAnalyzer.Shaper.Queue

namespace TsAnalyzer.Shaper

open Lib List

variable {μ : Type}

/-! ## Books -/

/-- The FIFO of a PID, and the counters that go with it. -/
structure Books where
  type : PidType
  tsFifo : TssFifo
  fifoCapacity : Int
  cc : UInt8
  rxBytesTotal : Int
  fifoAcceptBytes : Int
  dropBytesTotal : Int

def PidState.books (p : PidState) : Books where
  type := p.type
  tsFifo := p.tsFifo
  fifoCapacity := p.fifoCapacity
  cc := p.cc
  rxBytesTotal := p.rxBytesTotal
  fifoAcceptBytes := p.fifoAcceptBytes
  dropBytesTotal := p.dropBytesTotal

/-- What becomes of a packet at `tss_internal_enqueue_packet`. -/
inductive Fate where
  | accepted
  | dropped
  /-- It is written into a full PSI FIFO, in place of `flushed` older bytes. -/
  | rotated (flushed : Nat)
  deriving DecidableEq

inductive Act where
  /-- A packet is handed to `tsshaper_enqueue_ts`. -/
  | offered (pkt : List UInt8) (fate : Fate)
  /-- A payload packet is handed to `write_cb`. -/
  | sent (pkt : List UInt8)
  /-- A re-anchor flushes the FIFO. -/
  | flushed (bytes : Nat)
  /-- `tsshaper_reset_timeline` resets the FIFO. -/
  | cleared (bytes : Nat)
  /-- `tsshaper_enqueue_dts` counts its DTS as 188 bytes received. -/
  | counted
  deriving DecidableEq

def Books.after (b : Books) : Act → Books
  | .offered x .accepted =>
    { b with
      rxBytesTotal := b.rxBytesTotal + tsPacketSize
      fifoAcceptBytes := b.fifoAcceptBytes + tsPacketSize
      tsFifo := b.tsFifo.putBytes x }
  | .offered _ .dropped =>
    { b with
      rxBytesTotal := b.rxBytesTotal + tsPacketSize
      dropBytesTotal := b.dropBytesTotal + tsPacketSize }
  | .offered x (.rotated _) =>
    { b with
      rxBytesTotal := b.rxBytesTotal + tsPacketSize
      dropBytesTotal := b.dropBytesTotal + tsPacketSize
      tsFifo := (rotateLoop (b.tsFifo.drain tsPacketSize)).putBytes x }
  | .sent x => { b with tsFifo := b.tsFifo.drain tsPacketSize, cc := x.getD 3 0 &&& 0x0f }
  | .flushed _ => { b with tsFifo := b.tsFifo.drain b.tsFifo.size }
  | .cleared _ => { b with tsFifo := b.tsFifo.reset }
  | .counted => { b with rxBytesTotal := b.rxBytesTotal + tsPacketSize }

/-- The act fits the books it finds: what is written has a packet's size and, if it is accepted,
    room; what is sent is what a read returns; what is flushed is what there was. -/
def Act.Fits (b : Books) : Act → Prop
  | .offered x .accepted =>
    x.length = tsPacketSize ∧ b.fifoCapacity - b.tsFifo.size ≥ tsPacketSize
  | .offered _ .dropped => True
  | .offered x (.rotated n) => x.length = tsPacketSize ∧
    n = b.tsFifo.size - (rotateLoop (b.tsFifo.drain tsPacketSize)).size
  | .sent x => b.tsFifo.read tsPacketSize = some (x, b.tsFifo.drain tsPacketSize)
  | .flushed n => n = b.tsFifo.size
  | .cleared n => n = b.tsFifo.size
  | .counted => True

/-- The acts lead from the books `b` to the books `d`, each fitting those it finds. -/
def Kept (acts : List Act) (b d : Books) : Prop :=
  Along Act.Fits Books.after b acts ∧ acts.foldl Books.after b = d

theorem Kept.nil (b : Books) : Kept [] b b := ⟨trivial, rfl⟩

theorem Kept.single {a : Act} {b : Books} (h : a.Fits b) : Kept [a] b (b.after a) :=
  ⟨⟨h, trivial⟩, rfl⟩

theorem Kept.append {as as' : List Act} {b d e : Books} (h : Kept as b d) (h' : Kept as' d e) :
    Kept (as ++ as') b e := by
  obtain ⟨hfits, rfl⟩ := h
  obtain ⟨hfits', rfl⟩ := h'
  exact ⟨along_append.mpr ⟨hfits, hfits'⟩, foldl_append⟩

def SameBooks (p q : PidState) : Prop := q.books = p.books

theorem sameBooks_chain : Chain SameBooks := ⟨fun _ => rfl, fun h h' => h'.trans h⟩

theorem sameBooks_walk : WalkStable SameBooks where
  toChain := sameBooks_chain
  pacing _ _ _ := rfl
  deadline _ _ _ := rfl

theorem panicPid_books (p : PidState) : SameBooks p (panicPid p) := by
  unfold panicPid
  split
  · split
    · rfl
    · split <;> rfl
  · rfl

theorem decodePid_books (vStc : Int) (p : PidState) : SameBooks p (decodePid vStc p) := by
  unfold decodePid
  split <;> rfl

theorem measurePid_books (p : PidState) : SameBooks p (measurePid p) := by
  unfold measurePid
  dsimp only
  split
  · split <;> rfl
  · rfl

/-! ## A packet is offered -/

/-- The PID when the packet reaches the FIFO, and whether it is to be dropped. -/
def screenPacket (vStc : Int) (p : PidState) (pkt : Packet) : PidState × Bool :=
  let p := { p with rxBytesTotal := p.rxBytesTotal + tsPacketSize }
  let (p, drop, _) := waitForIdr vStc p (carriesPcr pkt)
  if drop then (p, true) else shed vStc p (carriesPcr pkt) (startsUnit pkt)

/-- What becomes of the packet there. -/
def fateOf (vStc : Int) (p : PidState) (pkt : Packet) : Fate :=
  let a := screenPacket vStc p pkt
  if ¬ a.2 ∧ p.fifoCapacity - p.tsFifo.size ≥ tsPacketSize then .accepted
  else if p.type = .psi ∧ startsUnit pkt then
    .rotated (p.tsFifo.size - (rotateLoop (p.tsFifo.drain tsPacketSize)).size)
  else .dropped

theorem tssInternalEnqueuePacket_eq (vStc : Int) (p : PidState) (pkt : Packet) :
    (tssInternalEnqueuePacket vStc p pkt).1 =
      storePacket (screenPacket vStc p pkt).1 pkt (screenPacket vStc p pkt).2 := rfl

theorem screenPacket_books (vStc : Int) (p : PidState) (pkt : Packet) :
    (screenPacket vStc p pkt).1.books =
      { p.books with rxBytesTotal := p.rxBytesTotal + tsPacketSize } := by
  have hwait : ∀ p : PidState, (waitForIdr vStc p (carriesPcr pkt)).1.books = p.books := by
    intro p
    unfold waitForIdr
    split
    · split
      · rfl
      · split <;> rfl
    · rfl
  have hshed : ∀ p : PidState,
      (shed vStc p (carriesPcr pkt) (startsUnit pkt)).1.books = p.books := by
    intro p
    unfold shed
    split
    · split
      · split <;> rfl
      · rfl
      · rfl
    · rfl
  unfold screenPacket
  dsimp only
  split
  · exact hwait _
  · exact (hshed _).trans (hwait _)

/-- **A packet that is offered** changes the books by its fate. -/
theorem enqueue_kept (vStc : Int) (p : PidState) (pkt : Packet) :
    Kept [.offered (bytesAt pkt 0 tsPacketSize) (fateOf vStc p pkt)] p.books
      (tssInternalEnqueuePacket vStc p pkt).1.books := by
  have hbooks := screenPacket_books vStc p pkt
  rw [tssInternalEnqueuePacket_eq]
  unfold fateOf
  dsimp only
  generalize screenPacket vStc p pkt = a at hbooks ⊢
  obtain ⟨q, drop⟩ := a
  dsimp only at hbooks ⊢
  simp only [PidState.books, Books.mk.injEq] at hbooks
  obtain ⟨htype, hfifo, hcap, hcc, hrx, haccept, hdrop⟩ := hbooks
  have hlen : (bytesAt pkt 0 tsPacketSize).length = tsPacketSize := length_bytesAt ..
  unfold storePacket
  rw [hfifo, hcap, htype]
  split
  · rename_i hroom
    refine ⟨⟨⟨hlen, hroom.2⟩, trivial⟩, ?_⟩
    simp only [PidState.books, foldl, Books.after, hcc, hrx, haccept, hdrop]
    rfl
  · split
    · rename_i hrotates
      refine ⟨⟨⟨hlen, rfl⟩, trivial⟩, ?_⟩
      simp only [PidState.books, foldl, Books.after, hcc, hrx, haccept, hdrop]
      rfl
    · rename_i hstays
      refine ⟨⟨trivial, trivial⟩, ?_⟩
      simp only [PidState.books, foldl, Books.after, hcc, hrx, haccept, hdrop]

/-- The packets of a list that are offered to the PID, handed over one after the other. -/
def offers (i : Nat) : Core μ → List (Nat × Packet) → List Act
  | _, [] => []
  | c, (pidNum, pkt) :: pkts =>
    (if c.layout.pidMap pidNum = some i then
      [.offered (bytesAt pkt 0 tsPacketSize) (fateOf c.clock.vStc (c.pids i) pkt)] else []) ++
      offers i (tsshaperEnqueueTs c pidNum pkt) pkts

variable (si : SiCallback μ) (c : Core μ)

theorem enqueueTs_kept (pidNum : Nat) (pkt : Packet) (i : Nat) :
    Kept (if c.layout.pidMap pidNum = some i then
        [.offered (bytesAt pkt 0 tsPacketSize) (fateOf c.clock.vStc (c.pids i) pkt)] else [])
      (c.pids i).books ((tsshaperEnqueueTs c pidNum pkt).pids i).books := by
  unfold tsshaperEnqueueTs
  cases hmap : c.layout.pidMap pidNum with
  | none =>
    rw [if_neg (by rintro ⟨⟩)]
    exact .nil _
  | some j =>
    show Kept _ _ (updPid c.pids j _ i).books
    unfold updPid
    by_cases hij : i = j
    · rw [if_pos (congrArg some hij.symm), if_pos hij, ← hij]
      exact enqueue_kept ..
    · rw [if_neg fun h => hij (Option.some.inj h).symm, if_neg hij]
      exact .nil _

theorem offers_kept (i : Nat) (pkts : List (Nat × Packet)) : ∀ c : Core μ,
    Kept (offers i c pkts) (c.pids i).books ((enqueueAll c pkts).pids i).books := by
  induction pkts with
  | nil => exact fun c => .nil _
  | cons p pkts ih => exact fun c => (enqueueTs_kept c p.1 p.2 i).append (ih _)

/-! ## A slot -/

/-- The packets handed to `write_cb` between two states. -/
def written (before after : Core μ) : List (List UInt8) :=
  (after.out.drop before.out.length).map (·.pkt)

/-- The core when the muxer is asked for its tables. -/
def tablesCore (c : Core μ) : Core μ :=
  let sent := sentCore c
  (closeSlot (tssRefillTokensFlywheel
    { sent with clock := { sent.clock with physicalStc := nextPhysicalStc c } })).mapPids panicPid

/-- The packets that `si_cb` offers to the PID when the PAT is due. -/
def patOffers (si : SiCallback μ) (i : Nat) (c : Core μ) : List Act :=
  if c.clock.vStc - c.nextPatTs ≥ c.layout.patPeriod then
    let r := si c.muxer true false c.clock.vStc
    offers i { c with muxer := r.1 } r.2
  else []

/-- The packets that `si_cb` offers to the PID when the SDT is due. -/
def sdtOffers (si : SiCallback μ) (i : Nat) (c : Core μ) : List Act :=
  if c.clock.vStc - c.nextSdtTs ≥ c.layout.sdtPeriod then
    let r := si c.muxer false true c.clock.vStc
    offers i { c with muxer := r.1 } r.2
  else []

/-- What a slot does to the PID: it may send its packet, and the tables may be due. -/
def slotActs (si : SiCallback μ) (c : Core μ) (i : Nat) : List Act :=
  if Due c then
    (if (scheduled c).2 = .payload i then (written c (tssStepInternal si c)).map .sent else []) ++
      (patOffers si i (tablesCore c) ++ sdtOffers si i (retransmitPat si (tablesCore c)))
  else []

theorem scheduled_books (k : Nat) : ((scheduled c).1.pids k).books = (c.pids k).books :=
  scheduled_across sameBooks_walk (fun _ _ => rfl) c k

theorem considerPid_hasPacket (w : (Nat → PidState) × Best) (i : Nat) :
    (considerPid c w i).2.pid = w.2.pid ∨
      ((considerPid c w i).2.pid = some i ∧ hasPacket (considerPid c w i).1 = true) := by
  have hfifo : (considerPid c w i).1.tsFifo = (w.1 i).tsFifo :=
    congrArg Books.tsFifo (considerPid_stable sameBooks_walk c w i)
  rcases considerPid_pick c w i with hsame | ⟨hpick, -⟩
  · exact .inl hsame
  · by_cases hpacket : hasPacket (w.1 i) = true
    · refine .inr ⟨hpick, ?_⟩
      unfold hasPacket at hpacket ⊢
      rwa [hfifo]
    · refine .inl ?_
      unfold considerPid
      rw [if_pos hpacket]

/-- **Every payload packet is chosen from a FIFO that holds one.** -/
theorem payload_hasPacket {c : Core μ} {i : Nat} (h : (scheduled c).2 = .payload i) :
    hasPacket ((scheduled c).1.pids i) = true := by
  have hkeep : ∀ {p q : PidState}, hasPacket p = true → SameBooks p q → hasPacket q = true := by
    intro p q hp hpq
    have hfifo : q.tsFifo = p.tsFifo := congrArg Books.tsFifo hpq
    unfold hasPacket at hp ⊢
    rwa [hfifo]
  rcases chooseAction_payload h with hes | htable | hfallback
  · exact pick_of sameBooks_walk hkeep (considerPid_hasPacket _) hes
  · have hfound := find?_some htable
    exact hfound
  · have hfound := find?_some hfallback
    dsimp only at hfound
    exact (of_decide_eq_true hfound).2.1

theorem TssFifo.read_eq {f : TssFifo} {n : Nat} (h : n ≤ f.size) :
    f.read n = some (f.copyOut f.head n, f.drain n) := by
  have hmin : min n f.size = n := Nat.min_eq_left h
  unfold TssFifo.read TssFifo.drain
  rw [if_neg (Nat.not_lt.mpr h), hmin]

theorem takePacket_eq {p : PidState} (h : hasPacket p = true) :
    takePacket p = (p.tsFifo.copyOut p.tsFifo.head tsPacketSize,
      { p with
        tsFifo := p.tsFifo.drain tsPacketSize
        cc := (p.tsFifo.copyOut p.tsFifo.head tsPacketSize).getD 3 0 &&& 0x0f }) := by
  unfold takePacket
  rw [TssFifo.read_eq (of_decide_eq_true h)]

theorem slot_out {c : Core μ} (h : Due c) : (tssStepInternal si c).out = (sentCore c).out := by
  rw [tssStepInternal_due si h]
  exact (postEmission_beside si _ _).out

theorem written_payload {c : Core μ} {i : Nat} (hdue : Due c) (h : (scheduled c).2 = .payload i) :
    written c (tssStepInternal si c) = [(takePacket ((scheduled c).1.pids i)).1] := by
  have hsent : (sentCore c).out = c.out ++
      [⟨(scheduled c).1.clock.packetCount, (takePacket ((scheduled c).1.pids i)).1, none⟩] := by
    unfold sentCore
    rw [h]
    rfl
  unfold written
  rw [slot_out si hdue, hsent, drop_left]
  rfl

theorem sentCore_kept {c : Core μ} (hdue : Due c) (k : Nat) :
    Kept (if (scheduled c).2 = .payload k then (written c (tssStepInternal si c)).map .sent else [])
      (c.pids k).books ((sentCore c).pids k).books := by
  have hchain := sameBooks_chain
  have hbooks := scheduled_books c k
  by_cases hpayload : (scheduled c).2 = .payload k
  · have hpacket := payload_hasPacket hpayload
    have htake := takePacket_eq hpacket
    rw [if_pos hpayload, written_payload si hdue hpayload, ← hbooks]
    unfold sentCore
    rw [hpayload]
    generalize (scheduled c).1 = d at hpacket htake ⊢
    have hburst : ((emit d (.payload k)).pids k).books = _ :=
      countBurst_across hchain (fun _ _ => rfl) d _ k k
    rw [hburst]
    unfold updPid
    rw [if_pos rfl, htake]
    exact .single (TssFifo.read_eq (of_decide_eq_true hpacket))
  · rw [if_neg hpayload, ← hbooks]
    have hsame : SameBooks ((scheduled c).1.pids k) ((sentCore c).pids k) := by
      unfold sentCore
      generalize (scheduled c).1 = d, (scheduled c).2 = a at hpayload ⊢
      cases a with
      | null =>
        show ((emitNull d).pids k).books = _
        unfold emitNull
        split <;> rfl
      | pcrOnly g =>
        exact (pcrWindow_across hchain (fun _ _ _ _ => rfl) d g _).trans hchain
          (updPid_across hchain _ _ chargePid (show SameBooks _ (chargePid _) from rfl)) k
      | payload i =>
        refine hchain.trans ?_ (countBurst_across hchain (fun _ _ => rfl) d _ i k)
        have hne : k ≠ i := fun h => hpayload (congrArg Action.payload h.symm)
        unfold updPid
        rw [if_neg hne]
        exact hchain.refl _
    rw [show ((sentCore c).pids k).books = _ from hsame]
    exact .nil _

theorem tablesCore_books (k : Nat) :
    ((tablesCore c).pids k).books = ((sentCore c).pids k).books := by
  have hchain := sameBooks_chain
  have hrefill := tssRefillTokensFlywheel_across hchain (fun _ _ => rfl)
    { sentCore c with clock := { (sentCore c).clock with physicalStc := nextPhysicalStc c } }
  exact hrefill.trans hchain (mapPids_across hchain _ _ panicPid_books) k

theorem retransmitPat_kept (i : Nat) :
    Kept (patOffers si i c) (c.pids i).books ((retransmitPat si c).pids i).books := by
  unfold patOffers retransmitPat
  split
  · exact offers_kept i _ { c with muxer := (si c.muxer true false c.clock.vStc).1 }
  · exact .nil _

theorem retransmitSdt_kept (i : Nat) :
    Kept (sdtOffers si i c) (c.pids i).books ((retransmitSdt si c).pids i).books := by
  unfold sdtOffers retransmitSdt
  split
  · exact offers_kept i _ { c with muxer := (si c.muxer false true c.clock.vStc).1 }
  · exact .nil _

/-- **A slot** keeps the books. -/
theorem slot_kept (i : Nat) :
    Kept (slotActs si c i) (c.pids i).books ((tssStepInternal si c).pids i).books := by
  have hchain := sameBooks_chain
  unfold slotActs
  split
  · rename_i hdue
    have hsent := sentCore_kept si hdue i
    have hpat := retransmitPat_kept si (tablesCore c) i
    have hsdt := retransmitSdt_kept si (retransmitPat si (tablesCore c)) i
    rw [tablesCore_books] at hpat
    refine hsent.append (hpat.append ?_)
    -- decoding and metrology leave the books alone
    have hrest : ∀ d : Core μ,
        ((tssAccountMetrology (d.mapPids (decodePid d.clock.vStc))).pids i).books =
          (d.pids i).books := fun d =>
      (mapPids_across hchain _ _ (decodePid_books _)).trans hchain
        (tssAccountMetrology_across hchain measurePid_books _) i
    rw [tssStepInternal_due si hdue]
    rw [show ((postEmission si (sentCore c) (nextPhysicalStc c)).pids i).books = _ from
      hrest (retransmitSdt si (retransmitPat si (tablesCore c)))]
    exact hsdt
  · rename_i hnotDue
    rw [tssStepInternal_notDue si hnotDue]
    exact .nil _

/-! ## A DTS -/

/-- The call anchors the timeline anew, on running clocks. -/
def ReanchorsAt (s : Tsshaper μ) (pidNum : Nat) (dts : Int) (isKey : Bool) (j : Nat) : Prop :=
  AnchorsAt s pidNum dts isKey j ∧ s.core.clock.vStc ≠ noptsValue
deriving Decidable

/-- The call finds an anchored, valid timeline. -/
def AcceptsAt (s : Tsshaper μ) (pidNum : Nat) (dts : Int) (isKey : Bool) (j : Nat) : Prop :=
  Arrives s pidNum dts isKey j ∧ anchors (noteFrame s j isKey).1 isKey = false ∧
    (noteFrame s j isKey).1.core.dtsEpochInvalid = false
deriving Decidable

/-- The call gets to the line that counts 188 bytes: it anchors the timeline or is accepted, and
    does not translate it. -/
def CountsDts (s : Tsshaper μ) (pidNum : Nat) (dts : Int) (isKey : Bool) (j : Nat) : Prop :=
  AnchorsAt s pidNum dts isKey j ∨
    (AcceptsAt s pidNum dts isKey j ∧ ¬ TranslatesAt s pidNum dts isKey j)
deriving Decidable

section Dts

variable {s : Tsshaper μ} {pidNum : Nat} {dts : Int} {isKey : Bool} {j : Nat}

instance : Decidable (∃ j, ReanchorsAt s pidNum dts isKey j) :=
  decidable_of_iff _ (arrives_any_iff fun _ h => h.1.1)

end Dts

def dtsActs (s : Tsshaper μ) (pidNum : Nat) (dts : Int) (isKey : Bool) (i : Nat) : List Act :=
  (if ∃ j, ReanchorsAt s pidNum dts isKey j then [.flushed (s.core.pids i).tsFifo.size] else []) ++
    if CountsDts s pidNum dts isKey i then [.counted] else []

theorem noteFrame_books (s : Tsshaper μ) (j : Nat) (isKey : Bool) (k : Nat) :
    ((noteFrame s j isKey).1.core.pids k).books = (s.core.pids k).books :=
  noted_across sameBooks_chain (fun _ _ => rfl) (fun _ => rfl) s j isKey k

theorem arrive_kept (s : Tsshaper μ) (j : Nat) (dts : Int) (k : Nat) :
    Kept (if k = j then [.counted] else []) (s.core.pids k).books
      ((arrive s j dts).core.pids k).books := by
  show Kept _ _ (updPid s.core.pids j _ k).books
  unfold updPid
  split
  · exact .single trivial
  · exact .nil _

theorem resync_books (s : Tsshaper μ) (j : Nat) (dts : Int) (k : Nat) :
    ((resync s j dts).core.pids k).books = (s.core.pids k).books :=
  updPid_across sameBooks_chain s.core.pids j (fun p => { p with needResync := false }) rfl k

theorem tssVoterProcess_books (s : Tsshaper μ) (j : Nat) (dts : Int) (k : Nat) :
    ((tssVoterProcess s j dts).1.core.pids k).books = (s.core.pids k).books := by
  have hchain := sameBooks_chain
  have hvote : ∀ q : PidState × Verdict, q = voterPid s.core.clock.physicalStc (isMaster s.core j)
      (s.core.pids j) (unwrapDelta (dts - s.timeline.lastDtsRaw j)) →
      Across SameBooks s.core.pids (updPid s.core.pids j fun _ => q.1) := by
    rintro q rfl
    refine updPid_across hchain _ j (fun _ => _) ?_
    obtain ⟨average, state, streak, jump, start, offset, heq⟩ :=
      voterPid_fields s.core.clock.physicalStc (isMaster s.core j) (s.core.pids j)
        (unwrapDelta (dts - s.timeline.lastDtsRaw j))
    rw [heq]
    rfl
  cases htrans : (tssVoterProcess s j dts).2 with
  | false =>
    rw [(tssVoterProcess_kept htrans).1]
    exact hvote _ rfl k
  | true =>
    obtain ⟨p, jump, hv, heq⟩ := tssVoterProcess_translated htrans
    rw [heq]
    have hmoved : Across SameBooks (updPid s.core.pids j fun _ => p)
        (translateCore { s.core with pids := updPid s.core.pids j fun _ => p } jump).pids :=
      mapPids_across hchain _ _ fun _ => rfl
    exact hchain.trans (hvote (p, .translate jump) hv.symm k) (hmoved k)

theorem anchorAt_kept (s : Tsshaper μ) (dts : Int) {k : Nat} (hk : k < s.core.layout.nbAllPids) :
    Kept (if s.core.clock.vStc ≠ noptsValue then [.flushed (s.core.pids k).tsFifo.size] else [])
      (s.core.pids k).books ((anchorAt s dts).core.pids k).books := by
  have hrestart : ∀ c : Core μ, ((restartPids c).pids k).books = (c.pids k).books := by
    intro c
    have hacross : Across SameBooks c.pids (restartPids c).pids :=
      mapPids_across sameBooks_chain _ _ fun _ => rfl
    exact hacross k
  show Kept _ _ ((restartPids _).pids k).books
  rw [hrestart]
  by_cases hclock : s.core.clock.vStc = noptsValue
  · rw [if_pos hclock, if_neg (not_not.mpr hclock)]
    exact .nil _
  · rw [if_neg hclock, if_pos hclock]
    show Kept _ _ (mapPids _ s.core.pids _ k).books
    unfold mapPids
    rw [if_pos hk]
    exact .single rfl

theorem acceptDts_kept (s : Tsshaper μ) (j : Nat) (dts : Int) (k : Nat) :
    Kept (if k = j ∧ ¬ (¬ Resyncs s j ∧ (tssVoterProcess s j dts).2 = true) then [.counted] else [])
      (s.core.pids k).books ((acceptDts s j dts).core.pids k).books := by
  by_cases hresyncs : Resyncs s j
  · have harrive := arrive_kept (resync s j dts) j dts k
    rw [resync_books] at harrive
    rw [acceptDts_resyncs hresyncs]
    simpa [hresyncs] using harrive
  · have hvotes : acceptDts s j dts = if (tssVoterProcess s j dts).2 = true then
        (tssVoterProcess s j dts).1 else arrive (tssVoterProcess s j dts).1 j dts :=
      if_neg hresyncs
    rw [hvotes]
    by_cases htrans : (tssVoterProcess s j dts).2 = true
    · rw [if_pos htrans, if_neg fun h => h.2 ⟨hresyncs, htrans⟩, tssVoterProcess_books]
      exact .nil _
    · have harrive := arrive_kept (tssVoterProcess s j dts).1 j dts k
      rw [tssVoterProcess_books] at harrive
      rw [if_neg htrans]
      simpa [htrans] using harrive

/-- **A DTS** keeps the books. -/
theorem enqueueDts_kept (s : Tsshaper μ) (pidNum : Nat) (dts : Int) (isKey : Bool) {k : Nat}
    (hk : k < s.core.layout.nbAllPids) :
    Kept (dtsActs s pidNum dts isKey k) (s.core.pids k).books
      ((tsshaperEnqueueDts s pidNum dts isKey).core.pids k).books := by
  unfold dtsActs
  by_cases haccepts : ∃ j, AcceptsAt s pidNum dts isKey j
  · obtain ⟨j, harrives, hanchors, hvalid⟩ := haccepts
    have hnone : ∀ i, ¬ AnchorsAt s pidNum dts isKey i := by
      intro i h
      obtain rfl := h.1.unique harrives
      cases hanchors.symm.trans h.2
    have hcounts : CountsDts s pidNum dts isKey k ↔ k = j ∧ ¬ (¬ Resyncs (noteFrame s j isKey).1 j ∧
        (tssVoterProcess (noteFrame s j isKey).1 j dts).2 = true) := by
      constructor
      · rintro (h | ⟨⟨hk', -⟩, hstays⟩)
        · exact absurd h (hnone k)
        · obtain rfl := hk'.unique harrives
          exact ⟨rfl, fun h => hstays ⟨⟨harrives, hanchors, hvalid, h.1⟩, h.2⟩⟩
      · rintro ⟨rfl, hstays⟩
        exact .inr ⟨⟨harrives, hanchors, hvalid⟩, fun h => hstays ⟨h.1.2.2.2, h.2⟩⟩
    have haccept := acceptDts_kept (noteFrame s j isKey).1 j dts k
    rw [noteFrame_books] at haccept
    have hcalm : ¬ ∃ i, ReanchorsAt s pidNum dts isKey i := by
      rintro ⟨i, h⟩
      exact hnone i h.1
    rw [enqueueDts_accepted harrives hanchors hvalid, if_neg hcalm, nil_append]
    simp only [hcounts]
    exact haccept
  · have heff := enqueueDts_effect s pidNum dts isKey
    generalize tsshaperEnqueueDts s pidNum dts isKey = t at heff ⊢
    have hquiet : (∀ j, ¬ AnchorsAt s pidNum dts isKey j) →
        Kept ((if ∃ j, ReanchorsAt s pidNum dts isKey j then
            [.flushed (s.core.pids k).tsFifo.size] else []) ++
          if CountsDts s pidNum dts isKey k then [.counted] else [])
          (s.core.pids k).books (s.core.pids k).books := by
      intro hnone
      have hcounts : ¬ CountsDts s pidNum dts isKey k := by
        rintro (h | h)
        · exact hnone k h
        · exact haccepts ⟨k, h.1⟩
      have hcalm : ¬ ∃ i, ReanchorsAt s pidNum dts isKey i := by
        rintro ⟨i, h⟩
        exact hnone i h.1
      rw [if_neg hcalm, if_neg hcounts]
      exact .nil _
    cases heff with
    | ignored h => exact hquiet fun j hj => h j hj.1
    | noted i h =>
      rw [noteFrame_books]
      exact hquiet fun j => (h j).1
    | anchored i hi h =>
      have hrunning : (∃ j, ReanchorsAt s pidNum dts isKey j) ↔
          s.core.clock.vStc ≠ noptsValue := by
        constructor
        · rintro ⟨j, hj⟩
          exact hj.2
        · exact fun hclock => ⟨i, h, hclock⟩
      have hcounts : CountsDts s pidNum dts isKey k ↔ k = i := by
        constructor
        · rintro (hk' | hk')
          · exact h.1.unique hk'.1
          · exact absurd ⟨k, hk'.1⟩ haccepts
        · rintro rfl
          exact .inl h
      have hanchor := anchorAt_kept (noteFrame s i isKey).1 dts (k := k)
        (by rw [noteFrame_layout]; exact hk)
      have harrive := arrive_kept (resync (anchorAt (noteFrame s i isKey).1 dts) i dts) i dts k
      have hfifo : ((noteFrame s i isKey).1.core.pids k).tsFifo = (s.core.pids k).tsFifo :=
        congrArg Books.tsFifo (noteFrame_books s i isKey k)
      rw [noteFrame_clock, hfifo, noteFrame_books] at hanchor
      rw [resync_books] at harrive
      simp only [hrunning, hcounts]
      exact hanchor.append harrive
    | taken i h hanchors hvalid hr => exact absurd ⟨i, h, hanchors, hvalid⟩ haccepts
    | voted i h hkeep => exact absurd ⟨i, h.1, h.2.1, h.2.2.1⟩ haccepts
    | translated i h => exact absurd ⟨i, h.1.1, h.1.2.1, h.1.2.2.1⟩ haccepts

/-! ## Events -/

/-- What an event does to the PID. -/
def actsOf (si : SiCallback μ) (i : Nat) (s : Tsshaper μ) : Event → List Act
  | .enqueueDts pidNum dts isKey => dtsActs s pidNum dts isKey i
  | .enqueueTs pidNum pkt => offers i s.core [(pidNum, pkt)]
  | .slot => slotActs si s.core i
  | .resetTimeline => [.cleared (s.core.pids i).tsFifo.size]
  | .enterDrive => []
  | .leaveDrive => []
  | .enterDrain => []

/-- **An event keeps the books.** -/
theorem eventStep_kept (s : Tsshaper μ) (e : Event) {i : Nat} (hi : i < s.core.layout.nbAllPids) :
    Kept (actsOf si i s e) (s.core.pids i).books ((eventStep si s e).core.pids i).books := by
  cases e with
  | enqueueDts pidNum dts isKey => exact enqueueDts_kept s pidNum dts isKey hi
  | enqueueTs pidNum pkt => exact offers_kept i [(pidNum, pkt)] s.core
  | enterDrive =>
    have hsame : Across SameBooks s.core.pids (driveFuse { s.core with inDrive := true }).pids := by
      unfold driveFuse
      dsimp only
      split
      · exact mapPids_across sameBooks_chain _ _ fun _ => rfl
      · exact sameBooks_chain.across _
    show Kept [] _ ((driveFuse { s.core with inDrive := true }).pids i).books
    rw [show ((driveFuse { s.core with inDrive := true }).pids i).books = _ from hsame i]
    exact .nil _
  | slot => exact slot_kept si s.core i
  | leaveDrive | enterDrain => exact .nil _
  | resetTimeline =>
    show Kept _ _ (mapPids _ s.core.pids _ i).books
    unfold mapPids
    rw [if_pos hi]
    exact .single rfl

/-- The shaper, with the ledger of the PID. -/
def ledgerPush (si : SiCallback μ) (i : Nat) (s : Tsshaper μ) (e : Event) :
    Tsshaper μ × List Act := (eventStep si s e, actsOf si i s e)

/-- **A run keeps the books**: they are those it began with, after the acts of its ledger. -/
theorem run_kept {s : Tsshaper μ} {i : Nat} (hi : i < s.core.layout.nbAllPids)
    (events : List Event) :
    Kept (run (ledgerPush si i) s events).2 (s.core.pids i).books
      ((run (ledgerPush si i) s events).1.core.pids i).books := by
  -- the layout keeps the PID in the table
  have hstep : ∀ (t : Tsshaper μ) (b : Books) (e : Event),
      i < t.core.layout.nbAllPids ∧ (t.core.pids i).books = b →
      ∃ d, Kept (ledgerPush si i t e).2 b d ∧
        i < (ledgerPush si i t e).1.core.layout.nbAllPids ∧
        ((ledgerPush si i t e).1.core.pids i).books = d := by
    rintro t b e ⟨hlt, rfl⟩
    refine ⟨_, eventStep_kept si t e hlt, ?_, rfl⟩
    show i < (eventStep si t e).core.layout.nbAllPids
    rw [(eventStep_sameSetUp si t e).layout]
    exact hlt
  obtain ⟨d, hkept, -, hbooks⟩ := run_refines (R := fun b acts d => Kept acts b d) Kept.nil
    Kept.append hstep events s _ ⟨hi, rfl⟩
  rw [hbooks]
  exact hkept

end TsAnalyzer.Shaper
