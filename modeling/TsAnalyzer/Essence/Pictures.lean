/-
  How many pictures a PES counts for.

  1. **No counter goes below zero** (`Tally.Sound`) — a P or B is taken back only after it was
     counted for the same PES.
  2. **How much is counted** (`gain`) — an IDR slice takes back what was counted, and stops all
     counting.  An I slice does NEITHER: I slices and others count twice, in either order.
-/
import TsAnalyzer.Essence.Payload

namespace TsAnalyzer.Essence

open Lib Nalu

/-! ## Slices -/

/-- The slices of a PES, as the loop tells them apart. -/
inductive SliceKind where
  | idr
  | i
  | p
  | b
  deriving DecidableEq

/-- The kind of a slice that is not of an IDR picture. -/
def sliceKindOf (info : NaluInfo) : Option SliceKind :=
  if !info.isSlice then none
  else if info.sliceType = 2 then some .i
  else some (if info.sliceType = 1 then .b else .p)

/-- What kind of slice a NAL unit is taken for. -/
def kindOf (info : NaluInfo) : Option SliceKind :=
  match info.naluTypeAbstract with
  | .sps => none
  | .sei => none
  | .idr => some .idr
  | _ => sliceKindOf info

/-- What `info` holds for one buffer after the other. -/
def reports (isH265 : Bool) : NaluInfo → List (List UInt8) → List NaluInfo
  | _, [] => []
  | info, d :: ds =>
    (tsaNaluSniff d isH265).1.getD info ::
      reports isH265 ((tsaNaluSniff d isH265).1.getD info) ds

def slices (env : PesEnv) (info : NaluInfo) (m : Memory) (refs : List PesRef) : List SliceKind :=
  (reports (tsaIsHevc env.streamType) info (sniffed env.streamType m refs)).filterMap kindOf

/-! ## Projection -/

/-- The counters, and what steers them. -/
structure Tally where
  iFrames : Int
  pFrames : Int
  bFrames : Int
  current : FrameType
  counted : Bool
  deriving DecidableEq

def EsState.tally (es : EsState) (counted : Bool) : Tally :=
  ⟨es.video.iFrames, es.video.pFrames, es.video.bFrames, es.currentFrameType, counted⟩

def PesLoop.tally (s : PesLoop) : Tally := s.es.tally s.frameCounted

namespace Tally

def step (t : Tally) : SliceKind → Tally
  | .idr =>
    if t.current = .i then { t with counted := true }
    else
      { iFrames := t.iFrames + 1
        pFrames := if t.current = .p then t.pFrames - 1 else t.pFrames
        bFrames := if t.current = .b then t.bFrames - 1 else t.bFrames
        current := .i
        counted := true }
  | .i => if t.current = .i then t else { t with iFrames := t.iFrames + 1, current := .i }
  | .p =>
    if t.counted then t else { t with pFrames := t.pFrames + 1, current := .p, counted := true }
  | .b =>
    if t.counted then t else { t with bFrames := t.bFrames + 1, current := .b, counted := true }

/-- All pictures. -/
def total (t : Tally) : Int := t.iFrames + t.pFrames + t.bFrames

end Tally

theorem tsaTstdSyncParams_tally (streamType : UInt8) (es : EsState) (counted : Bool) :
    (tsaTstdSyncParams streamType es).tally counted = es.tally counted := by
  rw [tsaTstdSyncParams]
  generalize (if tsaIsH264 streamType then _ else _ : Nat) = kbps
  split <;> rfl

theorem tsaHandleSei_frames (nowUtcMs : Nat) (payload : List UInt8) (v : Video) :
    (tsaHandleSei nowUtcMs payload v).iFrames = v.iFrames ∧
      (tsaHandleSei nowUtcMs payload v).pFrames = v.pFrames ∧
      (tsaHandleSei nowUtcMs payload v).bFrames = v.bFrames := by
  rw [tsaHandleSei]
  split
  · exact ⟨rfl, rfl, rfl⟩
  · split
    · exact ⟨rfl, rfl, rfl⟩
    · split <;> exact ⟨rfl, rfl, rfl⟩

variable (ks : List SliceKind) (env : PesEnv) (info : NaluInfo)

variable {t : Tally} (d : List UInt8) (es : EsState) (counted : Bool)

theorem onSei_tally : (onSei env info d es).tally counted = es.tally counted := by
  obtain ⟨hi, hp, hb⟩ := tsaHandleSei_frames env.nowUtcMs d es.video
  rw [onSei, EsState.tally, EsState.tally]
  split
  · simp only [hi, hp, hb]
  · simp only [hi, hp, hb]

theorem auditSplice_tally : (auditSplice env es).tally counted = es.tally counted := by
  -- without `EsState.tally` in the way only projections are compared
  rw [auditSplice, EsState.tally, EsState.tally]
  split <;> rfl

theorem reclassify_tally : (reclassify es).tally true = (es.tally counted).step .idr := by
  cases hcur : es.currentFrameType <;> simp [reclassify, Tally.step, EsState.tally, hcur]

theorem onIdr_tally : (onIdr env info es).tally true = (es.tally counted).step .idr := by
  rw [onIdr, reclassify_tally _ counted, auditSplice_tally]
  rfl

theorem onISlice_tally : (onISlice es).tally counted = (es.tally counted).step .i := by
  cases hcur : es.currentFrameType <;> simp [onISlice, Tally.step, EsState.tally, hcur]

theorem onOtherSlice_tally :
    (onOtherSlice info es).tally true =
      (es.tally false).step (if info.sliceType = 1 then .b else .p) := by
  rw [onOtherSlice]
  split <;> rfl

theorem Tally.step_counted (h : t.counted = true) (info : NaluInfo) :
    t.step (if info.sliceType = 1 then .b else .p) = t := by
  split
  · exact if_pos h
  · exact if_pos h

theorem onSlice_tally (s : PesLoop) :
    (onSlice info s).tally = (sliceKindOf info).toList.foldl Tally.step s.tally := by
  rw [onSlice, sliceKindOf]
  by_cases hslice : !info.isSlice
  · rw [if_pos hslice, if_pos hslice]
    rfl
  rw [if_neg hslice, if_neg hslice]
  by_cases hintra : info.sliceType = 2
  · rw [if_pos hintra, if_pos hintra]
    exact onISlice_tally s.es s.frameCounted
  rw [if_neg hintra, if_neg hintra]
  cases hcounted : s.frameCounted with
  | false =>
    have htally : s.tally = s.es.tally false := by rw [PesLoop.tally, hcounted]
    rw [htally]
    exact onOtherSlice_tally info s.es
  | true =>
    have htally : s.tally.counted = true := hcounted
    rw [Option.toList_some, List.foldl_cons, List.foldl_nil, Tally.step_counted htally]
    have hsame : s.tally = s.es.tally true := by rw [PesLoop.tally, hcounted]
    rw [hsame]
    rfl

theorem applyNal_tally (info : NaluInfo) (s : PesLoop) :
    (applyNal env d info s).tally = (kindOf info).toList.foldl Tally.step s.tally := by
  rw [applyNal, kindOf]
  cases info.naluTypeAbstract with
  | sps => exact tsaTstdSyncParams_tally _ _ _
  | sei => exact onSei_tally _ _ _ _ _
  | idr => exact onIdr_tally _ _ _ _
  | _ => exact onSlice_tally info s

theorem applyNal_info (info : NaluInfo) (s : PesLoop) : (applyNal env d info s).info = info := by
  have hslice : (onSlice info s).info = info := by
    rw [onSlice]
    split_ifs <;> rfl
  rw [applyNal]
  cases info.naluTypeAbstract with
  | sps | sei | idr => rfl
  | _ => exact hslice

theorem nals_tally (nals : List (List UInt8)) (s : PesLoop) :
    (nals.foldl (onNal env) s).tally =
      ((reports (tsaIsHevc env.streamType) s.info nals).filterMap kindOf).foldl Tally.step
        s.tally := by
  induction nals generalizing s with
  | nil => rfl
  | cons d nals ih =>
    rw [List.foldl_cons, ih, reports, onNal, applyNal_info, applyNal_tally]
    rw [← List.foldl_append]
    congr 1
    rw [List.filterMap_cons]
    cases kindOf ((tsaNaluSniff d (tsaIsHevc env.streamType)).1.getD s.info) <;> rfl

theorem payload_tally (m : Memory) (refs : List PesRef)
    (es : EsState) : ∃ counted, (tsaHandleEsPayload env info m refs es).tally counted =
      (slices env info m refs).foldl Tally.step (es.tally false) :=
  ⟨_, nals_tally env (sniffed env.streamType m refs) ⟨es, false, info⟩⟩

/-! ## No counter below zero -/

/-- The counters are not negative, and what the current picture was counted as is in them. -/
structure Tally.Sound (t : Tally) : Prop where
  i : 0 ≤ t.iFrames
  p : 0 ≤ t.pFrames
  b : 0 ≤ t.bFrames
  counted_p : t.current = .p → 1 ≤ t.pFrames
  counted_b : t.current = .b → 1 ≤ t.bFrames

theorem Tally.Sound.of_i (hcur : t.current = .i) (hi : 0 ≤ t.iFrames) (hp : 0 ≤ t.pFrames)
    (hb : 0 ≤ t.bFrames) : t.Sound := by
  refine ⟨hi, hp, hb, ?_, ?_⟩
  · intro h
    rw [hcur] at h
    cases h
  · intro h
    rw [hcur] at h
    cases h

theorem taken_back {c : Prop} [Decidable c] {n : Int} (hn : 0 ≤ n) (h : c → 1 ≤ n) :
    0 ≤ if c then n - 1 else n := by
  split
  · rename_i hc
    have := h hc
    omega
  · exact hn

theorem Tally.Sound.step (h : t.Sound) (k : SliceKind) : (t.step k).Sound := by
  have hi := h.i
  have hp := h.p
  have hb := h.b
  cases k with
  | idr =>
    rw [Tally.step]
    split
    · exact ⟨h.i, h.p, h.b, h.counted_p, h.counted_b⟩
    · refine Tally.Sound.of_i rfl ?_ (taken_back hp h.counted_p) (taken_back hb h.counted_b)
      show 0 ≤ t.iFrames + 1
      omega
  | i =>
    rw [Tally.step]
    split
    · exact h
    · refine Tally.Sound.of_i rfl ?_ hp hb
      show 0 ≤ t.iFrames + 1
      omega
  | p =>
    rw [Tally.step]
    split
    · exact h
    · have hzero : 0 ≤ t.pFrames + 1 := by omega
      have hone : 1 ≤ t.pFrames + 1 := by omega
      refine ⟨hi, hzero, hb, fun _ => hone, ?_⟩
      intro hcur
      cases hcur
  | b =>
    rw [Tally.step]
    split
    · exact h
    · have hzero : 0 ≤ t.bFrames + 1 := by omega
      have hone : 1 ≤ t.bFrames + 1 := by omega
      refine ⟨hi, hp, hzero, ?_, fun _ => hone⟩
      intro hcur
      cases hcur

theorem Tally.Sound.run (h : t.Sound) (ks : List SliceKind) : (ks.foldl Tally.step t).Sound := by
  induction ks generalizing t with
  | nil => exact h
  | cons k ks ih => exact ih (h.step k)

/-! ## How much is counted -/

/-- What slices add to the total, by the frame type shown and whether the picture is counted. -/
def gain : FrameType → Bool → List SliceKind → Nat
  | _, _, [] => 0
  | current, _, .idr :: ks => (if current = .none then 1 else 0) + gain .i true ks
  | current, counted, .i :: ks => (if current = .i then 0 else 1) + gain .i counted ks
  | current, counted, .p :: ks => if counted then gain current true ks else 1 + gain .p true ks
  | current, counted, .b :: ks => if counted then gain current true ks else 1 + gain .b true ks

theorem total_run (t : Tally) :
    (ks.foldl Tally.step t).total = t.total + gain t.current t.counted ks := by
  induction ks generalizing t with
  | nil => simp [gain]
  | cons k ks ih =>
    rw [List.foldl_cons, ih]
    cases k with
    | idr =>
      rw [Tally.step, gain]
      cases hcur : t.current <;> simp [Tally.total] <;> omega
    | i =>
      rw [Tally.step, gain]
      cases hcur : t.current <;> simp [Tally.total, hcur] <;> omega
    | p | b =>
      rw [Tally.step, gain]
      cases hcounted : t.counted with
      | false =>
        simp [Tally.total]
        omega
      | true => simp [Tally.total, hcounted]

/-- The slices before the first of an IDR picture. -/
def beforeIdr (ks : List SliceKind) : List SliceKind := ks.takeWhile fun k => k ≠ .idr

/-- There are slices, and before the first of an IDR picture only I slices or none. -/
def OnePicture (ks : List SliceKind) : Prop :=
  ks ≠ [] ∧ ((∀ k ∈ beforeIdr ks, k = .i) ∨ .i ∉ beforeIdr ks)

theorem gain_idr : gain .i true ks = 0 := by
  induction ks with
  | nil => rfl
  | cons k ks ih => cases k <;> simp [gain, ih]

theorem gain_i : gain .i false ks = 0 ↔ ∀ k ∈ beforeIdr ks, k = .i := by
  induction ks with
  | nil => simp [gain, beforeIdr]
  | cons k ks ih => cases k <;> simp_all [gain, beforeIdr, gain_idr]

theorem gain_p : gain .p true ks = 0 ↔ .i ∉ beforeIdr ks := by
  induction ks with
  | nil => simp [gain, beforeIdr]
  | cons k ks ih => cases k <;> simp_all [gain, beforeIdr, gain_idr]

theorem gain_b : gain .b true ks = 0 ↔ .i ∉ beforeIdr ks := by
  induction ks with
  | nil => simp [gain, beforeIdr]
  | cons k ks ih => cases k <;> simp_all [gain, beforeIdr, gain_idr]

theorem gain_none : gain .none false ks = 1 ↔ OnePicture ks := by
  cases ks with
  | nil => simp [gain, OnePicture]
  | cons k ks =>
    cases k with
    | idr => simp [gain, gain_idr, OnePicture, beforeIdr]
    | i =>
      have hrest := gain_i ks
      simp [gain, OnePicture, beforeIdr] at hrest ⊢
      exact hrest
    | p =>
      have hrest := gain_p ks
      simp [gain, OnePicture, beforeIdr] at hrest ⊢
      exact hrest
    | b =>
      have hrest := gain_b ks
      simp [gain, OnePicture, beforeIdr] at hrest ⊢
      exact hrest

/-! ## Result -/

def EsState.pictures (es : EsState) : Int :=
  es.video.iFrames + es.video.pFrames + es.video.bFrames

theorem pictures_eq (m : Memory) (refs : List PesRef) (es : EsState) :
    (tsaHandleEsPayload env info m refs es).pictures =
      es.pictures + gain es.currentFrameType false (slices env info m refs) := by
  obtain ⟨counted, htally⟩ := payload_tally env info m refs es
  have htotal := total_run (slices env info m refs) (es.tally false)
  rw [← htally] at htotal
  exact htotal

/-- A PES that a unit start finishes, with what its analysis reads. -/
structure Pes where
  env : PesEnv
  info : NaluInfo
  m : Memory
  refs : List PesRef

/-- `tsa_es_track_push_packet` at a unit start: the PES is analysed, and
    `tsa_es_track_clear_accumulator` clears its frame type. -/
def EsState.finish (es : EsState) (p : Pes) : EsState :=
  { tsaHandleEsPayload p.env p.info p.m p.refs es with currentFrameType := .none }

/-- A track between two PES. -/
structure EsState.Rests (es : EsState) : Prop where
  cleared : es.currentFrameType = .none
  i : 0 ≤ es.video.iFrames
  p : 0 ≤ es.video.pFrames
  b : 0 ≤ es.video.bFrames

theorem EsState.Rests.payload {es : EsState} (h : es.Rests) (env : PesEnv) (info : NaluInfo)
    (m : Memory) (refs : List PesRef) :
    ∃ counted, ((tsaHandleEsPayload env info m refs es).tally counted).Sound := by
  obtain ⟨counted, htally⟩ := payload_tally env info m refs es
  have hcleared := h.cleared
  have hsound : (es.tally false).Sound := by
    refine ⟨h.i, h.p, h.b, ?_, ?_⟩
    · intro hcur
      rw [show es.currentFrameType = .p from hcur] at hcleared
      cases hcleared
    · intro hcur
      rw [show es.currentFrameType = .b from hcur] at hcleared
      cases hcleared
  exact ⟨counted, htally ▸ hsound.run (slices env info m refs)⟩

theorem EsState.Rests.finish {es : EsState} (h : es.Rests) (p : Pes) : (es.finish p).Rests := by
  obtain ⟨counted, hsound⟩ := h.payload p.env p.info p.m p.refs
  exact ⟨rfl, hsound.i, hsound.p, hsound.b⟩

/-- The analysis of a PES begins with the frame type cleared, whatever PES came before. -/
theorem EsState.Rests.run {es : EsState} (h : es.Rests) (before : List Pes) :
    (before.foldl EsState.finish es).Rests := by
  induction before generalizing es with
  | nil => exact h
  | cons p before ih => exact ih (h.finish p)

/-- **One picture per PES**, after any others: no counter goes below zero; and the total grows by one
    exactly when, of the slices before the first one of an IDR picture, either all are I slices or
    none is. -/
theorem one_picture_iff (env : PesEnv) (info : NaluInfo) (m : Memory) (refs : List PesRef)
    (start : EsState) (hstart : start.Rests) (before : List Pes) :
    let es := before.foldl EsState.finish start
    ((tsaHandleEsPayload env info m refs es).pictures = es.pictures + 1 ↔
      OnePicture (slices env info m refs)) ∧
    0 ≤ (tsaHandleEsPayload env info m refs es).video.iFrames ∧
    0 ≤ (tsaHandleEsPayload env info m refs es).video.pFrames ∧
    0 ≤ (tsaHandleEsPayload env info m refs es).video.bFrames := by
  intro es
  have hrests : es.Rests := hstart.run before
  obtain ⟨counted, hafter⟩ := hrests.payload env info m refs
  refine ⟨?_, hafter.i, hafter.p, hafter.b⟩
  rw [← gain_none, ← hrests.cleared, pictures_eq]
  omega

theorem fresh_rests : EsState.fresh.Rests := ⟨rfl, by decide, by decide, by decide⟩

/-- A PES with a P slice. -/
def pPes : Pes :=
  let piece := onePiece [0, 0, 1, 0x41, 0xC0, 0x80]
  ⟨h264Env, .blank false 0, piece.1, piece.2⟩

/-- After it, a P slice that turns out to be of an IDR picture: one picture. -/
theorem one_picture_idr :
    (tsaHandleEsPayload h264Env (.blank false 0)
      (onePiece [0, 0, 1, 0x41, 0xC0, 0x80, 0, 0, 1, 0x65, 0xB0, 0x80]).1
      (onePiece [0, 0, 1, 0x41, 0xC0, 0x80, 0, 0, 1, 0x65, 0xB0, 0x80]).2
      (EsState.fresh.finish pPes)).pictures =
    (EsState.fresh.finish pPes).pictures + 1 := by
  refine (one_picture_iff h264Env _ _ _ .fresh fresh_rests [pPes]).1.mpr ?_
  have hslices : slices h264Env (.blank false 0)
      (onePiece [0, 0, 1, 0x41, 0xC0, 0x80, 0, 0, 1, 0x65, 0xB0, 0x80]).1
      (onePiece [0, 0, 1, 0x41, 0xC0, 0x80, 0, 0, 1, 0x65, 0xB0, 0x80]).2 = [.p, .idr] := by
    decide +kernel
  rw [hslices]
  exact ⟨by decide, Or.inr (by decide)⟩

/-- A picture of a P slice and an I slice counts as two. -/
theorem mixed_slices_count_twice :
    (tsaHandleEsPayload h264Env (.blank false 0)
      (onePiece [0, 0, 1, 0x41, 0xC0, 0x80, 0, 0, 1, 0x41, 0xB0, 0x80]).1
      (onePiece [0, 0, 1, 0x41, 0xC0, 0x80, 0, 0, 1, 0x41, 0xB0, 0x80]).2 .fresh).pictures =
    EsState.fresh.pictures + 2 := by
  have hslices : slices h264Env (.blank false 0)
      (onePiece [0, 0, 1, 0x41, 0xC0, 0x80, 0, 0, 1, 0x41, 0xB0, 0x80]).1
      (onePiece [0, 0, 1, 0x41, 0xC0, 0x80, 0, 0, 1, 0x41, 0xB0, 0x80]).2 = [.p, .i] := by
    decide +kernel
  rw [pictures_eq, hslices]
  rfl

end TsAnalyzer.Essence
