/-
  HLS ingest (`src/tsa_hls_ingest.c`): a poll thread that refreshes the playlist and a download
  thread that fetches its segments, with a bounded ring of tasks between them.

  The threads meet at the mutex only: a run is a list of ACTS, `found` (one `on_segment_found`) and
  `pop`.  `queued_consecutive_iff`: for the playlists of a LIVE STREAM the segments queued are the
  stream's, one after the other, exactly if none overtakes one that the filter or a full queue has
  refused.  Nobody hears of a refusal, and segment 0 is refused always: `last_seq` starts at 0.
-/
import TsAnalyzer.Hls.Parser
import TsAnalyzer.Lib.Fifo

namespace TsAnalyzer.Hls

open Lib Lib.Fifo List

/-! ## Data -/

def maxQueueSize : Nat := 32

structure DownloadTask (D : Type) where
  url : Text
  sequence : Nat
  duration : D
  deriving DecidableEq

/-- `hls_ingest_t`: what the two threads share, and `last_seq`. -/
structure HlsIngest (D : Type) where
  lastSeq : Nat
  /-- `queue`, read at indices below `maxQueueSize`. -/
  queue : Nat → DownloadTask D
  qHead : Nat
  qTail : Nat
  qSize : Nat

/-- One critical section of one of the threads. -/
inductive Act (D : Type) where
  /-- `on_segment_found(ingest, seg)`. -/
  | found (seg : Segment D)
  /-- `hls_downloader` takes a task. -/
  | pop
  deriving DecidableEq

variable {D : Type}

/-- `tsa_hls_ingest_start`: everything is zero. -/
def tsaHlsIngestStart [Zero D] : HlsIngest D :=
  { lastSeq := 0, queue := fun _ => ⟨[], 0, 0⟩, qHead := 0, qTail := 0, qSize := 0 }

/-! ## The acts -/

def Segment.task (seg : Segment D) : DownloadTask D :=
  { url := seg.url, sequence := seg.sequence, duration := seg.duration }

/-- The segment is new, and there is room for it. -/
def HlsIngest.Accepts (s : HlsIngest D) (seg : Segment D) : Prop :=
  s.lastSeq < seg.sequence ∧ s.qSize < maxQueueSize
deriving Decidable

/-- `on_segment_found`, with what it did to the queue; a segment that is not new does not get as far
    as the queue. -/
def onSegmentFound (s : HlsIngest D) (seg : Segment D) :
    HlsIngest D × List (Event (DownloadTask D)) :=
  if s.lastSeq < seg.sequence then
    if s.qSize < maxQueueSize then
      ({ s with
          queue := Function.update s.queue s.qTail seg.task
          qTail := (s.qTail + 1) % maxQueueSize
          qSize := s.qSize + 1
          lastSeq := seg.sequence }, [.pushed seg.task])
    else (s, [.pushFailed seg.task])
  else (s, [])

/-- The downloader takes the task at `q_head`; on an empty queue it waits. -/
def hlsDownloader (s : HlsIngest D) : HlsIngest D × List (Event (DownloadTask D)) :=
  if s.qSize = 0 then (s, [])
  else
    ({ s with qHead := (s.qHead + 1) % maxQueueSize, qSize := s.qSize - 1 },
      [.popped (s.queue s.qHead)])

def actStep (s : HlsIngest D) : Act D → HlsIngest D × List (Event (DownloadTask D))
  | .found seg => onSegmentFound s seg
  | .pop => hlsDownloader s

/-- What a run from the start does to the queue, oldest event first. -/
def history [Zero D] (acts : List (Act D)) : List (Event (DownloadTask D)) :=
  (run actStep tsaHlsIngestStart acts).2

def queued [Zero D] (acts : List (Act D)) : List (DownloadTask D) := pushedOf (history acts)

/-! ## The playlists of a live stream -/

/-- The segments one refresh of `hls_worker` reports to `on_segment_found`. -/
def playlistSegments [Zero D] (atof : Text → D) (url data : Text) : List (Segment D) :=
  match tsaHlsParseM3u8 atof ⟨url.take (maxUrlLen - 1), 0, 0, false⟩ data with
  | some r => r.2
  | none => []

/-- The refreshes after a window `[lo, hi)`: each slides forward, and overlaps the one before. -/
inductive Slides : Nat → Nat → List (List Nat) → Prop
  | nil {lo hi : Nat} : Slides lo hi []
  | cons {lo hi lo' hi' : Nat} {rest : List (List Nat)} : lo ≤ lo' → lo' < hi → hi ≤ hi' →
    Slides lo' hi' rest → Slides lo hi (range' lo' (hi' - lo') :: rest)

/-- The sequence numbers in the playlists of a live stream whose first segment is `first`. -/
def LiveStream (first : Nat) (playlists : List (List Nat)) : Prop :=
  ∃ hi rest, first < hi ∧ playlists = range' first (hi - first) :: rest ∧ Slides first hi rest

/-- Every number is at least `first`, and at most the one after those before it; `top` is the one
    after what has been read already. -/
def Gapless (first : Nat) : Nat → List Nat → Prop
  | _, [] => True
  | top, m :: ms => first ≤ m ∧ m ≤ top ∧ Gapless first (max top (m + 1)) ms

variable {first : Nat}

theorem Gapless.of_prefix {ms ns : List Nat} {top : Nat} (h : Gapless first top ns)
    (hpre : ms <+: ns) : Gapless first top ms := by
  induction ms generalizing ns top with
  | nil => trivial
  | cons m ms ih =>
    obtain ⟨later, rfl⟩ := hpre
    exact ⟨h.1, h.2.1, ih h.2.2 (prefix_append ms later)⟩

theorem gapless_window {ns : List Nat} {len lo top : Nat} (hfirst : first ≤ lo) (hlo : lo ≤ top)
    (h : Gapless first (max top (lo + len)) ns) : Gapless first top (range' lo len ++ ns) := by
  induction len generalizing lo top with
  | zero => rwa [Nat.add_zero, Nat.max_eq_left hlo] at h
  | succ len ih =>
    rw [range'_succ]
    refine ⟨hfirst, hlo, ih (by omega) (by omega) ?_⟩
    have hmax : max (max top (lo + 1)) (lo + 1 + len) = max top (lo + (len + 1)) := by omega
    rwa [hmax]

theorem gapless_slides {lo hi : Nat} {playlists : List (List Nat)}
    (h : Slides lo hi playlists) (hlo : first ≤ lo) : Gapless first hi playlists.flatten := by
  induction h with
  | nil => trivial
  | @cons lo hi lo' hi' rest hle hlap hhi _ ih =>
    refine gapless_window (by omega) (by omega) ?_
    have hmax : max hi (lo' + (hi' - lo')) = hi' := by omega
    rw [hmax]
    exact ih (by omega)

/-- **A live stream has no gaps**: before a segment is reported, all before it have been. -/
theorem LiveStream.gapless {playlists : List (List Nat)}
    (h : LiveStream first playlists) : Gapless first first playlists.flatten := by
  obtain ⟨hi, rest, hlt, rfl, hslides⟩ := h
  refine gapless_window (Nat.le_refl _) (Nat.le_refl _) ?_
  have hmax : max first (first + (hi - first)) = hi := by omega
  rw [hmax]
  exact gapless_slides hslides (Nat.le_refl _)

/-! ## What is queued -/

/-- The segments reported in a run, in order. -/
def foundOf (acts : List (Act D)) : List (Segment D) :=
  acts.filterMap fun
    | .found seg => some seg
    | .pop => none

/-- The number that is next in line. -/
def nextSeq (first : Nat) (events : List (Event (DownloadTask D))) : Nat :=
  first + (pushedOf events).length

/-- The segment with this number has been refused: by the filter, which takes segment 0 for old, or
    by a full queue. -/
def WasRefused (events : List (Event (DownloadTask D))) (m : Nat) : Prop :=
  m = 0 ∨ ∃ task, .pushFailed task ∈ events ∧ task.sequence = m

/-- A segment is queued in the place of one that was refused. -/
def Overtakes (first : Nat) (r : HlsIngest D × List (Event (DownloadTask D))) (act : Act D) :
    Prop :=
  ∃ seg, act = .found seg ∧ r.1.Accepts seg ∧ seg.sequence ≠ nextSeq first r.2 ∧
    WasRefused r.2 (nextSeq first r.2)

/-- The tasks are the stream's segments, one after the other from `first` on. -/
def Consecutive (first : Nat) (tasks : List (DownloadTask D)) : Prop :=
  tasks.map DownloadTask.sequence = range' first tasks.length

/-- Where a run stands in a stream of which everything below `top` has been reported: what is queued
    has no gap yet, and what is reported but not queued was refused. -/
structure Frontier (first top : Nat) (r : HlsIngest D × List (Event (DownloadTask D))) : Prop where
  queued : Consecutive first (pushedOf r.2)
  fresh : pushedOf r.2 = [] → r.1.lastSeq = 0
  last : pushedOf r.2 ≠ [] → r.1.lastSeq + 1 = nextSeq first r.2
  refused : ∀ m, nextSeq first r.2 ≤ m → m < top → WasRefused r.2 m

theorem WasRefused.grow {events : List (Event (DownloadTask D))} {m : Nat} (h : WasRefused events m)
    (new : List (Event (DownloadTask D))) : WasRefused (events ++ new) m := by
  rcases h with h | ⟨task, hmem, hseq⟩
  · exact .inl h
  · exact .inr ⟨task, mem_append_left _ hmem, hseq⟩

theorem consecutive_snoc {task : DownloadTask D} (h : Consecutive first tasks)
    (hnext : task.sequence = first + tasks.length) : Consecutive first (tasks ++ [task]) := by
  unfold Consecutive at h ⊢
  rw [map_append, h, map_singleton, hnext, length_append, length_singleton,
    range'_concat, Nat.one_mul]

/-- What comes after `tasks` in a consecutive list is next in line. -/
theorem Consecutive.next {all : List (DownloadTask D)} {task : DownloadTask D}
    (h : Consecutive first all) (hpre : tasks ++ [task] <+: all) :
    task.sequence = first + tasks.length := by
  obtain ⟨later, rfl⟩ := hpre
  have hat : ((tasks ++ [task] ++ later).map DownloadTask.sequence)[tasks.length]? =
      some task.sequence := by simp
  rw [h, getElem?_range' (by simp), Nat.one_mul] at hat
  exact (Option.some.inj hat).symm

variable {seg : Segment D}

theorem onSegmentFound_accepts (hacc : s.Accepts seg) :
    (onSegmentFound s seg).2 = [.pushed seg.task] ∧
      (onSegmentFound s seg).1.lastSeq = seg.sequence := by
  rw [onSegmentFound, if_pos hacc.1, if_pos hacc.2]
  exact ⟨rfl, rfl⟩

variable {top : Nat} {r : HlsIngest D × List (Event (DownloadTask D))}

theorem Frontier.keep {top' : Nat} (h : Frontier first top r) {new : List (Event (DownloadTask D))}
    (hnew : pushedOf new = []) (hlast : s.lastSeq = r.1.lastSeq)
    (hrefused : ∀ m, nextSeq first r.2 ≤ m → top ≤ m → m < top' → WasRefused (r.2 ++ new) m) :
    Frontier first top' (s, r.2 ++ new) := by
  have hpushed : pushedOf (r.2 ++ new) = pushedOf r.2 := by
    rw [pushedOf_append, hnew, append_nil]
  have hnext : nextSeq first (r.2 ++ new) = nextSeq first r.2 := by rw [nextSeq, hpushed]; rfl
  constructor
  · rw [hpushed]; exact h.queued
  · intro hnil
    rw [hpushed] at hnil
    exact hlast.trans (h.fresh hnil)
  · intro hne
    rw [hpushed] at hne
    rw [hnext, ← h.last hne, hlast]
  · intro m hm htop
    rw [hnext] at hm
    rcases Nat.lt_or_ge m top with hlt | hge
    · exact (h.refused m hm hlt).grow new
    · exact hrefused m hm hge htop

theorem Frontier.pop (h : Frontier first top r) : Frontier first top (record actStep r .pop) := by
  have hshape : pushedOf (hlsDownloader r.1).2 = [] ∧
      (hlsDownloader r.1).1.lastSeq = r.1.lastSeq := by
    unfold hlsDownloader
    split <;> exact ⟨rfl, rfl⟩
  exact h.keep hshape.1 hshape.2 fun m _ hge hlt => absurd hlt (Nat.not_lt_of_le hge)

theorem Frontier.next_le (h : Frontier first top r) {m : Nat} (hfirst : first ≤ m)
    (hnew : r.1.lastSeq < m) : nextSeq first r.2 ≤ m := by
  by_cases hnil : pushedOf r.2 = []
  · rw [nextSeq, hnil]
    exact hfirst
  · have hlast := h.last hnil
    omega

theorem Frontier.found_not (h : Frontier first top r) (htop : seg.sequence ≤ top)
    (hnot : ¬ r.1.Accepts seg) :
    Frontier first (max top (seg.sequence + 1)) (record actStep r (.found seg)) := by
  show Frontier first _ ((onSegmentFound r.1 seg).1, r.2 ++ (onSegmentFound r.1 seg).2)
  unfold onSegmentFound
  by_cases hnew : r.1.lastSeq < seg.sequence
  · have hfull : ¬ r.1.qSize < maxQueueSize := fun hroom => hnot ⟨hnew, hroom⟩
    rw [if_pos hnew, if_neg hfull]
    refine h.keep rfl rfl fun m _ hge hlt => .inr ⟨seg.task, ?_, ?_⟩
    · exact mem_append_right _ (mem_singleton.mpr rfl)
    · show seg.sequence = m
      omega
  · rw [if_neg hnew]
    refine h.keep rfl rfl fun m hm hge hlt => ?_
    by_cases hnil : pushedOf r.2 = []
    · -- nothing queued yet: `last_seq` is 0, and so is the number
      have hzero := h.fresh hnil
      exact .inl (by omega)
    · have hlast := h.last hnil
      omega

theorem Frontier.found_next (h : Frontier first top r) (hacc : r.1.Accepts seg)
    (hnext : seg.sequence = nextSeq first r.2) :
    Frontier first (max top (seg.sequence + 1)) (record actStep r (.found seg)) := by
  obtain ⟨hnew, hlast⟩ := onSegmentFound_accepts hacc
  have hevents : (record actStep r (.found seg)).2 = r.2 ++ [.pushed seg.task] :=
    congrArg (r.2 ++ ·) hnew
  have hpushed : pushedOf (r.2 ++ [.pushed seg.task]) = pushedOf r.2 ++ [seg.task] :=
    pushedOf_append _ _
  have hline : nextSeq first (r.2 ++ [.pushed seg.task]) = nextSeq first r.2 + 1 := by
    rw [nextSeq, hpushed, length_append, length_singleton]
    rfl
  constructor
  · rw [hevents, hpushed]
    exact consecutive_snoc h.queued hnext
  · rw [hevents, hpushed]
    intro hnil
    exact absurd hnil (append_ne_nil_of_right_ne_nil _ (cons_ne_nil _ _))
  · intro _
    rw [hevents, hline, ← hnext, ← hlast]
    rfl
  · rw [hevents, hline]
    intro m hm htop
    exact (h.refused m (by omega) (by omega)).grow _

theorem Frontier.overtakes (h : Frontier first top r) (hfirst : first ≤ seg.sequence)
    (htop : seg.sequence ≤ top) (hacc : r.1.Accepts seg)
    (hnext : seg.sequence ≠ nextSeq first r.2) : Overtakes first r (.found seg) := by
  have hle := h.next_le hfirst hacc.1
  exact ⟨seg, rfl, hacc, hnext, h.refused _ (Nat.le_refl _) (by omega)⟩

/-- **The run**, from any point where nothing is missing yet. -/
theorem Frontier.consecutive_iff (acts : List (Act D)) (top : Nat)
    (r : HlsIngest D × List (Event (DownloadTask D))) (h : Frontier first top r)
    (hgap : Gapless first top ((foundOf acts).map Segment.sequence)) :
    Consecutive first (pushedOf (acts.foldl (record actStep) r).2) ↔
      Along (fun r act => ¬ Overtakes first r act) (record actStep) r acts := by
  induction acts generalizing top r with
  | nil => exact iff_of_true h.queued trivial
  | cons act acts ih =>
    rw [foldl_cons, Along]
    cases act with
    | pop =>
      rw [and_iff_right (show ¬ Overtakes first r .pop by rintro ⟨seg, hact, -⟩; cases hact)]
      exact ih top _ h.pop hgap
    | found seg =>
      obtain ⟨hfirst, htop, hrest⟩ := hgap
      by_cases hacc : r.1.Accepts seg
      · by_cases hnext : seg.sequence = nextSeq first r.2
        · have hnot : ¬ Overtakes first r (.found seg) := by
            rintro ⟨seg', hact, -, hne, -⟩
            cases hact
            exact hne hnext
          rw [and_iff_right hnot]
          exact ih _ _ (h.found_next hacc hnext) hrest
        · -- the segment takes a place in the queue that is another's, and it stays there
          refine iff_of_false ?_ fun hall => hall.1 (h.overtakes hfirst htop hacc hnext)
          intro hcons
          obtain ⟨later, hlater⟩ := record_grows actStep acts (record actStep r (.found seg))
          have hevents : (record actStep r (.found seg)).2 = r.2 ++ [.pushed seg.task] :=
            congrArg (r.2 ++ ·) (onSegmentFound_accepts hacc).1
          rw [← hlater, hevents, pushedOf_append, pushedOf_append] at hcons
          exact hnext (hcons.next (prefix_append _ _))
      · have hnot : ¬ Overtakes first r (.found seg) := by
          rintro ⟨seg', hact, hacc', -⟩
          cases hact
          exact hacc hacc'
        rw [and_iff_right hnot]
        exact ih _ _ (h.found_not htop hacc) hrest

/-- **Every segment once and in order, exactly where it holds**: whatever the playlists of a live
    stream and however the downloads fall between them, the segments queued are the stream's, one
    after the other from its first, iff none of them overtakes one that was refused.  The run may
    stop inside a playlist. -/
theorem queued_consecutive_iff [Zero D] (atof : Text → D) (url : Text) (texts : List Text)
    (first : Nat) (acts : List (Act D))
    (hlive : LiveStream first
      (texts.map fun data => (playlistSegments atof url data).map Segment.sequence))
    (hacts : foundOf acts <+: texts.flatMap (playlistSegments atof url)) :
    Consecutive first (queued acts) ↔
      Along (fun r act => ¬ Overtakes first r act) (record actStep) (tsaHlsIngestStart, [])
        acts := by
  have hstart : Frontier first first ((tsaHlsIngestStart : HlsIngest D), []) :=
    ⟨rfl, fun _ => rfl, fun h => absurd rfl h, fun m hm hlt => absurd hlt (Nat.not_lt_of_le hm)⟩
  have hgap : Gapless first first ((foundOf acts).map Segment.sequence) := by
    refine hlive.gapless.of_prefix ?_
    rw [← flatMap_def, ← map_flatMap]
    exact hacts.map Segment.sequence
  have hrun := Frontier.consecutive_iff acts first _ hstart hgap
  rw [foldl_record, nil_append] at hrun
  exact hrun

/-- A playlist with `n` segments, in the fewest lines. -/
def shortPlaylist (mediaSequence : String) (n : Nat) : Text :=
  ascii "#EXTM3U\n#EXT-X-MEDIA-SEQUENCE:" ++ ascii mediaSequence ++ ascii "\n" ++
    (replicate n (ascii "#EXTINF:4,\na.ts\n")).flatten

/-- The segments of a playlist, with durations read as 0. -/
def shortSegments (mediaSequence : String) (n : Nat) : List (Segment Nat) :=
  playlistSegments (fun _ => 0) (ascii "http://h/live.m3u8") (shortPlaylist mediaSequence n)

/-- Two refreshes, segments 7 to 9 and 8 to 11, with a download between them. -/
def twoRefreshes : List (Act Nat) :=
  (shortSegments "7" 3).map .found ++ .pop :: (shortSegments "8" 4).map .found

theorem twoRefreshes_consecutive :
    LiveStream 7 [(shortSegments "7" 3).map Segment.sequence,
      (shortSegments "8" 4).map Segment.sequence] ∧
    Consecutive 7 (queued twoRefreshes) ∧
      Along (fun r act => ¬ Overtakes 7 r act) (record actStep) (tsaHlsIngestStart, [])
        twoRefreshes := by
  have hfirst : (shortSegments "7" 3).map Segment.sequence = range' 7 (10 - 7) := by
    decide +kernel
  have hsecond : (shortSegments "8" 4).map Segment.sequence = range' 8 (12 - 8) := by
    decide +kernel
  have hlive : LiveStream 7 [(shortSegments "7" 3).map Segment.sequence,
      (shortSegments "8" 4).map Segment.sequence] := by
    rw [hfirst, hsecond]
    exact ⟨10, _, by decide, rfl, .cons (by decide) (by decide) (by decide) .nil⟩
  have hqueued : Consecutive 7 (queued twoRefreshes) := by
    unfold Consecutive
    decide +kernel
  refine ⟨hlive, hqueued, ?_⟩
  exact (queued_consecutive_iff (fun _ => 0) (ascii "http://h/live.m3u8")
    [shortPlaylist "7" 3, shortPlaylist "8" 4] 7 twoRefreshes hlive (by decide +kernel)).1 hqueued

/-- Segment 0 of a stream that starts there is never queued; and where a playlist has 34 segments
    and the downloader takes a task before the last, segment 33 is lost between 32 and 34. -/
theorem refused_segments_lost :
    (LiveStream 0 [(shortSegments "0" 3).map Segment.sequence] ∧
      (queued ((shortSegments "0" 3).map .found)).map DownloadTask.sequence = [1, 2]) ∧
    (LiveStream 1 [(shortSegments "1" 34).map Segment.sequence] ∧
      (queued (((shortSegments "1" 34).take 33).map .found ++
        .pop :: ((shortSegments "1" 34).drop 33).map .found)).map DownloadTask.sequence =
          range' 1 32 ++ [34]) := by
  have hthree : (shortSegments "0" 3).map Segment.sequence = range' 0 (3 - 0) := by
    decide +kernel
  have hmany : (shortSegments "1" 34).map Segment.sequence = range' 1 (35 - 1) := by
    decide +kernel
  refine ⟨⟨⟨3, [], by decide, by rw [hthree], .nil⟩, ?_⟩,
    ⟨⟨35, [], by decide, by rw [hmany], .nil⟩, ?_⟩⟩
  · decide +kernel
  · decide +kernel

end TsAnalyzer.Hls
