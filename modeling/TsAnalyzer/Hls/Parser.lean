/-
  The playlist parser (`src/tsa_hls_parser.c`).

  Where `tsa_hls_parse_m3u8` goes next does not depend on what it found, so the walk is a list of
  positions (`lineStarts`; a position is the text from there on) and the parser a run of `scanLine`.

  * A tag is compared by `strncmp` without a delimiter: `#EXT-X-DISCONTINUITY-SEQUENCE:5` is a
    discontinuity too.
  * `atoll` skips white space INCLUDING line ends, and saturates; `atof` is a parameter.
  * URLs are cut to their buffers, `MAX_URL_LEN - 1` characters.
-/
import TsAnalyzer.Lib.Run
import TsAnalyzer.Lib.Text

namespace TsAnalyzer.Hls

open Lib

/-! ## Text -/

def maxUrlLen : Nat := 2048

def isLineEnd (c : UInt8) : Bool := c = 10 ∨ c = 13

def isBlank (c : UInt8) : Bool := c = 32 ∨ c = 9 ∨ c = 13 ∨ c = 10

/-- `find_line_end`: the text from the end of the line on. -/
def findLineEnd (s : Text) : Text := s.dropWhile fun c => !isLineEnd c

def skipWhitespace (s : Text) : Text := s.dropWhile isBlank

/-- `strrchr(s, '/') - s`. -/
def lastSlash (s : Text) : Option Nat := (s.reverse.idxOf? 47).map fun i => s.length - 1 - i

/-- `base_len` of `tsa_hls_resolve_url`, given the last slash of `base`: a relative URL that starts
    with a slash replaces everything behind the domain. -/
def baseLen (base rel : Text) (slash : Nat) : Nat :=
  if rel.head? = some 47 then
    match strstr base (ascii "://") with
    | some p =>
      match (base.drop (p + 3)).idxOf? 47 with
      | some i => p + 3 + i
      | none => slash + 1
    | none => slash + 1
  else slash + 1

/-- `tsa_hls_resolve_url` into a buffer of `MAX_URL_LEN`. -/
def tsaHlsResolveUrl (base rel : Text) : Text :=
  if (ascii "http").isPrefixOf rel then rel.take (maxUrlLen - 1)
  else
    match lastSlash base with
    | none => rel.take (maxUrlLen - 1)
    | some slash => (base.take (baseLen base rel slash) ++ rel).take (maxUrlLen - 1)

/-! ## The walk over the lines -/

/-- The line starts of a text, each as the text from there on; one round takes a character at least,
    so its length is enough fuel. -/
def lineStarts : Nat → Text → List Text
  | 0, _ => []
  | fuel + 1, p =>
    match skipWhitespace p with
    | [] => []
    | c :: cs => (c :: cs) :: lineStarts fuel (findLineEnd (c :: cs))

theorem findLineEnd_lt {p : Text} {c : UInt8} {cs : Text} (h : skipWhitespace p = c :: cs) :
    (findLineEnd (c :: cs)).length < p.length := by
  have hblank : isBlank c = false := by
    have hhead := List.head?_dropWhile_not isBlank p
    rw [show p.dropWhile isBlank = c :: cs from h] at hhead
    exact hhead
  have hend : isLineEnd c = false := by
    simp only [isBlank, isLineEnd, decide_eq_false_iff_not, not_or] at hblank ⊢
    exact ⟨hblank.2.2.2, hblank.2.2.1⟩
  have hdrop : findLineEnd (c :: cs) = findLineEnd cs := by
    rw [findLineEnd, List.dropWhile_cons_of_pos (by rw [hend]; rfl)]
    rfl
  have hcs : (findLineEnd cs).length ≤ cs.length := (List.dropWhile_suffix _).length_le
  have hp : (c :: cs).length ≤ p.length := by
    rw [← h]
    exact (List.dropWhile_suffix _).length_le
  rw [List.length_cons] at hp
  rw [hdrop]
  omega

theorem lineStarts_fuel (fuel : Nat) (p : Text) (hp : p.length ≤ fuel) :
    lineStarts fuel p = lineStarts p.length p := by
  induction fuel using Nat.strongRecOn generalizing p with
  | ind fuel ih =>
    cases hs : skipWhitespace p with
    | nil => cases fuel <;> cases hlen : p.length <;> simp [lineStarts, hs]
    | cons c cs =>
      have hlt := findLineEnd_lt hs
      obtain ⟨f, rfl⟩ : ∃ f, fuel = f + 1 := ⟨fuel - 1, by omega⟩
      obtain ⟨n, hn⟩ : ∃ n, p.length = n + 1 := ⟨p.length - 1, by omega⟩
      rw [hn]
      simp only [lineStarts, hs]
      rw [ih f (Nat.lt_succ_self f) _ (by omega)]
      rcases Nat.lt_or_ge n (f + 1) with hlt' | hge
      · rw [ih n hlt' _ (by omega)]
      · omega

/-! ## Lines -/

/-- `tsa_hls_segment_t`. -/
structure Segment (D : Type) where
  url : Text
  duration : D
  sequence : Nat
  discontinuity : Bool
  deriving DecidableEq

/-- `tsa_hls_context_t` (its version is never set, its callback is the list of segments). -/
structure HlsContext where
  masterUrl : Text
  targetDuration : Nat
  mediaSequence : Nat
  isLivePlaylist : Bool
  deriving DecidableEq

/-- The context and the local variables of `tsa_hls_parse_m3u8`. -/
structure Scan (D : Type) where
  ctx : HlsContext
  currentDuration : D
  currentSeq : Nat
  isDiscontinuity : Bool
  deriving DecidableEq

def mediaSequenceTag : Text := ascii "#EXT-X-MEDIA-SEQUENCE:"

/-- `rel_url`: the line, cut at a NUL and to its buffer. -/
def relUrl (p : Text) : Text :=
  ((p.takeWhile fun c => !isLineEnd c).takeWhile (· ≠ 0)).take (maxUrlLen - 1)

section

variable {D : Type} (atof : Text → D)

/-- The line that starts at `p`, with the segment it reports. -/
def scanLine (s : Scan D) (p : Text) : Scan D × List (Segment D) :=
  if (ascii "#EXTINF:").isPrefixOf p then ({ s with currentDuration := atof (p.drop 8) }, [])
  else if (ascii "#EXT-X-TARGETDURATION:").isPrefixOf p then
    ({ s with ctx := { s.ctx with targetDuration := atoull (p.drop 22) } }, [])
  else if mediaSequenceTag.isPrefixOf p then
    let seq := atoull (p.drop 22)
    ({ s with ctx := { s.ctx with mediaSequence := seq }, currentSeq := seq }, [])
  else if (ascii "#EXT-X-DISCONTINUITY").isPrefixOf p then ({ s with isDiscontinuity := true }, [])
  else if (ascii "#EXT-X-ENDLIST").isPrefixOf p then
    ({ s with ctx := { s.ctx with isLivePlaylist := false } }, [])
  else if p.head? = some 35 then (s, [])
  else
    ({ s with currentSeq := (s.currentSeq + 1) % 2 ^ 64, isDiscontinuity := false },
      [{ url := tsaHlsResolveUrl s.ctx.masterUrl (relUrl p), duration := s.currentDuration
         sequence := s.currentSeq, discontinuity := s.isDiscontinuity }])

/-- `tsa_hls_parse_m3u8`: the context it leaves and the segments it reports; `none` is its `-1`. -/
def tsaHlsParseM3u8 [Zero D] (ctx : HlsContext) (data : Text) :
    Option (HlsContext × List (Segment D)) :=
  if (ascii "#EXTM3U").isPrefixOf data then
    let r := run (scanLine atof) ⟨ctx, 0, 0, false⟩ (lineStarts data.length data)
    some (r.1.ctx, r.2)
  else none

end

end TsAnalyzer.Hls
