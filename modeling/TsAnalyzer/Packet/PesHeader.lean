/-
  The time stamps of a PES header, written and read back.

  1. **Specification** — `stamp`: 33 bits spread over five bytes, with a prefix and three marker
     bits in between that carry nothing.
  2. **Program** — `timestamp` masks, shifts and joins; the pieces do not overlap, so the joins are
     sums (`timestamp_stamp`).
-/
import TsAnalyzer.Lib.Bits
import TsAnalyzer.Packet.Decode

namespace TsAnalyzer.Packet

open Lib

/-- The 33 bits of `t` as ISO/IEC 13818-1 codes them, with any prefix and any marker bits. -/
def stamp (pre : Fin 16) (m₁ m₂ m₃ : Bool) (t : Nat) : List UInt8 :=
  [.ofNat (pre * 16 + t / 2 ^ 30 % 8 * 2 + m₁.toNat), .ofNat (t / 2 ^ 22),
    .ofNat (t / 2 ^ 15 % 128 * 2 + m₂.toNat), .ofNat (t / 2 ^ 7), .ofNat (t % 128 * 2 + m₃.toNat)]

/-- `t` is coded in the five bytes from `p[i]` on. -/
def Stamped (p : Nat → UInt8) (i t : Nat) : Prop :=
  t < 2 ^ 33 ∧ ∃ pre m₁ m₂ m₃, ∀ k < 5, p (i + k) = (stamp pre m₁ m₂ m₃ t).getD k 0

/-- The first bytes of a PES with an optional header: start code and stream id. -/
def OpensPes (p : Nat → UInt8) : Prop := p 0 = 0 ∧ p 1 = 0 ∧ p 2 = 1 ∧ p 3 ∉ plainStreamIds

theorem and_pieces : ∀ b < 256, b &&& 0x0E = b / 2 % 8 * 2 ∧ b &&& 0xFE = b / 2 * 2 := by
  decide +kernel

/-- `timestamp` in terms of bytes as numbers. -/
theorem timestamp_eq (p : Nat → UInt8) (i : Nat) :
    timestamp p i = (p i).toNat / 2 % 8 * 2 ^ 30 + (p (i + 1)).toNat * 2 ^ 22 +
      (p (i + 2)).toNat / 2 * 2 ^ 15 + (p (i + 3)).toNat * 2 ^ 7 + (p (i + 4)).toNat / 2 := by
  have hlt : ∀ k, (p (i + k)).toNat < 256 := fun k => UInt8.toNat_lt _
  have h1 := hlt 1; have h2 := hlt 2; have h3 := hlt 3; have h4 := hlt 4
  rw [timestamp, UInt8.toNat_and, UInt8.toNat_and, Nat.shiftRight_eq_div_pow]
  rw [show (0x0E : UInt8).toNat = 0x0E from rfl, show (0xFE : UInt8).toNat = 0xFE from rfl]
  rw [(and_pieces _ (p i).toNat_lt).1, (and_pieces _ h2).2]
  -- a piece that starts with a zero bit, shifted by one more
  have hdouble : ∀ a n, (a * 2) <<< n = a <<< (n + 1) := by
    intro a n
    rw [Nat.shiftLeft_eq, Nat.shiftLeft_eq, Nat.mul_assoc, Nat.pow_succ']
  rw [hdouble, hdouble, Nat.lor_assoc, Nat.lor_assoc, Nat.lor_assoc]
  rw [join_eq_add (n := 7) (by omega), join_eq_add (n := 14 + 1) (by omega),
    join_eq_add (n := 22) (by omega), join_eq_add (n := 29 + 1) (by omega)]
  omega

theorem timestamp_stamp {p : Nat → UInt8} {i t : Nat} (h : Stamped p i t) : timestamp p i = t := by
  obtain ⟨ht, pre, m₁, m₂, m₃, hp⟩ := h
  have hpre := pre.isLt
  have hm := m₁.toNat_le; have hm' := m₂.toNat_le; have hm'' := m₃.toNat_le
  rw [timestamp_eq, ← i.add_zero, hp 0 (by decide), hp 1 (by decide), hp 2 (by decide),
    hp 3 (by decide), hp 4 (by decide)]
  simp only [stamp, List.getD_cons_zero, List.getD_cons_succ, UInt8.toNat_ofNat']
  omega

/-- **The time stamps of a PES header are recovered**: both where both are coded, and the PTS as
    both where it is the only one, whatever the other bits are and whatever `h` held. -/
theorem pes_timestamps_recovered (p : Nat → UInt8) (len : Nat) (h : PesHeader) (pts dts : Nat)
    (hopens : OpensPes p) (hflag : p 7 &&& 0x80 ≠ 0) (hpts : Stamped p 9 pts) :
    (p 7 &&& 0x40 ≠ 0 → Stamped p 14 dts → 19 ≤ len →
      ∃ r, tsaParsePesHeader p len h = some r ∧ r.hasPts ∧ r.hasDts ∧ r.pts = pts ∧ r.dts = dts) ∧
    (p 7 &&& 0x40 = 0 → 14 ≤ len →
      ∃ r, tsaParsePesHeader p len h = some r ∧ r.hasPts ∧ ¬ r.hasDts ∧ r.pts = pts ∧
        r.dts = pts) := by
  obtain ⟨h0, h1, h2, hid⟩ := hopens
  have hparse : 14 ≤ len → tsaParsePesHeader p len h = some
      ⟨p 3, true, decide (p 7 &&& 0x40 ≠ 0), pts,
        if p 7 &&& 0x40 ≠ 0 ∧ 19 ≤ len then timestamp p 14 else pts, 9 + (p 8).toNat⟩ := by
    intro hlen
    rw [tsaParsePesHeader, if_neg (by simp [h0, h1, h2]; omega), if_neg hid, if_neg (by omega)]
    rw [if_pos ⟨hflag, hlen⟩, timestamp_stamp hpts, decide_eq_true hflag]
  refine ⟨fun hboth hdts hlen => ?_, fun honly hlen => ?_⟩
  · refine ⟨_, hparse (by omega), rfl, decide_eq_true hboth, rfl, ?_⟩
    exact (if_pos ⟨hboth, hlen⟩).trans (timestamp_stamp hdts)
  · refine ⟨_, hparse hlen, rfl, by simpa using honly, rfl, ?_⟩
    exact if_neg fun hboth => hboth.1 honly

/-- A header with a PTS of 2^33 - 1 and a DTS of 1. -/
def twoStamps (i : Nat) : UInt8 :=
  ([0, 0, 1, 0xE0, 0, 0, 0x80, 0xC0, 10] ++ stamp 3 true true true (2 ^ 33 - 1) ++
    stamp 1 true true true 1).getD i 0

theorem twoStamps_recovered : ∃ r, tsaParsePesHeader twoStamps 19 ⟨0, false, false, 0, 0, 0⟩ =
    some r ∧ r.hasPts ∧ r.hasDts ∧ r.pts = 2 ^ 33 - 1 ∧ r.dts = 1 :=
  (pes_timestamps_recovered twoStamps 19 _ _ _ ⟨rfl, rfl, rfl, by decide⟩ (by decide)
    ⟨by decide, 3, true, true, true, by decide⟩).1 (by decide)
    ⟨by decide, 1, true, true, true, by decide⟩ (by decide)

end TsAnalyzer.Packet
