import Mathlib.Data.List.Basic
import Mathlib.Logic.Function.Iterate

/-!
# The checksum of the firmware's checkpoints

`dq_crc32` and the incremental `extend` of the file transactions are the same reflected CRC-32.
-/

namespace ZoneLite

/-- One bit of the reflected CRC-32. -/
def crcBit (crc : UInt32) : UInt32 := (crc >>> 1) ^^^ (0xedb88320 &&& (0 - (crc &&& 1)))

def crcByte (crc : UInt32) (b : UInt8) : UInt32 := crcBit^[8] (crc ^^^ b.toUInt32)

/-- `dq_crc32`. -/
def dqCrc32 (data : List UInt8) : UInt32 := ~~~(data.foldl crcByte (~~~0))

/-- `extend`: continue a checksum over more bytes. -/
def extend (crc : UInt32) (data : List UInt8) : UInt32 := ~~~(data.foldl crcByte (~~~crc))

lemma extend_zero (data : List UInt8) : extend 0 data = dqCrc32 data := rfl

lemma extend_append (crc : UInt32) (a b : List UInt8) :
    extend (extend crc a) b = extend crc (a ++ b) := by
  simp [extend, List.foldl_append]

example : dqCrc32 [49, 50, 51, 52, 53, 54, 55, 56, 57] = 0xcbf43926 := by decide +kernel

end ZoneLite
