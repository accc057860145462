/-!
# Checksums

The two checksums of PNG files: the cyclic redundancy check of a chunk and the running sums of a
compressed stream.

## Main definitions

* `Checksum.crc32`, `Checksum.adler32`.
-/

namespace Darkroom.Checksum

/-- One division step for each of the low `n` bits. -/
def crcSteps : (n : Nat) → UInt32 → UInt32
  | 0, c => c
  | n + 1, c => crcSteps n (if c &&& 1 = 1 then (c >>> 1) ^^^ 0xEDB88320 else c >>> 1)

/-- The cyclic redundancy check of some bytes. -/
def crc32 (data : ByteArray) : UInt32 :=
  (data.foldl (fun c b => crcSteps 8 (c ^^^ b.toUInt32)) 0xFFFFFFFF) ^^^ 0xFFFFFFFF

/-- The two running sums of some bytes, modulo the greatest prime of sixteen bits. -/
def adler32 (data : ByteArray) : Nat :=
  let (a, b) := data.foldl (fun (a, b) x =>
    let a := (a + x.toNat) % 65521
    (a, (b + a) % 65521)) (1, 0)
  b * 65536 + a

end Darkroom.Checksum
