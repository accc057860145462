import Darkroom.Codec.Bytes
import Darkroom.Codec.Checksum

/-!
# Compressed streams

Decompression of streams of prefix-coded literals and back references, and the plainest stream that
holds given data: stored blocks.

## Main definitions

* `PrefixCode`, `PrefixCode.next?` : a canonical prefix code, and the symbol at a bit position.
* `Inflate.stream?` : the data of a stream.
* `Inflate.store` : a stream that holds data as they are.
-/

namespace Darkroom

/-- A canonical prefix code: how many codes there are of each length, and the symbols in the order
of their codes. -/
structure PrefixCode where
  counts : Array Nat
  symbols : Array Nat

namespace PrefixCode

/-- The greatest length of a code. -/
def maxLength : Nat := 15

/-- The code in which each symbol has the given length, zero standing for no code. -/
def ofLengths (lengths : List Nat) : PrefixCode where
  counts := ((List.range (maxLength + 1)).map fun n =>
    if n = 0 then 0 else lengths.count n).toArray
  symbols := ((List.range maxLength).flatMap fun n =>
    (lengths.zipIdx.filter fun (len, _) => len == n + 1).map Prod.snd).toArray

/-- Whether no length has more codes than there is room for. -/
def isValid (code : PrefixCode) : Bool :=
  ((List.range maxLength).foldlM (fun (room : Nat) n =>
    let used := code.counts.getD (n + 1) 0
    if used ≤ 2 * room then some (2 * room - used) else none) 1).isSome

end PrefixCode

namespace Inflate

/-- The bit at a position, each byte from its lowest bit on. -/
def bit? (data : ByteArray) (pos : Nat) : Option Nat :=
  if pos < 8 * data.size then some (Bytes.byte data (pos / 8) / Nat.pow 2 (pos % 8) % 2) else none

/-- A number of `count` bits, the lowest first, and the position after it. -/
def bits? (data : ByteArray) (pos : Nat) : (count : Nat) → Option (Nat × Nat)
  | 0 => some (0, pos)
  | count + 1 => do
    let (low, next) ← bits? data pos count
    let b ← bit? data next
    return (low + b * Nat.pow 2 count, next + 1)

/-- The symbol at a position, with `left` lengths still to try. -/
def symbolFrom? (code : PrefixCode) (data : ByteArray) :
    (left : Nat) → (length value first index pos : Nat) → Option (Nat × Nat)
  | 0, _, _, _, _, _ => none
  | left + 1, length, value, first, index, pos => do
    let b ← bit? data pos
    let value := 2 * value + b
    let count := code.counts.getD length 0
    if value < first + count then
      let symbol ← code.symbols[index + (value - first)]?
      return (symbol, pos + 1)
    else
      symbolFrom? code data left (length + 1) value (2 * (first + count)) (index + count) (pos + 1)

/-- The symbol at a position, and the position after it. -/
def symbol? (code : PrefixCode) (data : ByteArray) (pos : Nat) : Option (Nat × Nat) :=
  symbolFrom? code data PrefixCode.maxLength 1 0 0 0 pos

/-- Base and extra bits of the copy lengths. -/
def lengthTable : Array (Nat × Nat) :=
  #[(3, 0), (4, 0), (5, 0), (6, 0), (7, 0), (8, 0), (9, 0), (10, 0), (11, 1), (13, 1), (15, 1),
    (17, 1), (19, 2), (23, 2), (27, 2), (31, 2), (35, 3), (43, 3), (51, 3), (59, 3), (67, 4),
    (83, 4), (99, 4), (115, 4), (131, 5), (163, 5), (195, 5), (227, 5), (258, 0)]

/-- Base and extra bits of the copy distances. -/
def distanceTable : Array (Nat × Nat) :=
  #[(1, 0), (2, 0), (3, 0), (4, 0), (5, 1), (7, 1), (9, 2), (13, 2), (17, 3), (25, 3), (33, 4),
    (49, 4), (65, 5), (97, 5), (129, 6), (193, 6), (257, 7), (385, 7), (513, 8), (769, 8),
    (1025, 9), (1537, 9), (2049, 10), (3073, 10), (4097, 11), (6145, 11), (8193, 12), (12289, 12),
    (16385, 13), (24577, 13)]

/-- Appends bytes that stand `distance` before the end, one by one. -/
def copyBack (out : ByteArray) (distance : Nat) : (count : Nat) → ByteArray
  | 0 => out
  | count + 1 =>
    copyBack (out.push (UInt8.ofNat (Bytes.byte out (out.size - distance)))) distance count

/-- Decodes symbols up to the end of a block.  Every symbol takes a bit, so the number of bits is
enough for `fuel`. -/
def codes? (literals distances : PrefixCode) (data : ByteArray) :
    (fuel pos : Nat) → ByteArray → Option (Nat × ByteArray)
  | 0, _, _ => none
  | fuel + 1, pos, out => do
    let (symbol, pos) ← symbol? literals data pos
    if symbol < 256 then codes? literals distances data fuel pos (out.push (UInt8.ofNat symbol))
    else if symbol = 256 then return (pos, out)
    else
      let (base, extra) ← lengthTable[symbol - 257]?
      let (more, pos) ← bits? data pos extra
      let (symbol, pos) ← symbol? distances data pos
      let (far, extra) ← distanceTable[symbol]?
      let (further, pos) ← bits? data pos extra
      let distance := far + further
      if distance > out.size then none
      else codes? literals distances data fuel pos (copyBack out distance (base + more))

/-- The codes of a block without code lengths of its own. -/
def fixedCodes : PrefixCode × PrefixCode :=
  (PrefixCode.ofLengths (List.replicate 144 8 ++ List.replicate 112 9 ++ List.replicate 24 7 ++
    List.replicate 8 8), PrefixCode.ofLengths (List.replicate 30 5))

/-- The order in which the lengths of the code-length code are stored. -/
def lengthOrder : List Nat := [16, 17, 18, 0, 8, 7, 9, 6, 10, 5, 11, 4, 12, 3, 13, 2, 14, 1, 15]

/-- Decodes `wanted` code lengths, repeats included. -/
def lengths? (code : PrefixCode) (data : ByteArray) (wanted : Nat) :
    (fuel pos : Nat) → (reversed : List Nat) → Option (Nat × List Nat)
  | 0, _, _ => none
  | fuel + 1, pos, reversed =>
    if reversed.length = wanted then some (pos, reversed.reverse)
    else if reversed.length > wanted then none
    else do
      let (symbol, pos) ← symbol? code data pos
      if symbol < 16 then lengths? code data wanted fuel pos (symbol :: reversed)
      else
        let (value, least, extra) ←
          if symbol = 16 then reversed.head?.map fun v => (v, 3, 2)
          else if symbol = 17 then some (0, 3, 3)
          else some (0, 11, 7)
        let (more, pos) ← bits? data pos extra
        lengths? code data wanted fuel pos (List.replicate (least + more) value ++ reversed)

/-- The codes that a block brings along, and the position after them. -/
def dynamicCodes? (data : ByteArray) (pos : Nat) : Option (PrefixCode × PrefixCode × Nat) := do
  let (nLit, pos) ← bits? data pos 5
  let (nDist, pos) ← bits? data pos 5
  let (nLen, pos) ← bits? data pos 4
  let (stored, pos) ← (List.range (nLen + 4)).foldlM (fun (acc, pos) _ => do
    let (n, pos) ← bits? data pos 3
    return (n :: acc, pos)) (([] : List Nat), pos)
  let stored := stored.reverse
  let lengths := (List.range 19).map fun symbol =>
    stored.getD (lengthOrder.idxOf symbol) 0
  let code := PrefixCode.ofLengths lengths
  if !code.isValid then none
  else
    let wanted := nLit + 257 + (nDist + 1)
    let (pos, all) ← lengths? code data wanted (wanted + 1) pos []
    let literals := PrefixCode.ofLengths (all.take (nLit + 257))
    let distances := PrefixCode.ofLengths (all.drop (nLit + 257))
    if literals.isValid && distances.isValid then return (literals, distances, pos) else none

/-- Decodes blocks up to the last one. -/
def blocks? (data : ByteArray) : (fuel pos : Nat) → ByteArray → Option (Nat × ByteArray)
  | 0, _, _ => none
  | fuel + 1, pos, out => do
    let (last, pos) ← bits? data pos 1
    let (kind, pos) ← bits? data pos 2
    let (pos, out) ←
      if kind = 0 then
        let start := (pos + 7) / 8
        let length ← Bytes.little? data start 2
        let complement ← Bytes.little? data (start + 2) 2
        if length + complement = 65535 ∧ Bytes.has data (start + 4) length then
          some (8 * (start + 4 + length), out ++ data.extract (start + 4) (start + 4 + length))
        else none
      else if kind = 1 then
        codes? fixedCodes.1 fixedCodes.2 data (8 * data.size + 1) pos out
      else if kind = 2 then
        let (literals, distances, pos) ← dynamicCodes? data pos
        codes? literals distances data (8 * data.size + 1) pos out
      else none
    if last = 1 then return (pos, out) else blocks? data fuel pos out

/-- The data of a stream with its two-byte header; the sum at the end has to be there but is not
compared. -/
def stream? (data : ByteArray) : Option ByteArray := do
  let header ← Bytes.big? data 0 2
  let method := header / 256
  if header % 31 ≠ 0 ∨ method % 16 ≠ 8 ∨ method / 16 > 7 ∨ header / 32 % 2 = 1 then none
  else
    let (pos, out) ← blocks? data (8 * data.size + 1) 16 ByteArray.empty
    if Bytes.has data ((pos + 7) / 8) 4 then return out else none

/-- Stored blocks for the data from an offset on, with `left` bytes to go. -/
def storedBlocks (data : ByteArray) (start left : Nat) : ByteArray :=
  let size := min left 65535
  let last := left ≤ 65535
  let block := Bytes.ofList [if last then 1 else 0] ++ Bytes.little 2 size ++
    Bytes.little 2 (65535 - size) ++ data.extract start (start + size)
  if left ≤ 65535 then block
  else block ++ storedBlocks data (start + 65535) (left - 65535)
termination_by left
decreasing_by omega

/-- A stream that holds data as they are. -/
def store (data : ByteArray) : ByteArray :=
  Bytes.ofList [0x78, 0x01] ++ storedBlocks data 0 data.size ++ Bytes.big 4 (Checksum.adler32 data)

end Inflate

end Darkroom
