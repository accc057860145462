/-!
# Bytes

Numbers of several bytes within binary files.

## Main definitions

* `Bytes.byte`, `Bytes.big?`, `Bytes.little?` : reading.
* `Bytes.big`, `Bytes.little` : writing.
-/

namespace Darkroom.Bytes

/-- The byte at an offset, zero beyond the end. -/
def byte (data : ByteArray) (i : Nat) : Nat := if h : i < data.size then data[i].toNat else 0

/-- Whether a run of bytes lies within some data. -/
def has (data : ByteArray) (start count : Nat) : Bool := start + count ≤ data.size

/-- The number of `count` bytes from an offset on, the greatest place first. -/
def big? (data : ByteArray) (start count : Nat) : Option Nat :=
  if has data start count then
    some ((List.range count).foldl (fun n i => 256 * n + byte data (start + i)) 0)
  else none

/-- The number of `count` bytes from an offset on, the smallest place first. -/
def little? (data : ByteArray) (start count : Nat) : Option Nat :=
  if has data start count then
    some ((List.range count).foldr (fun i n => 256 * n + byte data (start + i)) 0)
  else none

/-- The `count` bytes of a number, the smallest place first. -/
def little (count n : Nat) : ByteArray :=
  ⟨((List.range count).map fun i => UInt8.ofNat (n / Nat.pow 256 i % 256)).toArray⟩

/-- The `count` bytes of a number, the greatest place first. -/
def big (count n : Nat) : ByteArray :=
  ⟨((List.range count).reverse.map fun i => UInt8.ofNat (n / Nat.pow 256 i % 256)).toArray⟩

/-- Some bytes. -/
def ofList (bytes : List Nat) : ByteArray := ⟨(bytes.map UInt8.ofNat).toArray⟩

/-- Whether some data begin with the given bytes at an offset. -/
def matchesAt (data : ByteArray) (start : Nat) (bytes : List Nat) : Bool :=
  has data start bytes.length && bytes.zipIdx.all fun (b, i) => byte data (start + i) == b

/-- Pieces of data one after the other. -/
def concat (pieces : List ByteArray) : ByteArray := pieces.foldl (· ++ ·) ByteArray.empty

end Darkroom.Bytes
