/-!
# Frames without compression

Content is written as one frame of blocks that hold it as it is.  Every decoder of compressed frames reads it, and the
level of compression makes no difference.
-/

namespace ClassLedger.Zstd

/-- The number of bytes in each block but the last. -/
def storedBlockBytes : Nat := 128 * 1024

/-- A magic number, and a header that announces a window of 128 KiB and nothing else. -/
def storedHeader : List UInt8 := [0x28, 0xB5, 0x2F, 0xFD, 0x00, 0x38]

/-- The three bytes before a block of `size` stored bytes. -/
def storedBlockHeader (size : Nat) (last : Bool) : List UInt8 :=
  let n := size * 8 + (if last then 1 else 0)
  [UInt8.ofNat n, UInt8.ofNat (n / 256), UInt8.ofNat (n / 65536)]

/-- The blocks of some content behind the bytes `before`. -/
def storeBlocks (before : Array UInt8) (content : List UInt8) : Array UInt8 :=
  let (block, rest) := content.splitAt storedBlockBytes
  let written := before ++ storedBlockHeader block.length rest.isEmpty ++ block
  if _h : rest.length < content.length ∧ rest ≠ [] then storeBlocks written rest else written
termination_by content.length

/-- The frame with some content. -/
def store (content : List UInt8) : List UInt8 := (storeBlocks storedHeader.toArray content).toList

end ClassLedger.Zstd
