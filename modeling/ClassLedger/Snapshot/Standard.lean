import ClassLedger.Snapshot.Codec
import ClassLedger.Zstd.Intake
import ClassLedger.Zstd.Stored

/-!
# The primitives of snapshot files

Snapshot files carry a SHA-256 digest and compressed frames of the Zstandard format.
-/

namespace ClassLedger

/-- SHA-256, Zstandard frames of any kind for reading, and stored ones for writing. -/
def Primitives.standard : Primitives where
  digest := Sha256.digest
  deflate _ content := .ok (Zstd.store content)
  inflate capacity limit frames := .ok (Zstd.inflate capacity limit frames)

end ClassLedger
