/-!
# Limits of the ledger formats

Counts and lengths that a reader takes from its input are compared with these bounds before anything is built, so a
damaged length cannot ask for more than the format allows.  Writing a record is bound by `prefixValue` alone.
-/

namespace ClassLedger.Limits

/-- Most bytes of UTF-8 in a string that is read. -/
def stringBytes : Nat := 16 * 1024 * 1024

/-- Largest value of a four-byte length. -/
def prefixValue : Nat := 2147483647

/-- Most elements in a collection that is read. -/
def elements : Nat := 1024 * 1024

/-- Most parts in a version number that is read. -/
def versionParts : Nat := elements

/-- Most entries in a snapshot. -/
def snapshotEntries : Nat := 4 * 1024 * 1024

/-- Most bytes in the plain encoding of a snapshot. -/
def snapshotBytes : Nat := 1024 * 1024 * 1024

/-- Most bytes in a variable-length integer. -/
def varintBytes : Nat := 10

/-- Most characters in one packed piece of a declaration payload. -/
def chunkChars : Nat := 65535

end ClassLedger.Limits
