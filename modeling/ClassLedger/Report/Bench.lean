import ClassLedger.Listing
import ClassLedger.Report.Console
import ClassLedger.Snapshot.Codec
import ClassLedger.Snapshot.Comparison
import ClassLedger.View

/-!
# Measuring snapshots

The command builds a snapshot from a class listing, or from a sample project of 5000 classes, and measures how long it
takes to encode, decode, interpret and compare it.  It fails if a listing cannot be read, or if decoding does not give
back what was encoded.
-/

namespace ClassLedger

/-- A class change with all its details. -/
def ClassChange.listing : ClassChange → String
  | added name => "Added(" ++ Text.quoted name ++ ")"
  | removed name => "Removed(" ++ Text.quoted name ++ ")"
  | changed name change => "Changed(" ++ Text.quoted name ++ ", " ++ change.listing ++ ")"

namespace Bench

variable {m : Type → Type} [Monad m]

/-- The number of classes in the sample project. -/
def sampleSize : Nat := 5000

/-- The package to which every tenth class is moved for the comparison. -/
def movedPackage : String := "com.example.moved"

/-- The snapshot with every tenth record in another package. -/
def movedSnapshot (s : Snapshot) : Snapshot :=
  .ofList (s.entries.zipIdx.map fun ((name, r), i) =>
    (name, if i % 10 = 0 then r.revise [.packageName movedPackage] else r))

/-- The number of records that have members to look at. -/
def countInterpreted (s : Snapshot) : Nat :=
  s.entries.countP fun (_, r) => ({ record := r : Observation }).members.value.isSome

/-- Reads the listing in a file, or takes the sample project if there is none. -/
def loadClasses (c : Console m) (path : Option String) : m (Option (List ListedClass)) := do
  match path with
  | none => do
    c.print ("No class listing given, synthesizing " ++ toString sampleSize ++ " classes")
    return some (ListedClass.sampleProject sampleSize)
  | some path => do
    c.print ("Loading classes from: " ++ path)
    let bytes ← c.contents path
    return (bytes.bind Text.ofUtf8?).bind ListedClass.ofText?

/-- Encodes the snapshot plainly and compressed, and reports both sizes. -/
def measureEncoding (p : Primitives) (c : Console m) (s : Snapshot) :
    m (Except EncodeError (List UInt8 × List UInt8)) := do
  let (plain, time) ← c.timed fun _ => s.encode p {}
  match plain with
  | .error e => return .error e
  | .ok plain => do
    c.print ("\nUncompressed: " ++ toString plain.length ++ " bytes in " ++ durationText time)
    c.print ("  Throughput: " ++ decimalQuotient 2 (plain.length * 1000) (max time 1) ++ " MB/s")
    let (frames, time) ← c.timed fun _ => s.encode p (.compressedAt 3)
    match frames with
    | .error e => return .error e
    | .ok frames => do
      c.print ("\nCompressed (level 3): " ++ toString frames.length ++ " bytes in " ++ durationText time)
      c.print ("  Compression ratio: " ++ decimalQuotient 1 plain.length frames.length ++ "x")
      return .ok (plain, frames)

/-- Decodes both forms; the result is the snapshot if both give it back. -/
def measureDecoding (p : Primitives) (c : Console m) (s : Snapshot) (plain frames : List UInt8) :
    m (Option Snapshot) := do
  let (decoded, time) ← c.timed fun _ => Snapshot.decode p plain
  match decoded with
  | .error _ => return none
  | .ok decoded => do
    if decoded ≠ s then return none
    c.print ("\nDecode (uncompressed): " ++ durationText time ++ " (avg of 1 iterations)")
    let (inflated, time) ← c.timed fun _ => Snapshot.decode p frames
    match inflated with
    | .error _ => return none
    | .ok inflated => do
      c.print ("Decode (compressed): " ++ durationText time)
      return if inflated = s then some decoded else none

/-- Interprets all records and compares the snapshot with one in which some classes moved. -/
def measureUse (c : Console m) (s decoded : Snapshot) : m Unit := do
  let (interpreted, time) ← c.timed fun _ => countInterpreted decoded
  c.print ("\nInterpreted " ++ toString interpreted ++ " of " ++ toString decoded.size ++ " records in " ++
    durationText time)
  let next := movedSnapshot s
  let (changes, time) ← c.timed fun _ => next.changesFrom decoded
  c.print ("\nCompared " ++ toString next.size ++ " classes in " ++ durationText time ++ ": " ++
    toString changes.length ++ " changed")
  for change in changes.take 3 do
    c.print ("  " ++ change.listing)

/-- Measures the listing named first.  The result tells whether nothing failed. -/
def run (p : Primitives) (c : Console m) (arguments : List String) : m Bool := do
  match ← loadClasses c arguments.head? with
  | none => return false
  | some classes => do
    let (s, time) ← c.timed fun _ => ListedClass.snapshot classes
    c.print ("Built " ++ toString s.size ++ " records in " ++ durationText time)
    match ← measureEncoding p c s with
    | .error _ => return false
    | .ok (plain, frames) => do
      match ← measureDecoding p c s plain frames with
      | none => return false
      | some decoded => do
        measureUse c s decoded
        return true

end Bench

end ClassLedger
