import ClassLedger.Report.Bench
import ClassLedger.Report.Inspect
import ClassLedger.Snapshot.Standard

/-!
# Command line

`inspect [FILE [PREVIOUS]]` lists the classes of a snapshot file, and what changed since a previous one.
`bench [LISTING]` measures the handling of a class listing.
-/

open ClassLedger

/-- The console of the process. -/
def processConsole : Console IO where
  print line := IO.println line
  contents path := do
    try
      let bytes ← IO.FS.readBinFile path
      return some bytes.data.toList
    catch _ => return none
  timed f := do
    let start ← IO.monoNanosNow
    let value := f ()
    let stop ← IO.monoNanosNow
    return (value, stop - start)

def main (arguments : List String) : IO UInt32 := do
  let succeeded ←
    match arguments with
    | "inspect" :: rest => Inspect.run .standard processConsole rest
    | "bench" :: rest => Bench.run .standard processConsole rest
    | _ => do
      IO.eprintln "usage: inspect [FILE [PREVIOUS]] | bench [LISTING]"
      pure false
  return if succeeded then 0 else 1
