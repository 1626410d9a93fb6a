import ClassLedger.Report.Console
import ClassLedger.Snapshot.Codec
import ClassLedger.Snapshot.Comparison
import ClassLedger.Text.Quoted
import ClassLedger.View

/-!
# Inspecting snapshot files

The command lists the classes of a snapshot file with what is known of them.  With a second file it also lists what
changed since that one.
-/

namespace ClassLedger.Inspect

variable {m : Type → Type} [Monad m]

/-- A number with a noun. -/
def counted (n : Nat) (noun : String) : String := toString n ++ " " ++ noun

/-- A shape in a few words. -/
def describe : Option Shape → String
  | none => "uninterpretable"
  | some (.ordinaryClass c) =>
    "class " ++ c.name ++ " (" ++ counted c.supertypes.length "supertypes" ++ ", " ++
      counted c.members.size "members" ++ ")"
  | some (.fileFacade members) => "file facade (" ++ counted members.size "members" ++ ")"
  | some (.multiFilePart facade members) =>
    "multi-file part of " ++ facade ++ " (" ++ counted members.size "members" ++ ")"
  | some (.multiFileFacade parts) => "multi-file facade (" ++ counted parts.length "parts" ++ ")"
  | some (.syntheticClass (some f)) => "synthetic class (lambda " ++ f.name ++ ")"
  | some (.syntheticClass none) => "synthetic class"
  | some (.unknown tag) => "unknown kind " ++ toString tag.toInt

/-- The line for a class. -/
def entryLine (name : String) (r : Record) (shape : Option Shape) : String :=
  "  " ++ name ++ " [v" ++ Text.bracketed (r.version.map fun part => toString part.toInt) ++ ", package " ++
    Text.quoted r.packageName ++ "]: " ++ describe shape

def changeLine : ClassChange → String
  | .added name => "  + " ++ name
  | .removed name => "  - " ++ name
  | .changed name change => "  ~ " ++ name ++ " (" ++ change.text ++ ")"

/-- Reads and decodes a snapshot file. -/
def load (p : Primitives) (c : Console m) (path : String) : m (Option Snapshot) := do
  c.print ("Reading: " ++ path)
  match ← c.contents path with
  | none => return none
  | some bytes => do
    c.print ("File size: " ++ counted bytes.length "bytes")
    return (Snapshot.decode p bytes).toOption

/-- Lists the classes of a snapshot. -/
def listClasses (c : Console m) (s : Snapshot) : m Unit := do
  c.print ("\n=== Classes (" ++ toString s.size ++ ") ===")
  let shapes := s.entries.map fun (name, r) => (name, r, ({ record := r : Observation }).shape.value)
  for (name, r, shape) in shapes do
    c.print (entryLine name r shape)
  let failures := shapes.countP fun (_, _, shape) => shape.isNone
  if 0 < failures then
    c.print ("\n" ++ toString failures ++ " classes could not be interpreted")

/-- Lists what changed since the snapshot in the file `path`. -/
def listChanges (c : Console m) (path : String) (current past : Snapshot) : m Unit := do
  let changes := current.changesFrom past
  c.print ("\n=== Changes since " ++ path ++ " (" ++ toString changes.length ++ ") ===")
  for change in changes do
    c.print (changeLine change)

/-- The file that is inspected when none is named. -/
def defaultPath : String := "build/metadata.ktms"

/-- Inspects the file named first, and compares it with the one named second.  The result tells whether every file
could be read. -/
def run (p : Primitives) (c : Console m) (arguments : List String) : m Bool := do
  match ← load p c (arguments.headD defaultPath) with
  | none => return false
  | some current => do
    listClasses c current
    match arguments[1]? with
    | none => return true
    | some path => do
      match ← load p c path with
      | none => return false
      | some past => do
        listChanges c path current past
        return true

end ClassLedger.Inspect
