import ClassLedger.Change
import ClassLedger.Snapshot.Basic

/-!
# Comparing two snapshots

The records of two builds are paired by class name.  The result names every class that was added, removed or changed,
in ascending order.
-/

namespace ClassLedger

/-- How one class differs between two snapshots. -/
inductive ClassChange where
  | added (name : String)
  | removed (name : String)
  | changed (name : String) (change : Change)
  deriving DecidableEq

def ClassChange.name : ClassChange → String
  | added name | removed name | changed name _ => name

namespace Snapshot

/-- The change of a class that is in both snapshots, unless its record is the same. -/
def changeOf (name : String) (current past : Record) : Option ClassChange :=
  if current.unchangedFrom past then none else some (.changed name (current.changeFrom past))

/-- Walks through the entries of both builds side by side. -/
def compareEntries : (current past : List (String × Record)) → List ClassChange
  | [], past => past.map fun e => .removed e.1
  | current, [] => current.map fun e => .added e.1
  | c :: current, p :: past =>
    if c.1 < p.1 then .added c.1 :: compareEntries current (p :: past)
    else if p.1 < c.1 then .removed p.1 :: compareEntries (c :: current) past
    else (changeOf c.1 c.2 p.2).toList ++ compareEntries current past
termination_by current past => current.length + past.length

/-- The classes that differ from a past snapshot, by name. -/
def changesFrom (current past : Snapshot) : List ClassChange :=
  compareEntries current.entries past.entries

end Snapshot

end ClassLedger
