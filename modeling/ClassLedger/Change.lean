import ClassLedger.Record.Basic

/-!
# Changes between two records

A record of the current build is compared with the record of the same class from a past build.  The seven fields form
five groups, each of which changes as a whole: the payload goes with its strings, and the extra text with the extra
flags.
-/

namespace ClassLedger

/-- The groups of fields that change together. -/
inductive FieldGroup where
  | kind
  | version
  | data
  | package
  | extra
  deriving DecidableEq

namespace FieldGroup

/-- All groups in the order in which they are reported. -/
def all : List FieldGroup := [kind, version, data, package, extra]

def name : FieldGroup → String
  | kind => "kind"
  | version => "version"
  | data => "data"
  | package => "package"
  | extra => "extra"

end FieldGroup

/-- Which groups of fields differ between two records. -/
structure Change where
  kind : Bool := false
  version : Bool := false
  data : Bool := false
  package : Bool := false
  extra : Bool := false
  deriving DecidableEq

namespace Change

/-- The change from `past` to `current`. -/
def between (past current : Record) : Change where
  kind := past.kind ≠ current.kind
  version := past.version ≠ current.version
  data := past.payload ≠ current.payload ∨ past.strings ≠ current.strings
  package := past.packageName ≠ current.packageName
  extra := past.extraFlags ≠ current.extraFlags ∨ past.extraText ≠ current.extraText

/-- Whether a group differs. -/
def contains (c : Change) : FieldGroup → Bool
  | .kind => c.kind
  | .version => c.version
  | .data => c.data
  | .package => c.package
  | .extra => c.extra

/-- The groups that differ. -/
def groups (c : Change) : List FieldGroup := FieldGroup.all.filter c.contains

/-- Whether no group differs. -/
def isUnchanged (c : Change) : Bool := c.groups.isEmpty

/-- The names of the groups that differ. -/
def text (c : Change) : String :=
  if c.isUnchanged then "unchanged" else ", ".intercalate (c.groups.map FieldGroup.name)

/-- All five flags by name. -/
def listing (c : Change) : String :=
  let flags := FieldGroup.all.map fun g => g.name ++ ": " ++ toString (c.contains g)
  "ChangeSummary \x7b " ++ ", ".intercalate flags ++ " \x7d"

end Change

namespace Record

/-- The change that leads from `past` to this record. -/
def changeFrom (current past : Record) : Change := .between past current

/-- Whether no field differs from `past`, checked without building the change. -/
def unchangedFrom (current past : Record) : Bool :=
  past.payload = current.payload && past.strings = current.strings && past.kind = current.kind &&
    past.version = current.version && past.packageName = current.packageName &&
    past.extraFlags = current.extraFlags && past.extraText = current.extraText

end Record

end ClassLedger
