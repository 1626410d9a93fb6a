import ClassLedger.Record.Basic

/-!
# Building records

Records do not change.  A new one is put together by a builder, which starts empty or with the fields of a record; each
setter gives it a new value for one field, and what it holds in the end goes to the constructor of records.
-/

namespace ClassLedger.Record

/-- What a record is built from. -/
structure Builder where
  kind : Int32 := 0
  version : List Int32 := []
  payload : List String := []
  strings : List String := []
  extraText : String := ""
  packageName : String := ""
  extraFlags : Int32 := 0

/-- A call of a setter. -/
inductive Edit where
  | kind (value : Int32)
  | version (value : List Int32)
  | payload (value : List String)
  | strings (value : List String)
  | extraText (value : String)
  | packageName (value : String)
  | extraFlags (value : Int32)
  deriving DecidableEq

/-- The call that sets the tag of a kind. -/
def Edit.kindOf (kind : Kind) : Edit := .kind kind.tag

namespace Builder

/-- The builder in which only the kind is set. -/
def new (kind : Int32) : Builder := { kind }

/-- The builder that starts with the fields of a record. -/
def ofRecord (r : Record) : Builder where
  kind := r.kind
  version := r.version
  payload := r.payload
  strings := r.strings
  extraText := r.extraText
  packageName := r.packageName
  extraFlags := r.extraFlags

def set (b : Builder) : Edit → Builder
  | .kind value => { b with kind := value }
  | .version value => { b with version := value }
  | .payload value => { b with payload := value }
  | .strings value => { b with strings := value }
  | .extraText value => { b with extraText := value }
  | .packageName value => { b with packageName := value }
  | .extraFlags value => { b with extraFlags := value }

/-- The builder after some calls of setters, the first one first. -/
def setAll (b : Builder) (edits : List Edit) : Builder := edits.foldl set b

/-- Hands all fields to the constructor of records. -/
def build (b : Builder) : Record :=
  .ofFields b.kind (some b.version) (some b.payload) (some b.strings) (some b.extraText) (some b.packageName)
    b.extraFlags

theorem setAll_cons (b : Builder) (x : Edit) (edits : List Edit) : b.setAll (x :: edits) = (b.set x).setAll edits := rfl

theorem setAll_append (b : Builder) (first second : List Edit) :
    b.setAll (first ++ second) = (b.setAll first).setAll second :=
  List.foldl_append

/-- A field that is not set is built as a missing one. -/
theorem build_new (kind : Int32) : (new kind).build = .ofFields kind none none none none none 0 := rfl

theorem build_ofRecord (r : Record) : (ofRecord r).build = r := rfl

end Builder

/-- A copy that is built from the record after some calls of setters. -/
def revise (r : Record) (edits : List Edit) : Record := ((Builder.ofRecord r).setAll edits).build

end ClassLedger.Record
