import ClassLedger.Record.Kind

/-!
# Records

A record holds the raw fields of one class's metadata annotation as one build saw them.  A later build supersedes a
record with another one.  A missing list or string is the same as an empty one.
-/

namespace ClassLedger

/-- The raw fields of one class's metadata annotation. -/
structure Record where
  kind : Int32 := 0
  /-- The version of the metadata format. -/
  version : List Int32 := []
  /-- The packed declaration payload, or the class names of the parts of a facade. -/
  payload : List String := []
  /-- The strings that the payload refers to by index. -/
  strings : List String := []
  /-- The class name of the facade, for a part of one. -/
  extraText : String := ""
  packageName : String := ""
  extraFlags : Int32 := 0
  deriving DecidableEq, Hashable, Inhabited

namespace Record

/-- The record with the given fields, where a missing list or string is empty. -/
def ofFields (kind : Int32) (version : Option (List Int32)) (payload strings : Option (List String))
    (extraText packageName : Option String) (extraFlags : Int32) : Record where
  kind
  version := version.getD []
  payload := payload.getD []
  strings := strings.getD []
  extraText := extraText.getD ""
  packageName := packageName.getD ""
  extraFlags

/-- The kind that the tag of the record stands for. -/
def kindOf (r : Record) : Kind := .ofTag r.kind

end Record

end ClassLedger
