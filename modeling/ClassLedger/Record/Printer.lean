import ClassLedger.Record.Basic
import ClassLedger.Text.Quoted

/-!
# Records as text

The one-line form of a record for logs and failure reports: the fields by name, strings between quotation marks, and
two dots for what is not part of its value.
-/

namespace ClassLedger.Record

/-- The one-line form of a record. -/
def text (r : Record) : String :=
  let fields := [
    "kind: " ++ toString r.kind.toInt,
    "version: " ++ Text.bracketed (r.version.map fun part => toString part.toInt),
    "data1: " ++ Text.bracketed (r.payload.map Text.quoted),
    "data2: " ++ Text.bracketed (r.strings.map Text.quoted),
    "extra_string: " ++ Text.quoted r.extraText,
    "package_name: " ++ Text.quoted r.packageName,
    "extra_int: " ++ toString r.extraFlags.toInt,
    ".."]
  "MetadataRecord \x7b " ++ ", ".intercalate fields ++ " \x7d"

end ClassLedger.Record
