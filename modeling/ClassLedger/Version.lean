/-!
# Version of the library
-/

namespace ClassLedger

/-- The version of this library. -/
def libraryVersion : String := "0.1.0"

end ClassLedger
