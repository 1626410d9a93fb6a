/-!
# Kinds of records

The kind of a record says which shape its other fields describe.  Tags outside 1 to 5 are kept as they are, so a
record of an unknown kind is not damaged by passing through.
-/

namespace ClassLedger

/-- The shape that the fields of a record describe. -/
inductive Kind where
  /-- A class, interface, object or annotation class. -/
  | ordinaryClass
  /-- The declarations of one source file. -/
  | fileFacade
  /-- A class made by the compiler, such as the body of a lambda. -/
  | syntheticClass
  /-- The facade of declarations that are spread over several files. -/
  | multiFileFacade
  /-- One of the files behind such a facade. -/
  | multiFilePart
  /-- Any other tag. -/
  | unknown (tag : Int32)
  deriving DecidableEq

namespace Kind

def ofTag (tag : Int32) : Kind :=
  if tag = 1 then ordinaryClass
  else if tag = 2 then fileFacade
  else if tag = 3 then syntheticClass
  else if tag = 4 then multiFileFacade
  else if tag = 5 then multiFilePart
  else unknown tag

def tag : Kind → Int32
  | ordinaryClass => 1
  | fileFacade => 2
  | syntheticClass => 3
  | multiFileFacade => 4
  | multiFilePart => 5
  | unknown tag => tag

/-- Whether records of this kind can have a list of declarations. -/
def hasDeclarations : Kind → Bool
  | ordinaryClass | fileFacade | multiFilePart => true
  | syntheticClass | multiFileFacade | unknown _ => false

@[simp]
theorem tag_ofTag (t : Int32) : (ofTag t).tag = t := by
  unfold ofTag
  split <;> (try split) <;> (try split) <;> (try split) <;> (try split) <;> simp_all [tag]

end Kind

end ClassLedger
