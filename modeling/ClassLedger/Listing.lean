import ClassLedger.Json.Value
import ClassLedger.Shape.Writer
import ClassLedger.Snapshot.Basic

/-!
# Class listings

A listing describes the classes of a project by name, for building a snapshot without compiling anything.  It is a
JSON list; each class is an object, or a list of the fields in their order.  All fields but the name may be missing.
-/

namespace ClassLedger

/-- A class in a listing. -/
structure ListedClass where
  name : String
  package : String := ""
  /-- Whether it is the facade of a file. -/
  facade : Bool := false
  supertypes : List String := []
  functions : List String := []
  properties : List String := []
  privateMembers : List String := []

namespace ListedClass

/-! ### Reading -/

/-- The fields of a class in their order. -/
def fieldNames : List String :=
  ["name", "package", "facade", "supertypes", "functions", "properties", "private_members"]

/-- The class with one field set. -/
def setField? (c : ListedClass) (field : String) (v : Json.Value) : Option ListedClass :=
  match field with
  | "name" => v.asString?.map fun name => { c with name }
  | "package" => v.asString?.map fun package => { c with package }
  | "facade" => v.asBool?.map fun facade => { c with facade }
  | "supertypes" => v.asStrings?.map fun supertypes => { c with supertypes }
  | "functions" => v.asStrings?.map fun functions => { c with functions }
  | "properties" => v.asStrings?.map fun properties => { c with properties }
  | "private_members" => v.asStrings?.map fun privateMembers => { c with privateMembers }
  | _ => some c

/-- The class with the given fields, which name each field once at most, and the name always. -/
def ofFields? (fields : List (String × Json.Value)) : Option ListedClass :=
  let known := (fields.map (·.1)).filter fieldNames.contains
  if known.contains "name" ∧ fieldNames.all (known.count · ≤ 1) then
    fields.foldlM (fun c (field, v) => c.setField? field v) { name := "" }
  else none

/-- The class in a JSON value. -/
def ofJson? : Json.Value → Option ListedClass
  | .object entries => do
    let fields ← entries.mapM fun (key, v) => do
      return (String.ofList (← Json.characters? key), v)
    ofFields? fields
  | .list items => if items.length ≤ fieldNames.length then ofFields? (fieldNames.zip items) else none
  | _ => none

/-- The classes of a listing. -/
def ofText? (text : String) : Option (List ListedClass) := do
  match ← Json.value? text with
  | .list items => items.mapM ofJson?
  | _ => none

/-! ### Shapes and snapshots -/

/-- The members; listed ones are public, and private ones are functions. -/
def members (c : ListedClass) : Members :=
  let withFlags (v : Visibility) (names : List String) : List Member :=
    names.map fun name => { name, flags := v.apply 0 }
  { functions := withFlags .everywhere c.functions ++ withFlags .classOnly c.privateMembers
    properties := withFlags .everywhere c.properties }

def shape (c : ListedClass) : Shape :=
  if c.facade then .fileFacade c.members
  else .ordinaryClass {
    name := c.name
    flags := Visibility.everywhere.apply 0
    supertypes := c.supertypes
    members := c.members }

/-- The version of the metadata that is written for a listing. -/
def metadataVersion : List Int32 := [1, 9, 0]

/-- The snapshot of a listing. -/
def snapshot (classes : List ListedClass) : Snapshot :=
  .ofList (classes.map fun c => (c.name, c.shape.toRecord metadataVersion c.package))

/-! ### A sample project -/

/-- Numbered names. -/
def numbered (stem : String) (count : Nat) : List String := (List.range count).map fun i => stem ++ toString i

/-- Class number `i` of the sample project. -/
def sample (i : Nat) : ListedClass where
  name := "com/example/module" ++ toString (i % 40) ++ "/Type" ++ toString i
  package := "com.example.module" ++ toString (i % 40)
  facade := i % 7 = 0
  supertypes := ["kotlin/Any"]
  functions := numbered "op" (i % 12)
  properties := numbered "field" (i % 5)
  privateMembers := numbered "helper" (i % 3)

/-- A project of `count` classes in forty packages, with every seventh a facade and varying numbers of members. -/
def sampleProject (count : Nat) : List ListedClass := (List.range count).map sample

end ListedClass

end ClassLedger
