import ClassLedger.Payload.Composer
import ClassLedger.Record.Builder
import ClassLedger.Shape.Basic

/-!
# From shapes to records

A shape is written as the record from which it is read again.  Flags of 0 are left out, except those of constructors.
A shape of unknown kind has no payload.
-/

namespace ClassLedger

open Payload

namespace Payload.Composer

/-- Appends a member, followed by its flags if it has any. -/
def member (c : Composer) (tag : Tag) (m : Member) : Composer :=
  let c := c.string tag m.name
  if m.flags = 0 then c else c.flags .memberFlags m.flags

def members (c : Composer) (m : Members) : Composer :=
  let c := m.functions.foldl (member · .function) c
  let c := m.properties.foldl (member · .property) c
  m.typeAliases.foldl (member · .typeAlias) c

def classShape (c : Composer) (s : ClassShape) : Composer :=
  let c := c.string .className s.name
  let c := if s.flags = 0 then c else c.flags .classFlags s.flags
  let c := s.supertypes.foldl (string · .supertype) c
  let c := s.nestedClasses.foldl (string · .nestedClass) c
  let c := s.constructors.foldl (flags · .constructor) c
  c.members s.members

end Payload.Composer

namespace Shape

/-- The payload of a shape in pieces and its string table. -/
def payload (s : Shape) : List String × List String :=
  match s with
  | ordinaryClass c => (Composer.empty.classShape c).finish Limits.chunkChars
  | fileFacade members | multiFilePart _ members => (Composer.empty.members members).finish Limits.chunkChars
  | syntheticClass none => Composer.empty.finish Limits.chunkChars
  | syntheticClass (some lambda) => (Composer.empty.member .function lambda).finish Limits.chunkChars
  | multiFileFacade parts => (parts, [])
  | unknown _ => ([], [])

/-- The class name of the facade, for a part of one. -/
def facadeName : Shape → String
  | multiFilePart facade _ => facade
  | ordinaryClass _ | fileFacade _ | syntheticClass _ | multiFileFacade _ | unknown _ => ""

/-- The record that describes a shape in the given version and package. -/
def toRecord (s : Shape) (version : List Int32) (packageName : String) : Record :=
  let b := (Record.Builder.new s.kind.tag).setAll [.version version, .packageName packageName]
  let b := b.setAll [.payload s.payload.1, .strings s.payload.2]
  (b.set (.extraText s.facadeName)).build

end Shape

end ClassLedger
