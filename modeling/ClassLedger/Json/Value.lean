import ClassLedger.Json.Token

/-!
# JSON values

A value is built from tokens with the containers that are still open held in a list, so values may be nested to any
depth.  Strings keep the form in which the lexer leaves them, and numbers are not kept at all.
-/

namespace ClassLedger.Json

/-- A JSON value. -/
inductive Value where
  | null
  | bool (value : Bool)
  | number
  | text (pieces : List Piece)
  | list (items : List Value)
  | object (entries : List (List Piece × Value))

/-- A container that is still open; its contents have the last one first. -/
inductive Container where
  | list (items : List Value)
  /-- An object with the key to which the next value belongs. -/
  | object (entries : List (List Piece × Value)) (key : List Piece)

/-- What may come next. -/
inductive Place where
  | value
  /-- A value, or the end of the list. -/
  | firstItem
  /-- A key, or the end of the object. -/
  | firstKey (entries : List (List Piece × Value))
  | key (entries : List (List Piece × Value))
  | colon (entries : List (List Piece × Value)) (key : List Piece)
  /-- A value is complete. -/
  | complete (value : Value)

/-- The place behind an opening mark or a token that is a value. -/
def begin? : Token → Option Place
  | .null => some (.complete .null)
  | .bool value => some (.complete (.bool value))
  | .number => some (.complete .number)
  | .text pieces => some (.complete (.text pieces))
  | .listOpen => some .firstItem
  | .objectOpen => some (.firstKey [])
  | .listClose | .objectClose | .comma | .colon => none

/-- The containers that are open at a place: a list that was just opened is one more. -/
def Place.opened (open_ : List Container) : Place → List Container
  | firstItem => .list [] :: open_
  | _ => open_

/-- One token: the open containers and the place after it. -/
def advance? (open_ : List Container) (place : Place) (t : Token) : Option (List Container × Place) :=
  match place, t with
  | .firstItem, .listClose =>
    match open_ with
    | .list items :: rest => some (rest, .complete (.list items.reverse))
    | _ => none
  | .value, t | .firstItem, t => (begin? t).map fun p => (p.opened open_, p)
  | .firstKey entries, .objectClose => some (open_, .complete (.object entries.reverse))
  | .firstKey entries, .text key | .key entries, .text key => some (open_, .colon entries key)
  | .colon entries key, .colon => some (.object entries key :: open_, .value)
  | .complete v, t =>
    match open_, t with
    | .list items :: rest, .comma => some (.list (v :: items) :: rest, .value)
    | .list items :: rest, .listClose => some (rest, .complete (.list (v :: items).reverse))
    | .object entries key :: rest, .comma => some (rest, .key ((key, v) :: entries))
    | .object entries key :: rest, .objectClose => some (rest, .complete (.object ((key, v) :: entries).reverse))
    | _, _ => none
  | _, _ => none

/-- The value in a row of tokens. -/
def build? (open_ : List Container) (place : Place) : List Token → Option Value
  | [] =>
    match open_, place with
    | [], .complete v => some v
    | _, _ => none
  | t :: rest => do
    let (open_, place) ← advance? open_ place t
    build? open_ place rest

/-- The value that a JSON text holds. -/
def value? (text : String) : Option Value := do
  let tokens ← tokens? text
  build? [] .value tokens

namespace Value

/-- The string of a text value. -/
def asString? : Value → Option String
  | text pieces => (characters? pieces).map String.ofList
  | _ => none

def asBool? : Value → Option Bool
  | bool value => some value
  | _ => none

/-- The strings of a list of texts. -/
def asStrings? : Value → Option (List String)
  | list items => items.mapM asString?
  | _ => none

end Value

end ClassLedger.Json
