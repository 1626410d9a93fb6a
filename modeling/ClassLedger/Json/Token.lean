/-!
# Tokens of a JSON text

A JSON text is a row of marks, words and strings with blanks between them.  A word is a literal or a number.  The
escapes of a string are checked here, but whether two of them form one character is left open, because a string that
nobody uses may hold half of one.
-/

namespace ClassLedger.Json

/-- A character of a string, or a 16-bit unit that was written as an escape. -/
inductive Piece where
  | char (c : Char)
  | unit (n : Nat)

/-- A token of a JSON text. -/
inductive Token where
  | listOpen
  | listClose
  | objectOpen
  | objectClose
  | comma
  | colon
  | null
  | bool (value : Bool)
  | number
  | text (pieces : List Piece)

/-- Where the lexer stands. -/
inductive Mode where
  | between
  /-- Inside a word, with its characters so far, the last one first. -/
  | word (before : List Char)
  /-- Inside a string, with its pieces so far, the last one first. -/
  | text (before : List Piece)
  /-- Behind a backslash in a string. -/
  | escape (before : List Piece)
  /-- Inside an escaped unit, with the digits that are missing and the value of those before. -/
  | unit (before : List Piece) (missing value : Nat)

/-- Whether a character separates tokens. -/
def isBlank (c : Char) : Bool := c = ' ' || c = '\n' || c = '\t' || c = '\r'

def isWordChar (c : Char) : Bool := c.isAlphanum || c = '+' || c = '-' || c = '.'

def mark? : Char → Option Token
  | '[' => some .listOpen
  | ']' => some .listClose
  | '\x7b' => some .objectOpen
  | '\x7d' => some .objectClose
  | ',' => some .comma
  | ':' => some .colon
  | _ => none

/-- The character for which a short escape stands. -/
def shortEscape? : Char → Option Char
  | '"' => some '"'
  | '\\' => some '\\'
  | '/' => some '/'
  | 'b' => some '\x08'
  | 'f' => some '\x0c'
  | 'n' => some '\n'
  | 'r' => some '\r'
  | 't' => some '\t'
  | _ => none

/-- The value of a hexadecimal digit. -/
def hexDigit? (c : Char) : Option Nat :=
  if '0' ≤ c ∧ c ≤ '9' then some (c.toNat - '0'.toNat)
  else if 'a' ≤ c ∧ c ≤ 'f' then some (c.toNat - 'a'.toNat + 10)
  else if 'A' ≤ c ∧ c ≤ 'F' then some (c.toNat - 'A'.toNat + 10)
  else none

/-! ### Numbers -/

/-- One digit at least, and the characters behind the digits. -/
def digits? (cs : List Char) : Option (List Char) :=
  match cs with
  | [] => none
  | c :: rest => if c.isDigit then some (rest.dropWhile Char.isDigit) else none

/-- Whether the characters are an exponent, or none at all. -/
def isExponent : List Char → Bool
  | [] => true
  | c :: rest =>
    (c = 'e' || c = 'E') &&
      match rest with
      | '+' :: cs | '-' :: cs => (digits? cs).any List.isEmpty
      | cs => (digits? cs).any List.isEmpty

/-- Whether the characters are a fraction and an exponent, both of which may be missing. -/
def isFraction : List Char → Bool
  | '.' :: rest =>
    match digits? rest with
    | some cs => isExponent cs
    | none => false
  | cs => isExponent cs

/-- Whether the characters are a number without a sign.  Only 0 starts with the digit 0. -/
def isUnsigned : List Char → Bool
  | '0' :: cs => isFraction cs
  | cs =>
    match digits? cs with
    | some cs => isFraction cs
    | none => false

def isNumber : List Char → Bool
  | '-' :: cs => isUnsigned cs
  | cs => isUnsigned cs

/-! ### Tokens -/

/-- The token for a word. -/
def word? (cs : List Char) : Option Token :=
  if cs = "null".toList then some .null
  else if cs = "true".toList then some (.bool true)
  else if cs = "false".toList then some (.bool false)
  else if isNumber cs then some .number
  else none

/-- What a character between two tokens does: perhaps a token, and the next mode. -/
def start? (c : Char) : Option (Option Token × Mode) :=
  if isBlank c then some (none, .between)
  else if c = '"' then some (none, .text [])
  else if isWordChar c then some (none, .word [c])
  else (mark? c).map fun t => (some t, .between)

/-- Reads tokens onto `tokens`, which have the last one first. -/
def lex (mode : Mode) (tokens : List Token) : List Char → Option (List Token)
  | [] =>
    match mode with
    | .between => some tokens.reverse
    | .word before => (word? before.reverse).map fun t => (t :: tokens).reverse
    | .text _ | .escape _ | .unit .. => none
  | c :: cs =>
    match mode with
    | .between => do
      let (token, mode) ← start? c
      lex mode (token.toList ++ tokens) cs
    | .word before =>
      if isWordChar c then lex (.word (c :: before)) tokens cs
      else do
        let t ← word? before.reverse
        let (token, mode) ← start? c
        lex mode (token.toList ++ t :: tokens) cs
    | .text before =>
      if c = '"' then lex .between (.text before.reverse :: tokens) cs
      else if c = '\\' then lex (.escape before) tokens cs
      else if c.toNat < 32 then none
      else lex (.text (.char c :: before)) tokens cs
    | .escape before =>
      if c = 'u' then lex (.unit before 4 0) tokens cs
      else do
        let e ← shortEscape? c
        lex (.text (.char e :: before)) tokens cs
    | .unit before missing value => do
      let digit ← hexDigit? c
      let value := value * 16 + digit
      if missing ≤ 1 then lex (.text (.unit value :: before)) tokens cs
      else lex (.unit before (missing - 1) value) tokens cs

/-- The tokens of a JSON text. -/
def tokens? (text : String) : Option (List Token) := lex .between [] text.toList

/-- The characters of a string, where a high and a low surrogate form one; a surrogate that is alone has none. -/
def characters? : List Piece → Option (List Char)
  | [] => some []
  | .char c :: rest => (characters? rest).map (c :: ·)
  | .unit n :: rest =>
    if n < 0xD800 ∨ 0xE000 ≤ n then (characters? rest).map (Char.ofNat n :: ·)
    else
      match rest with
      | .unit low :: rest =>
        if n < 0xDC00 ∧ 0xDC00 ≤ low ∧ low < 0xE000 then
          (characters? rest).map (Char.ofNat (0x10000 + (n - 0xD800) * 0x400 + (low - 0xDC00)) :: ·)
        else none
      | _ => none

end ClassLedger.Json
