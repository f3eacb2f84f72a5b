import Groovebox.Document.Numeral
/-! # JSON texts

Reading goes in two stages. `Raw.parse?` checks the grammar and keeps numbers and strings as they
are written; `Raw.toDocument?` gives them their values and limits how deep they nest. A reader
that skips a part of a text needs the first stage only. -/

namespace Groovebox

/-- One element of a string as it is written: a character, or a UTF-16 unit by its number. -/
inductive Piece
  | plain (c : Char)
  | unit (value : Nat)
deriving DecidableEq, Repr

/-- A JSON text by its grammar alone. -/
inductive Raw
  | null
  | bool (value : Bool)
  | number (value : Numeral)
  | str (pieces : List Piece)
  | arr (items : List Raw)
  | obj (members : List (List Piece × Raw))

namespace Piece

/-! ## Strings -/

/-- The value of a hexadecimal digit. -/
def hex? (c : Char) : Option Nat :=
  if '0' ≤ c ∧ c ≤ '9' then some (c.toNat - '0'.toNat)
  else if 'a' ≤ c ∧ c ≤ 'f' then some (c.toNat - 'a'.toNat + 10)
  else if 'A' ≤ c ∧ c ≤ 'F' then some (c.toNat - 'A'.toNat + 10)
  else none

/-- The UTF-16 unit that four hexadecimal digits stand for. -/
def unit? (a b c d : Char) : Option Piece := do
  return unit ((((← hex? a) * 16 + (← hex? b)) * 16 + (← hex? c)) * 16 + (← hex? d))

/-- The character that a backslash and a letter stand for. -/
def escape? : Char → Option Piece
  | '"' => some (plain '"')
  | '\\' => some (plain '\\')
  | '/' => some (plain '/')
  | 'b' => some (plain '\x08')
  | 'f' => some (plain '\x0c')
  | 'n' => some (plain '\n')
  | 'r' => some (plain '\r')
  | 't' => some (plain '\t')
  | _ => none

/-- The pieces of a string up to its closing quote, after those read already (the last one
first), and the text behind the quote. Control characters have to be escaped. -/
def scan? (read : List Piece) : List Char → Option (List Piece × List Char)
  | '"' :: rest => some (read.reverse, rest)
  | '\\' :: 'u' :: a :: b :: c :: d :: rest =>
    match unit? a b c d with
    | some piece => scan? (piece :: read) rest
    | none => none
  | '\\' :: e :: rest =>
    match escape? e with
    | some piece => scan? (piece :: read) rest
    | none => none
  | c :: rest => if c.toNat < 0x20 then none else scan? (plain c :: read) rest
  | [] => none

/-- Whether a unit is the first half of a pair. -/
def isHigh (u : Nat) : Bool := 0xD800 ≤ u && u ≤ 0xDBFF

/-- Whether a unit is the second half of a pair. -/
def isLow (u : Nat) : Bool := 0xDC00 ≤ u && u ≤ 0xDFFF

/-- The characters that pieces stand for, after those known already (the last one first); a half
of a pair that stands alone has none. -/
def assemble? (known : List Char) : List Piece → Option (List Char)
  | [] => some known.reverse
  | plain c :: rest => assemble? (c :: known) rest
  | unit u :: unit v :: rest =>
    if isHigh u then
      if isLow v then
        assemble? (Char.ofNat (0x10000 + (u - 0xD800) * 0x400 + (v - 0xDC00)) :: known) rest
      else none
    else if isLow u then none
    else assemble? (Char.ofNat u :: known) (unit v :: rest)
  | unit u :: rest =>
    if isHigh u || isLow u then none else assemble? (Char.ofNat u :: known) rest

/-- The text that pieces stand for. -/
def text? (pieces : List Piece) : Option String :=
  (assemble? [] pieces).map String.ofList

end Piece

namespace Raw

/-! ## Grammar -/

/-- Whether a character may stand between the parts of a text. -/
def isBlank (c : Char) : Bool :=
  c == ' ' || c == '\t' || c == '\n' || c == '\r'

/-- The text without its leading blanks. -/
def skip (cs : List Char) : List Char :=
  cs.dropWhile isBlank

mutual

/-- The value a text starts with and the text after it. The fuel bounds the calls made below this
one; two for each character are enough. -/
def value? : Nat → List Char → Option (Raw × List Char)
  | 0, _ => none
  | fuel + 1, cs =>
    match skip cs with
    | 'n' :: 'u' :: 'l' :: 'l' :: rest => some (null, rest)
    | 't' :: 'r' :: 'u' :: 'e' :: rest => some (bool true, rest)
    | 'f' :: 'a' :: 'l' :: 's' :: 'e' :: rest => some (bool false, rest)
    | '"' :: rest => (Piece.scan? [] rest).map fun (pieces, rest) => (str pieces, rest)
    | '[' :: rest =>
      match skip rest with
      | ']' :: rest => some (arr [], rest)
      | rest => (items? fuel rest).map fun (items, rest) => (arr items, rest)
    | '{' :: rest =>
      match skip rest with
      | '}' :: rest => some (obj [], rest)
      | rest => (members? fuel rest).map fun (members, rest) => (obj members, rest)
    | rest => (Numeral.scan? rest).map fun (x, rest) => (number x, rest)

/-- One or more values up to the end of their array, and the text after it. -/
def items? : Nat → List Char → Option (List Raw × List Char)
  | 0, _ => none
  | fuel + 1, cs =>
    match value? fuel cs with
    | none => none
    | some (item, rest) =>
      match skip rest with
      | ']' :: rest => some ([item], rest)
      | ',' :: rest => (items? fuel rest).map fun (items, rest) => (item :: items, rest)
      | _ => none

/-- One or more members up to the end of their object, and the text after it. -/
def members? : Nat → List Char → Option (List (List Piece × Raw) × List Char)
  | 0, _ => none
  | fuel + 1, cs =>
    match skip cs with
    | '"' :: rest =>
      match Piece.scan? [] rest with
      | none => none
      | some (name, rest) =>
        match skip rest with
        | ':' :: rest =>
          match value? fuel rest with
          | none => none
          | some (value, rest) =>
            match skip rest with
            | '}' :: rest => some ([(name, value)], rest)
            | ',' :: rest =>
              (members? fuel rest).map fun (members, rest) => ((name, value) :: members, rest)
            | _ => none
        | _ => none
    | _ => none

end

/-- The value that a whole text holds; nothing but blanks may follow it. -/
def parse? (text : String) : Option Raw :=
  let cs := text.toList
  match value? (2 * cs.length + 2) cs with
  | some (value, rest) => if (skip rest).isEmpty then some value else none
  | none => none

/-! ## Values -/

mutual

/-- The document that a text stands for, if brackets nest no deeper than `room`. -/
def toDocument? (room : Nat) : Raw → Option Document
  | null => some .null
  | bool value => some (.bool value)
  | number value => value.toDocument?
  | str pieces => (Piece.text? pieces).map .str
  | arr items =>
    if room = 0 then none else (itemDocuments? (room - 1) items).map .arr
  | obj members =>
    if room = 0 then none else (memberDocuments? (room - 1) members).map .ofMembers

/-- The documents of the items of an array. -/
def itemDocuments? (room : Nat) : List Raw → Option (List Document)
  | [] => some []
  | item :: rest => do
    let item ← toDocument? room item
    let rest ← itemDocuments? room rest
    return item :: rest

/-- The documents of the members of an object. -/
def memberDocuments? (room : Nat) : List (List Piece × Raw) → Option (List (String × Document))
  | [] => some []
  | (name, value) :: rest => do
    let name ← Piece.text? name
    let value ← toDocument? room value
    let rest ← memberDocuments? room rest
    return (name, value) :: rest

end

end Raw

namespace Document

/-- How deep brackets may nest in a file. -/
def maxDepth : Nat := 127

/-- The document that a text holds, if brackets nest no deeper than `room`. -/
def parseWithin? (room : Nat) (text : String) : Option Document :=
  (Raw.parse? text).bind (Raw.toDocument? room)

/-- The document that the text of a file holds. -/
def parse? (text : String) : Option Document :=
  parseWithin? maxDepth text

end Document
end Groovebox
