import Groovebox.Word
/-! # Words, lines and numbers

How typed and transmitted text is cut into lines and words, and which words are numbers. -/

namespace Groovebox.Text

/-! ## Blanks and words -/

/-- The characters with the Unicode property White_Space. -/
def isBlank (c : Char) : Bool :=
  let n := c.toNat
  (9 ≤ n && n ≤ 13) || n == 0x20 || n == 0x85 || n == 0xA0 || n == 0x1680 ||
    (0x2000 ≤ n && n ≤ 0x200A) || n == 0x2028 || n == 0x2029 || n == 0x202F || n == 0x205F ||
    n == 0x3000

/-- The text without the blanks at its ends. -/
def trim (text : String) : String :=
  String.ofList ((text.toList.dropWhile isBlank).reverse.dropWhile isBlank).reverse

/-- The words of a text after the characters of a word that is still open (the last one first). -/
def wordsFrom (word : List Char) : List Char → List String
  | [] => if word.isEmpty then [] else [String.ofList word.reverse]
  | c :: rest =>
    if isBlank c then
      if word.isEmpty then wordsFrom [] rest
      else String.ofList word.reverse :: wordsFrom [] rest
    else wordsFrom (c :: word) rest

/-- The words of a text, which blanks separate. -/
def words (text : String) : List String :=
  wordsFrom [] text.toList

/-! ## Lines -/

/-- The lines of a text after the characters of a line that is still open (the last one first). -/
def linesFrom (line : List Char) : List Char → List String
  | [] => if line.isEmpty then [] else [String.ofList line.reverse]
  | '\n' :: rest =>
    let line := match line with
      | '\r' :: before => before
      | line => line
    String.ofList line.reverse :: linesFrom [] rest
  | c :: rest => linesFrom (c :: line) rest

/-- The lines of a text. A line feed ends a line, together with a carriage return in front of it;
nothing after the last line feed is no line. -/
def lines (text : String) : List String :=
  linesFrom [] text.toList

/-! ## Numbers -/

/-- The number that decimal digits stand for; there is at least one. -/
def digits? (cs : List Char) : Option Nat :=
  if cs.isEmpty || !cs.all Char.isDigit then none else some (Nat.ofDigitChars 10 cs 0)

/-- A whole number without a minus sign, `hi` at most. -/
def nat? (hi : Nat) (word : String) : Option Nat :=
  let n := match word.toList with
    | '+' :: rest => digits? rest
    | cs => digits? cs
  n.filter (· ≤ hi)

/-- A whole number that 64 bits with sign can hold. -/
def int64? (word : String) : Option Int :=
  let n : Option Int := match word.toList with
    | '+' :: rest => (digits? rest).map Int.ofNat
    | '-' :: rest => (digits? rest).map fun n => -(n : Int)
    | cs => (digits? cs).map Int.ofNat
  n.bind Word.int64?

end Groovebox.Text
