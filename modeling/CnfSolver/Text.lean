import CnfSolver.Basic

/-!
# Reading text

What the readers are made of: blanks and words, lines, numerals, clauses that a
zero ends, and values with a name. The plainest reader follows: clauses as text
without a header.
-/

namespace CnfSolver

namespace Text

/-!
## Blanks

The characters with the white space property: tabulators, line breaks, spaces of
every width, and the separators of lines and paragraphs. Words are the maximal
runs of other characters.
-/

/-- The first and last code points of each run of blanks. -/
def blankRanges : List (Nat × Nat) :=
  [(0x9, 0xD), (0x20, 0x20), (0x85, 0x85), (0xA0, 0xA0), (0x1680, 0x1680), (0x2000, 0x200A),
    (0x2028, 0x2029), (0x202F, 0x202F), (0x205F, 0x205F), (0x3000, 0x3000)]

def isBlank (char : Char) : Bool :=
  blankRanges.any fun range => range.1 ≤ char.toNat && char.toNat ≤ range.2

/-- The text without the blanks at its start. -/
def trimStart (text : List Char) : List Char := text.dropWhile isBlank

/-- The words of a text. -/
def words (text : List Char) : List (List Char) :=
  (text.splitOnP isBlank).filter fun word => !word.isEmpty

/-!
## Lines

A text is cut into lines at each line feed; a carriage return directly before it
belongs to the line break. The last line may lack its line feed, and then keeps a
carriage return. Bytes are cut in the same way, and each line is decoded on its
own, so a line that is not valid UTF-8 leaves the lines before it readable.
-/

section

variable {Symbol : Type} [DecidableEq Symbol]

/-- The line without the symbol `carriageReturn` at its end. -/
def dropReturn (carriageReturn : Symbol) (line : List Symbol) : List Symbol :=
  if line.getLast? = some carriageReturn then line.dropLast else line

/-- The lines of a sequence of symbols. -/
def cutLines (lineFeed carriageReturn : Symbol) (text : List Symbol) : List (List Symbol) :=
  let parts := text.splitOn lineFeed
  parts.dropLast.map (dropReturn carriageReturn) ++
    parts.getLast?.toList.filter fun line => !line.isEmpty

end

/-- The text with every line after the first moved in by some spaces. -/
def hang (width : Nat) (text : List Char) : List Char :=
  text.flatMap fun char => if char = '\n' then '\n' :: List.replicate width ' ' else [char]

/-- The lines of a text. -/
def lines (text : List Char) : List (List Char) := cutLines '\n' '\r' text

/-- The characters that a sequence of bytes encodes in UTF-8. -/
def decode? (bytes : List UInt8) : Option (List Char) :=
  (String.fromUTF8? ⟨bytes.toArray⟩).map String.toList

/-- The lines of a sequence of bytes, each if it can be decoded. -/
def byteLines (bytes : ByteArray) : List (Option (List Char)) :=
  (cutLines 10 13 bytes.data.toList).map decode?

/-!
## Numerals

Decimal integers within bounds: an optional sign and one or more digits, leading
zeros allowed. A minus sign is read only where the bounds admit negative numbers.
Digits are read from the left, and the first of them that is no digit or leaves
the bounds decides the error.
-/

inductive NumeralError where
  | empty
  | invalidDigit
  | tooLarge
  | tooSmall
  deriving DecidableEq, Repr

def NumeralError.message : NumeralError → String
  | empty => "cannot parse integer from empty string"
  | invalidDigit => "invalid digit found in string"
  | tooLarge => "number too large to fit in target type"
  | tooSmall => "number too small to fit in target type"

/-- The integers from `least` to `greatest`. -/
structure Bounds where
  least : Int
  greatest : Int
  deriving DecidableEq, Repr

namespace Bounds

def signed32 : Bounds := ⟨-(words32 / 2 : Nat), (words32 / 2 : Nat) - 1⟩

def unsigned64 : Bounds := ⟨0, words64 - 1⟩

end Bounds

def digitValue (char : Char) : Nat := char.toNat - '0'.toNat

/-- Read digits after the number `value`, each counted with the sign. -/
def readDigits (bounds : Bounds) (sign value : Int) : List Char → Except NumeralError Int
  | [] => .ok value
  | char :: rest =>
      if char.isDigit then
        let next := value * 10 + sign * digitValue char
        if bounds.greatest < next then .error .tooLarge
        else if next < bounds.least then .error .tooSmall
        else readDigits bounds sign next rest
      else .error .invalidDigit

def readInteger (bounds : Bounds) (text : List Char) : Except NumeralError Int :=
  match text with
  | [] => .error .empty
  | ['+'] => .error .invalidDigit
  | ['-'] => .error .invalidDigit
  | '+' :: digits => readDigits bounds 1 0 digits
  | '-' :: digits =>
      if bounds.least < 0 then readDigits bounds (-1) 0 digits else .error .invalidDigit
  | digits => readDigits bounds 1 0 digits

/-- Read a literal: an integer of 32 bits. -/
def readLiteral (text : List Char) : Except NumeralError Int := readInteger .signed32 text

/-- Read a count: an integer of 64 bits without a sign. -/
def readCount (text : List Char) : Except NumeralError Nat :=
  (readInteger .unsigned64 text).map Int.toNat

/-!
## Clauses from a stream of literals

Literals follow each other, and a zero ends a clause. Literals after the last
zero form a clause too.
-/

/-- The clauses that are complete and the literals of the next one. -/
structure Collector where
  clauses : Array (List Int)
  current : Array Int
  deriving DecidableEq, Repr

namespace Collector

def empty : Collector := ⟨#[], #[]⟩

/-- Take the next literal. -/
def add (collector : Collector) (literal : Int) : Collector :=
  if literal = 0 then ⟨collector.clauses.push collector.current.toList, #[]⟩
  else { collector with current := collector.current.push literal }

/-- The clauses at the end of the stream. -/
def finish (collector : Collector) : List (List Int) :=
  if collector.current.isEmpty then collector.clauses.toList
  else collector.clauses.toList ++ [collector.current.toList]

end Collector

/-!
## Values chosen by name

A closed choice lists its values, each with a name. Reading a name picks the
first value that has it, on demand without regard to the case of the letters
`A` to `Z`.
-/

/-- A text that names none of the values. -/
structure UnknownChoice where
  text : String
  deriving DecidableEq, Repr

def UnknownChoice.message (unknown : UnknownChoice) : String :=
  "invalid variant: " ++ unknown.text

/-- Whether two names are the same. -/
def sameName (ignoreCase : Bool) (first second : String) : Bool :=
  if ignoreCase then first.map Char.toLower == second.map Char.toLower else first == second

/-- The value that a text names. -/
def choose {Value : Type} (values : List Value) (name : Value → String) (ignoreCase : Bool)
    (text : String) : Except UnknownChoice Value :=
  match values.find? fun value => sameName ignoreCase (name value) text with
  | some value => .ok value
  | none => .error ⟨text⟩

end Text

/-!
## Clauses as plain text

Literals separated by blanks, a zero after each clause. Lines that start with `c`
or `p` are skipped. A backslash followed by `n` stands for a line break.
-/

namespace ClauseText

open Text

/-- Put a line break for each backslash followed by `n`. -/
def expandBreaks : List Char → List Char
  | '\\' :: 'n' :: rest => '\n' :: expandBreaks rest
  | char :: rest => char :: expandBreaks rest
  | [] => []

/-- Whether a line holds no clauses: a comment or a header. -/
def isSkipped (line : List Char) : Bool :=
  match trimStart line with
  | 'c' :: _ => true
  | 'p' :: _ => true
  | _ => false

def readWord (collector : Collector) (word : List Char) : Except NumeralError Collector :=
  (readLiteral word).map collector.add

def readLine (collector : Collector) (line : List Char) : Except NumeralError Collector :=
  if isSkipped line then .ok collector else (words line).foldlM readWord collector

def parse (text : String) : Except NumeralError (List (List Int)) :=
  ((lines (expandBreaks text.toList)).foldlM readLine .empty).map Collector.finish

end ClauseText

end CnfSolver
