import CnfSolver.Formula
import CnfSolver.Journal
import CnfSolver.Text

/-!
# DIMACS

The usual text form of formulas, read and written.
-/

namespace CnfSolver.Dimacs

open Text

/-!
## Errors

Why a text is not a formula, or why there is no text. Lines are counted from one.
-/

/-- Why input cannot be read. -/
inductive ReadFailure where
  /-- A line is not valid UTF-8. -/
  | notText
  | notFound
  /-- A part of the path that should be a directory is a file. -/
  | notDirectory
  /-- The path, or a name in it, is longer than a file system admits. -/
  | nameTooLong
  deriving DecidableEq, Repr

def ReadFailure.message : ReadFailure → String
  | notText => "stream did not contain valid UTF-8"
  | notFound => "No such file or directory (os error 2)"
  | notDirectory => "Not a directory (os error 20)"
  | nameTooLong => "File name too long (os error 36)"

inductive Error where
  | unreadable (failure : ReadFailure)
  /-- Clauses come before the first header, or there is no header at all. -/
  | missingHeader (line : Nat)
  | invalidHeader (line : Nat) (text : String)
  | invalidLiteral (line : Nat) (token : String)
  /-- A literal is on a variable above the declared number of variables. -/
  | varOutOfRange (line var declared : Nat)
  deriving DecidableEq, Repr

def Error.message : Error → String
  | unreadable failure => "failed to read input: " ++ failure.message
  | missingHeader line => s!"line {line}: clause data before the `p cnf` header"
  | invalidHeader line text => s!"line {line}: invalid problem line `{text}`"
  | invalidLiteral line token => s!"line {line}: invalid literal `{token}`"
  | varOutOfRange line var declared =>
      s!"line {line}: variable {var} exceeds the declared {declared} variables"

/-!
## Reading

A line is told by its first character that is no blank: `c` is a comment, `p` a
header, `%` the end of the data, and anything else holds literals, a zero after
each clause. A clause may run over several lines, and the last one may lack its
zero. Literals must be on variables that the latest header declares. Another
number of clauses than declared is only noted in the journal.
-/

structure Header where
  numVars : Nat
  numClauses : Nat
  deriving DecidableEq, Repr

/-- What a line holds. The text is that from the first character that is no
blank on. -/
inductive Line where
  | blank
  | comment
  | ending
  | header (text : List Char)
  | literals (text : List Char)
  deriving DecidableEq, Repr

def classify (line : List Char) : Line :=
  match trimStart line with
  | [] => .blank
  | 'c' :: _ => .comment
  | '%' :: _ => .ending
  | 'p' :: rest => .header ('p' :: rest)
  | text => .literals text

/-- The header on a line: four words, of which the second is `cnf` and the last
two are counts. -/
def readHeader? (text : List Char) : Option Header :=
  match words text with
  | [_, format, vars, clauses] =>
      if format = ['c', 'n', 'f'] then
        match readCount vars, readCount clauses with
        | .ok numVars, .ok numClauses => some ⟨numVars, numClauses⟩
        | _, _ => none
      else none
  | _ => none

/-- The input read so far: the latest header and the clauses. -/
structure Progress where
  header : Option Header
  collector : Collector
  deriving DecidableEq, Repr

/-- Read a literal that is on one of the declared variables, or zero. -/
def readToken (line declared : Nat) (collector : Collector) (token : List Char) :
    Except Error Collector :=
  match readLiteral token with
  | .error _ => .error (.invalidLiteral line (String.ofList token))
  | .ok literal =>
      if declared < literal.natAbs then .error (.varOutOfRange line literal.natAbs declared)
      else .ok (collector.add literal)

def readLiterals (line : Nat) (progress : Progress) (text : List Char) : Except Error Progress :=
  match progress.header with
  | none => .error (.missingHeader line)
  | some header =>
      ((words text).foldlM (readToken line header.numVars) progress.collector).map fun collector =>
        { progress with collector := collector }

/-- Read lines after the first `count` ones. The result also tells how many lines
were read. -/
def readLines (count : Nat) (progress : Progress) :
    List (Option (List Char)) → Except Error (Progress × Nat)
  | [] => .ok (progress, count)
  | none :: _ => .error (.unreadable .notText)
  | some line :: rest =>
      match classify line with
      | .blank => readLines (count + 1) progress rest
      | .comment => readLines (count + 1) progress rest
      | .ending => .ok (progress, count + 1)
      | .header text =>
          match readHeader? text with
          | none => .error (.invalidHeader (count + 1) (String.ofList text))
          | some header => readLines (count + 1) { progress with header := some header } rest
      | .literals text =>
          match readLiterals (count + 1) progress text with
          | .error error => .error error
          | .ok next => readLines (count + 1) next rest

/-- A formula with what was noted while reading it. -/
structure Document where
  formula : Formula
  journal : Journal
  deriving DecidableEq, Repr

/-- The formula of a complete input of `count` lines. -/
def Progress.finish (progress : Progress) (count : Nat) : Except Error Document :=
  match progress.header with
  | none => .error (.missingHeader count)
  | some header =>
      let clauses := progress.collector.finish
      .ok
        { formula := Formula.ofClauses header.numVars clauses
          journal :=
            if clauses.length = header.numClauses then #[]
            else #[.clauseCount header.numClauses clauses.length] }

def parseLines (lines : List (Option (List Char))) : Except Error Document :=
  match readLines 0 ⟨none, .empty⟩ lines with
  | .error error => .error error
  | .ok (progress, count) => progress.finish count

def parse (text : String) : Except Error Document := parseLines ((lines text.toList).map some)

def parseBytes (bytes : ByteArray) : Except Error Document := parseLines (byteLines bytes)

/-!
## Writing

A header with the number of variables and of clauses, then each clause on a line
of its own, closed by a zero.
-/

def writeHeader (numVars numClauses : Nat) : String := s!"p cnf {numVars} {numClauses}\n"

def writeClause (clause : List Int) : String := renderLiterals clause ++ "\n"

def write (formula : Formula) : String :=
  writeHeader formula.numVars formula.numClauses ++
    String.join (formula.clauses.map writeClause)

end CnfSolver.Dimacs
