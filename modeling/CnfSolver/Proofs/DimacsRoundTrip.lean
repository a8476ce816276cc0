import CnfSolver.Dimacs
import CnfSolver.Proofs.DimacsGrammar
import CnfSolver.Proofs.Numerals
import Mathlib.Data.List.Flatten
import Mathlib.Data.List.TakeWhile

/-!
# Written formulas are read back

A written formula is a problem line and a line for each clause, each of them words
with a space between them. The words are numerals, which are read back exactly within
the bounds of their types. So a text that was written is grammatical, and reading it
gives the formula itself. A formula that was read from any text is within the bounds
again, so it can be written and read any number of times. Lists of clauses and texts
are taken to have a length that a count of 64 bits can hold.
-/

namespace CnfSolver

open Text

namespace Text

/-! ## Numerals are words -/

theorem isBlank_of_isDigit {char : Char} (isDigit : char.isDigit = true) :
    isBlank char = false := by
  rw [Char.isDigit_iff_toNat] at isDigit
  have least : '0'.toNat = 48 := rfl
  have greatest : '9'.toNat = 57 := rfl
  simp [isBlank, blankRanges]
  omega

theorem isWord_decimal (number : Nat) : IsWord (Nat.toDigits 10 number) := by
  obtain ⟨char, rest, parts, _, _, areDigits⟩ := decimal_cases number
  rw [parts]
  exact ⟨by simp, fun other member => isBlank_of_isDigit (areDigits other member)⟩

theorem isWord_numeral (literal : Int) : IsWord (numeral literal) := by
  have isWord := isWord_decimal literal.natAbs
  rw [numeral_eq]
  split
  next negative => exact ⟨by simp, List.forall_mem_cons.mpr ⟨by decide, isWord.noBlank⟩⟩
  next positive => exact isWord

end Text

namespace Dimacs

/-! ## What is written -/

/-- The words of the problem line. -/
def headerWords (numVars numClauses : Nat) : List (List Char) :=
  [['p'], ['c', 'n', 'f'], Nat.toDigits 10 numVars, Nat.toDigits 10 numClauses]

/-- The words of the line of a clause. -/
def clauseWords (clause : List Int) : List (List Char) := (clause ++ [0]).map numeral

/-- The words of a written formula, line by line. -/
def writtenWords (formula : Formula) : List (List (List Char)) :=
  headerWords formula.numVars formula.numClauses :: formula.clauses.map clauseWords

theorem toList_writeHeader (numVars numClauses : Nat) :
    (writeHeader numVars numClauses).toList =
      spaced (headerWords numVars numClauses) ++ ['\n'] := by
  simp [writeHeader, headerWords, spaced_cons_cons, ToString.toString]

theorem toList_writeClause (clause : List Int) :
    (writeClause clause).toList = spaced (clauseWords clause) ++ ['\n'] := by
  have zero : (Int.repr 0).toList = ['0'] := rfl
  simp [writeClause, renderLiterals, clauseWords, spaced_concat, String.toList_join,
    List.flatMap_map, numeral, ToString.toString, zero]

theorem toList_write (formula : Formula) :
    (write formula).toList =
      ((writtenWords formula).map spaced).flatMap fun row => row ++ ['\n'] := by
  simp [write, writtenWords, toList_writeHeader, toList_writeClause, String.toList_join,
    List.flatMap_map]

theorem isWord_of_mem_headerWords {numVars numClauses : Nat} {word : List Char}
    (member : word ∈ headerWords numVars numClauses) : IsWord word := by
  simp only [headerWords, List.mem_cons, List.not_mem_nil, or_false] at member
  rcases member with rfl | rfl | rfl | rfl
  · decide
  · decide
  · exact isWord_decimal _
  · exact isWord_decimal _

theorem isWord_of_mem_writtenWords {formula : Formula} {row : List (List Char)}
    (isRow : row ∈ writtenWords formula) {word : List Char} (member : word ∈ row) :
    IsWord word := by
  rcases List.mem_cons.mp isRow with rfl | isClause
  · exact isWord_of_mem_headerWords member
  · obtain ⟨clause, _, rfl⟩ := List.mem_map.mp isClause
    obtain ⟨literal, _, rfl⟩ := List.mem_map.mp member
    exact isWord_numeral literal

/-! ## The kinds of the lines that are written -/

theorem leading?_spaced {char : Char} {word : List Char} (isWord : IsWord (char :: word))
    (rest : List (List Char)) : leading? (spaced ((char :: word) :: rest)) = some char := by
  have notBlank := isWord.noBlank char List.mem_cons_self
  cases rest with
  | nil => simp [leading?, notBlank]
  | cons next rest => simp [leading?, spaced_cons_cons, notBlank]

theorem isProblem_headerWords (numVars numClauses : Nat) :
    isProblem (spaced (headerWords numVars numClauses)) = true := by
  have isWord : IsWord ['p'] := by decide
  simp [isProblem, headerWords, leading?_spaced isWord]

theorem declares_headerWords {numVars numClauses : Nat} (small : numVars < words64)
    (few : numClauses < words64) :
    Declares (spaced (headerWords numVars numClauses)) ⟨numVars, numClauses⟩ := by
  refine ⟨['p'], Nat.toDigits 10 numVars, Nat.toDigits 10 numClauses, ?_,
    readCount_decimal small, readCount_decimal few⟩
  exact words_spaced fun word member => isWord_of_mem_headerWords member

/-- The first character of a literal does not tell another kind of line. -/
theorem numeral_cases (literal : Int) :
    ∃ char word, numeral literal = char :: word ∧ char ≠ 'c' ∧ char ≠ 'p' ∧ char ≠ '%' := by
  obtain ⟨char, word, digits, _, _, areDigits⟩ := decimal_cases literal.natAbs
  have isDigit := areDigits char List.mem_cons_self
  rw [numeral_eq, digits]
  split
  next negative => exact ⟨'-', char :: word, rfl, by decide, by decide, by decide⟩
  next positive =>
    refine ⟨char, word, rfl, ?_, ?_, ?_⟩ <;>
    · rintro rfl
      cases isDigit

theorem isData_clauseWords (clause : List Int) : isData (spaced (clauseWords clause)) = true := by
  obtain ⟨literal, rest, parts⟩ := List.exists_cons_of_ne_nil (l := clause ++ [0]) (by simp)
  obtain ⟨char, word, form, kind⟩ := numeral_cases literal
  have isWord := isWord_numeral literal
  rw [form] at isWord
  apply isData_iff.mpr
  refine ⟨char, ?_, kind⟩
  simp [clauseWords, parts, form, leading?_spaced isWord]

section Rows

variable {rows : List (List Char)} {header : Header}

/-- Data lines on the variables of the header in force violate nothing. -/
theorem violationsAfter_of_inForce? {earlier : List (List Char)}
    (inForce : inForce? earlier = some header)
    (noProblems : ∀ line ∈ rows, isProblem line = false)
    (bounded : ∀ line ∈ rows, isData line = true → ∀ token ∈ words line, ∃ literal,
      readLiteral token = .ok literal ∧ literal.natAbs ≤ header.numVars) :
    violationsAfter earlier rows = [] := by
  induction rows generalizing earlier with
  | nil => rfl
  | cons line rest ih =>
    obtain ⟨noProblem, noProblemsRest⟩ := List.forall_mem_cons.mp noProblems
    obtain ⟨boundedHere, boundedRest⟩ := List.forall_mem_cons.mp bounded
    obtain ⟨problem, latest, _⟩ := inForce?_eq_some_iff.mp inForce
    have stillInForce : inForce? (earlier ++ [line]) = some header := by
      simpa [inForce?_concat, noProblem] using inForce
    apply List.append_eq_nil_iff.mpr
    refine ⟨?_, ih stillInForce noProblemsRest boundedRest⟩
    apply lineViolations_eq_nil_iff.mpr
    refine ⟨by simp [noProblem], fun isData => ⟨⟨problem, mem_of_latestProblem? latest⟩, ?_⟩⟩
    intro token member
    obtain ⟨literal, read, small⟩ := boundedHere isData token member
    refine ⟨literal, read, ?_⟩
    intro other otherInForce
    cases inForce.symm.trans otherInForce
    exact small

variable {problem : List Char}

theorem inForce?_cons (leads : isProblem problem = true) (declares : Declares problem header)
    (noProblems : ∀ line ∈ rows, isProblem line = false) :
    inForce? (problem :: rows) = some header := by
  have others : rows.filter isProblem = [] := by
    apply List.filter_eq_nil_iff.mpr
    intro line member
    simp [noProblems line member]
  apply inForce?_eq_some_iff.mpr
  exact ⟨problem, by simp [latestProblem?, leads, others], declares⟩

/-- A problem line and after it data lines on its variables, and lines that hold nothing. -/
theorem grammatical_cons (leads : isProblem problem = true) (declares : Declares problem header)
    (noProblems : ∀ line ∈ rows, isProblem line = false)
    (bounded : ∀ line ∈ rows, isData line = true → ∀ token ∈ words line, ∃ literal,
      readLiteral token = .ok literal ∧ literal.natAbs ≤ header.numVars) :
    Grammatical (problem :: rows) := by
  have inForce : inForce? [problem] = some header := inForce?_cons leads declares (by simp)
  apply grammatical_iff.mpr
  refine ⟨?_, by simp [leads]⟩
  apply List.append_eq_nil_iff.mpr
  refine ⟨?_, violationsAfter_of_inForce? inForce noProblems bounded⟩
  simp [lineViolations, leads, readHeader?_eq_some_iff.mpr declares]

end Rows

/-! ## Reading back -/

/-- Numbers and literals fit their types, and literals are on the variables of the formula. -/
structure Writable (formula : Formula) : Prop where
  numVars : formula.numVars < words64
  numClauses : formula.numClauses < words64
  literals : ∀ clause ∈ formula.clauses, ∀ literal ∈ clause,
    literal ≠ 0 ∧ Bounds.signed32.Admits literal ∧ literal.natAbs ≤ formula.numVars

section Write

variable {formula : Formula}

theorem words_clauseWords (clause : List Int) :
    words (spaced (clauseWords clause)) = clauseWords clause := by
  apply words_spaced
  intro word member
  obtain ⟨literal, _, rfl⟩ := List.mem_map.mp member
  exact isWord_numeral literal

theorem body_write : body (write formula).toList = (writtenWords formula).map spaced := by
  have areWords : ∀ row ∈ writtenWords formula, ∀ word ∈ row, IsWord word :=
    fun _ isRow _ member => isWord_of_mem_writtenWords isRow member
  unfold body beforeEnding
  rw [toList_write, lines_spaced areWords]
  apply List.takeWhile_eq_self_iff.mpr
  intro line member
  obtain ⟨row, isRow, rfl⟩ := List.mem_map.mp member
  rcases List.mem_cons.mp isRow with rfl | isClause
  · simp [isEnding_of_isProblem (isProblem_headerWords _ _)]
  · obtain ⟨clause, _, rfl⟩ := List.mem_map.mp isClause
    simp [isEnding_of_isData (isData_clauseWords clause)]

theorem Writable.declares (writable : Writable formula) :
    Declares (spaced (headerWords formula.numVars formula.numClauses))
      ⟨formula.numVars, formula.numClauses⟩ :=
  declares_headerWords writable.numVars writable.numClauses

theorem Writable.bounded (writable : Writable formula) {clause : List Int}
    (isClause : clause ∈ formula.clauses) {literal : Int} (member : literal ∈ clause ++ [0]) :
    readLiteral (numeral literal) = .ok literal ∧ literal.natAbs ≤ formula.numVars := by
  rcases List.mem_append.mp member with isLiteral | isZero
  · obtain ⟨_, admitted, bounded⟩ := writable.literals clause isClause literal isLiteral
    exact ⟨readLiteral_numeral admitted, bounded⟩
  · cases List.mem_singleton.mp isZero
    exact ⟨readLiteral_numeral (by decide), Nat.zero_le _⟩

theorem tokens_writtenWords :
    tokens ((writtenWords formula).map spaced) = formula.clauses.flatMap clauseWords := by
  have kept : ((formula.clauses.map clauseWords).map spaced).filter isData =
      (formula.clauses.map clauseWords).map spaced := by
    simp [isData_clauseWords]
  have skipped := isData_of_isProblem (isProblem_headerWords formula.numVars formula.numClauses)
  unfold tokens writtenWords
  rw [List.map_cons, List.filter_cons_of_neg (by simp [skipped]), kept]
  simp [List.flatMap_map, words_clauseWords]

theorem Writable.readsAs (writable : Writable formula) :
    ReadsAs ((writtenWords formula).map spaced)
      (formula.clauses.flatMap fun clause => clause ++ [0]) := by
  unfold ReadsAs
  rw [tokens_writtenWords, List.map_flatMap, List.map_flatMap]
  apply List.flatMap_congr
  intro clause isClause
  unfold clauseWords
  rw [List.map_map]
  apply List.map_congr_left
  intro literal member
  exact (writable.bounded isClause member).1

theorem Writable.grammatical (writable : Writable formula) :
    Grammatical ((writtenWords formula).map spaced) := by
  apply grammatical_cons (isProblem_headerWords _ _) writable.declares
  · simp [isProblem_of_isData, isData_clauseWords]
  · intro line isLine _ token member
    obtain ⟨row, isRow, rfl⟩ := List.mem_map.mp isLine
    obtain ⟨clause, isClause, rfl⟩ := List.mem_map.mp isRow
    rw [words_clauseWords] at member
    obtain ⟨literal, isLiteral, rfl⟩ := List.mem_map.mp member
    exact ⟨literal, writable.bounded isClause isLiteral⟩

theorem Writable.ofClauses_eq (writable : Writable formula) :
    Formula.ofClauses formula.numVars formula.clauses = formula := by
  have bounded : largestVar formula.clauses ≤ formula.numVars := by
    apply Formula.largestVar_le_iff.mpr
    intro clause isClause literal isLiteral
    exact (writable.literals clause isClause literal isLiteral).2.2
  unfold Formula.ofClauses
  rw [Nat.max_eq_left bounded]

/-- A formula is read back as it was written. -/
theorem parse_write (writable : Writable formula) : parse (write formula) = .ok ⟨formula, #[]⟩ := by
  have noZeros : ∀ clause ∈ formula.clauses, 0 ∉ clause := by
    intro clause isClause isZero
    exact (writable.literals clause isClause 0 isZero).1 rfl
  have inForce : inForce? ((writtenWords formula).map spaced) =
      some ⟨formula.numVars, formula.numClauses⟩ := by
    apply inForce?_cons (isProblem_headerWords _ _) writable.declares
    simp [isProblem_of_isData, isData_clauseWords]
  have result := parse_eq_ok (body_write ▸ writable.grammatical) (body_write ▸ inForce)
    (body_write ▸ writable.readsAs)
  rw [result, documentOf, splitAtZeros_flatMap noZeros, writable.ofClauses_eq]
  simp [Formula.numClauses]

end Write

/-! ## The formulas that are read -/

theorem length_tokens_le (text : List Char) : (tokens (body text)).length ≤ text.length := by
  have kept : ((body text).filter isData).Sublist (lines text) :=
    List.filter_sublist.trans (List.takeWhile_sublist _)
  calc (tokens (body text)).length
      ≤ ((lines text).flatMap words).length := (kept.flatMap words).length_le
    _ = (words text).length := by rw [flatMap_words_lines]
    _ ≤ text.length := length_words_le text

theorem ReadsAs.admits {rows : List (List Char)} {literals : List Int}
    (reads : ReadsAs rows literals) {literal : Int} (member : literal ∈ literals) :
    Bounds.signed32.Admits literal := by
  have isRead : .ok literal ∈ (tokens rows).map readLiteral := by
    rw [reads]
    exact List.mem_map_of_mem member
  obtain ⟨token, _, read⟩ := List.mem_map.mp isRead
  exact admits_of_readLiteral read

theorem natAbs_le_of_admits {literal : Int} (admitted : Bounds.signed32.Admits literal) :
    literal.natAbs ≤ words32 / 2 := by
  obtain ⟨least, greatest⟩ := admitted
  simp only [Bounds.signed32] at least greatest
  omega

theorem numVars_ofClauses_lt_words64 {numVars : Nat} (small : numVars < words64)
    {clauses : List (List Int)}
    (admitted : ∀ clause ∈ clauses, ∀ literal ∈ clause, Bounds.signed32.Admits literal) :
    (Formula.ofClauses numVars clauses).numVars < words64 := by
  have bounded : largestVar clauses ≤ words32 / 2 := by
    apply Formula.largestVar_le_iff.mpr
    intro clause member literal isLiteral
    exact natAbs_le_of_admits (admitted clause member literal isLiteral)
  apply Nat.max_lt.mpr
  exact ⟨small, Nat.lt_of_le_of_lt bounded (by decide)⟩

theorem writable_ofClauses {numVars : Nat} (small : numVars < words64) {clauses : List (List Int)}
    (few : clauses.length < words64)
    (proper : ∀ clause ∈ clauses, ∀ literal ∈ clause,
      literal ≠ 0 ∧ Bounds.signed32.Admits literal) :
    Writable (.ofClauses numVars clauses) := by
  refine ⟨?_, few, ?_⟩
  · apply numVars_ofClauses_lt_words64 small
    intro clause member literal isLiteral
    exact (proper clause member literal isLiteral).2
  · intro clause member literal isLiteral
    obtain ⟨nonzero, admitted⟩ := proper clause member literal isLiteral
    exact ⟨nonzero, admitted, Formula.natAbs_le_numVars numVars member isLiteral⟩

/-- A formula that was read is on its own variables, with literals that fit their type. -/
theorem proper_of_parse {text : String} {document : Document} (result : parse text = .ok document) :
    ∀ clause ∈ document.formula.clauses, ∀ literal ∈ clause,
      literal ≠ 0 ∧ Bounds.signed32.Admits literal ∧ literal.natAbs ≤ document.formula.numVars := by
  obtain ⟨header, literals, _, reads, rfl⟩ := exists_documentOf result
  intro clause member literal isLiteral
  obtain ⟨isRead, nonzero⟩ := mem_of_mem_splitAtZeros member isLiteral
  exact ⟨nonzero, reads.admits isRead, Formula.natAbs_le_numVars header.numVars member isLiteral⟩

theorem writable_of_parse {text : String} (short : text.length < words64) {document : Document}
    (result : parse text = .ok document) : Writable document.formula := by
  have proper := proper_of_parse result
  obtain ⟨header, literals, inForce, reads, rfl⟩ := exists_documentOf result
  obtain ⟨problem, _, _, _, _, _, readVars, _⟩ := inForce?_eq_some_iff.mp inForce
  apply writable_ofClauses (lt_of_readCount readVars)
  · have count : literals.length = (tokens (body text.toList)).length := by
      simpa using (congrArg List.length reads).symm
    calc (splitAtZeros literals).length
        ≤ literals.length := length_splitAtZeros_le literals
      _ = (tokens (body text.toList)).length := count
      _ ≤ text.length := length_tokens_le text.toList
      _ < words64 := short
  · intro clause member literal isLiteral
    obtain ⟨nonzero, admitted, _⟩ := proper clause member literal isLiteral
    exact ⟨nonzero, admitted⟩

/-- Every formula of literals other than zero is read back as it was written. What any text
is read as is such a formula, on its own variables. -/
theorem round_trip :
    (∀ numVars clauses, numVars < words64 → clauses.length < words64 →
      (∀ clause ∈ clauses, ∀ literal ∈ clause, literal ≠ 0 ∧ Bounds.signed32.Admits literal) →
      parse (write (.ofClauses numVars clauses)) = .ok ⟨.ofClauses numVars clauses, #[]⟩) ∧
    ∀ text document, parse text = .ok document →
      (∀ clause ∈ document.formula.clauses, ∀ literal ∈ clause,
        literal ≠ 0 ∧ literal.natAbs ≤ document.formula.numVars) ∧
      (text.length < words64 → parse (write document.formula) = .ok ⟨document.formula, #[]⟩) := by
  constructor
  · intro numVars clauses small few proper
    exact parse_write (writable_ofClauses small few proper)
  · intro text document result
    refine ⟨?_, fun short => parse_write (writable_of_parse short result)⟩
    intro clause member literal isLiteral
    obtain ⟨nonzero, _, bounded⟩ := proper_of_parse result clause member literal isLiteral
    exact ⟨nonzero, bounded⟩

/-- An empty clause, a literal twice and against its opposite, and the least literal. The
second header of the text declares fewer variables than have been read. -/
theorem round_trip_least_literal :
    parse (write (.ofClauses 3 [[], [2, 2, -2], [-2147483648]])) =
      .ok ⟨.ofClauses 3 [[], [2, 2, -2], [-2147483648]], #[]⟩ ∧
    parse "p cnf 2 1\n2 0\np cnf 1 1\n-1" = .ok ⟨⟨2, [[2], [-1]]⟩, #[.clauseCount 1 2]⟩ ∧
    parse (write ⟨2, [[2], [-1]]⟩) = .ok ⟨⟨2, [[2], [-1]]⟩, #[]⟩ := by
  have read : parse "p cnf 2 1\n2 0\np cnf 1 1\n-1" =
      .ok ⟨⟨2, [[2], [-1]]⟩, #[.clauseCount 1 2]⟩ := by
    decide
  refine ⟨?_, read, (round_trip.2 _ _ read).2 (by decide)⟩
  exact round_trip.1 3 [[], [2, 2, -2], [-2147483648]] (by decide) (by decide) (by decide)

end Dimacs

end CnfSolver
