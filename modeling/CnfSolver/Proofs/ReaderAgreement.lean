import CnfSolver.Text
import CnfSolver.Proofs.DimacsRoundTrip

/-!
# Clauses as text and DIMACS input

Plain text and DIMACS input hold literals on the same lines, those that are neither
comments nor problem lines. They differ in what they check: plain text skips problem
lines unread, and knows no line that ends the data, so that such a line is a word that
is no literal. A text without such lines that is read as DIMACS input is read as plain
text too, and plain text is DIMACS input once a problem line that declares its variables
is put in front. Either way the clauses are the same.
-/

namespace CnfSolver

open Text

namespace ClauseText

/-- Without a backslash before an `n` there is no line break to put. -/
theorem expandBreaks_eq_self {text : List Char} (noEscape : ¬['\\', 'n'] <:+: text) :
    expandBreaks text = text := by
  fun_induction expandBreaks text with
  | case1 rest => exact absurd (List.prefix_append ['\\', 'n'] rest).isInfix noEscape
  | case2 char rest _ ih =>
    rw [ih fun found => noEscape (found.trans (List.suffix_cons char rest).isInfix)]
  | case3 => rfl

/-! ## The words that are read -/

/-- The words of the lines that are not skipped. -/
def tokens (rows : List (List Char)) : List (List Char) :=
  (rows.filter fun line => !isSkipped line).flatMap words

theorem tokens_cons (line : List Char) (rest : List (List Char)) :
    tokens (line :: rest) = (if isSkipped line then [] else words line) ++ tokens rest := by
  unfold tokens
  cases skipped : isSkipped line with
  | true => simp [skipped]
  | false => simp [skipped]

theorem readLine_eq (collector : Collector) (line : List Char) :
    readLine collector line =
      (if isSkipped line then [] else words line).foldlM readWord collector := by
  unfold readLine
  split <;> rfl

theorem foldlM_readLine (rows : List (List Char)) (collector : Collector) :
    rows.foldlM readLine collector = (tokens rows).foldlM readWord collector := by
  induction rows generalizing collector with
  | nil => rfl
  | cons line rest ih =>
    rw [List.foldlM_cons, readLine_eq, tokens_cons, List.foldlM_append]
    exact congrArg _ (funext ih)

theorem foldlM_readWord_eq_ok_iff {tokens : List (List Char)} {collector result : Collector} :
    tokens.foldlM readWord collector = .ok result ↔
      ∃ literals : List Int, tokens.map readLiteral = literals.map .ok ∧
        result = literals.foldl Collector.add collector := by
  induction tokens generalizing collector with
  | nil =>
    constructor
    · intro finished
      cases finished
      exact ⟨[], rfl, rfl⟩
    · rintro ⟨literals, reads, rfl⟩
      obtain rfl := List.map_eq_nil_iff.mp reads.symm
      rfl
  | cons token rest ih =>
    rw [List.foldlM_cons, readWord]
    cases read : readLiteral token with
    | error error =>
      constructor
      · nofun
      · rintro ⟨literals, reads, _⟩
        cases literals <;> simp [read] at reads
    | ok literal =>
      refine (@ih (collector.add literal)).trans ?_
      constructor
      · rintro ⟨literals, reads, rfl⟩
        exact ⟨literal :: literals, by simp [read, reads], rfl⟩
      · rintro ⟨literals, reads, rfl⟩
        cases literals with
        | nil => cases reads
        | cons first others =>
          simp only [List.map_cons, List.cons.injEq, read, Except.ok.injEq] at reads
          obtain ⟨rfl, reads⟩ := reads
          exact ⟨others, reads, rfl⟩

/-- A text is read exactly if its words are literals, and then they are cut at the zeros. -/
theorem parse_eq_ok_iff {text : String} (noEscape : ¬['\\', 'n'] <:+: text.toList)
    {clauses : List (List Int)} :
    parse text = .ok clauses ↔
      ∃ literals : List Int, (tokens (lines text.toList)).map readLiteral = literals.map .ok ∧
        clauses = splitAtZeros literals := by
  unfold parse
  rw [expandBreaks_eq_self noEscape, foldlM_readLine]
  constructor
  · intro parsed
    cases folded : (tokens (lines text.toList)).foldlM readWord .empty with
    | error error =>
      rw [folded] at parsed
      cases parsed
    | ok collector =>
      rw [folded] at parsed
      cases parsed
      obtain ⟨literals, reads, rfl⟩ := foldlM_readWord_eq_ok_iff.mp folded
      exact ⟨literals, reads, Collector.finish_foldl_add_empty literals⟩
  · rintro ⟨literals, reads, rfl⟩
    rw [foldlM_readWord_eq_ok_iff.mpr ⟨literals, reads, rfl⟩,
      ← Collector.finish_foldl_add_empty literals]
    rfl

/-! ## Lines that are read -/

theorem isSkipped_eq (line : List Char) :
    isSkipped line = (Dimacs.leading? line).any fun char => char == 'c' || char == 'p' := by
  unfold isSkipped
  rw [← Dimacs.head?_trimStart]
  split
  next first => simp [first]
  next first => simp [first]
  next notComment notProblem =>
    cases parts : trimStart line with
    | nil => rfl
    | cons char rest => simp_all

/-- A line without a first character that is no blank has no words. -/
theorem words_eq_nil {line : List Char} (blank : Dimacs.leading? line = none) :
    words line = [] := by
  rw [← Dimacs.head?_trimStart, List.head?_eq_none_iff] at blank
  rw [← words_trimStart, blank, words_nil]

theorem read_words_eq {line : List Char} (noEnd : Dimacs.isEnding line = false) :
    (if isSkipped line then [] else words line) =
      if Dimacs.isData line then words line else [] := by
  rw [isSkipped_eq]
  unfold Dimacs.isEnding at noEnd
  unfold Dimacs.isData
  cases leads : Dimacs.leading? line with
  | none =>
    -- A blank line is not skipped as plain text, but it has no words.
    simp [words_eq_nil leads]
  | some char =>
    have notEnding : char ≠ '%' := by simpa [leads] using noEnd
    by_cases isComment : char = 'c'
    · simp [isComment]
    · simp [isComment, notEnding]

/-- Where no line ends the data, the same words are read. -/
theorem tokens_eq {rows : List (List Char)} (noEnd : ∀ line ∈ rows, Dimacs.isEnding line = false) :
    tokens rows = Dimacs.tokens rows := by
  induction rows with
  | nil => rfl
  | cons line rest ih =>
    obtain ⟨noEndHere, noEndRest⟩ := List.forall_mem_cons.mp noEnd
    rw [tokens_cons, Dimacs.tokens_cons, read_words_eq noEndHere, ih noEndRest]

/-- A line that would end the data begins with a word that is no literal. -/
theorem exists_word_of_isEnding {line : List Char} (ending : Dimacs.isEnding line = true) :
    ∃ rest, '%' :: rest ∈ words line := by
  have leads : Dimacs.leading? line = some '%' := by simpa [Dimacs.isEnding] using ending
  rw [← Dimacs.head?_trimStart] at leads
  obtain ⟨rest, parts⟩ := List.head?_eq_some_iff.mp leads
  obtain ⟨piece, pieces, cut⟩ := List.exists_cons_of_ne_nil (List.splitOnP_ne_nil isBlank rest)
  have notBlank : isBlank '%' = false := by decide
  refine ⟨piece, ?_⟩
  rw [← words_trimStart, parts, words, List.splitOnP_cons_eq_if_modifyHead, cut]
  simp [notBlank]

theorem readLiteral_ending (rest : List Char) :
    readLiteral ('%' :: rest) = .error .invalidDigit := by
  rfl

theorem isEnding_of_reads {rows : List (List Char)} {literals : List Int}
    (reads : (tokens rows).map readLiteral = literals.map .ok) {line : List Char}
    (member : line ∈ rows) : Dimacs.isEnding line = false := by
  rw [Bool.eq_false_iff]
  intro ending
  obtain ⟨rest, isWord⟩ := exists_word_of_isEnding ending
  have kept : isSkipped line = false := by
    rw [isSkipped_eq]
    have leads : Dimacs.leading? line = some '%' := by simpa [Dimacs.isEnding] using ending
    simp [leads]
  have isToken : '%' :: rest ∈ tokens rows :=
    List.mem_flatMap.mpr ⟨line, List.mem_filter.mpr ⟨member, by simp [kept]⟩, isWord⟩
  have isRead := List.mem_map_of_mem (f := readLiteral) isToken
  rw [reads, readLiteral_ending] at isRead
  simp at isRead

end ClauseText

namespace Dimacs

/-! ## A problem line in front -/

section Header

variable {text : String} {literals : List Int} {numVars numClauses : Nat}

theorem body_writeHeader (noEnd : ∀ line ∈ lines text.toList, isEnding line = false)
    (numVars numClauses : Nat) :
    body (writeHeader numVars numClauses ++ text).toList =
      spaced (headerWords numVars numClauses) :: lines text.toList := by
  have areWords : ∀ word ∈ headerWords numVars numClauses, IsWord word := fun word member =>
    isWord_of_mem_headerWords member
  have oneLine : '\n' ∉ spaced (headerWords numVars numClauses) :=
    not_mem_spaced (by decide) (by decide) areWords
  have noReturn : '\r' ∉ spaced (headerWords numVars numClauses) :=
    not_mem_spaced (by decide) (by decide) areWords
  have kept : dropReturn '\r' (spaced (headerWords numVars numClauses)) =
      spaced (headerWords numVars numClauses) :=
    if_neg fun ends => noReturn (List.mem_of_getLast? ends)
  rw [String.toList_append, toList_writeHeader, List.append_assoc, List.singleton_append, body,
    lines, cutLines_append oneLine, kept,
    beforeEnding_cons (isEnding_of_isProblem (isProblem_headerWords _ _))]
  refine congrArg _ (List.takeWhile_eq_self_iff.mpr fun line member => ?_)
  simp [noEnd line member]

/-- Lines that read as literals follow a problem line that declares their variables. -/
theorem parse_writeHeader (noProblem : ∀ line ∈ lines text.toList, isProblem line = false)
    (noEnd : ∀ line ∈ lines text.toList, isEnding line = false)
    (reads : ReadsAs (lines text.toList) literals) (small : numVars < words64)
    (few : numClauses < words64) (bounded : largestVar (splitAtZeros literals) ≤ numVars) :
    ∃ journal, parse (writeHeader numVars numClauses ++ text) =
      .ok ⟨⟨numVars, splitAtZeros literals⟩, journal⟩ := by
  have sameFormula : Formula.ofClauses numVars (splitAtZeros literals) =
      ⟨numVars, splitAtZeros literals⟩ := by
    rw [Formula.ofClauses, Nat.max_eq_left bounded]
  rw [largestVar_splitAtZeros] at bounded
  have leads := isProblem_headerWords numVars numClauses
  have declares := declares_headerWords small few
  have whole := body_writeHeader noEnd numVars numClauses
  have grammatical : Grammatical
      (spaced (headerWords numVars numClauses) :: lines text.toList) := by
    apply grammatical_cons leads declares noProblem
    intro line member isData token isWord
    have isToken : token ∈ tokens (lines text.toList) :=
      List.mem_flatMap.mpr ⟨line, List.mem_filter.mpr ⟨member, isData⟩, isWord⟩
    have isRead := List.mem_map_of_mem (f := readLiteral) isToken
    rw [reads] at isRead
    obtain ⟨literal, isLiteral, read⟩ := List.mem_map.mp isRead
    exact ⟨literal, read.symm,
      Formula.largestVar_le_iff.mp bounded literals List.mem_cons_self literal isLiteral⟩
  have readsWhole : ReadsAs (spaced (headerWords numVars numClauses) :: lines text.toList)
      literals := by
    rw [ReadsAs, tokens_cons, isData_of_isProblem leads]
    exact reads
  rw [← whole] at grammatical readsWhole
  have result := parse_eq_ok grammatical (whole ▸ inForce?_cons leads declares noProblem) readsWhole
  rw [documentOf, sameFormula] at result
  exact ⟨_, result⟩

end Header

end Dimacs

/-- A text without a backslash before an `n` that is read as DIMACS input, and in which no
line ends the data, is read as plain text with the same clauses. A plain text without a
problem line is read as DIMACS input with the same clauses once a problem line is put in
front, whatever count of clauses it declares and any count of variables that is enough,
both of 64 bits. -/
theorem readers_agree (text : String) (noEscape : ¬['\\', 'n'] <:+: text.toList) :
    ((∀ line ∈ lines text.toList, Dimacs.isEnding line = false) →
      ∀ document, Dimacs.parse text = .ok document →
        ClauseText.parse text = .ok document.formula.clauses) ∧
    ((∀ line ∈ lines text.toList, Dimacs.isProblem line = false) →
      ∀ clauses, ClauseText.parse text = .ok clauses →
        ∀ numVars numClauses, largestVar clauses ≤ numVars → numVars < words64 →
          numClauses < words64 →
          ∃ journal, Dimacs.parse (Dimacs.writeHeader numVars numClauses ++ text) =
            .ok ⟨⟨numVars, clauses⟩, journal⟩) := by
  constructor
  · intro noEnd document parsed
    obtain ⟨header, literals, _, reads, rfl⟩ := Dimacs.exists_documentOf parsed
    have whole : Dimacs.body text.toList = lines text.toList :=
      List.takeWhile_eq_self_iff.mpr fun line member => by simp [noEnd line member]
    rw [whole, Dimacs.ReadsAs, ← ClauseText.tokens_eq noEnd] at reads
    exact (ClauseText.parse_eq_ok_iff noEscape).mpr ⟨literals, reads, rfl⟩
  · intro noProblem clauses parsed numVars numClauses bounded small few
    obtain ⟨literals, reads, rfl⟩ := (ClauseText.parse_eq_ok_iff noEscape).mp parsed
    have noEnd : ∀ line ∈ lines text.toList, Dimacs.isEnding line = false :=
      fun _ member => ClauseText.isEnding_of_reads reads member
    rw [ClauseText.tokens_eq noEnd] at reads
    exact Dimacs.parse_writeHeader noProblem noEnd reads small few bounded

/-- Blank lines and comments, a clause over two lines, and a last one without its zero. -/
theorem readers_agree_unterminated :
    ClauseText.parse "c 1\n\n1 -2\r\n 0 3 0\n-1" = .ok [[1, -2], [3], [-1]] ∧
    Dimacs.parse "p cnf 3 2\nc 1\n\n1 -2\r\n 0 3 0\n-1" =
      .ok ⟨⟨3, [[1, -2], [3], [-1]]⟩, #[.clauseCount 2 3]⟩ ∧
    ClauseText.parse "p cnf 3 2\nc 1\n\n1 -2\r\n 0 3 0\n-1" = .ok [[1, -2], [3], [-1]] ∧
    ∃ journal, Dimacs.parse (Dimacs.writeHeader 5 7 ++ "c 1\n\n1 -2\r\n 0 3 0\n-1") =
      .ok ⟨⟨5, [[1, -2], [3], [-1]]⟩, journal⟩ := by
  have plain : ClauseText.parse "c 1\n\n1 -2\r\n 0 3 0\n-1" = .ok [[1, -2], [3], [-1]] := by
    decide
  have headed : Dimacs.parse "p cnf 3 2\nc 1\n\n1 -2\r\n 0 3 0\n-1" =
      .ok ⟨⟨3, [[1, -2], [3], [-1]]⟩, #[.clauseCount 2 3]⟩ := by
    decide
  have noEscape {text : List Char} (absent : '\\' ∉ text) : ¬['\\', 'n'] <:+: text :=
    fun found => absent (found.subset List.mem_cons_self)
  refine ⟨plain, headed, ?_, ?_⟩
  · exact (readers_agree _ (noEscape (by decide))).1 (by decide) _ headed
  · exact (readers_agree _ (noEscape (by decide))).2 (by decide) _ plain 5 7 (by decide) (by decide)
      (by decide)

end CnfSolver
