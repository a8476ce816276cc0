import CnfSolver.Dimacs
import CnfSolver.Proofs.FrequencyOrder
import CnfSolver.Proofs.TextLayout

/-!
# The grammar of DIMACS input

The data of a text are its lines before the first one that starts with `%`. Each of
them is told by its first character that is no blank. `Grammatical` states what the
lines of an accepted text satisfy, and `violations` lists what is wrong with a text in
reading order, each line being judged by the lines before it. Reading succeeds exactly
on the grammatical texts and otherwise reports the first violation. The clauses are
the words of the data lines cut at the zeros, however they are laid out on lines.
-/

namespace CnfSolver.Dimacs

open Text

/-! ## Kinds of lines -/

/-- The first character of a line that is no blank. -/
def leading? (line : List Char) : Option Char := line.find? fun char => !isBlank char

def isProblem (line : List Char) : Bool := leading? line == some 'p'

def isEnding (line : List Char) : Bool := leading? line == some '%'

/-- The line is neither blank nor a comment, a problem line or the end. -/
def isData (line : List Char) : Bool :=
  (leading? line).any fun char => char != 'c' && char != 'p' && char != '%'

/-- The lines before the end of the data. -/
def beforeEnding (rows : List (List Char)) : List (List Char) :=
  rows.takeWhile fun line => !isEnding line

/-- The lines of a text before the end of its data. -/
def body (text : List Char) : List (List Char) := beforeEnding (lines text)

/-- The number of lines of the data, with the line that ends them. -/
def linesRead (text : List Char) : Nat := min ((body text).length + 1) (lines text).length

/-- The line has four words, the second is `cnf`, and the last two are the counts of
the header. -/
def Declares (line : List Char) (header : Header) : Prop :=
  ∃ tag vars clauses, words line = [tag, ['c', 'n', 'f'], vars, clauses] ∧
    readCount vars = .ok header.numVars ∧ readCount clauses = .ok header.numClauses

/-- The most recent of the problem lines. -/
def latestProblem? (earlier : List (List Char)) : Option (List Char) :=
  (earlier.filter isProblem).getLast?

/-- The words of the data lines. -/
def tokens (rows : List (List Char)) : List (List Char) := (rows.filter isData).flatMap words

/-- The words of the data lines are these literals. -/
def ReadsAs (rows : List (List Char)) (literals : List Int) : Prop :=
  (tokens rows).map readLiteral = literals.map .ok

/-- The lines of an accepted text. -/
structure Grammatical (rows : List (List Char)) : Prop where
  problem : ∃ line ∈ rows, isProblem line = true
  ordered : ∀ earlier line later, rows = earlier ++ line :: later → isData line = true →
    ∃ other ∈ earlier, isProblem other = true
  declared : ∀ line ∈ rows, isProblem line = true → ∃ header, Declares line header
  literals : ∀ earlier line later, rows = earlier ++ line :: later → isData line = true →
    ∀ token ∈ words line, ∃ literal, readLiteral token = .ok literal ∧
      (literal ≠ 0 → ∀ problem header, latestProblem? earlier = some problem →
        Declares problem header → literal.natAbs ≤ header.numVars)

/-! ## Violations -/

/-- The header of the most recent problem line. -/
def inForce? (earlier : List (List Char)) : Option Header :=
  (latestProblem? earlier).bind readHeader?

/-- What is wrong with a word of a data line: it is no literal, or on a variable that
the header in force does not declare. -/
def tokenViolation? (number : Nat) (inForce : Option Header) (token : List Char) : Option Error :=
  match readLiteral token, inForce with
  | .error _, _ => some (.invalidLiteral number (String.ofList token))
  | .ok literal, some header =>
      if header.numVars < literal.natAbs then
        some (.varOutOfRange number literal.natAbs header.numVars)
      else none
  | .ok _, none => none

/-- What is wrong with a line after the given ones. -/
def lineViolations (earlier : List (List Char)) (line : List Char) : List Error :=
  let number := earlier.length + 1
  if isProblem line then
    if (readHeader? line).isSome then []
    else [.invalidHeader number (String.ofList (trimStart line))]
  else if isData line then
    (if earlier.any isProblem then [] else [.missingHeader number]) ++
      (words line).filterMap (tokenViolation? number (inForce? earlier))
  else []

/-- What is wrong with lines after the given ones. -/
def violationsAfter (earlier : List (List Char)) : List (List Char) → List Error
  | [] => []
  | line :: rest => lineViolations earlier line ++ violationsAfter (earlier ++ [line]) rest

/-- What is wrong with a text, in reading order. -/
def violations (text : List Char) : List Error :=
  violationsAfter [] (body text) ++
    if (body text).any isProblem then [] else [.missingHeader (linesRead text)]

/-! ## Headers -/

theorem readHeader?_eq_some_iff {line : List Char} {header : Header} :
    readHeader? line = some header ↔ Declares line header := by
  unfold readHeader? Declares
  constructor
  · intro read
    split at read
    next tag format vars clauses fourWords =>
      split at read
      next isFormat =>
        split at read
        next numVars numClauses readVars readClauses =>
          cases read
          exact ⟨tag, vars, clauses, by rw [fourWords, isFormat], readVars, readClauses⟩
        next noCounts => cases read
      next otherFormat => cases read
    next otherWords => cases read
  · rintro ⟨tag, vars, clauses, fourWords, readVars, readClauses⟩
    rw [fourWords]
    simp [readVars, readClauses]

@[simp]
theorem readHeader?_trimStart (line : List Char) :
    readHeader? (trimStart line) = readHeader? line := by
  unfold readHeader?
  rw [words_trimStart]

theorem isSome_readHeader?_iff {line : List Char} :
    (readHeader? line).isSome = true ↔ ∃ header, Declares line header := by
  rw [Option.isSome_iff_exists]
  simp only [readHeader?_eq_some_iff]

theorem latestProblem?_concat (earlier : List (List Char)) (line : List Char) :
    latestProblem? (earlier ++ [line]) =
      if isProblem line then some line else latestProblem? earlier := by
  unfold latestProblem?
  rw [List.filter_append]
  by_cases problem : isProblem line = true <;> simp [problem]

theorem mem_of_latestProblem? {earlier : List (List Char)} {problem : List Char}
    (latest : latestProblem? earlier = some problem) :
    problem ∈ earlier ∧ isProblem problem = true :=
  List.mem_filter.mp (List.mem_of_getLast? latest)

theorem latestProblem?_eq_none_iff {earlier : List (List Char)} :
    latestProblem? earlier = none ↔ earlier.any isProblem = false := by
  unfold latestProblem?
  rw [List.getLast?_eq_none_iff, List.filter_eq_nil_iff, List.any_eq_false]

/-! ## Kinds of lines, as they are read -/

theorem head?_trimStart (line : List Char) : (trimStart line).head? = leading? line := by
  unfold trimStart leading?
  induction line with
  | nil => rfl
  | cons char rest ih =>
    by_cases blank : isBlank char = true
    · simpa [blank] using ih
    · simp [blank]

/-- How a line is read, by the kind of line that it is. -/
theorem classify_cases (line : List Char) :
    (isEnding line = true ∧ classify line = .ending) ∨
    (isEnding line = false ∧ isProblem line = true ∧ isData line = false ∧
      classify line = .header (trimStart line)) ∨
    (isEnding line = false ∧ isProblem line = false ∧ isData line = true ∧
      classify line = .literals (trimStart line)) ∨
    (isEnding line = false ∧ isProblem line = false ∧ isData line = false ∧
      (classify line = .blank ∨ classify line = .comment)) := by
  unfold isEnding isProblem isData classify
  rw [← head?_trimStart]
  generalize trimStart line = text
  split
  · simp
  · simp
  · simp
  · simp
  next notEmpty notComment notEnding notProblem =>
    obtain ⟨char, rest, rfl⟩ := List.exists_cons_of_ne_nil notEmpty
    simp_all

theorem isData_iff {line : List Char} :
    isData line = true ↔
      ∃ char, leading? line = some char ∧ char ≠ 'c' ∧ char ≠ 'p' ∧ char ≠ '%' := by
  simp [isData, Option.any_eq_true, and_assoc]

theorem isProblem_of_isData {line : List Char} (data : isData line = true) :
    isProblem line = false := by
  obtain ⟨char, leads, _, notProblem, _⟩ := isData_iff.mp data
  simp [isProblem, leads, notProblem]

theorem isEnding_of_isData {line : List Char} (data : isData line = true) :
    isEnding line = false := by
  obtain ⟨char, leads, _, _, notEnding⟩ := isData_iff.mp data
  simp [isEnding, leads, notEnding]

theorem isData_of_isProblem {line : List Char} (problem : isProblem line = true) :
    isData line = false := by
  simp only [isProblem, beq_iff_eq] at problem
  simp [isData, problem]

theorem isEnding_of_isProblem {line : List Char} (problem : isProblem line = true) :
    isEnding line = false := by
  simp only [isProblem, beq_iff_eq] at problem
  simp [isEnding, problem]

theorem beforeEnding_cons_of_isEnding {line : List Char} (ending : isEnding line = true)
    (rest : List (List Char)) : beforeEnding (line :: rest) = [] :=
  List.takeWhile_cons_of_neg (by simp [ending])

theorem beforeEnding_cons {line : List Char} (noEnd : isEnding line = false)
    (rest : List (List Char)) : beforeEnding (line :: rest) = line :: beforeEnding rest :=
  List.takeWhile_cons_of_pos (by simp [noEnd])

/-! ## Texts without a violation -/

theorem inForce?_eq_some_iff {earlier : List (List Char)} {header : Header} :
    inForce? earlier = some header ↔
      ∃ problem, latestProblem? earlier = some problem ∧ Declares problem header := by
  unfold inForce?
  rw [Option.bind_eq_some_iff]
  simp only [readHeader?_eq_some_iff]

theorem tokenViolation?_eq_none_iff {number : Nat} {inForce : Option Header} {token : List Char} :
    tokenViolation? number inForce token = none ↔ ∃ literal, readLiteral token = .ok literal ∧
      ∀ header, inForce = some header → literal.natAbs ≤ header.numVars := by
  unfold tokenViolation?
  cases read : readLiteral token with
  | error error => simp
  | ok literal => cases inForce <;> simp

theorem lineViolations_eq_nil_iff {earlier : List (List Char)} {line : List Char} :
    lineViolations earlier line = [] ↔
      (isProblem line = true → ∃ header, Declares line header) ∧
      (isData line = true → (∃ other ∈ earlier, isProblem other = true) ∧
        ∀ token ∈ words line, ∃ literal, readLiteral token = .ok literal ∧
          ∀ header, inForce? earlier = some header → literal.natAbs ≤ header.numVars) := by
  unfold lineViolations
  by_cases problem : isProblem line = true
  · simp [problem, isData_of_isProblem problem, ← isSome_readHeader?_iff,
      Option.isSome_iff_ne_none]
  · by_cases data : isData line = true
    · simp [problem, data, tokenViolation?_eq_none_iff]
    · simp [problem, data]

theorem violationsAfter_eq_nil_iff {earlier rows : List (List Char)} :
    violationsAfter earlier rows = [] ↔ ∀ before line after, rows = before ++ line :: after →
      lineViolations (earlier ++ before) line = [] := by
  induction rows generalizing earlier with
  | nil => simp [violationsAfter]
  | cons line rest ih =>
    simp only [violationsAfter, List.append_eq_nil_iff, ih]
    constructor
    · rintro ⟨first, others⟩ before other after parts
      cases before with
      | nil =>
        cases parts
        simpa using first
      | cons head before =>
        cases parts
        simpa using others before other after rfl
    · intro all
      refine ⟨by simpa using all [] line rest rfl, ?_⟩
      intro before other after parts
      simpa using all (line :: before) other after (by rw [parts, List.cons_append])

theorem grammatical_iff {rows : List (List Char)} :
    Grammatical rows ↔ violationsAfter [] rows = [] ∧ rows.any isProblem = true := by
  rw [violationsAfter_eq_nil_iff]
  simp only [List.nil_append, lineViolations_eq_nil_iff, inForce?_eq_some_iff, List.any_eq_true]
  constructor
  · intro grammatical
    refine ⟨fun before line after parts => ⟨?_, ?_⟩, grammatical.problem⟩
    · exact grammatical.declared line (by simp [parts])
    · intro data
      refine ⟨grammatical.ordered before line after parts data, fun token member => ?_⟩
      obtain ⟨literal, read, bounded⟩ :=
        grammatical.literals before line after parts data token member
      refine ⟨literal, read, ?_⟩
      rintro header ⟨problem, latest, declares⟩
      by_cases isZero : literal = 0
      · simp [isZero]
      · exact bounded isZero problem header latest declares
  · rintro ⟨clean, problem⟩
    refine ⟨problem, ?_, ?_, ?_⟩
    · intro earlier line later parts data
      exact ((clean earlier line later parts).2 data).1
    · intro line member
      obtain ⟨earlier, later, parts⟩ := List.append_of_mem member
      exact (clean earlier line later parts).1
    · intro earlier line later parts data token member
      obtain ⟨literal, read, bounded⟩ := ((clean earlier line later parts).2 data).2 token member
      exact ⟨literal, read, fun _ problem header latest declares =>
        bounded header ⟨problem, latest, declares⟩⟩

theorem violations_eq_nil_iff {text : List Char} :
    violations text = [] ↔ Grammatical (body text) := by
  rw [grammatical_iff, violations, List.append_eq_nil_iff]
  simp

/-! ## Reading lines -/

/-- What has been read when the given lines are behind. -/
structure Fits (earlier : List (List Char)) (progress : Progress) : Prop where
  header : progress.header = inForce? earlier
  declared : ∀ line ∈ earlier, isProblem line = true → (readHeader? line).isSome = true
  collected : ∃ literals, ReadsAs earlier literals ∧
    progress.collector = literals.foldl Collector.add .empty

theorem fits_nil : Fits [] ⟨none, .empty⟩ :=
  ⟨rfl, by simp, [], rfl, rfl⟩

section Fits

variable {earlier : List (List Char)} {line : List Char} {progress : Progress}

theorem Fits.header_eq_none_iff (fits : Fits earlier progress) :
    progress.header = none ↔ earlier.any isProblem = false := by
  rw [fits.header, ← latestProblem?_eq_none_iff, inForce?]
  cases latest : latestProblem? earlier with
  | none => simp
  | some problem =>
    obtain ⟨member, isProblem⟩ := mem_of_latestProblem? latest
    have declared := fits.declared problem member isProblem
    simpa [← Option.isSome_iff_ne_none] using declared

theorem Fits.any_isProblem (fits : Fits earlier progress) {header : Header}
    (latest : progress.header = some header) : earlier.any isProblem = true := by
  apply Bool.of_not_eq_false
  intro absent
  cases latest.symm.trans (fits.header_eq_none_iff.mpr absent)

theorem tokens_cons (line : List Char) (rest : List (List Char)) :
    tokens (line :: rest) = (if isData line then words line else []) ++ tokens rest := by
  unfold tokens
  cases data : isData line with
  | true => simp [data]
  | false => simp [data]

theorem tokens_concat (rows : List (List Char)) (line : List Char) :
    tokens (rows ++ [line]) = tokens rows ++ if isData line then words line else [] := by
  unfold tokens
  rw [List.filter_append, List.flatMap_append]
  by_cases data : isData line = true <;> simp [data]

theorem inForce?_concat (earlier : List (List Char)) (line : List Char) :
    inForce? (earlier ++ [line]) =
      if isProblem line then readHeader? line else inForce? earlier := by
  unfold inForce?
  rw [latestProblem?_concat]
  split <;> rfl

theorem Fits.skip (fits : Fits earlier progress) (noProblem : isProblem line = false)
    (noData : isData line = false) : Fits (earlier ++ [line]) progress := by
  obtain ⟨literals, reads, collected⟩ := fits.collected
  unfold ReadsAs at reads
  refine ⟨?_, ?_, literals, ?_, collected⟩
  · simpa [inForce?_concat, noProblem] using fits.header
  · exact List.forall_mem_append.mpr ⟨fits.declared, by simp [noProblem]⟩
  · simpa [ReadsAs, tokens_concat, noData] using reads

theorem Fits.problem (fits : Fits earlier progress) (isProblem : isProblem line = true)
    {header : Header} (read : readHeader? line = some header) :
    Fits (earlier ++ [line]) { progress with header := some header } := by
  obtain ⟨literals, reads, collected⟩ := fits.collected
  unfold ReadsAs at reads
  refine ⟨?_, ?_, literals, ?_, collected⟩
  · simp [inForce?_concat, isProblem, read]
  · exact List.forall_mem_append.mpr ⟨fits.declared, by simp [read]⟩
  · simpa [ReadsAs, tokens_concat, isData_of_isProblem isProblem] using reads

theorem Fits.data (fits : Fits earlier progress) (noProblem : isProblem line = false)
    (isData : isData line = true) {more : List Int}
    (read : (words line).map readLiteral = more.map .ok) :
    Fits (earlier ++ [line])
      { progress with collector := more.foldl Collector.add progress.collector } := by
  obtain ⟨literals, reads, collected⟩ := fits.collected
  unfold ReadsAs at reads
  refine ⟨?_, ?_, literals ++ more, ?_, ?_⟩
  · simpa [inForce?_concat, noProblem] using fits.header
  · exact List.forall_mem_append.mpr ⟨fits.declared, by simp [noProblem]⟩
  · simp [ReadsAs, tokens_concat, isData, reads, read]
  · rw [List.foldl_append, ← collected]

end Fits

theorem readToken_cases (number : Nat) (header : Header) (collector : Collector)
    (token : List Char) :
    (∃ literal, readLiteral token = .ok literal ∧
      tokenViolation? number (some header) token = none ∧
      readToken number header.numVars collector token = .ok (collector.add literal)) ∨
    ∃ error, tokenViolation? number (some header) token = some error ∧
      readToken number header.numVars collector token = .error error := by
  unfold tokenViolation? readToken
  cases read : readLiteral token with
  | error error => exact .inr ⟨_, rfl, rfl⟩
  | ok literal =>
    by_cases beyond : header.numVars < literal.natAbs
    · exact .inr ⟨_, if_pos beyond, if_pos beyond⟩
    · exact .inl ⟨literal, rfl, if_neg beyond, if_neg beyond⟩

/-- The words of a data line are read up to the first violation. -/
theorem foldlM_readToken_cases (number : Nat) (header : Header) (collector : Collector)
    (line : List (List Char)) :
    (∃ literals : List Int, line.map readLiteral = literals.map .ok ∧
      line.filterMap (tokenViolation? number (some header)) = [] ∧
      line.foldlM (readToken number header.numVars) collector =
        .ok (literals.foldl Collector.add collector)) ∨
    ∃ error, (line.filterMap (tokenViolation? number (some header))).head? = some error ∧
      line.foldlM (readToken number header.numVars) collector = .error error := by
  induction line generalizing collector with
  | nil => exact .inl ⟨[], rfl, rfl, rfl⟩
  | cons token rest ih =>
    rw [List.foldlM_cons, List.filterMap_cons]
    rcases readToken_cases number header collector token with
      ⟨literal, read, clean, step⟩ | ⟨error, violates, step⟩
    · rw [clean, step]
      rcases ih (collector.add literal) with ⟨literals, reads, cleanRest, folded⟩ | later
      · exact .inl ⟨literal :: literals, by simp [read, reads], cleanRest, folded⟩
      · exact .inr later
    · rw [violates, step]
      exact .inr ⟨error, rfl, rfl⟩

/-- What reading lines comes to: the first violation, or what the lines hold. -/
inductive Outcome (earlier rows : List (List Char)) (count : Nat) :
    Except Error (Progress × Nat) → Prop where
  | failed {error : Error} :
      (violationsAfter earlier rows).head? = some error → Outcome earlier rows count (.error error)
  | complete {progress : Progress} :
      violationsAfter earlier rows = [] → Fits (earlier ++ rows) progress →
      Outcome earlier rows count (.ok (progress, count))

theorem Outcome.cons {earlier rows : List (List Char)} {line : List Char} {count : Nat}
    {result : Except Error (Progress × Nat)}
    (outcome : Outcome (earlier ++ [line]) rows count result)
    (clean : lineViolations earlier line = []) : Outcome earlier (line :: rows) count result := by
  cases outcome with
  | failed first =>
    apply Outcome.failed
    rw [violationsAfter, clean]
    exact first
  | complete none fits =>
    apply Outcome.complete
    · rw [violationsAfter, clean]
      exact none
    · rw [List.append_cons]
      exact fits

theorem Outcome.stop {earlier rows : List (List Char)} {line : List Char} {count : Nat}
    {error : Error} (first : (lineViolations earlier line).head? = some error) :
    Outcome earlier (line :: rows) count (.error error) := by
  apply Outcome.failed
  rw [violationsAfter, List.head?_append, first]
  rfl

/-- A data line is read up to its first violation. -/
theorem readLiterals_cases {earlier : List (List Char)} {progress : Progress}
    (fits : Fits earlier progress) {line : List Char} (noProblem : isProblem line = false)
    (isData : isData line = true) :
    (∃ next, readLiterals (earlier.length + 1) progress (trimStart line) = .ok next ∧
      lineViolations earlier line = [] ∧ Fits (earlier ++ [line]) next) ∨
    ∃ error, readLiterals (earlier.length + 1) progress (trimStart line) = .error error ∧
      (lineViolations earlier line).head? = some error := by
  unfold readLiterals lineViolations
  rw [noProblem, isData, words_trimStart, ← fits.header]
  cases header : progress.header with
  | none =>
    rw [fits.header_eq_none_iff.mp header]
    exact .inr ⟨_, rfl, rfl⟩
  | some latest =>
    rw [fits.any_isProblem header]
    rcases foldlM_readToken_cases (earlier.length + 1) latest progress.collector (words line) with
      ⟨literals, reads, clean, folded⟩ | ⟨error, first, folded⟩
    · have next := fits.data noProblem isData reads
      rw [header] at next
      dsimp only
      rw [folded]
      exact .inl ⟨_, rfl, clean, next⟩
    · dsimp only
      rw [folded]
      exact .inr ⟨error, rfl, first⟩

/-- Lines are read up to the first violation or the end of the data. -/
theorem readLines_outcome (rest : List (List Char)) {earlier : List (List Char)}
    {progress : Progress} (fits : Fits earlier progress) :
    Outcome earlier (beforeEnding rest)
      (earlier.length + min ((beforeEnding rest).length + 1) rest.length)
      (readLines earlier.length progress (rest.map some)) := by
  induction rest generalizing earlier progress with
  | nil => exact .complete rfl (by simpa [beforeEnding] using fits)
  | cons line rest ih =>
    -- A line that neither ends the data nor violates anything leaves the rest to read.
    have proceed (noEnd : isEnding line = false) (clean : lineViolations earlier line = [])
        {next : Progress} (fits : Fits (earlier ++ [line]) next) :
        Outcome earlier (beforeEnding (line :: rest))
          (earlier.length + min ((beforeEnding (line :: rest)).length + 1) (line :: rest).length)
          (readLines (earlier.length + 1) next (rest.map some)) := by
      have outcome := (ih fits).cons clean
      rw [List.length_append, List.length_singleton, Nat.add_assoc, Nat.add_comm 1,
        ← Nat.add_min_add_right] at outcome
      rw [beforeEnding_cons noEnd]
      exact outcome
    rw [List.map_cons, readLines]
    rcases classify_cases line with ⟨isEnd, kind⟩ | ⟨noEnd, isProblem, noData, kind⟩ |
      ⟨noEnd, noProblem, isData, kind⟩ | ⟨noEnd, noProblem, noData, kind⟩
    · rw [kind, beforeEnding_cons_of_isEnding isEnd, Nat.min_eq_left (by simp)]
      exact .complete rfl (by simpa using fits)
    · rw [kind]
      dsimp only
      cases read : readHeader? (trimStart line) with
      | none =>
        rw [readHeader?_trimStart] at read
        rw [beforeEnding_cons noEnd]
        apply Outcome.stop
        simp [lineViolations, isProblem, read]
      | some header =>
        rw [readHeader?_trimStart] at read
        apply proceed noEnd _ (fits.problem isProblem read)
        simp [lineViolations, isProblem, read]
    · rw [kind]
      dsimp only
      rcases readLiterals_cases fits noProblem isData with
        ⟨next, read, clean, fitsNext⟩ | ⟨error, read, first⟩
      · rw [read]
        exact proceed noEnd clean fitsNext
      · rw [read, beforeEnding_cons noEnd]
        exact .stop first
    · have clean : lineViolations earlier line = [] := by simp [lineViolations, noProblem, noData]
      rcases kind with kind | kind <;> rw [kind] <;>
        exact proceed noEnd clean (fits.skip noProblem noData)

/-! ## Reading texts -/

/-- The document of a header and the literals after it. -/
def documentOf (header : Header) (literals : List Int) : Document where
  formula := Formula.ofClauses header.numVars (splitAtZeros literals)
  journal :=
    if (splitAtZeros literals).length = header.numClauses then #[]
    else #[.clauseCount header.numClauses (splitAtZeros literals).length]

theorem ReadsAs.unique {rows : List (List Char)} {literals others : List Int}
    (reads : ReadsAs rows literals) (readsOthers : ReadsAs rows others) : literals = others := by
  have images : literals.map Except.ok = others.map (@Except.ok NumeralError Int) :=
    reads.symm.trans readsOthers
  exact List.map_injective_iff.mpr (fun _ _ => Except.ok.inj) images

theorem Fits.finish {rows : List (List Char)} {progress : Progress} (fits : Fits rows progress)
    (count : Nat) :
    (rows.any isProblem = false ∧ progress.finish count = .error (.missingHeader count)) ∨
    (rows.any isProblem = true ∧ ∃ header literals, inForce? rows = some header ∧
      ReadsAs rows literals ∧ progress.finish count = .ok (documentOf header literals)) := by
  cases header : progress.header with
  | none => exact .inl ⟨fits.header_eq_none_iff.mp header, by rw [Progress.finish, header]⟩
  | some latest =>
    obtain ⟨literals, reads, collected⟩ := fits.collected
    have inForce := fits.header.symm.trans header
    refine .inr ⟨fits.any_isProblem header, latest, literals, inForce, reads, ?_⟩
    rw [Progress.finish, header, collected, Collector.finish_foldl_add_empty]
    rfl

/-- A text is read as a whole, or up to its first violation. -/
theorem parse_cases (text : String) :
    (violations text.toList = [] ∧ ∃ header literals, inForce? (body text.toList) = some header ∧
      ReadsAs (body text.toList) literals ∧ parse text = .ok (documentOf header literals)) ∨
    ∃ error, (violations text.toList).head? = some error ∧ parse text = .error error := by
  have outcome := readLines_outcome (lines text.toList) fits_nil
  rw [List.length_nil, Nat.zero_add] at outcome
  unfold parse parseLines violations
  generalize readLines 0 ⟨none, .empty⟩ ((lines text.toList).map some) = result at outcome
  cases outcome with
  | failed first =>
    refine .inr ⟨_, ?_, rfl⟩
    rw [List.head?_append]
    exact Option.or_eq_some_iff.mpr (.inl first)
  | complete clean fits =>
    have noneBefore : violationsAfter [] (body text.toList) = [] := clean
    rcases fits.finish (linesRead text.toList) with
      ⟨noProblem, finished⟩ | ⟨problem, header, literals, inForce, reads, finished⟩
    · have missing : (body text.toList).any isProblem = false := noProblem
      refine .inr ⟨.missingHeader (linesRead text.toList), ?_, finished⟩
      simp [noneBefore, missing]
    · have present : (body text.toList).any isProblem = true := problem
      refine .inl ⟨?_, header, literals, inForce, reads, finished⟩
      simp [noneBefore, present]

theorem parse_eq_ok {text : String} (grammatical : Grammatical (body text.toList))
    {header : Header} (inForce : inForce? (body text.toList) = some header) {literals : List Int}
    (reads : ReadsAs (body text.toList) literals) :
    parse text = .ok (documentOf header literals) := by
  have clean := violations_eq_nil_iff.mpr grammatical
  rcases parse_cases text with ⟨_, other, others, otherInForce, readsOthers, result⟩ |
    ⟨error, first, _⟩
  · rw [result, reads.unique readsOthers, Option.some.inj (inForce.symm.trans otherInForce)]
  · rw [clean] at first
    cases first

theorem largestVar_splitAtZeros (literals : List Int) :
    largestVar (splitAtZeros literals) = largestVar [literals] := by
  apply Nat.le_antisymm
  · apply Formula.largestVar_le_iff.mpr
    intro clause member literal isLiteral
    have isGiven := (mem_of_mem_splitAtZeros member isLiteral).1
    exact Formula.largestVar_le_iff.mp (Nat.le_refl _) literals (by simp) literal isGiven
  · apply Formula.largestVar_le_iff.mpr
    intro _ isGiven literal isLiteral
    rw [List.mem_singleton.mp isGiven] at isLiteral
    by_cases isZero : literal = 0
    · simp [isZero]
    · have kept := mem_withoutZeros.mpr ⟨isLiteral, isZero⟩
      rw [← flatten_splitAtZeros] at kept
      obtain ⟨clause, member, isIn⟩ := List.mem_flatten.mp kept
      exact Formula.largestVar_le_iff.mp (Nat.le_refl _) clause member literal isIn

theorem isOk_parse_iff {text : String} :
    (∃ document, parse text = .ok document) ↔ Grammatical (body text.toList) := by
  constructor
  · rintro ⟨document, result⟩
    rcases parse_cases text with ⟨clean, _⟩ | ⟨error, _, failure⟩
    · exact violations_eq_nil_iff.mp clean
    · cases result.symm.trans failure
  · intro grammatical
    rcases parse_cases text with ⟨_, _, _, _, _, result⟩ | ⟨error, first, _⟩
    · exact ⟨_, result⟩
    · rw [violations_eq_nil_iff.mpr grammatical] at first
      cases first

theorem parse_eq_error_iff {text : String} {error : Error} :
    parse text = .error error ↔ (violations text.toList).head? = some error := by
  rcases parse_cases text with ⟨clean, _, _, _, _, result⟩ | ⟨other, first, failure⟩
  · simp [clean, result]
  · simp [first, failure]

/-- What an accepted text is read as. -/
theorem exists_documentOf {text : String} {document : Document}
    (result : parse text = .ok document) :
    ∃ header literals, inForce? (body text.toList) = some header ∧
      ReadsAs (body text.toList) literals ∧ document = documentOf header literals := by
  rcases parse_cases text with ⟨_, header, literals, inForce, reads, same⟩ | ⟨error, _, failure⟩
  · exact ⟨header, literals, inForce, reads, Except.ok.inj (result.symm.trans same)⟩
  · cases result.symm.trans failure

/-- A text is read exactly if it is grammatical. Then its clauses are the literals of its
data lines cut at the zeros, whatever lines they stand on, over the variables of the last
problem line and those that were read. Otherwise the error is the first violation. -/
theorem parse_grammar (text : String) :
    ((∃ document, parse text = .ok document) ↔ Grammatical (body text.toList)) ∧
    (∀ document, parse text = .ok document → ∃ problem header literals,
      latestProblem? (body text.toList) = some problem ∧ Declares problem header ∧
      ReadsAs (body text.toList) literals ∧
      document.formula.clauses = splitAtZeros literals ∧
      document.formula.numVars = max header.numVars (largestVar [literals])) ∧
    (∀ other document otherDocument, tokens (body text.toList) = tokens (body other.toList) →
      parse text = .ok document → parse other = .ok otherDocument →
      document.formula.clauses = otherDocument.formula.clauses) ∧
    ∀ error, parse text = .error error ↔ (violations text.toList).head? = some error := by
  refine ⟨isOk_parse_iff, ?_, ?_, fun error => parse_eq_error_iff⟩
  · intro document result
    obtain ⟨header, literals, inForce, reads, rfl⟩ := exists_documentOf result
    obtain ⟨problem, latest, declares⟩ := inForce?_eq_some_iff.mp inForce
    refine ⟨problem, header, literals, latest, declares, reads, rfl, ?_⟩
    simp [documentOf, Formula.ofClauses, largestVar_splitAtZeros]
  · intro other document otherDocument sameTokens result otherResult
    obtain ⟨_, literals, _, reads, rfl⟩ := exists_documentOf result
    obtain ⟨_, others, _, readsOthers, rfl⟩ := exists_documentOf otherResult
    have readsToo : ReadsAs (body text.toList) others := by
      unfold ReadsAs at readsOthers ⊢
      rwa [sameTokens]
    simp [documentOf, Formula.ofClauses, reads.unique readsToo]

example : violations "c 1\n1 x 0\np cnf 1\n%\ny".toList =
    [.missingHeader 2, .invalidLiteral 2 "x", .invalidHeader 3 "p cnf 1"] := by
  decide

end CnfSolver.Dimacs
