import CnfSolver.Semantics
import CnfSolver.Text
import Mathlib.Data.List.Basic

/-!
# Words, lines and the clauses of a stream

Blanks only separate words, so the words of a text are those of its lines, one line
after the other. In the same way a stream of literals is cut at its zeros: the
clauses that a collector holds at the end of a stream are the pieces between the
zeros, and what follows the last zero if it is not empty.
-/

namespace CnfSolver.Text

/-- A property of every list without the separator that is kept when such a list and
the separator are put in front. -/
theorem piece_induction {Symbol : Type} [DecidableEq Symbol] (separator : Symbol)
    {motive : List Symbol → Prop} (last : ∀ piece, separator ∉ piece → motive piece)
    (more : ∀ piece rest, separator ∉ piece → motive rest → motive (piece ++ separator :: rest))
    (symbols : List Symbol) : motive symbols := by
  by_cases member : separator ∈ symbols
  · obtain ⟨piece, rest, rfl, absent⟩ := List.eq_append_cons_of_mem member
    exact more piece rest absent (piece_induction separator last more rest)
  · exact last symbols member
termination_by symbols.length

/-! ## Words -/

@[simp]
theorem words_nil : words [] = [] := by
  simp [words]

theorem words_append_blank {blank : Char} (isBlank : isBlank blank = true)
    (first rest : List Char) : words (first ++ blank :: rest) = words first ++ words rest := by
  unfold words
  rw [List.splitOnP_append_cons first rest isBlank, List.filter_append]

/-- A text without blanks that is not empty. -/
structure IsWord (text : List Char) : Prop where
  nonempty : text ≠ []
  noBlank : ∀ char ∈ text, isBlank char = false

theorem isWord_iff {text : List Char} :
    IsWord text ↔ text.isEmpty = false ∧ text.any isBlank = false := by
  rw [List.isEmpty_eq_false_iff, List.any_eq_false]
  constructor
  · intro isWord
    exact ⟨isWord.nonempty, by simpa using isWord.noBlank⟩
  · rintro ⟨nonempty, noBlank⟩
    exact ⟨nonempty, by simpa using noBlank⟩

instance : DecidablePred IsWord := fun _ => decidable_of_iff _ isWord_iff.symm

theorem IsWord.words_eq {word : List Char} (isWord : IsWord word) : words word = [word] := by
  unfold words
  rw [List.splitOnP_eq_singleton isWord.noBlank]
  simp [isWord.nonempty]

theorem words_cons_blank {blank : Char} (isBlank : isBlank blank = true) (rest : List Char) :
    words (blank :: rest) = words rest := by
  simpa using words_append_blank isBlank [] rest

@[simp]
theorem words_trimStart (text : List Char) : words (trimStart text) = words text := by
  induction text with
  | nil => rfl
  | cons char rest ih =>
    by_cases blank : isBlank char = true
    · rw [words_cons_blank blank, ← ih]
      simp [trimStart, blank]
    · simp [trimStart, blank]

theorem length_words_le (text : List Char) : (words text).length ≤ text.length := by
  unfold words
  induction text with
  | nil => simp
  | cons char rest ih =>
    rw [List.splitOnP_cons_eq_if_modifyHead]
    split
    next blank => simpa using Nat.le_succ_of_le ih
    next part =>
      obtain ⟨piece, pieces, parts⟩ :=
        List.exists_cons_of_ne_nil (List.splitOnP_ne_nil isBlank rest)
      rw [parts] at ih ⊢
      have shorter := ((List.sublist_cons_self piece pieces).filter
        fun word => !word.isEmpty).length_le
      simpa using Nat.le_trans shorter ih

/-! ## Lines -/

section Lines

variable {Symbol : Type} [DecidableEq Symbol]

theorem cutLines_of_not_mem {lineFeed carriageReturn : Symbol} {text : List Symbol}
    (absent : lineFeed ∉ text) :
    cutLines lineFeed carriageReturn text = [text].filter fun line => !line.isEmpty := by
  simp [cutLines, List.splitOn_eq_singleton absent]

theorem cutLines_append {lineFeed carriageReturn : Symbol} {line : List Symbol}
    (absent : lineFeed ∉ line) (rest : List Symbol) :
    cutLines lineFeed carriageReturn (line ++ lineFeed :: rest) =
      dropReturn carriageReturn line :: cutLines lineFeed carriageReturn rest := by
  obtain ⟨piece, pieces, parts⟩ :=
    List.exists_cons_of_ne_nil (List.splitOn_ne_nil lineFeed rest)
  simp [cutLines, List.splitOn_append_cons_self_of_not_mem absent, parts, List.getLast?_cons]

end Lines

theorem words_dropReturn (line : List Char) : words (dropReturn '\r' line) = words line := by
  unfold dropReturn
  split
  next ends =>
    -- The carriage return is itself a blank.
    obtain ⟨front, rfl⟩ := List.getLast?_eq_some_iff.mp ends
    rw [List.dropLast_concat, words_append_blank (by decide), words_nil, List.append_nil]
  next goesOn => rfl

/-- The words of a text are those of its lines. -/
theorem flatMap_words_lines (text : List Char) : (lines text).flatMap words = words text := by
  unfold lines
  induction text using piece_induction '\n' with
  | last piece absent =>
    rw [cutLines_of_not_mem absent]
    cases piece with
    | nil => simp
    | cons char rest => simp
  | more piece rest absent ih =>
    rw [cutLines_append absent, List.flatMap_cons, ih, words_dropReturn,
      words_append_blank (by decide)]

/-- Lines that hold no line feed and do not end in a carriage return are found again. -/
theorem lines_flatMap {rows : List (List Char)}
    (plain : ∀ row ∈ rows, '\n' ∉ row ∧ row.getLast? ≠ some '\r') :
    lines (rows.flatMap fun row => row ++ ['\n']) = rows := by
  unfold lines
  induction rows with
  | nil => simp [cutLines]
  | cons row rest ih =>
    obtain ⟨⟨oneLine, noReturn⟩, plainRest⟩ := List.forall_mem_cons.mp plain
    rw [List.flatMap_cons, List.append_assoc, List.singleton_append, cutLines_append oneLine,
      ih plainRest, dropReturn, if_neg noReturn]

/-! ## Spaced words -/

/-- The words with a space between each two of them. -/
def spaced (row : List (List Char)) : List Char := [' '].intercalate row

section Spaced

variable {row : List (List Char)}

theorem spaced_cons_cons (word next : List Char) (rest : List (List Char)) :
    spaced (word :: next :: rest) = word ++ ' ' :: spaced (next :: rest) := by
  simp [spaced, List.intercalate_cons_cons]

@[simp]
theorem spaced_singleton (word : List Char) : spaced [word] = word := List.intercalate_singleton

theorem spaced_concat (row : List (List Char)) (last : List Char) :
    spaced (row ++ [last]) = (row.flatMap fun word => word ++ [' ']) ++ last := by
  induction row with
  | nil => simp
  | cons word rest ih =>
    have more : rest ++ [last] ≠ [] := by simp
    unfold spaced at ih ⊢
    rw [List.cons_append, List.intercalate_cons_of_ne_nil more, ih]
    simp

theorem words_spaced (areWords : ∀ word ∈ row, IsWord word) : words (spaced row) = row := by
  induction row with
  | nil => simp [spaced]
  | cons word rest ih =>
    obtain ⟨isWord, areWordsRest⟩ := List.forall_mem_cons.mp areWords
    cases rest with
    | nil => simpa using isWord.words_eq
    | cons next rest =>
      rw [spaced_cons_cons, words_append_blank (by decide), isWord.words_eq, ih areWordsRest]
      rfl

theorem not_mem_spaced {blank : Char} (isBlank : isBlank blank = true) (notSpace : blank ≠ ' ')
    (areWords : ∀ word ∈ row, IsWord word) : blank ∉ spaced row := by
  induction row with
  | nil => simp [spaced]
  | cons word rest ih =>
    obtain ⟨isWord, areWordsRest⟩ := List.forall_mem_cons.mp areWords
    have absent : blank ∉ word := by
      intro member
      have noBlank := isWord.noBlank blank member
      simp [isBlank] at noBlank
    cases rest with
    | nil => simpa using absent
    | cons next rest =>
      rw [spaced_cons_cons]
      simp [absent, notSpace, ih areWordsRest]

/-- Rows of words are the lines of the text that has a line feed after each. -/
theorem lines_spaced {rows : List (List (List Char))}
    (areWords : ∀ row ∈ rows, ∀ word ∈ row, IsWord word) :
    lines ((rows.map spaced).flatMap fun row => row ++ ['\n']) = rows.map spaced := by
  apply lines_flatMap
  intro line member
  obtain ⟨row, isRow, rfl⟩ := List.mem_map.mp member
  have noReturn : '\r' ∉ spaced row := not_mem_spaced (by decide) (by decide) (areWords row isRow)
  refine ⟨not_mem_spaced (by decide) (by decide) (areWords row isRow), ?_⟩
  intro ends
  exact noReturn (List.mem_of_getLast? ends)

end Spaced

/-! ## Clauses between zeros -/

/-- The pieces of a stream of literals between its zeros, and what follows the last
zero if it is not empty. -/
def splitAtZeros (literals : List Int) : List (List Int) :=
  let pieces := literals.splitOn 0
  pieces.dropLast ++ pieces.getLast?.toList.filter fun piece => !piece.isEmpty

theorem splitAtZeros_of_not_mem {literals : List Int} (noZero : 0 ∉ literals) :
    splitAtZeros literals = [literals].filter fun piece => !piece.isEmpty := by
  simp [splitAtZeros, List.splitOn_eq_singleton noZero]

theorem splitAtZeros_append {clause : List Int} (noZero : 0 ∉ clause) (rest : List Int) :
    splitAtZeros (clause ++ 0 :: rest) = clause :: splitAtZeros rest := by
  obtain ⟨piece, pieces, parts⟩ := List.exists_cons_of_ne_nil (List.splitOn_ne_nil 0 rest)
  simp [splitAtZeros, List.splitOn_append_cons_self_of_not_mem noZero, parts, List.getLast?_cons]

/-- Nothing but the zeros is lost. -/
theorem flatten_splitAtZeros (literals : List Int) :
    (splitAtZeros literals).flatten = withoutZeros literals := by
  induction literals using piece_induction (0 : Int) with
  | last piece noZero =>
    rw [splitAtZeros_of_not_mem noZero, withoutZeros_eq_self noZero]
    cases piece with
    | nil => rfl
    | cons literal rest => simp
  | more piece rest noZero ih =>
    have cut : withoutZeros (piece ++ 0 :: rest) = withoutZeros piece ++ withoutZeros rest := by
      simp [withoutZeros]
    rw [splitAtZeros_append noZero, List.flatten_cons, ih, cut, withoutZeros_eq_self noZero]

theorem mem_of_mem_splitAtZeros {literals clause : List Int}
    (member : clause ∈ splitAtZeros literals) {literal : Int} (isLiteral : literal ∈ clause) :
    literal ∈ literals ∧ literal ≠ 0 := by
  rw [← mem_withoutZeros, ← flatten_splitAtZeros]
  exact List.mem_flatten_of_mem member isLiteral

theorem length_splitAtZeros_le (literals : List Int) :
    (splitAtZeros literals).length ≤ literals.length := by
  induction literals using piece_induction (0 : Int) with
  | last piece noZero =>
    rw [splitAtZeros_of_not_mem noZero]
    cases piece with
    | nil => simp
    | cons literal rest => simp
  | more piece rest noZero ih =>
    rw [splitAtZeros_append noZero, List.length_cons, List.length_append, List.length_cons]
    omega

theorem splitAtZeros_flatMap {clauses : List (List Int)}
    (noZeros : ∀ clause ∈ clauses, 0 ∉ clause) :
    splitAtZeros (clauses.flatMap fun clause => clause ++ [0]) = clauses := by
  induction clauses with
  | nil => rfl
  | cons clause rest ih =>
    obtain ⟨noZero, noZerosRest⟩ := List.forall_mem_cons.mp noZeros
    rw [List.flatMap_cons, List.append_assoc, List.singleton_append, splitAtZeros_append noZero,
      ih noZerosRest]

namespace Collector

/-- What a collector holds after more literals: its clauses, then the pieces of its
current literals and the new ones. -/
theorem finish_foldl_add (literals : List Int) {collector : Collector}
    (noZero : 0 ∉ collector.current) :
    (literals.foldl add collector).finish =
      collector.clauses.toList ++ splitAtZeros (collector.current.toList ++ literals) := by
  induction literals generalizing collector with
  | nil =>
    have absent : 0 ∉ collector.current.toList := by simpa using noZero
    rw [List.foldl_nil, List.append_nil, splitAtZeros_of_not_mem absent, finish]
    by_cases isEmpty : collector.current.isEmpty = true
    · simp_all
    · simp_all
  | cons literal rest ih =>
    rw [List.foldl_cons]
    by_cases isZero : literal = 0
    · subst isZero
      have absent : 0 ∉ collector.current.toList := by simpa using noZero
      rw [splitAtZeros_append absent, add, if_pos rfl, ih (by simp)]
      simp
    · have absent : 0 ∉ (collector.add literal).current := by
        simp [add, isZero, noZero, Ne.symm isZero]
      rw [ih absent, add, if_neg isZero]
      simp

theorem finish_foldl_add_empty (literals : List Int) :
    (literals.foldl add empty).finish = splitAtZeros literals := by
  have noZero : 0 ∉ empty.current := by simp [empty]
  simpa [empty] using finish_foldl_add literals noZero

end Collector

end CnfSolver.Text
