/-!
# Text for a terminal

A terminal obeys control characters, and control sequences that begin with the
escape character. `harmless` is the part of a text that only shows: no character
of a sequence is kept, and of the control characters only the white space ones.

White space within a sequence is obeyed on its own and suspends the sequence. What
follows then shows up to the next control character, where the sequence goes on.
-/

namespace CnfSolver.Text.Terminal

/-- The characters that a sequence may hold before its last one. -/
def isIntermediate (char : Char) : Bool := 0x20 ≤ char.toNat && char.toNat ≤ 0x2F

def isParameter (char : Char) : Bool := 0x30 ≤ char.toNat && char.toNat ≤ 0x3F

/-- The characters that end a control sequence. -/
def isFinal (char : Char) : Bool := 0x40 ≤ char.toNat && char.toNat ≤ 0x7E

/-- The control characters that are white space. -/
def isSpacing (char : Char) : Bool :=
  char = '\t' || char = '\n' || char = '\x0C' || char = '\r'

/-- Whether a character shows, or is white space, when it stands in no sequence. -/
def isShown (char : Char) : Bool :=
  isSpacing char || (0x20 ≤ char.toNat && char.toNat ≠ 0x7F)

/-- Whether one of the bytes of a character is the string terminator. -/
def holdsTerminator (char : Char) : Bool := (String.utf8EncodeChar char).contains 0x9C

/-- How much of a sequence has been read. -/
inductive Mode where
  /-- No sequence has begun. -/
  | ground
  | escape
  | escapeIntermediate
  /-- A control sequence, which lasts up to its final character. -/
  | control
  | deviceEntry
  | deviceParameter
  | deviceIntermediate
  /-- A string, which lasts up to the string terminator. -/
  | string
  /-- A command to the operating system, which lasts up to a bell. -/
  | command
  deriving DecidableEq, Repr

namespace Mode

/-- What the character after the escape character introduces. -/
def introduced : Char → Mode
  | '[' => control
  | ']' => command
  | 'P' => deviceEntry
  | 'X' | '^' | '_' => string
  | _ => ground

/-- Read a character. The escape character begins a sequence anywhere, and the
characters for cancel and substitute end one. -/
def next (mode : Mode) (char : Char) : Mode :=
  if char = '\x1B' then escape
  else if char = '\x18' || char = '\x1A' then ground
  else match mode with
  | ground => ground
  | escape =>
      if isIntermediate char then escapeIntermediate
      else if isParameter char || isFinal char then introduced char
      else escape
  | escapeIntermediate =>
      if isParameter char || isFinal char then ground else escapeIntermediate
  | control => if isFinal char then ground else control
  | deviceEntry =>
      if isIntermediate char then deviceIntermediate
      else if isParameter char then deviceParameter
      else if isFinal char then string
      else deviceEntry
  | deviceParameter =>
      if isIntermediate char then deviceIntermediate
      else if isFinal char || (isParameter char && '<' ≤ char) then string
      else deviceParameter
  | deviceIntermediate =>
      if isParameter char || isFinal char then string else deviceIntermediate
  | string => if holdsTerminator char then ground else string
  | command => if char = '\x07' then ground else command

/-- Whether a character is kept that is read in a mode. -/
def keeps (mode : Mode) (char : Char) : Bool :=
  match mode with
  | ground => isShown char
  | escape | escapeIntermediate | control => isSpacing char
  | deviceEntry | deviceParameter | deviceIntermediate | string | command => false

theorem isShown_of_keeps {mode : Mode} {char : Char} (kept : mode.keeps char = true) :
    isShown char = true := by
  cases mode <;> simp_all [keeps, isShown]

end Mode

/-- The part of a text that only shows, if a sequence has been read as far as `mode`
and may be suspended. A character outside ASCII ends a suspended sequence. -/
def harmlessFrom (mode : Mode) (suspended : Bool) : List Char → List Char
  | [] => []
  | char :: rest =>
      if suspended && isShown char then
        char :: harmlessFrom (if char.toNat < 0x80 then mode else .ground) true rest
      else if mode.keeps char then char :: harmlessFrom (mode.next char) true rest
      else harmlessFrom (mode.next char) false rest

/-- Of the control characters, only white space is left. -/
theorem isShown_of_mem_harmlessFrom {mode : Mode} {suspended : Bool} {text : List Char}
    {char : Char} (member : char ∈ harmlessFrom mode suspended text) : isShown char = true := by
  fun_induction harmlessFrom mode suspended text with
  | case1 => simp at member
  | case2 mode suspended first rest shown ih =>
      rcases List.mem_cons.1 member with rfl | later
      · exact (Bool.and_eq_true _ _ ▸ shown).2
      · exact ih later
  | case3 mode suspended first rest _ kept ih =>
      rcases List.mem_cons.1 member with rfl | later
      · exact Mode.isShown_of_keeps kept
      · exact ih later
  | case4 mode suspended first rest _ _ ih => exact ih member

/-- The part of a text that only shows. -/
def harmless (text : List Char) : List Char := harmlessFrom .ground false text

end CnfSolver.Text.Terminal
