import CnfSolver.Formula

/-!
# Random formulas

Uniform random clauses of a fixed width, drawn from a seed. A clause never
mentions a variable twice, so its width is capped at the number of variables.
-/

namespace CnfSolver

structure RandomShape where
  numVars : Nat
  numClauses : Nat
  width : Nat
  deriving DecidableEq, Repr

namespace RandomFormula

/-!
## A pseudorandom generator

The state is a 64-bit word that grows by a fixed odd step. A number is drawn by
multiplying the state with a masked copy of itself and folding the halves of the
128-bit product. Since the step is odd the states repeat after `words64` draws and
not before, so a draw that is rejected that often is rejected for ever.
-/

structure Generator where
  state : UInt64
  deriving DecidableEq, Repr

namespace Generator

def step : UInt64 := 0x2d358dccaa6c78a5

def mask : UInt64 := 0x8bb84b93962eacc9

/-- The number of states, and of draws until they repeat. -/
def period : Nat := words64

/-- The halves of the product of two words, folded into one. -/
def fold (first second : UInt64) : UInt64 :=
  let product := first.toNat * second.toNat
  UInt64.ofNat (product % words64) ^^^ UInt64.ofNat (product / words64)

def word (generator : Generator) : UInt64 × Generator :=
  let state := generator.state + step
  (fold state (state ^^^ mask), ⟨state⟩)

/-- Draw a 32-bit number: the lower half of a word. -/
def number (generator : Generator) : Nat × Generator :=
  let (word, next) := generator.word
  (word.toNat % words32, next)

def coin (generator : Generator) : Bool × Generator :=
  let (number, next) := generator.number
  (number % 2 == 0, next)

/-- Draw a number below `bound`: the upper half of a 64-bit product, drawn again
while the lower half is among those that occur once too often. -/
def below (bound : Nat) : Nat → Generator → Except Fault (Nat × Generator)
  | 0, _ => .error .endlessDraw
  | fuel + 1, generator =>
      let (number, next) := generator.number
      let product := number * bound
      if product % words32 < (words32 - bound) % bound then below bound fuel next
      else .ok (product / words32, next)

end Generator

/-! ## Drawing clauses -/

/-- Draw a variable up to `largest` that is not among `taken`. A number is drawn at most
`limit` times. -/
def freshVar (limit largest : Nat) (taken : List Nat) :
    Nat → Generator → Except Fault (Nat × Generator)
  | 0, _ => .error .endlessDraw
  | fuel + 1, generator =>
      match Generator.below largest limit generator with
      | .error fault => .error fault
      | .ok (offset, next) =>
          if taken.contains (offset + 1) then freshVar limit largest taken fuel next
          else .ok (offset + 1, next)

def distinctVars (limit largest : Nat) (taken : List Nat) :
    Nat → Generator → Except Fault (List Nat × Generator)
  | 0, generator => .ok (taken, generator)
  | count + 1, generator =>
      match freshVar limit largest taken limit generator with
      | .error fault => .error fault
      | .ok (var, next) => distinctVars limit largest (taken ++ [var]) count next

def signs : List Nat → Generator → List Int × Generator
  | [], generator => ([], generator)
  | var :: rest, generator =>
      let (positive, next) := generator.coin
      let (literals, last) := signs rest next
      ((if positive then (var : Int) else -(var : Int)) :: literals, last)

def clauses (limit largest width : Nat) :
    Nat → Generator → Except Fault (List (List Int) × Generator)
  | 0, generator => .ok ([], generator)
  | count + 1, generator =>
      match distinctVars limit largest [] width generator with
      | .error fault => .error fault
      | .ok (vars, next) =>
          let (clause, signed) := signs vars next
          match clauses limit largest width count signed with
          | .error fault => .error fault
          | .ok (rest, last) => .ok (clause :: rest, last)

end RandomFormula

/-- Draw a formula from a seed. The variables of its literals fit into 31 bits. -/
def RandomShape.generate (shape : RandomShape) (seed : UInt64) : Except Fault Formula :=
  let width := min shape.width shape.numVars
  let largest := min shape.numVars 0x7fffffff
  let limit := RandomFormula.Generator.period
  match RandomFormula.clauses limit largest width shape.numClauses ⟨seed⟩ with
  | .error fault => .error fault
  | .ok (clauses, _) => .ok (Formula.ofClauses shape.numVars clauses)

end CnfSolver
