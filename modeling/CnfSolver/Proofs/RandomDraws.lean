import CnfSolver.RandomFormula
import CnfSolver.Proofs.FrequencyOrder
import Mathlib.Data.Fintype.Card

/-!
# Random formulas have the requested shape

A draw is repeated until it is accepted, for a number below a bound and again for a
variable that is new to its clause. Such a loop either ends or comes back to a state of
the generator, so if it ends, it ends within as many attempts as there are states. The
relations below say that the loops end, with no bound on the attempts: exactly then a
formula is drawn, and it has the requested shape.
-/

namespace CnfSolver

namespace RandomFormula

/-- Attempts are made one after the other until one is accepted. The first number is that
of the attempts which are not. -/
inductive Repeats {Value : Type} (attempt : Generator → Value → Generator → Prop)
    (accepts : Value → Prop) : Nat → Generator → Value → Generator → Prop where
  | accept {generator value next} :
      attempt generator value next → accepts value →
      Repeats attempt accepts 0 generator value next
  | reject {rejections generator value next found last} :
      attempt generator value next → ¬accepts value →
      Repeats attempt accepts rejections next found last →
      Repeats attempt accepts (rejections + 1) generator found last

/-- The product with the bound is not among those whose lower half occurs once too often. -/
def Admits (bound number : Nat) : Prop :=
  (words32 - bound) % bound ≤ number * bound % words32

/-- Drawing a number below `bound` ends, with `offset`. -/
def DrawsBelow (bound : Nat) (generator : Generator) (offset : Nat) (last : Generator) : Prop :=
  ∃ rejections number,
    Repeats (fun generator number next => generator.number = (number, next)) (Admits bound)
      rejections generator number last ∧
    number * bound / words32 = offset

/-- Drawing a variable that is not among `taken` ends, with `var`. -/
def DrawsFresh (largest : Nat) (taken : List Nat) (generator : Generator) (var : Nat)
    (last : Generator) : Prop :=
  ∃ rejections offset,
    Repeats (DrawsBelow largest) (fun offset => offset + 1 ∉ taken) rejections generator offset
      last ∧
    offset + 1 = var

/-- Drawing so many variables that differ from each other and from those before ends. -/
inductive DrawsDistinct (largest : Nat) :
    List Nat → Nat → Generator → List Nat → Generator → Prop where
  | done {taken generator} : DrawsDistinct largest taken 0 generator taken generator
  | next {taken count generator var after vars last} :
      DrawsFresh largest taken generator var after →
      DrawsDistinct largest (taken ++ [var]) count after vars last →
      DrawsDistinct largest taken (count + 1) generator vars last

/-- Drawing so many clauses of `width` literals ends. -/
inductive DrawsClauses (largest width : Nat) :
    Nat → Generator → List (List Int) → Generator → Prop where
  | done {generator} : DrawsClauses largest width 0 generator [] generator
  | next {count generator vars after rest last} :
      DrawsDistinct largest [] width generator vars after →
      DrawsClauses largest width count (signs vars after).2 rest last →
      DrawsClauses largest width (count + 1) generator ((signs vars after).1 :: rest) last

end RandomFormula

namespace RandomShape

/-- Every draw for a formula of this shape ends, and the formula is the result. -/
def Draws (shape : RandomShape) (seed : UInt64) (formula : Formula) : Prop :=
  ∃ clauses last,
    RandomFormula.DrawsClauses (min shape.numVars 0x7fffffff) (min shape.width shape.numVars)
      shape.numClauses ⟨seed⟩ clauses last ∧
    formula = Formula.ofClauses shape.numVars clauses

/-- The numbers of variables and of clauses are as requested. Each clause has the requested
width, or all variables if they are fewer, no variable twice, and no literal beyond them. -/
structure Fits (shape : RandomShape) (formula : Formula) : Prop where
  numVars : formula.numVars = shape.numVars
  numClauses : formula.clauses.length = shape.numClauses
  width : ∀ clause ∈ formula.clauses, clause.length = min shape.width shape.numVars
  distinct : ∀ clause ∈ formula.clauses, (clause.map Int.natAbs).Nodup
  within : ∀ clause ∈ formula.clauses, ∀ literal ∈ clause,
    literal ≠ 0 ∧ 1 ≤ literal.natAbs ∧ literal.natAbs ≤ shape.numVars

end RandomShape

namespace RandomFormula

/-! ## Loops that end -/

section Repeats

variable {Value : Type} {attempt : Generator → Value → Generator → Prop} {accepts : Value → Prop}

/-- What an attempt yields is determined by the state of the generator. -/
def Determined (attempt : Generator → Value → Generator → Prop) : Prop :=
  ∀ generator first firstNext second secondNext, attempt generator first firstNext →
    attempt generator second secondNext → first = second ∧ firstNext = secondNext

theorem Repeats.unique (determined : Determined attempt) {generator : Generator}
    {rejections : Nat} {found : Value} {last : Generator}
    (repeats : Repeats attempt accepts rejections generator found last)
    {otherRejections : Nat} {otherFound : Value} {otherLast : Generator}
    (other : Repeats attempt accepts otherRejections generator otherFound otherLast) :
    rejections = otherRejections ∧ found = otherFound ∧ last = otherLast := by
  induction repeats generalizing otherRejections with
  | accept made accepted =>
    cases other with
    | accept otherMade _ =>
      obtain ⟨sameValue, sameNext⟩ := determined _ _ _ _ _ made otherMade
      exact ⟨rfl, sameValue, sameNext⟩
    | reject otherMade otherRejected _ =>
      obtain ⟨rfl, -⟩ := determined _ _ _ _ _ made otherMade
      exact absurd accepted otherRejected
  | reject made rejected _ ih =>
    cases other with
    | accept otherMade otherAccepted =>
      obtain ⟨rfl, -⟩ := determined _ _ _ _ _ made otherMade
      exact absurd otherAccepted rejected
    | reject otherMade _ otherRest =>
      obtain ⟨-, rfl⟩ := determined _ _ _ _ _ made otherMade
      obtain ⟨sameCount, sameRest⟩ := ih otherRest
      exact ⟨congrArg (· + 1) sameCount, sameRest⟩

/-- On the way to the end there is a state with any smaller number of rejections left. -/
theorem Repeats.exists_state {generator : Generator} {rejections : Nat} {found : Value}
    {last : Generator} (repeats : Repeats attempt accepts rejections generator found last)
    {left : Nat} (notMore : left ≤ rejections) :
    ∃ state, Repeats attempt accepts left state found last := by
  induction repeats with
  | accept made accepted =>
    obtain rfl := Nat.le_zero.mp notMore
    exact ⟨_, .accept made accepted⟩
  | @reject rejections generator value next found last made rejected rest ih =>
    rcases Nat.lt_or_eq_of_le notMore with fewer | rfl
    · exact ih (Nat.le_of_lt_succ fewer)
    · exact ⟨generator, .reject made rejected rest⟩

/-- A loop that ends passes no state twice. -/
theorem Repeats.lt_period (determined : Determined attempt) {generator : Generator}
    {rejections : Nat} {found : Value} {last : Generator}
    (repeats : Repeats attempt accepts rejections generator found last) :
    rejections < Generator.period := by
  have states : ∀ left : Fin (rejections + 1),
      ∃ state, Repeats attempt accepts left.val state found last :=
    fun left => repeats.exists_state (Nat.le_of_lt_succ left.isLt)
  choose state reaches using states
  have injective : Function.Injective fun left =>
      (⟨(state left).state.toNat, (state left).state.toNat_lt⟩ : Fin Generator.period) := by
    intro first second same
    have sameState : state first = state second :=
      congrArg Generator.mk (UInt64.toNat_inj.mp (congrArg Fin.val same))
    have reachesSecond := reaches second
    rw [← sameState] at reachesSecond
    exact Fin.ext ((reaches first).unique determined reachesSecond).1
  have bound := Fintype.card_le_of_injective _ injective
  rwa [Fintype.card_fin, Fintype.card_fin] at bound

/-- The last attempt is the one that is accepted. -/
theorem Repeats.accepted {generator : Generator} {rejections : Nat} {found : Value}
    {last : Generator} (repeats : Repeats attempt accepts rejections generator found last) :
    ∃ state, attempt state found last ∧ accepts found := by
  induction repeats with
  | accept made accepted => exact ⟨_, made, accepted⟩
  | reject _ _ _ ih => exact ih

end Repeats

/-! ## What is drawn -/

instance (bound number : Nat) : Decidable (Admits bound number) :=
  inferInstanceAs (Decidable (_ ≤ _))

theorem below_succ (bound fuel : Nat) (generator : Generator) :
    Generator.below bound (fuel + 1) generator =
      if Admits bound generator.number.1 then
        .ok (generator.number.1 * bound / words32, generator.number.2)
      else Generator.below bound fuel generator.number.2 := by
  rw [Generator.below]
  rcases generator.number with ⟨number, next⟩
  by_cases admitted : Admits bound number
  · exact (if_neg (Nat.not_lt.mpr admitted)).trans (if_pos admitted).symm
  · exact (if_pos (Nat.lt_of_not_le admitted)).trans (if_neg admitted).symm

theorem drawsBelow_of_below {bound fuel offset : Nat} {generator last : Generator}
    (drawn : Generator.below bound fuel generator = .ok (offset, last)) :
    DrawsBelow bound generator offset last := by
  induction fuel generalizing generator with
  | zero => cases drawn
  | succ fuel ih =>
    rw [below_succ] at drawn
    split at drawn
    next admitted =>
      cases drawn
      exact ⟨0, generator.number.1, .accept rfl admitted, rfl⟩
    next refused =>
      obtain ⟨rejections, number, repeats, isOffset⟩ := ih drawn
      exact ⟨rejections + 1, number, .reject rfl refused repeats, isOffset⟩

theorem below_of_repeats {bound rejections number : Nat} {generator last : Generator}
    (repeats : Repeats (fun generator number next => generator.number = (number, next))
      (Admits bound) rejections generator number last)
    {fuel : Nat} (more : rejections < fuel) :
    Generator.below bound fuel generator = .ok (number * bound / words32, last) := by
  induction repeats generalizing fuel with
  | accept made admitted =>
    obtain ⟨fuel, rfl⟩ := Nat.exists_eq_succ_of_ne_zero (Nat.ne_of_gt more)
    rw [below_succ, made, if_pos admitted]
  | reject made refused _ ih =>
    obtain ⟨fuel, rfl⟩ := Nat.exists_eq_succ_of_ne_zero (Nat.ne_of_gt (Nat.zero_lt_of_lt more))
    rw [below_succ, made, if_neg refused]
    exact ih (Nat.lt_of_succ_lt_succ more)

theorem determined_number :
    Determined fun generator number next => Generator.number generator = (number, next) := by
  intro generator first firstNext second secondNext isFirst isSecond
  rw [isFirst, Prod.mk.injEq] at isSecond
  exact isSecond

theorem determined_below (bound : Nat) : Determined (DrawsBelow bound) := by
  rintro generator first firstNext second secondNext ⟨_, number, repeats, rfl⟩
    ⟨_, otherNumber, otherRepeats, rfl⟩
  obtain ⟨-, rfl, rfl⟩ := repeats.unique determined_number otherRepeats
  exact ⟨rfl, rfl⟩

section Limit

-- The limit is a variable here: the number of states would be unfolded.
variable {limit : Nat} (enough : Generator.period ≤ limit)
include enough

theorem below_eq_ok_iff {bound offset : Nat} {generator last : Generator} :
    Generator.below bound limit generator = .ok (offset, last) ↔
      DrawsBelow bound generator offset last := by
  constructor
  · exact drawsBelow_of_below
  · rintro ⟨rejections, number, repeats, rfl⟩
    have fewer := repeats.lt_period determined_number
    exact below_of_repeats repeats (Nat.lt_of_lt_of_le fewer enough)

theorem freshVar_succ {largest : Nat} {taken : List Nat} {generator next : Generator}
    {offset : Nat} (draws : DrawsBelow largest generator offset next) (fuel : Nat) :
    freshVar limit largest taken (fuel + 1) generator =
      if offset + 1 ∉ taken then .ok (offset + 1, next)
      else freshVar limit largest taken fuel next := by
  rw [freshVar, (below_eq_ok_iff enough).mpr draws]
  by_cases fresh : offset + 1 ∉ taken
  · rw [if_pos fresh]
    exact if_neg (by simpa using fresh)
  · rw [if_neg fresh]
    exact if_pos (by simpa using fresh)

theorem drawsFresh_of_freshVar {largest fuel var : Nat} {taken : List Nat}
    {generator last : Generator}
    (drawn : freshVar limit largest taken fuel generator = .ok (var, last)) :
    DrawsFresh largest taken generator var last := by
  induction fuel generalizing generator with
  | zero => cases drawn
  | succ fuel ih =>
    cases below : Generator.below largest limit generator with
    | error fault =>
      rw [freshVar, below] at drawn
      cases drawn
    | ok attempted =>
      obtain ⟨offset, next⟩ := attempted
      have attempt := (below_eq_ok_iff enough).mp below
      rw [freshVar_succ enough attempt] at drawn
      split at drawn
      next fresh =>
        cases drawn
        exact ⟨0, offset, .accept attempt fresh, rfl⟩
      next isTaken =>
        obtain ⟨rejections, later, repeats, isVar⟩ := ih drawn
        exact ⟨rejections + 1, later, .reject attempt isTaken repeats, isVar⟩

theorem freshVar_of_repeats {largest rejections offset : Nat} {taken : List Nat}
    {generator last : Generator}
    (repeats : Repeats (DrawsBelow largest) (fun offset => offset + 1 ∉ taken) rejections generator
      offset last)
    {fuel : Nat} (more : rejections < fuel) :
    freshVar limit largest taken fuel generator = .ok (offset + 1, last) := by
  induction repeats generalizing fuel with
  | accept made fresh =>
    obtain ⟨fuel, rfl⟩ := Nat.exists_eq_succ_of_ne_zero (Nat.ne_of_gt more)
    rw [freshVar_succ enough made, if_pos fresh]
  | reject made isTaken _ ih =>
    obtain ⟨fuel, rfl⟩ := Nat.exists_eq_succ_of_ne_zero (Nat.ne_of_gt (Nat.zero_lt_of_lt more))
    rw [freshVar_succ enough made, if_neg isTaken]
    exact ih (Nat.lt_of_succ_lt_succ more)

theorem freshVar_eq_ok_iff {largest var : Nat} {taken : List Nat} {generator last : Generator} :
    freshVar limit largest taken limit generator = .ok (var, last) ↔
      DrawsFresh largest taken generator var last := by
  constructor
  · exact drawsFresh_of_freshVar enough
  · rintro ⟨rejections, offset, repeats, rfl⟩
    have fewer := repeats.lt_period (determined_below largest)
    exact freshVar_of_repeats enough repeats (Nat.lt_of_lt_of_le fewer enough)

theorem distinctVars_eq_ok_iff {largest count : Nat} {taken vars : List Nat}
    {generator last : Generator} :
    distinctVars limit largest taken count generator = .ok (vars, last) ↔
      DrawsDistinct largest taken count generator vars last := by
  induction count generalizing taken generator with
  | zero =>
    constructor
    · intro drawn
      cases drawn
      exact .done
    · rintro ⟨⟩
      rfl
  | succ count ih =>
    constructor
    · intro drawn
      rw [distinctVars] at drawn
      split at drawn
      next failed => cases drawn
      next var next fresh => exact .next ((freshVar_eq_ok_iff enough).mp fresh) (ih.mp drawn)
    · intro draws
      cases draws with
      | next fresh rest =>
        rw [distinctVars, (freshVar_eq_ok_iff enough).mpr fresh]
        exact ih.mpr rest

theorem clauses_eq_ok_iff {largest width count : Nat} {lists : List (List Int)}
    {generator last : Generator} :
    clauses limit largest width count generator = .ok (lists, last) ↔
      DrawsClauses largest width count generator lists last := by
  induction count generalizing generator lists with
  | zero =>
    constructor
    · intro drawn
      cases drawn
      exact .done
    · rintro ⟨⟩
      rfl
  | succ count ih =>
    constructor
    · intro drawn
      rw [clauses] at drawn
      split at drawn
      next failed => cases drawn
      next vars next distinct =>
        dsimp only at drawn
        split at drawn
        next failed => cases drawn
        next rest final others =>
          cases drawn
          exact .next ((distinctVars_eq_ok_iff enough).mp distinct) (ih.mp others)
    · intro draws
      cases draws with
      | next distinct others =>
        simp only [clauses, (distinctVars_eq_ok_iff enough).mpr distinct, ih.mpr others]

end Limit

/-! ## The shape -/

theorem number_lt (generator : Generator) : generator.number.1 < words32 :=
  Nat.mod_lt _ (by decide)

/-- The upper half of the product of a 32-bit number and a bound is below the bound. -/
theorem DrawsBelow.lt {bound offset : Nat} {generator last : Generator}
    (draws : DrawsBelow bound generator offset last) (positive : 0 < bound) : offset < bound := by
  obtain ⟨rejections, number, repeats, rfl⟩ := draws
  obtain ⟨state, made, _⟩ := repeats.accepted
  have small := number_lt state
  rw [made] at small
  exact Nat.div_lt_of_lt_mul (Nat.mul_lt_mul_of_pos_right small positive)

/-- So many different variables, none beyond the largest. -/
structure Distinct (largest count : Nat) (vars : List Nat) : Prop where
  length_eq : vars.length = count
  nodup : vars.Nodup
  within : ∀ var ∈ vars, 1 ≤ var ∧ var ≤ largest

theorem Distinct.concat {largest count : Nat} {taken : List Nat}
    (distinct : Distinct largest count taken) {generator last : Generator} {var : Nat}
    (positive : 0 < largest) (fresh : DrawsFresh largest taken generator var last) :
    Distinct largest (count + 1) (taken ++ [var]) := by
  obtain ⟨rejections, offset, repeats, rfl⟩ := fresh
  obtain ⟨state, drawn, notTaken⟩ := repeats.accepted
  have small : offset < largest := drawn.lt positive
  refine ⟨?_, ?_, ?_⟩
  · rw [List.length_append, distinct.length_eq, List.length_singleton]
  · rw [← List.concat_eq_append]
    exact distinct.nodup.concat notTaken
  · intro var member
    rcases List.mem_append.mp member with earlier | isLast
    · exact distinct.within var earlier
    · rw [List.mem_singleton.mp isLast]
      exact ⟨Nat.succ_pos offset, small⟩

theorem DrawsDistinct.distinct {largest count : Nat} {taken vars : List Nat}
    {generator last : Generator}
    (draws : DrawsDistinct largest taken count generator vars last) (room : count ≤ largest)
    {before : Nat} (distinct : Distinct largest before taken) :
    Distinct largest (before + count) vars := by
  induction draws generalizing before with
  | done => exact distinct
  | next fresh _ ih =>
    have positive : 0 < largest := Nat.zero_lt_of_lt room
    have extended := ih (Nat.le_of_succ_le room) (distinct.concat positive fresh)
    rwa [Nat.add_right_comm] at extended

theorem map_natAbs_signs (vars : List Nat) (generator : Generator) :
    (signs vars generator).1.map Int.natAbs = vars := by
  induction vars generalizing generator with
  | nil => rfl
  | cons var rest ih =>
    have unfolded : (signs (var :: rest) generator).1 =
        (if generator.coin.1 then (var : Int) else -(var : Int)) ::
          (signs rest generator.coin.2).1 := rfl
    rw [unfolded, List.map_cons, ih]
    split <;> simp

theorem DrawsClauses.length_eq {largest width count : Nat} {lists : List (List Int)}
    {generator last : Generator} (draws : DrawsClauses largest width count generator lists last) :
    lists.length = count := by
  induction draws with
  | done => rfl
  | next _ _ ih => rw [List.length_cons, ih]

theorem DrawsClauses.distinct {largest width count : Nat} {lists : List (List Int)}
    {generator last : Generator} (draws : DrawsClauses largest width count generator lists last)
    (room : width ≤ largest) :
    ∀ clause ∈ lists, Distinct largest width (clause.map Int.natAbs) := by
  induction draws with
  | done => simp
  | next vars _ ih =>
    have nothing : Distinct largest 0 [] := ⟨rfl, List.nodup_nil, by simp⟩
    have drawn := vars.distinct room nothing
    rw [Nat.zero_add] at drawn
    refine List.forall_mem_cons.mpr ⟨?_, ih⟩
    rwa [map_natAbs_signs]

end RandomFormula

namespace RandomShape

/-- A formula is drawn exactly if every loop ends. -/
theorem generate_eq_ok_iff {shape : RandomShape} {seed : UInt64} {formula : Formula} :
    shape.generate seed = .ok formula ↔ shape.Draws seed formula := by
  have clausesIff := @RandomFormula.clauses_eq_ok_iff _ (Nat.le_refl RandomFormula.Generator.period)
    (min shape.numVars 0x7fffffff) (min shape.width shape.numVars) shape.numClauses
  rw [generate]
  generalize RandomFormula.Generator.period = limit at clausesIff ⊢
  constructor
  · intro drawn
    split at drawn
    next failed => cases drawn
    next clauses last others =>
      cases drawn
      exact ⟨clauses, last, clausesIff.mp others, rfl⟩
  · rintro ⟨clauses, last, draws, rfl⟩
    simp only [clausesIff.mpr draws]

/-- If all loops end, a formula of the requested shape is drawn. -/
theorem generate_fits {shape : RandomShape} (small : shape.numVars ≤ 0x7fffffff) {seed : UInt64}
    {formula : Formula} (ends : shape.Draws seed formula) :
    shape.generate seed = .ok formula ∧ shape.Fits formula := by
  refine ⟨generate_eq_ok_iff.mpr ends, ?_⟩
  obtain ⟨clauses, last, draws, rfl⟩ := ends
  rw [Nat.min_eq_left small] at draws
  have distinct := draws.distinct (Nat.min_le_right _ _)
  have within : ∀ clause ∈ clauses, ∀ literal ∈ clause,
      1 ≤ literal.natAbs ∧ literal.natAbs ≤ shape.numVars := by
    intro clause member literal literalMember
    exact (distinct clause member).within _ (List.mem_map_of_mem literalMember)
  refine ⟨?_, draws.length_eq, ?_, ?_, ?_⟩
  · have covered : largestVar clauses ≤ shape.numVars :=
      Formula.largestVar_le_iff.mpr fun clause member literal literalMember =>
        (within clause member literal literalMember).2
    exact Nat.max_eq_left covered
  · intro clause member
    rw [← (distinct clause member).length_eq, List.length_map]
  · exact fun clause member => (distinct clause member).nodup
  · intro clause member literal literalMember
    have bounds := within clause member literal literalMember
    exact ⟨Int.natAbs_pos.mp bounds.1, bounds⟩

/-- The requested clauses are wider than there are variables. -/
theorem generate_fits_capped_width :
    (RandomShape.mk 3 2 5).numVars ≤ 0x7fffffff ∧
    (RandomShape.mk 3 2 5).Draws 7 ⟨3, [[-2, -1, 3], [1, -2, 3]]⟩ ∧
    (RandomShape.mk 3 2 5).generate 7 = .ok ⟨3, [[-2, -1, 3], [1, -2, 3]]⟩ ∧
    (RandomShape.mk 3 2 5).Fits ⟨3, [[-2, -1, 3], [1, -2, 3]]⟩ := by
  have small : (RandomShape.mk 3 2 5).numVars ≤ 0x7fffffff := by decide
  have computed :
      ((RandomShape.mk 3 2 5).generate 7).toOption = some ⟨3, [[-2, -1, 3], [1, -2, 3]]⟩ := by
    decide +kernel
  have drawn : (RandomShape.mk 3 2 5).generate 7 = .ok ⟨3, [[-2, -1, 3], [1, -2, 3]]⟩ := by
    cases outcome : (RandomShape.mk 3 2 5).generate 7 with
    | error fault =>
      rw [outcome] at computed
      cases computed
    | ok formula =>
      rw [outcome] at computed
      exact congrArg Except.ok (Option.some.inj computed)
  have ends := generate_eq_ok_iff.mp drawn
  exact ⟨small, ends, generate_fits small ends⟩

end RandomShape

end CnfSolver
