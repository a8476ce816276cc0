import CnfSolver.Proofs.ClauseStrengthening
import CnfSolver.Proofs.FrequencyOrder
import Mathlib.Data.Finset.Dedup
import Mathlib.Data.List.ProdSigma
import Mathlib.Data.List.Sort
import Mathlib.Data.Prod.Lex

/-!
# Buckets find what a scan of all pairs finds

Only clauses over the same variables resolve, so the pairs inside the buckets are all
that resolve. The buckets are visited in order of their first clauses, whatever the
order in which they come, and their pairs in order of places. That is the order of a
scan of all pairs by the first clause over the same variables, then by the places of
the pair.
-/

namespace CnfSolver

/-- The set of the variables of a clause. -/
def Clause.varSet (clause : Clause) : Finset Nat := clause.vars.toFinset

namespace Strengthening

/-! ## The scan -/

/-- The resolvent of the clauses at two places. -/
def resolventAt? (clauses : List Clause) (pair : Nat × Nat) : Option (List Int) :=
  clauses[pair.1]?.bind fun first =>
    clauses[pair.2]?.bind fun second => resolve? first.literals second.literals

/-- All pairs of an earlier and a later place. -/
def placePairs (count : Nat) : List (Nat × Nat) :=
  (List.range count ×ˢ List.range count).filter fun pair => pair.1 < pair.2

/-- The first place with a clause over the variables of the clause at the given
place. -/
def firstAlike (clauses : List Clause) (place : Nat) : Nat :=
  clauses.findIdx fun clause => clauses[place]?.map Clause.varSet = some clause.varSet

/-- What the pairs of the scan are ordered by. -/
def rank (clauses : List Clause) (pair : Nat × Nat) : Nat ×ₗ Nat ×ₗ Nat :=
  toLex (firstAlike clauses pair.1, toLex pair)

/-- All pairs of places, by the first clause over the same variables and then by the
places themselves. -/
def scan (clauses : List Clause) : List (Nat × Nat) :=
  (placePairs clauses.length).insertionSort fun first second =>
    rank clauses first ≤ rank clauses second

theorem mem_placePairs {count : Nat} {pair : Nat × Nat} :
    pair ∈ placePairs count ↔ pair.1 < pair.2 ∧ pair.2 < count := by
  obtain ⟨first, second⟩ := pair
  simp only [placePairs, List.mem_filter, List.mem_product, List.mem_range, decide_eq_true_eq]
  omega

theorem nodup_placePairs (count : Nat) : (placePairs count).Nodup :=
  (List.nodup_range.product List.nodup_range).filter _

theorem mem_scan {clauses : List Clause} {pair : Nat × Nat} :
    pair ∈ scan clauses ↔ pair.1 < pair.2 ∧ pair.2 < clauses.length := by
  rw [scan, (List.perm_insertionSort _ _).mem_iff, mem_placePairs]

theorem nodup_scan (clauses : List Clause) : (scan clauses).Nodup :=
  (List.perm_insertionSort _ _).nodup_iff.mpr (nodup_placePairs clauses.length)

theorem pairwise_scan (clauses : List Clause) :
    (scan clauses).Pairwise fun first second => rank clauses first ≤ rank clauses second := by
  have total : Std.Total fun first second => rank clauses first ≤ rank clauses second :=
    ⟨fun first second => le_total (rank clauses first) (rank clauses second)⟩
  have transitive : IsTrans (Nat × Nat) fun first second =>
      rank clauses first ≤ rank clauses second := ⟨fun _ _ _ earlier later => earlier.trans later⟩
  exact List.pairwise_insertionSort _ _

/-! ## Clauses over the same variables -/

theorem mem_signature {clause : Clause} {var : Nat} :
    var ∈ signature clause ↔ var ∈ clause.varSet := by
  rw [signature, mem_eraseReps, Clause.varSet, List.mem_toFinset]

/-- In canonical form, the list of variables is determined by their set. -/
theorem signature_eq_iff {first second : Clause} (isFirst : first.Canonical)
    (isSecond : second.Canonical) :
    signature first = signature second ↔ first.varSet = second.varSet := by
  constructor
  · intro same
    ext var
    rw [← mem_signature, ← mem_signature, same]
  · intro same
    have increasing := isFirst.ordered.pairwise_eraseReps_vars
    have alsoIncreasing := isSecond.ordered.pairwise_eraseReps_vars
    exact increasing.eq_of_mem_iff alsoIncreasing fun var =>
      mem_signature.trans (same ▸ mem_signature.symm)

theorem resolve?_comm (firsts seconds : List Int) :
    resolve? firsts seconds = resolve? seconds firsts := by
  fun_induction resolve? firsts seconds with
  | case1 firsts head seconds ih => rw [resolve?, if_pos rfl, ih]
  | case2 first firsts second seconds different complementary =>
    simp only [Bool.and_eq_true, decide_eq_true_eq, beq_iff_eq] at complementary
    obtain ⟨rfl, rfl⟩ := complementary
    simp [resolve?, Ne.symm different]
  | case3 first firsts second seconds different apart =>
    have alsoApart : ¬(second = -first && seconds == firsts) = true := by
      simp only [Bool.and_eq_true, decide_eq_true_eq, beq_iff_eq] at apart ⊢
      rintro ⟨rfl, rfl⟩
      exact apart ⟨by simp, rfl⟩
    rw [resolve?, if_neg (Ne.symm different), if_neg alsoApart]
  | case4 firsts seconds apart =>
    rw [resolve?]
    exact fun first rest second others isFirst isSecond =>
      apart second others first rest isSecond isFirst

theorem signature_eq_of_resolve? {first second : Clause} {resolvent : List Int}
    (resolved : resolve? first.literals second.literals = some resolvent) :
    signature first = signature second := by
  obtain ⟨earlier, pivot, later, isFirst, isSecond, _⟩ := resolve?_eq_some resolved
  unfold signature
  rw [first.vars_eq, second.vars_eq, isFirst, isSecond]
  simp

/-! ## Buckets in order -/

theorem pairwise_members (clauses : List Clause) :
    (members clauses).Pairwise fun first second => first.index < second.index := by
  have places : (members clauses).map Member.index = List.range' 0 clauses.length := by
    rw [members, List.map_map]
    exact List.zipIdx_map_snd 0 clauses
  rw [← List.pairwise_map, places]
  exact List.pairwise_lt_range' 1

theorem pairwise_bucketOver (clauses : List Clause) (vars : List Nat) :
    (bucketOver clauses vars).members.Pairwise fun first second => first.index < second.index :=
  (pairwise_members clauses).filter _

/-- The place of a bucket that is not empty is the least place of a member. -/
theorem exists_first {bucket : Bucket} {entry : Member} (isMember : entry ∈ bucket.members)
    (increasing : bucket.members.Pairwise fun first second => first.index < second.index) :
    ∃ first ∈ bucket.members, first.index = bucket.place ∧
      ∀ other ∈ bucket.members, first.index ≤ other.index := by
  unfold Bucket.place
  cases listed : bucket.members with
  | nil =>
    rw [listed] at isMember
    cases isMember
  | cons head tail =>
    rw [listed] at increasing
    refine ⟨head, List.mem_cons_self, rfl, ?_⟩
    intro other isOther
    rcases List.mem_cons.mp isOther with rfl | later
    · exact le_rfl
    · exact ((List.pairwise_cons.mp increasing).1 other later).le

variable {clauses : List Clause}

theorem mem_buckets {bucket : Bucket} :
    bucket ∈ buckets clauses ↔
      ∃ clause ∈ clauses, bucketOver clauses (signature clause) = bucket := by
  simp [buckets]

theorem exists_first_of_mem_buckets {bucket : Bucket} (member : bucket ∈ buckets clauses) :
    ∃ first ∈ bucket.members, first.index = bucket.place ∧
      ∀ other ∈ bucket.members, first.index ≤ other.index := by
  obtain ⟨clause, isClause, rfl⟩ := mem_buckets.mp member
  obtain ⟨place, there⟩ := List.getElem?_of_mem isClause
  have isMember : ⟨place, clause⟩ ∈ (bucketOver clauses (signature clause)).members :=
    mem_bucketOver.mpr ⟨mem_members.mpr there, rfl⟩
  exact exists_first isMember (pairwise_bucketOver _ _)

/-- No two buckets start at the same place. -/
theorem eq_of_place_eq {first second : Bucket} (isFirst : first ∈ buckets clauses)
    (isSecond : second ∈ buckets clauses) (same : first.place = second.place) :
    first = second := by
  obtain ⟨one, isOne, onePlace, _⟩ := exists_first_of_mem_buckets isFirst
  obtain ⟨other, isOther, otherPlace, _⟩ := exists_first_of_mem_buckets isSecond
  obtain ⟨_, _, rfl⟩ := mem_buckets.mp isFirst
  obtain ⟨_, _, rfl⟩ := mem_buckets.mp isSecond
  obtain ⟨oneThere, oneVars⟩ := mem_bucketOver.mp isOne
  obtain ⟨otherThere, otherVars⟩ := mem_bucketOver.mp isOther
  rw [mem_members, onePlace, same, ← otherPlace, mem_members.mp otherThere] at oneThere
  rw [← oneVars, ← otherVars, Option.some.inj oneThere]

theorem nodup_buckets (clauses : List Clause) : (buckets clauses).Nodup := by
  apply List.Nodup.map _ (nodup_eraseDups _)
  exact fun _ _ same => congrArg Bucket.vars same

theorem pairwise_insertBucket (bucket : Bucket) {arranged : List Bucket}
    (ordered : arranged.Pairwise fun first second => first.place ≤ second.place) :
    (insertBucket bucket arranged).Pairwise fun first second => first.place ≤ second.place := by
  induction arranged with
  | nil => exact List.pairwise_singleton _ _
  | cons head tail ih =>
    obtain ⟨headFirst, tailOrdered⟩ := List.pairwise_cons.mp ordered
    unfold insertBucket
    split
    next before =>
      refine List.pairwise_cons.mpr ⟨?_, ordered⟩
      intro later member
      rcases List.mem_cons.mp member with rfl | inTail
      · exact before
      · exact before.trans (headFirst later inTail)
    next behind =>
      refine List.pairwise_cons.mpr ⟨?_, ih tailOrdered⟩
      intro later member
      rcases List.mem_cons.mp ((perm_insertBucket bucket tail).mem_iff.mp member) with rfl | inTail
      · omega
      · exact headFirst later inTail

theorem pairwise_arrange (groups : List Bucket) :
    (arrange groups).Pairwise fun first second => first.place ≤ second.place := by
  induction groups with
  | nil => exact .nil
  | cons bucket rest ih => exact pairwise_insertBucket bucket ih

/-- In whatever order the buckets come, they are visited in the same one. -/
theorem arrange_eq_of_perm {groups : List Bucket} (same : groups.Perm (buckets clauses)) :
    arrange groups = arrange (buckets clauses) := by
  have isBucket : ∀ bucket ∈ arrange groups, bucket ∈ buckets clauses := fun bucket member =>
    same.mem_iff.mp ((perm_arrange groups).mem_iff.mp member)
  apply List.Perm.eq_of_pairwise _ (pairwise_arrange groups) (pairwise_arrange (buckets clauses))
  · exact ((perm_arrange groups).trans same).trans (perm_arrange (buckets clauses)).symm
  · intro first second isFirst isSecond before behind
    exact eq_of_place_eq (isBucket first isFirst) ((perm_arrange _).mem_iff.mp isSecond)
      (le_antisymm before behind)

theorem pairwise_place_arrange (clauses : List Clause) :
    (arrange (buckets clauses)).Pairwise fun first second => first.place < second.place := by
  have distinct : (arrange (buckets clauses)).Nodup :=
    (perm_arrange _).nodup_iff.mpr (nodup_buckets clauses)
  have ordered := (pairwise_arrange (buckets clauses)).and distinct
  refine ordered.imp_of_mem fun {first second} isFirst isSecond apart => ?_
  apply apart.1.lt_of_ne
  intro same
  exact apart.2 (eq_of_place_eq ((perm_arrange _).mem_iff.mp isFirst)
    ((perm_arrange _).mem_iff.mp isSecond) same)

/-- The bucket of a clause starts at the first clause over the same variables. -/
theorem firstAlike_eq_place (canonical : ∀ clause ∈ clauses, clause.Canonical) {entry : Member}
    (isMember : entry ∈ members clauses) :
    firstAlike clauses entry.index = (bucketOver clauses (signature entry.clause)).place := by
  have alike : ∀ place clause, clauses[place]? = some clause →
      (clauses[entry.index]?.map Clause.varSet = some clause.varSet ↔
        ⟨place, clause⟩ ∈ (bucketOver clauses (signature entry.clause)).members) := by
    intro place clause there
    have isCanonical := canonical clause (List.mem_of_getElem? there)
    have entryCanonical := canonical entry.clause (clause_mem_of_mem_members isMember)
    rw [mem_members.mp isMember, Option.map_some, Option.some.injEq,
      ← signature_eq_iff entryCanonical isCanonical, mem_bucketOver, mem_members]
    exact ⟨fun same => ⟨there, same.symm⟩, fun both => both.2.symm⟩
  have own : entry ∈ (bucketOver clauses (signature entry.clause)).members :=
    mem_bucketOver.mpr ⟨isMember, rfl⟩
  obtain ⟨first, isFirst, place, least⟩ := exists_first own (pairwise_bucketOver _ _)
  have there := mem_members.mp (mem_bucketOver.mp isFirst).1
  obtain ⟨inside, isThere⟩ := List.getElem?_eq_some_iff.mp there
  rw [← place]
  apply (List.findIdx_eq inside).mpr
  constructor
  · rw [isThere, decide_eq_true_eq]
    exact (alike first.index first.clause there).mpr isFirst
  · intro earlier isEarlier
    have earlierThere : clauses[earlier]? = some clauses[earlier] := List.getElem?_eq_getElem _
    rw [decide_eq_false_iff_not, alike earlier _ earlierThere]
    intro isMember
    exact absurd (least _ isMember) (Nat.not_le_of_lt isEarlier)

/-! ## Pairs in order -/

section Pairs

variable {Element : Type} {key : Element → Nat} {elements : List Element}

theorem mem_pairs (increasing : elements.Pairwise fun first second => key first < key second)
    {first second : Element} :
    (first, second) ∈ pairs elements ↔
      first ∈ elements ∧ second ∈ elements ∧ key first < key second := by
  induction elements with
  | nil => simp [pairs]
  | cons head tail ih =>
    obtain ⟨headLeast, tailIncreasing⟩ := List.pairwise_cons.mp increasing
    rw [pairs, List.mem_append, List.mem_map, ih tailIncreasing]
    constructor
    · rintro (⟨other, isOther, same⟩ | ⟨isFirst, isSecond, before⟩)
      · cases same
        exact ⟨List.mem_cons_self, List.mem_cons_of_mem _ isOther, headLeast second isOther⟩
      · exact ⟨List.mem_cons_of_mem _ isFirst, List.mem_cons_of_mem _ isSecond, before⟩
    · rintro ⟨isFirst, isSecond, before⟩
      rcases List.mem_cons.mp isSecond with rfl | secondLater
      · -- The head comes before all others, so it is not the second of a pair.
        rcases List.mem_cons.mp isFirst with rfl | firstLater
        · exact absurd before (Nat.lt_irrefl _)
        · exact absurd before (Nat.lt_asymm (headLeast first firstLater))
      · rcases List.mem_cons.mp isFirst with rfl | firstLater
        · exact .inl ⟨second, secondLater, rfl⟩
        · exact .inr ⟨firstLater, secondLater, before⟩

theorem pairwise_pairs (increasing : elements.Pairwise fun first second => key first < key second) :
    (pairs elements).Pairwise fun one other =>
      toLex (key one.1, key one.2) < toLex (key other.1, key other.2) := by
  induction elements with
  | nil => exact .nil
  | cons head tail ih =>
    obtain ⟨headLeast, tailIncreasing⟩ := List.pairwise_cons.mp increasing
    refine List.pairwise_append.mpr ⟨?_, ih tailIncreasing, ?_⟩
    · rw [List.pairwise_map]
      refine tailIncreasing.imp fun {one other} later => ?_
      exact Prod.Lex.toLex_lt_toLex.mpr (.inr ⟨rfl, later⟩)
    · rintro one isOne ⟨first, second⟩ isLater
      obtain ⟨_, _, rfl⟩ := List.mem_map.mp isOne
      exact Prod.Lex.toLex_lt_toLex.mpr (.inl (headLeast first (mem_of_mem_pairs isLater).1))

end Pairs

/-- The pairs that a pass looks at, in its order. -/
def visitedPairs (clauses : List Clause) : List (Member × Member) :=
  (arrange (buckets clauses)).flatMap fun bucket => pairs bucket.members

def places (pair : Member × Member) : Nat × Nat := (pair.1.index, pair.2.index)

def resolvent? (pair : Member × Member) : Option (List Int) :=
  resolve? pair.1.clause.literals pair.2.clause.literals

theorem mem_arrange_buckets {bucket : Bucket} :
    bucket ∈ arrange (buckets clauses) ↔
      ∃ clause ∈ clauses, bucketOver clauses (signature clause) = bucket :=
  (perm_arrange _).mem_iff.trans mem_buckets

/-- The pass looks at the pairs of clauses over the same variables. -/
theorem mem_visitedPairs {pair : Member × Member} :
    pair ∈ visitedPairs clauses ↔
      pair.1 ∈ members clauses ∧ pair.2 ∈ members clauses ∧ pair.1.index < pair.2.index ∧
        signature pair.1.clause = signature pair.2.clause := by
  obtain ⟨first, second⟩ := pair
  simp only [visitedPairs, List.mem_flatMap, mem_arrange_buckets]
  constructor
  · rintro ⟨bucket, ⟨clause, _, rfl⟩, isPair⟩
    obtain ⟨isFirst, isSecond, before⟩ := (mem_pairs (pairwise_bucketOver _ _)).mp isPair
    obtain ⟨firstMember, firstVars⟩ := mem_bucketOver.mp isFirst
    obtain ⟨secondMember, secondVars⟩ := mem_bucketOver.mp isSecond
    exact ⟨firstMember, secondMember, before, firstVars.trans secondVars.symm⟩
  · rintro ⟨isFirst, isSecond, before, same⟩
    refine ⟨_, ⟨first.clause, clause_mem_of_mem_members isFirst, rfl⟩, ?_⟩
    apply (mem_pairs (pairwise_bucketOver _ _)).mpr
    exact ⟨mem_bucketOver.mpr ⟨isFirst, rfl⟩, mem_bucketOver.mpr ⟨isSecond, same.symm⟩, before⟩

theorem resolventAt?_places {pair : Member × Member} (isFirst : pair.1 ∈ members clauses)
    (isSecond : pair.2 ∈ members clauses) :
    resolventAt? clauses (places pair) = resolvent? pair := by
  rw [resolventAt?, places, mem_members.mp isFirst, mem_members.mp isSecond]
  rfl

theorem resolventAt?_eq_some {pair : Nat × Nat} {resolvent : List Int} :
    resolventAt? clauses pair = some resolvent ↔
      ∃ first second, clauses[pair.1]? = some first ∧ clauses[pair.2]? = some second ∧
        resolve? first.literals second.literals = some resolvent := by
  simp only [resolventAt?, Option.bind_eq_some_iff]
  constructor
  · rintro ⟨first, isFirst, second, isSecond, resolved⟩
    exact ⟨first, second, isFirst, isSecond, resolved⟩
  · rintro ⟨first, second, isFirst, isSecond, resolved⟩
    exact ⟨first, isFirst, second, isSecond, resolved⟩

/-- The pass looks at its pairs in the order of the scan. -/
theorem pairwise_visitedPairs (canonical : ∀ clause ∈ clauses, clause.Canonical) :
    (visitedPairs clauses).Pairwise fun one other =>
      rank clauses (places one) < rank clauses (places other) := by
  have placed : ∀ bucket ∈ arrange (buckets clauses), ∀ pair ∈ pairs bucket.members,
      firstAlike clauses (places pair).1 = bucket.place := by
    intro bucket member pair isPair
    obtain ⟨clause, _, rfl⟩ := mem_arrange_buckets.mp member
    obtain ⟨isFirst, vars⟩ := mem_bucketOver.mp (mem_of_mem_pairs isPair).1
    rw [← vars]
    exact firstAlike_eq_place canonical isFirst
  refine List.pairwise_flatMap.mpr ⟨?_, ?_⟩
  · intro bucket member
    have increasing : bucket.members.Pairwise fun first second => first.index < second.index := by
      obtain ⟨clause, _, rfl⟩ := mem_arrange_buckets.mp member
      exact pairwise_bucketOver _ _
    refine (pairwise_pairs increasing).imp_of_mem fun {one other} isOne isOther before => ?_
    have sameBucket := (placed bucket member one isOne).trans
      (placed bucket member other isOther).symm
    exact Prod.Lex.toLex_lt_toLex.mpr (.inr ⟨sameBucket, before⟩)
  · refine (pairwise_place_arrange clauses).imp_of_mem ?_
    intro first second isFirst isSecond before one isOne other isOther
    rw [← placed first isFirst one isOne, ← placed second isSecond other isOther] at before
    exact Prod.Lex.toLex_lt_toLex.mpr (.inl before)

theorem rank_injective {one other : Nat × Nat} (same : rank clauses one = rank clauses other) :
    one = other := by
  have places : toLex one = toLex other :=
    congrArg (fun ranked : Nat ×ₗ Nat ×ₗ Nat => (ofLex ranked).2) same
  exact toLex.injective places

/-- The pass looks at a pair that resolves. -/
theorem mem_places_visitedPairs {pair : Nat × Nat}
    (resolves : (resolventAt? clauses pair).isSome = true) :
    pair ∈ (visitedPairs clauses).map places ↔ pair ∈ scan clauses := by
  rw [mem_scan, List.mem_map]
  constructor
  · rintro ⟨visited, isVisited, rfl⟩
    obtain ⟨_, isSecond, before, _⟩ := mem_visitedPairs.mp isVisited
    exact ⟨before, (List.getElem?_eq_some_iff.mp (mem_members.mp isSecond)).1⟩
  · rintro ⟨before, _⟩
    obtain ⟨resolvent, resolved⟩ := Option.isSome_iff_exists.mp resolves
    obtain ⟨first, second, isFirst, isSecond, resolved⟩ := resolventAt?_eq_some.mp resolved
    refine ⟨(⟨pair.1, first⟩, ⟨pair.2, second⟩), mem_visitedPairs.mpr ?_, rfl⟩
    exact ⟨mem_members.mpr isFirst, mem_members.mpr isSecond, before,
      signature_eq_of_resolve? resolved⟩

theorem filter_visitedPairs (canonical : ∀ clause ∈ clauses, clause.Canonical) :
    ((visitedPairs clauses).map places).filter (fun pair => (resolventAt? clauses pair).isSome) =
      (scan clauses).filter fun pair => (resolventAt? clauses pair).isSome := by
  have ordered : ((visitedPairs clauses).map places).Pairwise fun one other =>
      rank clauses one < rank clauses other :=
    List.pairwise_map.mpr (pairwise_visitedPairs canonical)
  have distinct : ((visitedPairs clauses).map places).Nodup :=
    ordered.imp fun before same => before.ne (congrArg (rank clauses) same)
  apply List.Perm.eq_of_pairwise _ ((ordered.imp le_of_lt).filter _)
    ((pairwise_scan clauses).filter _)
  · apply (List.perm_ext_iff_of_nodup (distinct.filter _) ((nodup_scan clauses).filter _)).mpr
    intro pair
    rw [List.mem_filter, List.mem_filter]
    exact and_congr_left mem_places_visitedPairs
  · intro one other _ _ before behind
    exact rank_injective (le_antisymm before behind)

/-- Looking into the buckets finds the resolvents of the scan, in the same order. -/
theorem filterMap_visitedPairs (canonical : ∀ clause ∈ clauses, clause.Canonical) :
    (visitedPairs clauses).filterMap resolvent? =
      (scan clauses).filterMap (resolventAt? clauses) := by
  have onlyResolving : ∀ listed : List (Nat × Nat),
      (listed.filter fun pair => (resolventAt? clauses pair).isSome).filterMap
        (resolventAt? clauses) = listed.filterMap (resolventAt? clauses) := by
    intro listed
    rw [List.filterMap_filter]
    congr 1
    funext pair
    cases resolventAt? clauses pair <;> rfl
  calc (visitedPairs clauses).filterMap resolvent?
      = ((visitedPairs clauses).map places).filterMap (resolventAt? clauses) := by
        rw [List.filterMap_map]
        apply List.filterMap_congr
        intro pair isVisited
        obtain ⟨isFirst, isSecond, _⟩ := mem_visitedPairs.mp isVisited
        exact (resolventAt?_places isFirst isSecond).symm
    _ = (scan clauses).filterMap (resolventAt? clauses) := by
        rw [← onlyResolving, filter_visitedPairs canonical, onlyResolving]

end Strengthening

end CnfSolver
