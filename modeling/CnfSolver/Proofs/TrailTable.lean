import CnfSolver.Trail
import CnfSolver.Proofs.ShadowState

/-!
# The position table is exact

The table of a trail gives for every variable the one place of its assignment.
Pushing and truncating keep it so, and all look-ups then agree with a linear
search of the entries. The values on a trail form a valuation, which a push
extends and a truncation takes back.
-/

namespace CnfSolver

namespace Trail

/-- The table gives the place of exactly those variables that have an entry. -/
def Exact (trail : Trail) : Prop :=
  ∀ var place, trail.position? var = some place ↔
    ∃ entry, trail.toList[place]? = some entry ∧ entry.var = var

theorem exact_empty (numVars : Nat) : (empty numVars).Exact := by
  intro var place
  have nowhere : (empty numVars).position? var = none := by
    simp only [position?, empty, Array.getElem?_replicate]
    split <;> rfl
  simp [nowhere]

/-! ## Pushing -/

theorem join_reach (positions : Array (Option Nat)) (var other : Nat) :
    (reach positions var)[other]?.join = positions[other]?.join := by
  unfold reach
  rw [Array.getElem?_append]
  split
  next inside => rfl
  next outside =>
    rw [Array.getElem?_replicate, Array.getElem?_eq_none (Nat.not_lt.mp outside)]
    split <;> rfl

theorem size_reach (positions : Array (Option Nat)) (var : Nat) :
    var < (reach positions var).size := by
  simp only [reach, Array.size_append, Array.size_replicate]
  omega

theorem position?_push_of_assigns {trail : Trail} {literal : Literal}
    (assigned : trail.assigns literal.var = true) (var : Nat) :
    (trail.push literal).position? var = trail.position? var := by
  simp [push, assigned, position?, join_reach]

theorem position?_push_of_not_assigns {trail : Trail} {literal : Literal}
    (fresh : trail.assigns literal.var = false) (var : Nat) :
    (trail.push literal).position? var =
      if var = literal.var then some trail.length else trail.position? var := by
  have inside := size_reach trail.positions literal.var
  have table : (trail.push literal).positions =
      (reach trail.positions literal.var).setIfInBounds literal.var (some trail.length) := by
    simp [push, fresh]
  rw [position?, table, Array.getElem?_setIfInBounds]
  by_cases same : var = literal.var
  · subst same
    simp [inside]
  · simp [same, Ne.symm same, join_reach, position?]

theorem Exact.lt_length {trail : Trail} (exact : trail.Exact) {var place : Nat}
    (found : trail.position? var = some place) : place < trail.toList.length := by
  obtain ⟨entry, there, _⟩ := (exact var place).mp found
  exact (List.getElem?_eq_some_iff.mp there).1

theorem Exact.assigns_iff {trail : Trail} (exact : trail.Exact) {var : Nat} :
    trail.assigns var = true ↔ ∃ entry ∈ trail.toList, entry.var = var := by
  unfold assigns
  rw [Option.isSome_iff_exists]
  constructor
  · rintro ⟨place, found⟩
    obtain ⟨entry, there, same⟩ := (exact var place).mp found
    exact ⟨entry, List.mem_of_getElem? there, same⟩
  · rintro ⟨entry, member, same⟩
    obtain ⟨place, there⟩ := List.getElem?_of_mem member
    exact ⟨place, (exact var place).mpr ⟨entry, there, same⟩⟩

theorem Exact.push {trail : Trail} (exact : trail.Exact) (literal : Literal) :
    (trail.push literal).Exact := by
  intro var place
  cases assigned : trail.assigns literal.var with
  | true =>
    rw [position?_push_of_assigns assigned, toList_push_of_assigns trail literal assigned]
    apply exact
  | false =>
    rw [position?_push_of_not_assigns assigned, toList_push_of_not_assigns trail literal assigned]
    have absent : ∀ entry ∈ trail.toList, entry.var ≠ literal.var := by
      intro entry member same
      rw [exact.assigns_iff.mpr ⟨entry, member, same⟩] at assigned
      cases assigned
    have size : trail.length = trail.toList.length := by simp [length, toList]
    rcases Nat.lt_trichotomy place trail.toList.length with before | here | beyond
    · rw [List.getElem?_append_left before]
      by_cases same : var = literal.var
      · have later : trail.length ≠ place := by omega
        simp only [same, if_true, Option.some.injEq, later, false_iff]
        rintro ⟨entry, there, sameVar⟩
        exact absent entry (List.mem_of_getElem? there) sameVar
      · rw [if_neg same]
        apply exact
    · subst here
      by_cases same : var = literal.var
      · simp [same, size]
      · have elsewhere : trail.position? var ≠ some trail.toList.length := fun found =>
          Nat.lt_irrefl _ (exact.lt_length found)
        simp [same, Ne.symm same, elsewhere]
    · have outside : (trail.toList ++ [literal])[place]? = none :=
        List.getElem?_eq_none (by simp; omega)
      have nowhere : (if var = literal.var then some trail.length else trail.position? var) ≠
          some place := by
        split
        next same =>
          simp
          omega
        next different =>
          intro found
          have := exact.lt_length found
          omega
      simp [outside, nowhere]

/-! ## Truncating -/

theorem join_foldl_clear (positions : Array (Option Nat)) (removed : List Literal) (var : Nat) :
    (removed.foldl (fun positions literal => positions.setIfInBounds literal.var none)
        positions)[var]?.join =
      if ∃ entry ∈ removed, entry.var = var then none else positions[var]?.join := by
  induction removed generalizing positions with
  | nil => simp
  | cons head tail ih =>
    rw [List.foldl_cons, ih, Array.getElem?_setIfInBounds]
    by_cases same : head.var = var
    · by_cases inside : var < positions.size <;> simp [same, inside]
    · simp [same]

theorem position?_truncate (trail : Trail) (length var : Nat) :
    (trail.truncate length).position? var =
      if ∃ entry ∈ trail.toList.drop length, entry.var = var then none
      else trail.position? var := by
  simp only [position?, truncate, join_foldl_clear, suffixFrom, List.mem_reverse]

/-- The entry at the cut is removed. -/
theorem assigns_truncate {trail : Trail} {place : Nat} {entry : Literal}
    (there : trail.toList[place]? = some entry) :
    (trail.truncate place).assigns entry.var = false := by
  have removed : entry ∈ trail.toList.drop place :=
    List.mem_of_getElem? (i := 0) (by rwa [List.getElem?_drop])
  rw [assigns, position?_truncate, if_pos ⟨entry, removed, rfl⟩]
  rfl

theorem Exact.truncate {trail : Trail} (exact : trail.Exact) (length : Nat) :
    (trail.truncate length).Exact := by
  intro var place
  rw [position?_truncate, toList_truncate, List.getElem?_take]
  split
  next removed =>
    obtain ⟨entry, member, same⟩ := removed
    obtain ⟨offset, there⟩ := List.getElem?_of_mem member
    rw [List.getElem?_drop] at there
    have found := (exact var (length + offset)).mpr ⟨entry, there, same⟩
    simp only [reduceCtorEq, false_iff, not_exists, not_and]
    intro other otherThere otherSame
    split at otherThere
    next before =>
      -- The variable has one place only, and it lies behind the cut.
      have again := (exact var place).mpr ⟨other, otherThere, otherSame⟩
      rw [found, Option.some.injEq] at again
      omega
    next behind => cases otherThere
  next kept =>
    split
    next before => apply exact
    next behind =>
      simp only [reduceCtorEq, false_and, exists_false, iff_false]
      intro found
      obtain ⟨entry, there, same⟩ := (exact var place).mp found
      refine kept ⟨entry, List.mem_of_getElem? (i := place - length) ?_, same⟩
      rw [List.getElem?_drop, Nat.add_sub_cancel' (Nat.not_lt.mp behind)]
      exact there

/-- A variable is assigned once. -/
theorem Exact.nodup_vars {trail : Trail} (exact : trail.Exact) :
    (trail.toList.map Literal.var).Nodup := by
  rw [List.Nodup, List.pairwise_map, List.pairwise_iff_getElem]
  intro first second firstInside secondInside earlier sameVar
  have there := (exact _ first).mpr ⟨_, List.getElem?_eq_getElem firstInside, rfl⟩
  have again := (exact _ second).mpr ⟨_, List.getElem?_eq_getElem secondInside, rfl⟩
  rw [sameVar, again] at there
  have same := Option.some.inj there
  omega

theorem Exact.var_ne_of_append {trail : Trail} (exact : trail.Exact) {earlier later : List Literal}
    {entry : Literal} (parts : trail.toList = earlier ++ entry :: later) {other : Literal}
    (member : other ∈ earlier) : other.var ≠ entry.var := by
  have distinct := exact.nodup_vars
  rw [parts, List.map_append, List.map_cons, List.nodup_append] at distinct
  exact distinct.2.2 other.var (List.mem_map_of_mem member) entry.var List.mem_cons_self

/-! ## Look-ups -/

theorem Exact.get?_eq_find? {trail : Trail} (exact : trail.Exact) (var : Nat) :
    trail.get? var = trail.toList.find? fun entry => entry.var == var := by
  cases search : trail.toList.find? fun entry => entry.var == var with
  | none =>
    have unassigned : trail.position? var = none := by
      rw [Option.eq_none_iff_forall_ne_some]
      intro place found
      obtain ⟨entry, there, same⟩ := (exact var place).mp found
      have differs := List.find?_eq_none.mp search entry (List.mem_of_getElem? there)
      simp [same] at differs
    simp [get?, unassigned]
  | some entry =>
    obtain ⟨place, there⟩ := List.getElem?_of_mem (List.mem_of_find?_eq_some search)
    have same : entry.var = var := by simpa using List.find?_some search
    have found := (exact var place).mpr ⟨entry, there, same⟩
    rw [get?, found, Option.bind_some, ← Array.getElem?_toList]
    exact there

theorem Exact.get?_eq_some_iff {trail : Trail} (exact : trail.Exact) {var : Nat}
    {entry : Literal} : trail.get? var = some entry ↔ entry ∈ trail.toList ∧ entry.var = var := by
  constructor
  · intro found
    rw [exact.get?_eq_find?] at found
    exact ⟨List.mem_of_find?_eq_some found, by simpa using List.find?_some found⟩
  · rintro ⟨member, same⟩
    obtain ⟨place, there⟩ := List.getElem?_of_mem member
    have found := (exact var place).mpr ⟨entry, there, same⟩
    rw [get?, found, Option.bind_some, ← Array.getElem?_toList]
    exact there

theorem Exact.value?_eq_some_iff {trail : Trail} (exact : trail.Exact) {var : Nat}
    {value : Bool} :
    trail.value? var = some value ↔
      ∃ entry ∈ trail.toList, entry.var = var ∧ entry.value = value := by
  simp only [value?, Option.map_eq_some_iff, exact.get?_eq_some_iff, and_assoc]

theorem Exact.value?_eq_none_iff {trail : Trail} (exact : trail.Exact) {var : Nat} :
    trail.value? var = none ↔ ∀ entry ∈ trail.toList, entry.var ≠ var := by
  simp [value?, exact.get?_eq_find?]

theorem Exact.value?_of_mem {trail : Trail} (exact : trail.Exact) {entry : Literal}
    (member : entry ∈ trail.toList) : trail.value? entry.var = some entry.value :=
  exact.value?_eq_some_iff.mpr ⟨entry, member, rfl, rfl⟩

/-! ## The valuation of a trail -/

theorem value?_empty (numVars : Nat) : (empty numVars).value? = Valuation.blank := by
  funext var
  simp [value?, (exact_empty numVars).get?_eq_find?, Valuation.blank]

theorem Exact.value?_push {trail : Trail} (exact : trail.Exact) (literal : Literal) :
    (trail.push literal).value? = Valuation.extend trail.value? literal := by
  funext var
  simp only [value?, (exact.push literal).get?_eq_find?, exact.get?_eq_find?, Valuation.extend]
  cases assigned : trail.assigns literal.var with
  | true =>
    rw [toList_push_of_assigns trail literal assigned]
    split
    next same =>
      obtain ⟨entry, member, sameVar⟩ := exact.assigns_iff.mp assigned
      cases search : trail.toList.find? fun entry => entry.var == var with
      | none =>
        have differs := List.find?_eq_none.mp search entry member
        simp [sameVar, same] at differs
      | some other => rfl
    next different => rfl
  | false =>
    rw [toList_push_of_not_assigns trail literal assigned, List.find?_append]
    split
    next same => cases trail.toList.find? fun entry => entry.var == var <;> simp [same]
    next different =>
      have missed : [literal].find? (fun entry => entry.var == var) = none := by
        simp [Ne.symm different]
      rw [missed, Option.or_none]

/-- Replaying the entries from nothing gives the values on the trail. -/
theorem Exact.foldl_extend {trail : Trail} (exact : trail.Exact) :
    trail.toList.foldl Valuation.extend .blank = trail.value? := by
  have folded : ∀ (entries : List Literal) (values : Valuation) (var : Nat),
      entries.foldl Valuation.extend values var =
        (values var).or ((entries.find? fun entry => entry.var == var).map Literal.value) := by
    intro entries
    induction entries with
    | nil => simp
    | cons head tail ih =>
      intro values var
      rw [List.foldl_cons, ih, Valuation.extend]
      by_cases same : var = head.var
      · cases values var <;> simp [same]
      · simp [same, Ne.symm same]
  funext var
  rw [folded, value?, exact.get?_eq_find?]
  rfl

theorem foldl_forget (values : Valuation) (removed : List Literal) (var : Nat) :
    removed.foldl (fun values literal => values.forget literal.var) values var =
      if ∃ entry ∈ removed, entry.var = var then none else values var := by
  induction removed generalizing values with
  | nil => simp
  | cons head tail ih =>
    rw [List.foldl_cons, ih, Valuation.forget]
    by_cases same : head.var = var
    · simp [same]
    · simp [same, Ne.symm same]

/-- Retracting the removed entries gives the values on the truncated trail. -/
theorem Exact.foldl_forget_suffixFrom {trail : Trail} (exact : trail.Exact) (length : Nat) :
    (trail.suffixFrom length).foldl (fun values literal => Valuation.forget values literal.var)
      trail.value? = (trail.truncate length).value? := by
  funext var
  rw [foldl_forget]
  simp only [suffixFrom, List.mem_reverse]
  split
  next removed =>
    have nowhere : (trail.truncate length).position? var = none := by
      rw [position?_truncate, if_pos removed]
    simp [value?, get?, nowhere]
  next kept =>
    have missed : (trail.toList.drop length).find? (fun entry => entry.var == var) = none := by
      rw [List.find?_eq_none]
      intro entry member same
      exact kept ⟨entry, member, by simpa using same⟩
    have whole : trail.toList.find? (fun entry => entry.var == var) =
        (trail.toList.take length).find? fun entry => entry.var == var := by
      calc
        _ = (trail.toList.take length ++ trail.toList.drop length).find?
              fun entry => entry.var == var := by rw [List.take_append_drop]
        _ = _ := by rw [List.find?_append, missed, Option.or_none]
    rw [value?, value?, (exact.truncate length).get?_eq_find?, exact.get?_eq_find?, whole,
      toList_truncate]

end Trail

end CnfSolver
