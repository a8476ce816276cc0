import CnfSolver.Workspace
import CnfSolver.Proofs.TrailTable
import Mathlib.Data.List.Induction

/-!
# Look-ups on a trail

Whatever is pushed on a trail and cut off again, a look-up through the position table
answers what a search through the entries would. Cutting back removes the newest entries
one by one, finds the place of each in the table, and hands them over in this order.
Afterwards every look-up answers as if only the entries that are left had been pushed.
-/

namespace CnfSolver

namespace Trail

/-- An operation on a trail. It makes no difference to the trail who is told of the entries
that are removed one by one. -/
inductive Operation where
  | push (literal : Literal)
  | truncate (length : Nat)
  | truncateWith (length : Nat)
  deriving DecidableEq, Repr

def apply (trail : Trail) : Operation → Except Fault Trail
  | .push literal => .ok (trail.push literal)
  | .truncate length => .ok (trail.truncate length)
  | .truncateWith length =>
      Prod.fst <$> trail.truncateWith (fun _ _ => ()) length ()

def applyAll (trail : Trail) (operations : List Operation) : Except Fault Trail :=
  operations.foldlM apply trail

/-- Two trails with the same entries that answer every look-up alike. -/
structure Alike (first second : Trail) : Prop where
  toList : first.toList = second.toList
  position? : ∀ var, first.position? var = second.position? var
  get? : ∀ var, first.get? var = second.get? var
  value? : ∀ var, first.value? var = second.value? var
  assigns : ∀ var, first.assigns var = second.assigns var
  contains : ∀ literal, first.contains literal = second.contains literal

/-- Look-ups agree with a search through the entries, among which a variable occurs once.
Pushing appends to the entries if the variable is new, and else changes nothing that a
look-up shows. Cutting back keeps the first entries, never misses a place in the table, hands
over what it removes from the newest on, and leaves a trail that answers as if only the
entries it keeps had been pushed. -/
structure Searchable (numVars : Nat) (trail : Trail) : Prop where
  once : (trail.toList.map Literal.var).Nodup
  position : ∀ var place, trail.position? var = some place ↔
    ∃ entry, trail.toList[place]? = some entry ∧ entry.var = var
  get : ∀ var, trail.get? var = trail.toList.find? fun entry => entry.var == var
  value : ∀ var, trail.value? var =
    (trail.toList.find? fun entry => entry.var == var).map Literal.value
  assigns : ∀ var, trail.assigns var = trail.toList.any fun entry => entry.var == var
  contains : ∀ literal, trail.contains literal =
    trail.toList.any fun entry => entry.agrees literal
  push_new : ∀ literal, (∀ entry ∈ trail.toList, entry.var ≠ literal.var) →
    (trail.push literal).toList = trail.toList ++ [literal]
  push_again : ∀ literal, (∃ entry ∈ trail.toList, entry.var = literal.var) →
    (trail.push literal).Alike trail
  kept : ∀ length, (trail.truncate length).toList = trail.toList.take length
  rebuilt : ∀ length, (trail.truncate length).Alike
    ((trail.toList.take length).foldl push (.empty numVars))
  removed : ∀ {State : Type} (onRemove : State → Literal → State) (length : Nat) (state : State),
    trail.truncateWith onRemove length state =
      .ok (trail.truncate length, (trail.toList.drop length).reverse.foldl onRemove state)

/-! ## Cutting back entry by entry -/

theorem eq_of_toList {first second : Trail} (entries : first.toList = second.toList)
    (positions : first.positions = second.positions) : first = second :=
  congrArg₂ Trail.mk (Array.toList_inj.mp entries) positions

theorem suffixFrom_of_length_le {trail : Trail} {length : Nat}
    (short : trail.toList.length ≤ length) : trail.suffixFrom length = [] := by
  rw [suffixFrom, List.drop_of_length_le short, List.reverse_nil]

theorem truncate_of_length_le {trail : Trail} {length : Nat}
    (short : trail.toList.length ≤ length) : trail.truncate length = trail := by
  apply eq_of_toList
  · rw [toList_truncate, List.take_of_length_le short]
  · simp only [Trail.truncate, suffixFrom_of_length_le short, List.foldl_nil]

/-- Of what is cut off at a place, that behind a later place is the newest. -/
theorem suffixFrom_eq_append (trail : Trail) {length later : Nat} (notAfter : length ≤ later) :
    trail.suffixFrom length =
      trail.suffixFrom later ++ (trail.truncate later).suffixFrom length := by
  rw [suffixFrom, suffixFrom, suffixFrom, toList_truncate, ← List.reverse_append]
  congr 1
  calc
    trail.toList.drop length
      = (trail.toList.drop length).take (later - length) ++
          (trail.toList.drop length).drop (later - length) := (List.take_append_drop _ _).symm
    _ = (trail.toList.take later).drop length ++ trail.toList.drop later := by
      rw [List.drop_take, List.drop_drop, Nat.add_sub_cancel' notAfter]

theorem truncate_truncate (trail : Trail) {length later : Nat} (notAfter : length ≤ later) :
    (trail.truncate later).truncate length = trail.truncate length := by
  apply eq_of_toList
  · rw [toList_truncate, toList_truncate, toList_truncate, List.take_take,
      Nat.min_eq_left notAfter]
  · conv_rhs => rw [Trail.truncate, trail.suffixFrom_eq_append notAfter, List.foldl_append]
    rfl

theorem suffixFrom_of_back? {trail : Trail} {newest : Literal}
    (last : trail.entries.back? = some newest) :
    trail.suffixFrom (trail.entries.size - 1) = [newest] := by
  obtain ⟨earlier, parts⟩ := Array.back?_eq_some_iff.mp last
  simp [suffixFrom, Trail.toList, parts]

/-- Removing the newest entry is cutting back by one. -/
theorem truncate_of_back? {trail : Trail} {newest : Literal}
    (last : trail.entries.back? = some newest) :
    trail.truncate (trail.entries.size - 1) =
      ⟨trail.entries.pop, trail.positions.setIfInBounds newest.var none⟩ := by
  obtain ⟨earlier, parts⟩ := Array.back?_eq_some_iff.mp last
  apply eq_of_toList
  · rw [toList_truncate]
    simp [Trail.toList, parts]
  · simp only [Trail.truncate, suffixFrom_of_back? last, List.foldl_cons, List.foldl_nil]

/-- The place of an entry is in the table. -/
theorem Exact.var_lt_size {trail : Trail} (exact : trail.Exact) {entry : Literal}
    (member : entry ∈ trail.toList) : entry.var < trail.positions.size := by
  obtain ⟨place, there⟩ := List.getElem?_of_mem member
  have found := (exact entry.var place).mpr ⟨entry, there, rfl⟩
  by_contra outside
  rw [position?, Array.getElem?_eq_none (Nat.not_lt.mp outside)] at found
  cases found

theorem Exact.truncateWith_eq {State : Type} {trail : Trail} (exact : trail.Exact)
    (onRemove : State → Literal → State) (length : Nat) (state : State) :
    trail.truncateWith onRemove length state =
      .ok (trail.truncate length, (trail.suffixFrom length).foldl onRemove state) := by
  fun_induction truncateWith onRemove length trail state with
  | case1 trail state short =>
    have listShort : trail.toList.length ≤ length := by simpa [Trail.toList] using short
    rw [truncate_of_length_le listShort, suffixFrom_of_length_le listShort]
    rfl
  | case2 trail state long empty =>
    rw [Array.back?_eq_none_iff.mp empty] at long
    exact absurd (Nat.zero_le length) long
  | case3 trail state long newest last inside ih =>
    have before : length ≤ trail.entries.size - 1 := by omega
    have split := trail.suffixFrom_eq_append before
    have shorter := exact.truncate (trail.entries.size - 1)
    rw [suffixFrom_of_back? last] at split
    rw [truncate_of_back? last] at shorter split
    rw [ih shorter, split, ← truncate_of_back? last, trail.truncate_truncate before]
    rfl
  | case4 trail state long newest last outside =>
    obtain ⟨earlier, parts⟩ := Array.back?_eq_some_iff.mp last
    have member : newest ∈ trail.toList := by simp [Trail.toList, parts]
    exact absurd (exact.var_lt_size member) outside

/-! ## A run of operations -/

theorem Exact.apply {trail : Trail} (exact : trail.Exact) (operation : Operation) :
    ∃ next, trail.apply operation = .ok next ∧ next.Exact := by
  cases operation with
  | push literal => exact ⟨trail.push literal, rfl, exact.push literal⟩
  | truncate length => exact ⟨trail.truncate length, rfl, exact.truncate length⟩
  | truncateWith length =>
    refine ⟨trail.truncate length, ?_, exact.truncate length⟩
    rw [Trail.apply, exact.truncateWith_eq]
    rfl

theorem Exact.applyAll {trail : Trail} (exact : trail.Exact) (operations : List Operation) :
    ∃ last, trail.applyAll operations = .ok last ∧ last.Exact := by
  induction operations generalizing trail with
  | nil => exact ⟨trail, rfl, exact⟩
  | cons operation rest ih =>
    obtain ⟨next, applied, nextExact⟩ := exact.apply operation
    obtain ⟨last, run, lastExact⟩ := ih nextExact
    refine ⟨last, ?_, lastExact⟩
    calc
      _ = trail.apply operation >>= fun next => next.applyAll rest := List.foldlM_cons
      _ = .ok last := by
        rw [applied]
        exact run

/-! ## Look-ups -/

/-- The entries determine every look-up. -/
theorem Exact.alike {first second : Trail} (isFirst : first.Exact) (isSecond : second.Exact)
    (same : first.toList = second.toList) : first.Alike second := by
  have position? : ∀ var, first.position? var = second.position? var := by
    intro var
    ext place
    rw [isFirst var place, isSecond var place, same]
  have get? : ∀ var, first.get? var = second.get? var := by
    intro var
    rw [isFirst.get?_eq_find?, isSecond.get?_eq_find?, same]
  refine ⟨same, position?, get?, ?_, ?_, ?_⟩
  · intro var
    rw [Trail.value?, Trail.value?, get?]
  · intro var
    rw [Trail.assigns, Trail.assigns, position?]
  · intro literal
    rw [Trail.contains, Trail.contains, get?]

/-- Pushing the entries of an exact trail one after the other builds them up again. -/
theorem toList_foldl_push (numVars : Nat) {entries : List Literal}
    (once : (entries.map Literal.var).Nodup) :
    (entries.foldl push (empty numVars)).Exact ∧
      (entries.foldl push (empty numVars)).toList = entries := by
  induction entries using List.reverseRecOn with
  | nil => exact ⟨exact_empty numVars, rfl⟩
  | append_singleton earlier entry ih =>
    rw [List.map_append, List.nodup_append] at once
    obtain ⟨exact, built⟩ := ih once.1
    rw [List.foldl_concat]
    refine ⟨exact.push entry, ?_⟩
    have new : (earlier.foldl push (empty numVars)).assigns entry.var = false := by
      rw [Bool.eq_false_iff, Ne, exact.assigns_iff, built]
      rintro ⟨other, member, same⟩
      exact once.2.2 other.var (List.mem_map_of_mem member) entry.var (by simp) same
    rw [toList_push_of_not_assigns _ entry new, built]

theorem Exact.searchable {trail : Trail} (exact : trail.Exact) (numVars : Nat) :
    trail.Searchable numVars where
  once := exact.nodup_vars
  position := exact
  get := exact.get?_eq_find?
  value := by
    intro var
    rw [Trail.value?, exact.get?_eq_find?]
  assigns := by
    intro var
    rw [Bool.eq_iff_iff, exact.assigns_iff]
    simp
  contains := by
    intro literal
    rw [Bool.eq_iff_iff, Trail.contains, Option.any_eq_true, List.any_eq_true]
    constructor
    · rintro ⟨entry, found, agrees⟩
      exact ⟨entry, (exact.get?_eq_some_iff.mp found).1, agrees⟩
    · rintro ⟨entry, member, agrees⟩
      have same : entry.var = literal.var := by
        simp only [Literal.agrees, Bool.and_eq_true, beq_iff_eq] at agrees
        exact agrees.1
      exact ⟨entry, exact.get?_eq_some_iff.mpr ⟨member, same⟩, agrees⟩
  push_new := by
    intro literal new
    apply toList_push_of_not_assigns
    rw [Bool.eq_false_iff, Ne, exact.assigns_iff]
    rintro ⟨entry, member, same⟩
    exact new entry member same
  push_again := by
    intro literal again
    apply (exact.push literal).alike exact
    exact toList_push_of_assigns trail literal (exact.assigns_iff.mpr again)
  kept := toList_truncate trail
  rebuilt := by
    intro length
    have kept : ((trail.toList.take length).map Literal.var).Nodup :=
      exact.nodup_vars.sublist ((List.take_sublist length _).map Literal.var)
    obtain ⟨rebuilt, entries⟩ := toList_foldl_push numVars kept
    apply (exact.truncate length).alike rebuilt
    rw [toList_truncate, entries]
  removed := fun onRemove length state => exact.truncateWith_eq onRemove length state

/-- No operations on a trail go wrong, and after any of them its look-ups agree with its
entries. -/
theorem lookups_exact (numVars : Nat) (operations : List Operation) :
    ∃ trail, (empty numVars).applyAll operations = .ok trail ∧ trail.Searchable numVars := by
  obtain ⟨trail, run, exact⟩ := (exact_empty numVars).applyAll operations
  exact ⟨trail, run, exact.searchable numVars⟩

/-- A variable beyond the table, one that is pushed while it is there, and one that comes
back after it was cut off. -/
example :
    ((empty 1).applyAll [.push (.decision 5 false), .push (.forced 2 true),
        .push (.secondBranch 5 true), .truncate 1, .push (.decision 3 true),
        .push (.forced 2 false)]).toOption.map Trail.toList =
      some [.decision 5 false, .decision 3 true, .forced 2 false] := by
  decide

end Trail

/-- Backtracking retracts what cutting the trail back hands over. -/
theorem Workspace.truncateWith_retract {workspace : Workspace} (exact : workspace.trail.Exact)
    (length : Nat) :
    workspace.trail.truncateWith (fun database entry => database.retract entry.var) length
        workspace.database =
      .ok ((workspace.backtrack length).trail, (workspace.backtrack length).database) :=
  exact.truncateWith_eq _ length workspace.database

end CnfSolver
