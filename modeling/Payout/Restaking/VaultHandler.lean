/-
Purpose: The cranker, which updates the delegations of a vault from outside the program. It chooses the operators to
  crank by slices of their list; the tracker accepts them one by one along its rotation.
Source: crankers/src/vault_handler.rs
-/
import Mathlib.Data.List.Rotate
import Payout.Lib.Store
import Payout.Restaking.Core

namespace Payout.Restaking

open Lib List Nat

namespace VaultHandler

/-- The operators whose delegation is not updated yet: they get a crank instruction. -/
def retrieveNonUpdatedOperators (delegations : Store Pubkey VaultOperatorDelegation) (slot epochLength : Nat) :
    List Pubkey → Option (List Pubkey)
  | [] => some []
  | operator :: operators => do
    let delegation ← delegations.lookup operator
    let instructions ← retrieveNonUpdatedOperators delegations slot epochLength operators
    pure (if (delegation.checkIsAlreadyUpdated slot epochLength).isOk then operator :: instructions else instructions)

/-- The operators looked at: from the last one updated, or the first of the rotation, to the end of the rotation. -/
def operatorsIter (operators : List Pubkey) (startIndex endIndex : Nat) : List Pubkey :=
  if startIndex < endIndex then (operators.take endIndex).drop startIndex
  else operators.drop startIndex ++ operators.take endIndex

/-- The operators of the crank instructions that are sent, in their order. -/
def crank (trackers : Store Nat VaultUpdateStateTracker) (delegations : Store Pubkey VaultOperatorDelegation)
    (slot epochLength : Nat) (operators : List Pubkey) : Option (List Pubkey) := do
  let epoch ← (getEpoch slot epochLength).toOption
  let tracker ← trackers.lookup epoch
  if operators.isEmpty then pure []
  else if ← (tracker.allOperatorsUpdated operators.length).toOption then pure []
  else
    let endIndex ← checkedRem epoch operators.length
    let startIndex := if tracker.lastUpdatedIndex = u64Max then endIndex else tracker.lastUpdatedIndex
    retrieveNonUpdatedOperators delegations slot epochLength (operatorsIter operators startIndex endIndex)

end VaultHandler

namespace VaultUpdateStateTracker

/-- The trackers of an epoch that have accepted cranks of the operators with the indices listed. -/
inductive Cranked (epoch numOperators : Nat) : List Nat → VaultUpdateStateTracker → Prop where
  | new (withdrawalAllocationMethod : WithdrawalAllocationMethod) :
      Cranked epoch numOperators [] (.new epoch withdrawalAllocationMethod)
  | crank {indices tracker after index}
      (cranked : Cranked epoch numOperators indices tracker)
      (accepted : tracker.checkAndUpdateIndex index numOperators = .ok after) (delegationState : DelegationState) :
      Cranked epoch numOperators (indices ++ [index]) { after with delegationState }

variable {self after : VaultUpdateStateTracker} {numOperators visited epoch : Nat} {indices : List Nat}

/-- A tracker has visited the indices in the order of the rotation. -/
theorem Cranked.inOrder (fits : numOperators < 2 ^ 64) (cranked : Cranked epoch numOperators indices self) :
    self.ncnEpoch = epoch ∧ self.lastUpdatedIndex = indexAfter epoch numOperators indices.length ∧
      indices = (range indices.length).map (turn epoch numOperators) := by
  induction cranked with
  | new => exact ⟨rfl, rfl, rfl⟩
  | crank cranked accepted delegationState ih =>
    obtain ⟨rfl, stored, order⟩ := ih
    obtain ⟨rfl, _, rfl⟩ := checkAndUpdateIndex_ok fits stored accepted
    rw [length_append, length_singleton, range_succ, map_append, ← order]
    exact ⟨rfl, rfl, rfl⟩

section

variable (fits : numOperators < 2 ^ 64) (pos : 0 < numOperators)
  (stored : self.lastUpdatedIndex = indexAfter self.ncnEpoch numOperators visited)
include fits pos stored

theorem checkAndUpdateIndex_turn :
    self.checkAndUpdateIndex (turn self.ncnEpoch numOperators visited) numOperators =
      .ok { self with lastUpdatedIndex := indexAfter self.ncnEpoch numOperators (visited + 1) } := by
  unfold checkAndUpdateIndex
  cases visited with
  | zero =>
    have first : self.lastUpdatedIndex = u64Max := stored
    simp only [if_pos first, ok_iffs, checkedRem_eq_some]
    exact ⟨_, ⟨pos.ne', rfl⟩, rfl, rfl⟩
  | succ visited =>
    have below : turn self.ncnEpoch numOperators visited < numOperators := turn_lt pos
    simp only [if_neg (stored ▸ indexAfter_succ_ne fits pos _ _), ok_iffs, Option.bind_eq_some_iff, checkedRem_eq_some]
    rw [stored]
    exact ⟨_, ⟨_, ⟨by rw [indexAfter]; omega, rfl⟩, pos.ne', turn_succ _ _ _⟩, rfl, rfl⟩

/-- The indices accepted one after another are those of the rotation. -/
theorem foldlM_checkAndUpdateIndex (indices after) :
    indices.foldlM (checkAndUpdateIndex · · numOperators) self = .ok after ↔
      indices = (range' visited indices.length).map (turn self.ncnEpoch numOperators) ∧
        after = { self with lastUpdatedIndex := indexAfter self.ncnEpoch numOperators (visited + indices.length) } := by
  induction indices generalizing self visited with
  | nil =>
    rw [foldlM_nil, pure_ok_iff, length_nil, add_zero, ← stored]
    simp [eq_comm]
  | cons index indices ih =>
    have next : { self with lastUpdatedIndex := indexAfter self.ncnEpoch numOperators (visited + 1) }.lastUpdatedIndex =
        indexAfter self.ncnEpoch numOperators (visited + 1) := rfl
    rw [foldlM_cons, bind_ok_iff, length_cons, range'_succ, map_cons, cons.injEq, ← add_assoc, add_right_comm]
    constructor
    · rintro ⟨_, accepted, rest⟩
      obtain ⟨rfl, -, rfl⟩ := checkAndUpdateIndex_ok fits stored accepted
      obtain ⟨order, rfl⟩ := (ih next).mp rest
      exact ⟨⟨rfl, order⟩, rfl⟩
    · rintro ⟨⟨rfl, order⟩, rfl⟩
      exact ⟨_, checkAndUpdateIndex_turn fits pos stored, (ih next).mpr ⟨order, rfl⟩⟩

end

end VaultUpdateStateTracker

/-! ### The operators chosen -/

namespace VaultHandler

open VaultUpdateStateTracker

variable {delegations : Store Pubkey VaultOperatorDelegation} {config : Config} {slot epoch : Nat}
  {operators : List Pubkey}

/-- The index that the delegation of an operator has. -/
def index? (delegations : Store Pubkey VaultOperatorDelegation) (operator : Pubkey) : Option Nat :=
  (delegations.lookup operator).map (·.index)

theorem isOk_checkIsAlreadyUpdated {delegation : VaultOperatorDelegation} :
    (delegation.checkIsAlreadyUpdated slot config.epochLength).isOk ↔
      ¬ config.epochOf slot ≤ config.epochOf delegation.lastUpdateSlot := by
  simp only [VaultOperatorDelegation.checkIsAlreadyUpdated, Config.getEpoch_epochLength, bind, Except.bind, rejectIf]
  split <;> simp_all [Except.isOk, Except.toBool]

/-- The operators with an index among the delegations that are updated are left out. -/
theorem retrieveNonUpdatedOperators_eq {indices cranked : List Nat}
    (indexed : operators.map (index? delegations) = indices.map some)
    (updated : ∀ operator ∈ operators, ∀ delegation, delegations.lookup operator = some delegation →
      (config.epochOf slot ≤ config.epochOf delegation.lastUpdateSlot ↔ delegation.index ∈ cranked)) :
    ∃ chosen, retrieveNonUpdatedOperators delegations slot config.epochLength operators = some chosen ∧
      chosen.map (index? delegations) = (indices.filter (· ∉ cranked)).map some := by
  induction operators generalizing indices with
  | nil =>
    obtain rfl : indices = [] := by simpa using indexed.symm
    exact ⟨[], rfl, rfl⟩
  | cons operator operators ih =>
    cases indices with
    | nil => simp at indexed
    | cons =>
      obtain ⟨first, rest⟩ := cons.inj indexed
      obtain ⟨delegation, found, rfl⟩ := Option.map_eq_some_iff.mp first
      obtain ⟨chosen, retrieved, order⟩ := ih rest fun operator mem => updated operator (.tail _ mem)
      have here := updated operator (.head _) delegation found
      have retrieve : retrieveNonUpdatedOperators delegations slot config.epochLength (operator :: operators) =
          some (if (delegation.checkIsAlreadyUpdated slot config.epochLength).isOk then operator :: chosen
            else chosen) := by
        rw [retrieveNonUpdatedOperators, found, retrieved]
        rfl
      refine ⟨_, retrieve, ?_⟩
      rw [filter_cons]
      by_cases mem : delegation.index ∈ cranked
      · rw [if_neg (by simpa [isOk_checkIsAlreadyUpdated] using here.mpr mem), if_neg (by simpa using mem), order]
      · rw [if_pos (isOk_checkIsAlreadyUpdated.mpr (mt here.mp mem)), if_pos (by simpa using mem), map_cons,
          map_cons, order, first]

/-- The slices are the rotation of the operators, from the last one updated on. -/
theorem operatorsIter_eq (epoch) (some : visited < operators.length) (fits : operators.length < 2 ^ 64) :
    operatorsIter operators
      (if indexAfter epoch operators.length visited = u64Max then epoch % operators.length
        else indexAfter epoch operators.length visited) (epoch % operators.length) =
      (operators.rotate epoch).drop (visited - 1) := by
  have pos : 0 < operators.length := by omega
  have endLt := mod_lt epoch pos
  rw [← rotate_mod, rotate_eq_drop_append_take endLt.le]
  cases visited with
  | zero =>
    rw [indexAfter, if_pos rfl, operatorsIter, if_neg (lt_irrefl _)]
    rfl
  | succ visited =>
    rw [if_neg (indexAfter_succ_ne fits pos _ _), Nat.add_sub_cancel, indexAfter, operatorsIter]
    have start : turn epoch operators.length visited = (epoch % operators.length + visited) % operators.length := by
      simp [turn]
    by_cases wrapped : epoch % operators.length + visited < operators.length
    · rw [start, Nat.mod_eq_of_lt wrapped, if_neg (by omega), drop_append_of_le_length (by rw [length_drop]; omega),
        drop_drop]
    have start : turn epoch operators.length visited = epoch % operators.length + visited - operators.length := by
      rw [start, mod_eq_sub_mod (by omega), mod_eq_of_lt (by omega)]
    have passed : (operators.drop (epoch % operators.length)).length ≤ visited := by
      rw [length_drop]
      omega
    rw [start, if_pos (by omega), drop_append, drop_eq_nil_of_le passed, nil_append, length_drop]
    congr 1
    omega

/-- What is left of a rotation once its first turns are taken out. -/
theorem filter_rotation (epoch) (some : visited < numOperators) :
    (((range numOperators).rotate epoch).drop (visited - 1)).filter
        (· ∉ (range visited).map (turn epoch numOperators)) =
      (range' visited (numOperators - visited)).map (turn epoch numOperators) := by
  have rotation : (range numOperators).rotate epoch = (range numOperators).map (turn epoch numOperators) := by
    apply ext_getElem
    · simp
    · intro i _ _
      simp [getElem_rotate, turn, add_comm]
  have turned (k : Nat) (inside : k < numOperators) :
      turn epoch numOperators k ∈ (range visited).map (turn epoch numOperators) ↔ k < visited := by
    simp only [mem_map, mem_range]
    constructor
    · rintro ⟨j, before, same⟩
      exact turn_injective (by omega) inside same ▸ before
    · intro before
      exact ⟨k, before, rfl⟩
  have left : ((range numOperators).drop (visited - 1)).filter (visited ≤ ·) =
      range' visited (numOperators - visited) := by
    have kept : (range' visited (numOperators - visited)).filter (visited ≤ ·) =
        range' visited (numOperators - visited) := by
      rw [filter_eq_self]
      intro k mem
      simpa using (mem_range'_1.mp mem).1
    rw [range_eq_range', drop_range']
    cases visited with
    | zero => exact kept
    | succ visited =>
      obtain ⟨rest, restEq⟩ : ∃ rest, numOperators - visited = rest + 1 := ⟨numOperators - visited - 1, by omega⟩
      have count : numOperators - (visited + 1) = rest := by omega
      rw [Nat.add_sub_cancel, restEq, range'_succ, filter_cons_of_neg (by simp)]
      rw [count] at kept ⊢
      simpa using kept
  rw [rotation, ← map_drop, filter_map, ← left]
  congr 1
  apply filter_congr
  intro k mem
  have inside := mem_range.mp (mem_of_mem_drop mem)
  simp only [Function.comp_apply, turned k inside, not_lt]

/-- After some cranks of an epoch, the cranker sends those that complete the rotation of the tracker, in the only order
    in which they are accepted. -/
theorem crank_completes_rotation {trackers : Store Nat VaultUpdateStateTracker} {tracker : VaultUpdateStateTracker}
    {cranked : List Nat} (fits : operators.length < 2 ^ 64)
    (indexed : operators.map (index? delegations) = (range operators.length).map some)
    (tracked : trackers.lookup (config.epochOf slot) = some tracker)
    (reached : Cranked (config.epochOf slot) operators.length cranked tracker)
    (unfinished : cranked.length < operators.length)
    (updated : ∀ operator ∈ operators, ∀ delegation, delegations.lookup operator = some delegation →
      (config.epochOf slot ≤ config.epochOf delegation.lastUpdateSlot ↔ delegation.index ∈ cranked)) :
    ∃ chosen indices final, crank trackers delegations slot config.epochLength operators = some chosen ∧
      chosen.map (index? delegations) = indices.map some ∧ indices.length = operators.length - cranked.length ∧
      indices.foldlM (checkAndUpdateIndex · · operators.length) tracker = .ok final ∧
      final.allOperatorsUpdated operators.length = .ok true ∧
      ∀ others : List Nat, others.length = operators.length - cranked.length →
        (∃ after, others.foldlM (checkAndUpdateIndex · · operators.length) tracker = .ok after) → others = indices := by
  have pos : 0 < operators.length := by omega
  obtain ⟨epochEq, stored, order⟩ := reached.inOrder fits
  rw [← epochEq] at stored order tracked
  have rotated : ((operators.rotate tracker.ncnEpoch).drop (cranked.length - 1)).map (index? delegations) =
      (((range operators.length).rotate tracker.ncnEpoch).drop (cranked.length - 1)).map some := by
    rw [map_drop, map_drop, map_rotate, map_rotate, indexed]
  obtain ⟨chosen, retrieved, chosenIndices⟩ := retrieveNonUpdatedOperators_eq rotated fun operator mem =>
    updated operator (mem_rotate.mp (mem_of_mem_drop mem))
  have left := filter_rotation tracker.ncnEpoch unfinished
  rw [← order] at left
  rw [left] at chosenIndices
  have accepts := foldlM_checkAndUpdateIndex fits pos stored
  refine ⟨chosen, _, _, ?_, chosenIndices, ?_, (accepts _ _).mpr ⟨?_, rfl⟩, ?_, ?_⟩
  · have started := allOperatorsUpdated_eq fits pos unfinished.le stored
    have slices := operatorsIter_eq tracker.ncnEpoch unfinished fits
    rw [← stored] at slices
    have several : operators.isEmpty = false := by
      rw [isEmpty_eq_false_iff, ← length_pos_iff]
      exact pos
    have notAll : decide (cranked.length = operators.length) = false := decide_eq_false unfinished.ne
    simp only [crank, Config.getEpoch_epochLength, ← epochEq, Except.toOption, Option.bind_eq_bind, Option.bind_some,
      tracked, several, started, notAll, checkedRem, if_neg pos.ne', Bool.false_eq_true, if_false, slices, retrieved]
  · simp
  · simp
  · rw [allOperatorsUpdated_eq fits pos le_rfl, decide_eq_true rfl]
    simp [Nat.add_sub_cancel' unfinished.le]
  · rintro others length ⟨after, accepted⟩
    rw [((accepts _ _).mp accepted).1, length]

def Sample.store : Store Pubkey VaultOperatorDelegation :=
  ((AList.singleton (.wallet 10) (.new 0 0)).insert (.wallet 11) (.new 1 1728000)).insert (.wallet 12) (.new 2 0)

def Sample.tracker : VaultUpdateStateTracker := ⟨4, 1, 0, .greedy⟩

def Sample.settings : Config := .new .default .default ⟨0, Nat.zero_le _⟩

open Sample

/-- The second of three operators is the first to be cranked in epoch 4. -/
theorem crank_completes_rotation_sample : ∃ (chosen : List Pubkey) (indices : List Nat),
    crank (AList.singleton 4 tracker) store 1728000 432000 [.wallet 10, .wallet 11, .wallet 12] = some chosen ∧
      chosen.map (index? store) = indices.map some ∧ indices.length = 2 := by
  have epoch : settings.epochOf 1728000 = 4 := by decide
  have accepted : (VaultUpdateStateTracker.new 4 .greedy).checkAndUpdateIndex 1 3 = .ok tracker := by decide
  have reached : Cranked (settings.epochOf 1728000) 3 [1] tracker :=
    epoch ▸ Cranked.crank (.new .greedy) accepted 0
  have completed := @crank_completes_rotation store settings 1728000
    [.wallet 10, .wallet 11, .wallet 12] (AList.singleton 4 tracker) tracker [1] (by decide) (by decide)
    (by decide) reached (by decide) (by decide)
  obtain ⟨chosen, indices, _, sent, order, length, -⟩ := completed
  exact ⟨chosen, indices, sent, order, length⟩

end VaultHandler

end Payout.Restaking
