/-
Purpose: The vault's total delegation against the delegations of its operators. The total is never recomputed: between
  updates it is moved along with the single delegations, and an update replaces it by what a tracker accumulated, one
  operator at a time, possibly after cycles of earlier epochs were given up half-way.
-/
import Mathlib.Data.Multiset.Range
import Payout.RestakingProofs.Steps

namespace Payout.Restaking

open Lib Store State Multiset VaultUpdateStateTracker
open DelegationState (cooled add_enqueued add_coolingDown add_stakedAmount)

variable {operator : Pubkey} {s : State} {delegation : VaultOperatorDelegation}
  {delegationState total' : DelegationState} {additional ncnEpoch slot : Nat}

variable {tracker : VaultUpdateStateTracker}

/-- The indices of the operators, each as often as it is used. -/
def State.indices (s : State) : Multiset Nat :=
  total (fun _ delegation => ({delegation.index} : Multiset Nat)) s.operatorDelegations

/-- The sum of the delegations to all operators. -/
def State.delegated (s : State) : DelegationState :=
  total (fun _ delegation => delegation.delegationState) s.operatorDelegations

/-- How far the tracker of an epoch has come: it has visited some turns of the rotation, the operators of
    those turns are the ones updated in the epoch, and it holds the sum of their delegations. -/
structure CycleProgress (epochOf : Nat → Nat) (epoch numOperators : Nat)
    (delegations : Store Pubkey VaultOperatorDelegation) (tracker : VaultUpdateStateTracker)
    (visited : Nat) : Prop where
  visitedLe : visited ≤ numOperators
  stored : tracker.lastUpdatedIndex = indexAfter epoch numOperators visited
  updatedIff : delegations.All fun _ delegation =>
    epochOf delegation.lastUpdateSlot = epoch ↔ ∃ k < visited, delegation.index = turn epoch numOperators k
  accumulated : tracker.delegationState = total (fun _ delegation =>
    if epochOf delegation.lastUpdateSlot = epoch then delegation.delegationState else 0) delegations

/-- The invariant of the delegations of a vault. -/
structure Delegations (s : State) : Prop where
  countFits : s.vault.operatorCount < 2 ^ 64
  indices : s.indices = Multiset.range s.vault.operatorCount
  startLe : s.vault.lastStartStateUpdateSlot ≤ s.slot
  fullLe : s.fullEpoch ≤ s.startEpoch
  updated : s.operatorDelegations.All fun _ delegation =>
    s.fullEpoch ≤ s.epochOf delegation.lastUpdateSlot ∧ delegation.lastUpdateSlot ≤ s.slot
  trackers : s.updateStateTrackers.All fun epoch tracker => tracker.ncnEpoch = epoch ∧ epoch ≤ s.epoch
  /-- Unless a cycle is under way, the total of the vault is that of its operators. -/
  complete : s.startEpoch = s.fullEpoch →
    (s.operatorDelegations.All fun _ delegation => s.epochOf delegation.lastUpdateSlot = s.fullEpoch) ∧
      s.vault.delegationState = s.delegated
  /-- A tracker of the current epoch belongs to the cycle under way. -/
  cycle : ∀ tracker, s.updateStateTrackers.lookup s.epoch = some tracker →
    s.fullEpoch < s.epoch ∧ s.startEpoch = s.epoch ∧
      ∃ visited, CycleProgress s.epochOf s.epoch s.vault.operatorCount s.operatorDelegations tracker visited
  /-- Before the current epoch has a tracker, no operator is updated in it. -/
  idle : s.fullEpoch < s.epoch → s.updateStateTrackers.lookup s.epoch = none →
    s.operatorDelegations.All fun _ delegation => s.epochOf delegation.lastUpdateSlot < s.epoch

/-! ### Indices -/

section Indices

theorem mem_indices (found : s.operatorDelegations.lookup operator = some delegation) :
    delegation.index ∈ s.indices := by
  have split : s.indices = {delegation.index} + _ := total_eq_add_erase found
  rw [split]
  exact mem_add.mpr (.inl (mem_singleton_self _))

section

variable (delegations : Delegations s) (found : s.operatorDelegations.lookup operator = some delegation)
include delegations found

theorem Delegations.index_lt : delegation.index < s.vault.operatorCount := by
  have mem := mem_indices found
  rw [delegations.indices] at mem
  exact mem_range.mp mem

theorem Delegations.index_ne (found' : s.operatorDelegations.lookup operator' = some delegation')
    (other : operator' ≠ operator) : delegation'.index ≠ delegation.index := by
  intro same
  have split : s.indices = {delegation.index} + _ := total_eq_add_erase found
  have rest : total (fun _ delegation => ({delegation.index} : Multiset Nat))
      (s.operatorDelegations.erase operator) = {delegation'.index} + _ :=
    total_eq_add_erase (lookup_erase_eq_some.mpr ⟨other, found'⟩)
  have unique : s.indices.Nodup := by
    rw [delegations.indices]
    exact nodup_range _
  rw [split, singleton_add, nodup_cons] at unique
  apply unique.1
  rw [rest, ← same]
  exact mem_add.mpr (.inl (mem_singleton_self _))

end

end Indices

/-! ### One step -/

theorem Genesis.delegations (genesis : Genesis s) : Delegations s where
  countFits := by rw [genesis.operatorCount_eq]; decide
  indices := by
    rw [indices, genesis.operatorDelegations_eq, genesis.operatorCount_eq, total_empty, range_zero]
  startLe := genesis.lastStartStateUpdateSlot_eq.le
  fullLe := by
    unfold fullEpoch startEpoch
    rw [genesis.lastFullStateUpdateSlot_eq, genesis.lastStartStateUpdateSlot_eq]
  updated := by rw [genesis.operatorDelegations_eq]; exact all_empty
  trackers := by rw [genesis.updateStateTrackers_eq]; exact all_empty
  complete := by
    intro _
    rw [delegated, genesis.operatorDelegations_eq, genesis.delegationState_eq, total_empty]
    exact ⟨all_empty, rfl⟩
  cycle := by
    intro tracker found
    rw [genesis.updateStateTrackers_eq] at found
    simp at found
  idle := by
    intro _ _
    rw [genesis.operatorDelegations_eq]
    exact all_empty

namespace Delegations

section

variable (delegations : Delegations s)

include delegations

theorem startEpoch_le : s.startEpoch ≤ s.epoch :=
  s.config.epochOf_mono delegations.startLe

section

variable (upToDate : s.epoch ≤ s.fullEpoch)
include upToDate

theorem settled : s.fullEpoch = s.epoch ∧ s.startEpoch = s.fullEpoch ∧ s.updateStateTrackers.lookup s.epoch = none := by
  have fullLe := delegations.fullLe
  have startLe := delegations.startEpoch_le
  refine ⟨by omega, by omega, ?_⟩
  cases present : s.updateStateTrackers.lookup s.epoch with
  | none => rfl
  | some tracker =>
    have under := (delegations.cycle tracker present).1
    omega

theorem addOperator (absent : s.operatorDelegations.lookup operator = none)
    (fits : s.vault.operatorCount + 1 < 2 ^ 64) :
    Delegations { s with
      vault := { s.vault with operatorCount := s.vault.operatorCount + 1 }
      operatorDelegations := s.operatorDelegations.insert operator
        (VaultOperatorDelegation.new s.vault.operatorCount s.slot) } := by
  obtain ⟨current, started, untracked⟩ := delegations.settled upToDate
  obtain ⟨allUpdated, total⟩ := delegations.complete started
  constructor
  · exact fits
  · refine (total_insert_of_absent absent).trans ?_
    change {s.vault.operatorCount} + s.indices = _
    rw [delegations.indices, range_succ, singleton_add]
  · exact delegations.startLe
  · exact delegations.fullLe
  · exact all_insert ⟨current.le, le_refl _⟩ fun key other _ => delegations.updated key other
  · exact delegations.trackers
  · intro _
    refine ⟨all_insert current.symm fun key other _ => allUpdated key other, ?_⟩
    refine Eq.trans ?_ (total_insert_of_absent absent).symm
    change s.vault.delegationState = 0 + s.delegated
    rw [total, zero_add]
  · intro tracker found
    change s.updateStateTrackers.lookup s.epoch = some tracker at found
    simp [untracked] at found
  · intro outdated
    exact absurd outdated (not_lt.mpr upToDate)

/-- Stake moved in a vault that is up to date is moved in the total alike. -/
theorem restake (found : s.operatorDelegations.lookup operator = some delegation)
    (moved : ∀ rest, s.vault.delegationState = delegation.delegationState + rest → total' = delegationState + rest) :
    Delegations { s with
      vault := { s.vault with delegationState := total' }
      operatorDelegations := s.operatorDelegations.insert operator { delegation with delegationState } } := by
  obtain ⟨_, started, untracked⟩ := delegations.settled upToDate
  obtain ⟨allUpdated, total⟩ := delegations.complete started
  constructor
  · exact delegations.countFits
  · rw [← delegations.indices]
    have before : s.indices = _ := total_eq_add_erase found
    rw [before]
    exact total_insert
  · exact delegations.startLe
  · exact delegations.fullLe
  · have old := delegations.updated operator delegation found
    exact all_insert old fun key other _ => delegations.updated key other
  · exact delegations.trackers
  · intro _
    have old := allUpdated operator delegation found
    refine ⟨all_insert old fun key other _ => allUpdated key other, ?_⟩
    have before : s.delegated = delegation.delegationState + _ := total_eq_add_erase found
    refine (moved _ (total.trans before)).trans ?_
    symm
    exact total_insert
  · intro tracker present
    change s.updateStateTrackers.lookup s.epoch = some tracker at present
    simp [untracked] at present
  · intro outdated
    exact absurd outdated (not_lt.mpr upToDate)

end

/-- A new tracker of an epoch has visited nobody, and nobody is updated in that epoch. -/
theorem track (outdated : s.fullEpoch < s.epoch) (untracked : s.updateStateTrackers.lookup s.epoch = none) :
    Delegations { s with
      vault := { s.vault with
        withdrawalFeeBps, programFeeBps
        additionalAssetsNeedUnstaking := additional
        lastStartStateUpdateSlot := s.slot }
      updateStateTrackers := s.updateStateTrackers.insert s.epoch
        (new s.epoch method) } := by
  have older := delegations.idle outdated untracked
  constructor
  · exact delegations.countFits
  · exact delegations.indices
  · exact le_refl _
  · exact outdated.le
  · exact delegations.updated
  · exact all_insert ⟨rfl, le_refl _⟩ fun epoch tracker _ => delegations.trackers epoch tracker
  · intro settled
    change s.epoch = s.fullEpoch at settled
    omega
  · intro tracker found
    obtain rfl : tracker = new s.epoch method := by
      rcases lookup_insert_eq_some.mp found with ⟨_, same⟩ | ⟨other, _⟩
      · exact same
      · exact absurd rfl other
    refine ⟨outdated, rfl, 0, ⟨Nat.zero_le _, rfl, ?_, ?_⟩⟩
    · intro key delegation present
      have old := older key delegation present
      constructor
      · intro same
        change s.epochOf delegation.lastUpdateSlot = s.epoch at same
        omega
      · rintro ⟨k, none, _⟩
        omega
    · symm
      apply total_eq_zero
      intro key delegation present
      exact if_neg (older key delegation present).ne
  · intro _ missing
    change (s.updateStateTrackers.insert s.epoch _).lookup s.epoch = none at missing
    simp at missing

theorem crank (found : s.operatorDelegations.lookup operator = some delegation)
    (tracked : s.updateStateTrackers.lookup s.epoch = some tracker)
    (outdated : s.epochOf delegation.lastUpdateSlot < s.epoch)
    (inTurn : tracker.checkAndUpdateIndex delegation.index s.vault.operatorCount = .ok indexed) :
    Delegations (s.afterCrank operator delegation indexed) := by
  obtain ⟨under, started, visited, progress⟩ := delegations.cycle tracker tracked
  obtain ⟨ncnEpoch, _⟩ := delegations.trackers _ _ tracked
  have stored := progress.stored
  rw [← ncnEpoch] at stored
  obtain ⟨turned, _, rfl⟩ := checkAndUpdateIndex_ok delegations.countFits stored inTurn
  rw [ncnEpoch] at turned
  -- had the rotation ended, this operator would be updated already
  have notYet : ¬ ∃ k < visited, delegation.index = turn s.epoch s.vault.operatorCount k :=
    fun earlier => outdated.ne ((progress.updatedIff operator delegation found).mpr earlier)
  have more : visited < s.vault.operatorCount := by
    obtain ⟨k, kLt, same⟩ := exists_turn s.epoch (delegations.index_lt found)
    by_contra ended
    exact notYet ⟨k, by omega, same.symm⟩
  constructor
  · exact delegations.countFits
  · refine Eq.trans ?_ delegations.indices
    have before : s.indices = _ := total_eq_add_erase found
    rw [before]
    exact total_insert
  · exact delegations.startLe
  · exact delegations.fullLe
  · exact all_insert ⟨under.le, le_refl _⟩ fun key other _ => delegations.updated key other
  · exact all_insert ⟨ncnEpoch, le_refl _⟩ fun epoch other _ present =>
      delegations.trackers epoch other present
  · intro settled
    change s.startEpoch = s.fullEpoch at settled
    omega
  · intro tracker' present
    obtain rfl : tracker' = _ := by
      rcases lookup_insert_eq_some.mp present with ⟨_, same⟩ | ⟨other, _⟩
      · exact same
      · exact absurd rfl other
    refine ⟨under, started, visited + 1, ⟨more, turned, ?_, ?_⟩⟩
    · refine all_insert ⟨fun _ => ⟨visited, by omega, turned⟩, fun _ => rfl⟩ ?_
      intro key other distinct present
      refine (progress.updatedIff key other present).trans ⟨?_, ?_⟩
      · rintro ⟨k, kLt, same⟩
        exact ⟨k, by omega, same⟩
      · rintro ⟨k, kLt, same⟩
        have notThis : k ≠ visited := by
          rintro rfl
          exact delegations.index_ne found present distinct (same.trans turned.symm)
        exact ⟨k, by omega, same⟩
    · have before := progress.accumulated
      rw [total_eq_add_erase found, if_neg outdated.ne, zero_add] at before
      have now : s.epochOf s.slot = s.epoch := rfl
      symm
      refine total_insert.trans ?_
      change (if s.epochOf s.slot = s.epoch then (crankedDelegation s delegation).delegationState else 0) + _ =
        tracker.delegationState + (crankedDelegation s delegation).delegationState
      rw [if_pos now, before, add_comm]
      rfl
  · intro _ missing
    change (s.updateStateTrackers.insert s.epoch _).lookup s.epoch = none at missing
    simp at missing

/-- Closing a tracker of another epoch changes nothing for the current one. -/
theorem closeOld (old : ncnEpoch ≠ s.epoch) :
    Delegations { s with updateStateTrackers := s.updateStateTrackers.erase ncnEpoch } := by
  have same : (s.updateStateTrackers.erase ncnEpoch).lookup s.epoch = s.updateStateTrackers.lookup s.epoch :=
    AList.lookup_erase_ne old.symm
  have ⟨cycle, idle⟩ := And.intro delegations.cycle delegations.idle
  rw [← same] at cycle idle
  exact { delegations with trackers := all_erase delegations.trackers, cycle, idle }

end

section

variable (delegations : Delegations s) (tracked : s.updateStateTrackers.lookup s.epoch = some tracker)
  (finished : 0 < s.vault.operatorCount → tracker.allOperatorsUpdated s.vault.operatorCount = .ok true)

include delegations tracked finished

/-- When the rotation has ended, every operator has been visited. -/
theorem all_visited :
    (s.operatorDelegations.All fun _ delegation => s.epochOf delegation.lastUpdateSlot = s.epoch) ∧
      tracker.delegationState = s.delegated := by
  obtain ⟨_, _, visited, progress⟩ := delegations.cycle tracker tracked
  have whole : visited = s.vault.operatorCount := by
    have visitedLe := progress.visitedLe
    rcases Nat.eq_zero_or_pos s.vault.operatorCount with none | pos
    · omega
    · have stored := progress.stored
      rw [← (delegations.trackers _ _ tracked).1] at stored
      exact visited_of_allOperatorsUpdated delegations.countFits visitedLe stored
        (finished pos)
  have all : s.operatorDelegations.All fun _ delegation =>
      s.epochOf delegation.lastUpdateSlot = s.epoch := by
    intro key delegation present
    apply (progress.updatedIff key delegation present).mpr
    obtain ⟨k, kLt, same⟩ := exists_turn s.epoch (delegations.index_lt present)
    exact ⟨k, by omega, same.symm⟩
  refine ⟨all, progress.accumulated.trans (total_congr ?_)⟩
  intro key delegation present
  exact if_pos (all key delegation present)

/-- Finishing the cycle replaces the total by the sum the tracker holds. -/
theorem finish : Delegations (s.afterFinish tracker) := by
  obtain ⟨_, started, _⟩ := delegations.cycle tracker tracked
  obtain ⟨all, total⟩ := delegations.all_visited tracked finished
  constructor
  · exact delegations.countFits
  · exact delegations.indices
  · exact delegations.startLe
  · exact started.ge
  · intro key delegation present
    exact ⟨(all key delegation present).ge, (delegations.updated key delegation present).2⟩
  · exact all_erase delegations.trackers
  · exact fun _ => ⟨all, total⟩
  · intro other present
    change (s.updateStateTrackers.erase s.epoch).lookup s.epoch = some other at present
    simp at present
  · intro outdated
    exact absurd outdated (lt_irrefl s.epoch)

end

/-- In a later epoch no tracker and no update is current any more. -/
theorem wait (delegations : Delegations s) (later : s.slot ≤ slot) : Delegations { s with slot } := by
  have epochLe : s.epoch ≤ s.epochOf slot := s.config.epochOf_mono later
  obtain ⟨countFits, indices, startLe, fullLe, updated, trackers, complete, cycle, idle⟩ := delegations
  have updated' : s.operatorDelegations.All fun _ delegation =>
      s.fullEpoch ≤ s.epochOf delegation.lastUpdateSlot ∧ delegation.lastUpdateSlot ≤ slot :=
    updated.mono fun _ _ _ old => ⟨old.1, old.2.trans later⟩
  have trackers' : s.updateStateTrackers.All fun epoch tracker =>
      tracker.ncnEpoch = epoch ∧ epoch ≤ s.epochOf slot :=
    trackers.mono fun _ _ _ old => ⟨old.1, old.2.trans epochLe⟩
  refine ⟨countFits, indices, startLe.trans later, fullLe, updated', trackers', complete, ?_, ?_⟩
  · intro tracker found
    rcases epochLe.eq_or_lt with same | passed
    · change s.updateStateTrackers.lookup (s.epochOf slot) = some tracker at found
      change s.fullEpoch < s.epochOf slot ∧ s.startEpoch = s.epochOf slot ∧ ∃ visited,
        CycleProgress s.epochOf (s.epochOf slot) s.vault.operatorCount s.operatorDelegations tracker visited
      rw [← same] at found ⊢
      exact cycle tracker found
    · have old := (trackers _ _ found).2
      exact absurd old (not_le.mpr passed)
  · intro outdated missing
    change s.operatorDelegations.All fun _ delegation =>
      s.epochOf delegation.lastUpdateSlot < s.epochOf slot
    rcases epochLe.eq_or_lt with same | passed
    · change s.updateStateTrackers.lookup (s.epochOf slot) = none at missing
      change s.fullEpoch < s.epochOf slot at outdated
      rw [← same] at missing outdated ⊢
      exact idle outdated missing
    · intro key delegation present
      exact lt_of_le_of_lt (s.config.epochOf_mono (updated key delegation present).2) passed

end Delegations

theorem delegations_step (delegations : Delegations s) (step : Step s action after) : Delegations after := by
  cases step with
  | initializeVaultOperatorDelegation upToDate absent fits => exact delegations.addOperator upToDate absent fits
  | addDelegation upToDate found =>
    refine delegations.restake upToDate found ?_
    intro rest total
    ext
    · simp only [total, add_stakedAmount]
      omega
    · simp only [total, add_enqueued]
    · simp only [total, add_coolingDown]
  | cooldownDelegation upToDate found within vaultWithin =>
    refine delegations.restake upToDate found ?_
    intro rest total
    ext
    · simp only [total, cooled, add_stakedAmount]
      omega
    · simp only [total, cooled, add_enqueued]
      omega
    · simp only [total, cooled, add_coolingDown]
  | resumeUpdate outdated untracked => exact delegations.track outdated untracked
  | startUpdate outdated untracked => exact delegations.track outdated untracked
  | crankVaultUpdateStateTracker found tracked outdated inTurn =>
    exact delegations.crank found tracked outdated inTurn
  | closeOldTracker old => exact delegations.closeOld old
  | finishUpdate tracked finished => exact delegations.finish tracked finished
  | wait later => exact delegations.wait later
  | _ => exact { delegations with }

theorem delegations_run (init : Initialized s₀) (run : State.Steps anything s₀ actions s) : Delegations s := by
  refine init.always run (fun _ genesis => genesis.delegations) ?_
  intro s action after delegations _ step
  exact delegations_step delegations step

theorem State.indices_eq_coe (s : State) :
    s.indices = ↑(s.operatorDelegations.entries.map fun entry => entry.2.index) := by
  unfold indices total
  induction s.operatorDelegations.entries with
  | nil => rfl
  | cons entry rest ih =>
    rw [List.map_cons, List.sum_cons, ih, singleton_add, List.map_cons, cons_coe]

/-- On every run, over any number of epochs and of cycles given up half-way: the operators have the indices
    below the operator count, each once, and whenever the vault is up to date its delegation is the sum of the
    delegations to its operators. -/
theorem delegation_totals_agree {s₀ s : State} {actions : List Action} (init : Initialized s₀)
    (run : State.Steps State.anything s₀ actions s) :
    (s.operatorDelegations.entries.map fun entry => entry.2.index).Perm
      (List.range s.vault.operatorCount) ∧
    (s.fullEpoch = s.epoch → s.vault.delegationState =
      total (fun _ delegation => delegation.delegationState) s.operatorDelegations) := by
  have delegations := delegations_run init run
  constructor
  · have indices := delegations.indices
    rw [s.indices_eq_coe] at indices
    exact coe_eq_coe.mp indices
  · intro upToDate
    obtain ⟨_, started, _⟩ := delegations.settled upToDate.ge
    exact (delegations.complete started).2

/-- Two operators with stake; a cycle is given up after the first of them and the next one is finished. -/
def Sample.delegationRun : List Action :=
  [.initializeVaultOperatorDelegation (signers [1]) (.wallet 20) (.wallet 1) (.wallet 1),
    .initializeVaultOperatorDelegation (signers [1]) (.wallet 21) (.wallet 1) (.wallet 1),
    .addDelegation (signers [1]) (.wallet 20) (.wallet 1) 40,
    .addDelegation (signers [1]) (.wallet 21) (.wallet 1) 30,
    .cooldownDelegation (signers [1]) (.wallet 21) (.wallet 1) 10,
    .wait 10, .initializeVaultUpdateStateTracker (signers [1]) (.wallet 1) .greedy,
    .crankVaultUpdateStateTracker (.wallet 21),
    .wait 20, .initializeVaultUpdateStateTracker (signers [1]) (.wallet 1) .greedy,
    .closeVaultUpdateStateTracker (signers [1]) (.wallet 1) 1,
    .crankVaultUpdateStateTracker (.wallet 20), .crankVaultUpdateStateTracker (.wallet 21),
    .closeVaultUpdateStateTracker (signers [1]) (.wallet 1) 2]

open Sample

/-- The hypotheses are met by a run with a cycle given up half-way. -/
theorem delegation_totals_agree_sample :
    ∃ s, State.Steps State.anything state delegationRun s ∧
      s.vault.delegationState = { stakedAmount := 60 } ∧
      s.vault.delegationState = total (fun _ delegation => delegation.delegationState) s.operatorDelegations := by
  refine ⟨_, run_exec_get (by decide), by decide, ?_⟩
  exact (delegation_totals_agree state_initialized (run_exec_get _)).2 (by decide)

end Payout.Restaking
