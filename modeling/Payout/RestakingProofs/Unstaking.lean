/-
Purpose: Why an update can always be finished. What has to be unstaked is computed once, when a cycle is first
  initialized, and taken greedily from the operators as they are visited, except from those visited before in a cycle
  that was given up.
-/
import Payout.RestakingProofs.DelegationTotals
import Payout.RestakingProofs.TokenBacking

namespace Payout.Restaking

open Lib Store Vault State List VaultOperatorDelegation DelegationState Except

variable {s after s₀ first : State} {actions : List Action}
  {tracker : VaultUpdateStateTracker} {action : Action} {delegation self : VaultOperatorDelegation}
  {times numOperators slot currentNcnEpoch lastUpdatedEpoch last : Nat} {vault : Vault} {error : VaultError}

/-- The books of a vault are in order. -/
structure Books (s : State) : Prop where
  delegations : Delegations s
  buckets : Buckets s
  vrt : VrtBacked s

theorem Genesis.books (genesis : Genesis s) : Books s :=
  ⟨genesis.delegations, genesis.buckets, genesis.vrtBacked⟩

theorem books_step (books : Books s) (step : Step s action after) : Books after :=
  ⟨delegations_step books.delegations step, buckets_step books.buckets step, vrtBacked_step books.vrt step⟩

theorem books_run (init : Initialized s₀) (run : State.Steps anything s₀ actions s) : Books s :=
  ⟨delegations_run init run, buckets_run init run, vrtBacked_run init run⟩

theorem Books.requested_le (books : Books s) (config) :
    (s.vault.withCycleFees config).requested ≤ s.vault.tokensDeposited := by
  have reserveLe : (s.vault.withCycleFees config).vrtReserve ≤ s.vault.vrtSupply := books.vrt.reserve_le books.buckets
  have netLe : (s.vault.withCycleFees config).netOfFees (s.vault.withCycleFees config).vrtReserve ≤
      (s.vault.withCycleFees config).vrtReserve := by
    unfold netOfFees
    omega
  exact proRata_le_whole (netLe.trans reserveLe)

/-! ### The stake of the operators -/

/-- The stake of all operators. -/
def State.staked (s : State) : Nat :=
  Store.total (fun _ delegation => delegation.delegationState.stakedAmount) s.operatorDelegations

/-- The stake of the operators not updated since the last full update. -/
def State.pendingStake (s : State) : Nat :=
  Store.total (fun _ delegation => if s.epochOf delegation.lastUpdateSlot = s.fullEpoch then
    delegation.delegationState.stakedAmount else 0) s.operatorDelegations

theorem State.delegated_stakedAmount (s : State) : s.delegated.stakedAmount = s.staked :=
  map_total rfl fun _ _ => rfl

/-- The invariant of a cycle under way. -/
structure Unstaking (s : State) : Prop where
  pending : s.startEpoch ≠ s.fullEpoch → s.vault.additionalAssetsNeedUnstaking ≤ s.pendingStake
  covered : s.startEpoch ≠ s.fullEpoch → s.vault.requested + s.staked ≤
    s.vault.tokensDeposited + s.vault.additionalAssetsNeedUnstaking

theorem Unstaking.of_settled (settled : s.startEpoch = s.fullEpoch) : Unstaking s :=
  ⟨absurd settled, absurd settled⟩

theorem Genesis.unstaking (genesis : Genesis s) : Unstaking s := by
  apply Unstaking.of_settled
  unfold startEpoch fullEpoch
  rw [genesis.lastStartStateUpdateSlot_eq, genesis.lastFullStateUpdateSlot_eq]

/-- When a cycle is first initialized, all stake is pending and enough to fill up the reserve. -/
theorem Unstaking.start (books : Books s) (complete : s.fullEpoch = s.startEpoch)
    (funded : s.vault.delegationState.stakedAmount ≤ s.vault.tokensDeposited) :
    Unstaking (s.afterStart method) := by
  obtain ⟨allUpdated, total⟩ := books.delegations.complete complete.symm
  have requestedLe := books.requested_le s.config
  have staked : s.vault.delegationState.stakedAmount = s.staked := by
    rw [total, s.delegated_stakedAmount]
  have pending : s.pendingStake = s.staked := by
    apply total_congr
    intro operator delegation found
    exact if_pos (allUpdated operator delegation found)
  constructor
  · intro _
    change (s.vault.withCycleFees s.config).requested -
      (s.vault.tokensDeposited - s.vault.delegationState.stakedAmount) ≤ s.pendingStake
    omega
  · intro _
    change (s.vault.withCycleFees s.config).requested + s.staked ≤ s.vault.tokensDeposited +
      ((s.vault.withCycleFees s.config).requested -
        (s.vault.tokensDeposited - s.vault.delegationState.stakedAmount))
    omega

theorem forcedAmount_le (s delegation) :
    forcedAmount s delegation ≤ delegation.delegationState.stakedAmount ∧
      forcedAmount s delegation ≤ s.vault.additionalAssetsNeedUnstaking := by
  unfold forcedAmount
  split <;> omega

theorem crankedDelegation_stakedAmount (s delegation) :
    (crankedDelegation s delegation).delegationState.stakedAmount =
      delegation.delegationState.stakedAmount - forcedAmount s delegation := by
  simp only [crankedDelegation, updateFor_stakedAmount, cooled]

/-- A crank takes from an operator what is needed, or all it has. -/
theorem Unstaking.crank (unstaking : Unstaking s) (books : Books s)
    (found : s.operatorDelegations.lookup operator = some delegation)
    (tracked : s.updateStateTrackers.lookup s.epoch = some tracker) :
    Unstaking (s.afterCrank operator delegation indexed) := by
  obtain ⟨outdated, _, _⟩ := books.delegations.cycle tracker tracked
  have bounds := forcedAmount_le s delegation
  have stakedAfter := crankedDelegation_stakedAmount s delegation
  have current : s.epochOf (crankedDelegation s delegation).lastUpdateSlot ≠ s.fullEpoch := outdated.ne'
  constructor
  · intro under
    have pending := unstaking.pending under
    change s.vault.additionalAssetsNeedUnstaking - forcedAmount s delegation ≤
      total (fun _ delegation => if s.epochOf delegation.lastUpdateSlot = s.fullEpoch then
        delegation.delegationState.stakedAmount else 0)
        (s.operatorDelegations.insert operator (crankedDelegation s delegation))
    rw [pendingStake, total_eq_add_erase found] at pending
    rw [total_insert, if_neg current]
    by_cases fresh : s.epochOf delegation.lastUpdateSlot = s.fullEpoch
    · -- not visited yet: the demand falls by all its stake, or to nothing
      have forced : forcedAmount s delegation =
          min delegation.delegationState.stakedAmount s.vault.additionalAssetsNeedUnstaking := by
        unfold forcedAmount
        rw [if_neg (by omega)]
      rw [if_pos fresh] at pending
      omega
    · -- visited before: it does not count
      rw [if_neg fresh] at pending
      omega
  · intro under
    have covered := unstaking.covered under
    change s.vault.requested + total (fun _ delegation => delegation.delegationState.stakedAmount)
      (s.operatorDelegations.insert operator (crankedDelegation s delegation)) ≤ s.vault.tokensDeposited +
        (s.vault.additionalAssetsNeedUnstaking - forcedAmount s delegation)
    rw [staked, total_eq_add_erase found] at covered
    rw [total_insert]
    omega

theorem unstaking_step (books : Books s) (unstaking : Unstaking s) (step : Step s action after) : Unstaking after := by
  have ⟨pending, covered⟩ := unstaking
  -- what needs a vault that is up to date happens between cycles
  have settled : s.epoch ≤ s.fullEpoch → s.startEpoch = s.fullEpoch :=
    fun upToDate => (books.delegations.settled upToDate).2.1
  cases step with
  | mintTo upToDate | enqueueWithdrawal upToDate | burnWithdrawalTicket upToDate | updateVaultBalance upToDate
    | initializeVaultOperatorDelegation upToDate | addDelegation upToDate | cooldownDelegation upToDate =>
    exact .of_settled (settled upToDate)
  | resumeUpdate outdated untracked under =>
    exact ⟨fun _ => pending (Ne.symm under), fun _ => covered (Ne.symm under)⟩
  | startUpdate outdated untracked complete funded => exact .start books complete funded
  | crankVaultUpdateStateTracker found tracked => exact unstaking.crank books found tracked
  | finishUpdate tracked =>
    obtain ⟨_, started, _⟩ := books.delegations.cycle _ tracked
    exact .of_settled started
  | _ => exact ⟨pending, covered⟩

theorem unstaking_run (init : Initialized s₀) (run : State.Steps anything s₀ actions s) : Unstaking s := by
  have both : Books s ∧ Unstaking s := by
    refine init.always (P := fun s => Books s ∧ Unstaking s) run
      (fun _ genesis => ⟨genesis.books, genesis.unstaking⟩) ?_
    intro s action after ⟨books, unstaking⟩ _ step
    exact ⟨books_step books step, unstaking_step books unstaking step⟩
  exact both.2

/-- Once every operator has been visited nothing is left to unstake, and the reserve is free. -/
theorem Unstaking.finished (unstaking : Unstaking s) (books : Books s)
    (tracked : s.updateStateTrackers.lookup s.epoch = some tracker)
    (finished : 0 < s.vault.operatorCount → tracker.allOperatorsUpdated s.vault.operatorCount = .ok true) :
    s.vault.additionalAssetsNeedUnstaking = 0 ∧
      tracker.delegationState.stakedAmount + s.vault.requested ≤ s.vault.tokensDeposited := by
  obtain ⟨outdated, started, _⟩ := books.delegations.cycle tracker tracked
  obtain ⟨all, total⟩ := books.delegations.all_visited tracked finished
  have under : s.startEpoch ≠ s.fullEpoch := by omega
  have nobody : s.pendingStake = 0 := by
    apply total_eq_zero
    intro operator delegation found
    apply if_neg
    rw [all operator delegation found]
    omega
  have pending := unstaking.pending under
  have covered := unstaking.covered under
  rw [total, s.delegated_stakedAmount]
  omega

/-! ### The error of an update that could not be finished -/

theorem shiftVrtAmounts_error (failed : shiftVrtAmounts times vault = .error error) : error = .vaultOverflow := by
  induction times generalizing vault with
  | zero => cases failed
  | succ times ih =>
    simp only [shiftVrtAmounts, incrementVrtReadyToClaimAmount, bind_error_iff, okOr_eq_error, pure_ne_error] at failed
    rcases failed with (⟨_, rfl⟩ | ⟨_, _, impossible⟩) | ⟨_, _, failed⟩
    · rfl
    · exact impossible.elim
    · exact ih failed

theorem VaultUpdateStateTracker.allOperatorsUpdated_error
    (failed : tracker.allOperatorsUpdated numOperators = .error error) :
    error = .divisionByZero ∨ error = .arithmeticUnderflow := by
  unfold allOperatorsUpdated at failed
  split at failed
  · cases failed
  simp only [bind_error_iff, okOr_eq_error] at failed
  rcases failed with ⟨_, rfl⟩ | ⟨_, _, failed⟩
  · exact .inl rfl
  split at failed
  · simp only [bind_error_iff, okOr_eq_error, pure_ne_error] at failed
    rcases failed with ⟨_, rfl⟩ | ⟨_, _, impossible⟩
    · exact .inr rfl
    · exact impossible.elim
  · simp only [bind_error_iff, okOr_eq_error, pure_ne_error] at failed
    rcases failed with ⟨_, rfl⟩ | ⟨_, _, impossible⟩
    · exact .inr rfl
    · exact impossible.elim

/-- The error is returned only for a finished rotation that left something to unstake. -/
theorem finishUpdate_nonZero
    (failed : finishUpdate vault tracker slot currentNcnEpoch lastUpdatedEpoch =
      .error .nonZeroAdditionalAssetsNeededForWithdrawalAtEndOfUpdate) :
    (0 < vault.operatorCount → tracker.allOperatorsUpdated vault.operatorCount = .ok true) ∧
      vault.additionalAssetsNeedUnstaking ≠ 0 := by
  simp only [finishUpdate, bind_error_iff, rejectIf_eq_error, ok_iffs, okOr_eq_error, reduceCtorEq, and_false,
    false_or] at failed
  rcases failed with failed | ⟨allUpdated, finished, passed, ⟨left, _⟩ | ⟨_, _, _, failed⟩⟩
  · split at failed
    · rcases VaultUpdateStateTracker.allOperatorsUpdated_error failed with wrong | wrong
      · cases wrong
      · cases wrong
    · cases failed
  · refine ⟨fun pos => ?_, by omega⟩
    rw [if_pos pos] at finished
    rw [finished]
    simpa using passed
  · cases shiftVrtAmounts_error failed

/-- `CloseVaultUpdateStateTracker` never finds assets left to unstake. -/
theorem close_never_nonZero (books : Books s) (unstaking : Unstaking s) (signers payer ncnEpoch) :
    s.apply (.closeVaultUpdateStateTracker signers payer ncnEpoch) ≠
      .error (.vault .nonZeroAdditionalAssetsNeededForWithdrawalAtEndOfUpdate) := by
  intro failed
  simp only [apply, processCloseVaultUpdateStateTracker, bind_error_iff, okOr_eq_error, okOr_eq_ok,
    loadSigner, checkIsPaused, rejectIf_eq_error, asProgramError_eq_error, Config.getEpoch_epochLength,
    reduceCtorEq, and_false, false_or, ok.injEq, exists_eq_left'] at failed
  obtain ⟨tracker, tracked, _, _, _, _, failed⟩ := failed
  split at failed
  · cases failed
  rename_i current
  have current : ncnEpoch = s.epoch := not_not.mp current
  subst current
  simp only [bind_error_iff, asProgramError_eq_error, pure_ne_error, and_false, exists_false, or_false] at failed
  obtain ⟨finished, left⟩ := finishUpdate_nonZero failed
  exact left (unstaking.finished books tracked finished).1

/-! ### One cycle -/

/-- A state in the cycle that `first` was initialized in, or after its end: while the last full update is the
    same, the cycle is under way and the reserve it was started for is unchanged. -/
structure SameCycle (first s : State) : Prop where
  fullLe : first.fullEpoch ≤ s.fullEpoch
  same : s.fullEpoch = first.fullEpoch →
    s.startEpoch ≠ s.fullEpoch ∧ s.vault.requested = first.vault.requested

theorem sameCycle_step (books : Books s) (cycle : SameCycle first s) (step : Step s action after) :
    SameCycle first after := by
  have ⟨fullLe, same⟩ := cycle
  have ended {P : Prop} (upToDate : s.epoch ≤ s.fullEpoch) (unchanged : s.fullEpoch = first.fullEpoch) : P :=
    absurd (books.delegations.settled upToDate).2.1 (same unchanged).1
  cases step with
  | mintTo upToDate | enqueueWithdrawal upToDate | burnWithdrawalTicket upToDate | updateVaultBalance upToDate =>
    exact ⟨fullLe, ended upToDate⟩
  | resumeUpdate outdated =>
    refine ⟨fullLe, fun unchanged => ⟨?_, (same unchanged).2⟩⟩
    exact outdated.ne'
  | startUpdate outdated untracked complete =>
    exact ⟨fullLe, fun unchanged => absurd complete.symm (same unchanged).1⟩
  | finishUpdate tracked finished unstaked later =>
    refine ⟨fullLe.trans later, fun unchanged => ?_⟩
    change s.epoch = first.fullEpoch at unchanged
    exact ended (unchanged.trans_le fullLe) (by omega)
  | _ => exact ⟨fullLe, same⟩

theorem sameCycle_run (books : Books first) (under : first.startEpoch ≠ first.fullEpoch)
    (run : State.Steps anything first actions s) : SameCycle first s := by
  have both : Books s ∧ SameCycle first s := by
    refine run.invariant (P := fun s => Books s ∧ SameCycle first s) ?_
      ⟨books, ⟨le_refl _, fun _ => ⟨under, rfl⟩⟩⟩
    intro s action after ⟨books, cycle⟩ _ taken
    have step := step_of_apply taken
    exact ⟨books_step books step, sameCycle_step books cycle step⟩
  exact both.2

/-- On every run, whatever cycles were given up: once all operators have been cranked in an epoch nothing is
    left to unstake, so closing the tracker never fails for that; and a cycle that is closed leaves unstaked at
    least what was requested for withdrawal when it was first initialized. -/
theorem update_unstakes_enough {s₀ s : State} {actions : List Action} (init : Initialized s₀)
    (run : State.Steps State.anything s₀ actions s) :
    (∀ tracker, s.updateStateTrackers.lookup s.epoch = some tracker →
      (0 < s.vault.operatorCount → tracker.allOperatorsUpdated s.vault.operatorCount = .ok true) →
      s.vault.additionalAssetsNeedUnstaking = 0) ∧
    (∀ signers payer ncnEpoch, s.apply (.closeVaultUpdateStateTracker signers payer ncnEpoch) ≠
      .error (.vault .nonZeroAdditionalAssetsNeededForWithdrawalAtEndOfUpdate)) ∧
    (∀ signers payer method first between last signers' payer' after,
      s.startEpoch = s.fullEpoch →
      s.apply (.initializeVaultUpdateStateTracker signers payer method) = .ok first →
      State.Steps State.anything first between last →
      last.fullEpoch = s.fullEpoch →
      last.apply (.closeVaultUpdateStateTracker signers' payer' last.epoch) = .ok after →
      ∃ requested, first.vault.calculateSupportedAssetsRequestedForWithdrawal = .ok requested ∧
        after.vault.delegationState.stakedAmount + requested ≤ after.vault.tokensDeposited) := by
  have books := books_run init run
  have unstaking := unstaking_run init run
  refine ⟨?_, close_never_nonZero books unstaking, ?_⟩
  · intro tracker tracked finished
    exact (unstaking.finished books tracked finished).1
  intro signers payer method first between last signers' payer' after complete started rest unchanged closed
  have whole := (run.snoc trivial started).trans rest
  have lastBooks := books_run init whole
  have lastUnstaking := unstaking_run init whole
  have firstBooks := books_step books (step_of_apply started)
  cases step_of_apply started with
  | resumeUpdate outdated untracked under => exact absurd complete.symm under
  | configure _ _ _ administrative => simp [Action.administrative] at administrative
  | startUpdate outdated untracked _ funded computed =>
    refine ⟨(s.vault.withCycleFees s.config).requested, computed, ?_⟩
    have cycle := sameCycle_run firstBooks outdated.ne' rest
    obtain ⟨_, reserve⟩ := cycle.same unchanged
    generalize final : last.epoch = ncnEpoch at closed
    cases step_of_apply closed with
    | closeOldTracker old => exact absurd final.symm old
    | configure _ _ _ administrative => simp [Action.administrative] at administrative
    | finishUpdate tracked finished =>
      have free := (lastUnstaking.finished lastBooks tracked finished).2
      rw [reserve] at free
      exact free

/-- Wallet 1 deposits fifty tokens and asks for thirty back, while almost all tokens are with two operators;
    the first cycle is given up after one of them has been cranked. -/
def Sample.unstakingRun : List Action :=
  openAccounts ++
    [deposit 50,
      .initializeVaultOperatorDelegation (signers [1]) (.wallet 20) (.wallet 1) (.wallet 1),
      .initializeVaultOperatorDelegation (signers [1]) (.wallet 21) (.wallet 1) (.wallet 1),
      .addDelegation (signers [1]) (.wallet 20) (.wallet 1) 100,
      .addDelegation (signers [1]) (.wallet 21) (.wallet 1) 40,
      enqueue 30,
      .wait 10, .initializeVaultUpdateStateTracker (signers [1]) (.wallet 1) .greedy,
      .crankVaultUpdateStateTracker (.wallet 21),
      .wait 20, .initializeVaultUpdateStateTracker (signers [1]) (.wallet 1) .greedy,
      .crankVaultUpdateStateTracker (.wallet 20), .crankVaultUpdateStateTracker (.wallet 21)]

open Sample

/-- The hypotheses are met by a run in which twenty tokens had to be unstaked. -/
theorem update_unstakes_enough_sample :
    ∃ s, State.Steps State.anything state unstakingRun s ∧ s.staked = 120 ∧
      ∀ signers payer ncnEpoch, s.apply (.closeVaultUpdateStateTracker signers payer ncnEpoch) ≠
        .error (.vault .nonZeroAdditionalAssetsNeededForWithdrawalAtEndOfUpdate) := by
  refine ⟨_, run_exec_get (by decide), by decide, ?_⟩
  exact (update_unstakes_enough state_initialized (run_exec_get _)).2.1

/-! ### Catching up -/

namespace DelegationState

/-- Aging by some epochs and then by more is aging by all of them: after two nothing is left to age. -/
theorem updateFor_updateFor (self : DelegationState) (first second) :
    (self.updateFor first).updateFor second = self.updateFor (first + second) := by
  match first, second with
  | 0, _ => rw [Nat.zero_add, updateFor]
  | _ + 1, 0 => rfl
  | 1, 1 => rfl
  | 1, more + 2 => rw [Nat.add_comm 1 (more + 2)]; rfl
  | _ + 2, 1 => rfl
  | _ + 2, _ + 2 => rfl

theorem updateFor_sum (epochDiff) (states : List DelegationState) :
    (states.map (·.updateFor epochDiff)).sum = states.sum.updateFor epochDiff := by
  induction states with
  | nil => unfold updateFor; split <;> rfl
  | cons state states ih =>
    rw [map_cons, sum_cons, sum_cons, ih]
    unfold updateFor
    split <;> rfl

end DelegationState

namespace VaultOperatorDelegation

/-- The delegation aged by some epochs, at a slot. -/
def aged (self : VaultOperatorDelegation) (epochDiff slot : Nat) : VaultOperatorDelegation :=
  { self with
    delegationState := self.delegationState.updateFor epochDiff
    lastUpdateSlot := slot }

/-- Update at one slot after another. -/
def updateAll (self : VaultOperatorDelegation) (slots : List Nat) (epochLength : Nat) :
    Except ProgramError VaultOperatorDelegation :=
  slots.foldlM (fun delegation slot => delegation.update slot epochLength) self

variable {epochLength : Nat} (pos : 0 < epochLength)
include pos

theorem update_of_le (later : self.lastUpdateSlot / epochLength ≤ slot / epochLength) :
    self.update slot epochLength = .ok (self.aged (slot / epochLength - self.lastUpdateSlot / epochLength) slot) := by
  simp only [update, getEpoch_of_pos pos, ok_iffs, exists_eq_left']
  exact ⟨_, ⟨later, rfl⟩, rfl⟩

/-- Updates on the way to a slot leave nothing behind. -/
theorem updateAll_eq_update
    (sorted : (self.lastUpdateSlot / epochLength :: (slots ++ [last]).map (· / epochLength)).Pairwise (· ≤ ·)) :
    self.updateAll (slots ++ [last]) epochLength = self.update last epochLength := by
  induction slots generalizing self with
  | nil => exact bind_pure _
  | cons slot slots ih =>
    simp only [cons_append, map_cons, pairwise_cons, mem_cons] at sorted
    obtain ⟨fromHere, fromSlot, rest⟩ := sorted
    have lastLater : slot / epochLength ≤ last / epochLength := fromSlot _ (by simp)
    have slotLater : self.lastUpdateSlot / epochLength ≤ slot / epochLength := fromHere _ (.inl rfl)
    have gaps : slot / epochLength - self.lastUpdateSlot / epochLength + (last / epochLength - slot / epochLength) =
        last / epochLength - self.lastUpdateSlot / epochLength := by omega
    rw [updateAll, cons_append, foldlM_cons, update_of_le pos slotLater]
    refine (ih (pairwise_cons.mpr ⟨fromSlot, rest⟩)).trans ?_
    rw [update_of_le pos lastLater, update_of_le pos (slotLater.trans lastLater)]
    dsimp only [aged]
    rw [updateFor_updateFor, gaps]

end VaultOperatorDelegation

/-- The delegation state that `calculateAdditionalSupportedAssetsNeededToUnstake` simulates. -/
def Vault.delegationStateAfterUpdate (self : Vault) (slot epochLength : Nat) :
    Except ProgramError DelegationState := do
  let lastEpochUpdate ← getEpoch self.lastFullStateUpdateSlot epochLength
  let currentEpoch ← getEpoch slot epochLength
  let epochDiff ← okOr (checkedSub currentEpoch lastEpochUpdate) (.vault .arithmeticUnderflow)
  pure (self.delegationState.updateFor epochDiff)

/-- What it finds for the simulated state: of the requested assets, those that are neither undelegated nor on their
    way back. -/
def Vault.neededFrom (self : Vault) (requested : Nat) (simulated : DelegationState) : Except ProgramError Nat := do
  let delegated ← asProgramError simulated.totalSecurity
  let undelegated ← okOr (checkedSub self.tokensDeposited delegated) (.vault .vaultUnderflow)
  let withdrawing ← okOr (checkedAdd 64 simulated.enqueuedForCooldownAmount simulated.coolingDownAmount)
    (.vault .vaultOverflow)
  let available ← okOr (checkedAdd 64 undelegated withdrawing) (.vault .vaultOverflow)
  pure (requested - available)

theorem Vault.calculateAdditionalSupportedAssetsNeededToUnstake_eq (self : Vault) (slot epochLength) :
    self.calculateAdditionalSupportedAssetsNeededToUnstake slot epochLength = (do
      let requested ← asProgramError self.calculateSupportedAssetsRequestedForWithdrawal
      self.neededFrom requested (← self.delegationStateAfterUpdate slot epochLength)) := by
  simp only [calculateAdditionalSupportedAssetsNeededToUnstake, delegationStateAfterUpdate, neededFrom, bind_assoc,
    pure_bind]

/-- Updating every operator at each of some nondecreasing slots leaves what updating it once at the last one
    leaves, and the states of all operators then add up to the one the vault simulates from their sum: what is left
    to be unstaked is what it is for the updated operators. -/
theorem catching_up_is_path_independent (epochLength : Nat) (pos : 0 < epochLength) (vault : Vault)
    (operators : List VaultOperatorDelegation)
    (summed : vault.delegationState = (operators.map (·.delegationState)).sum)
    (sameEpoch : ∀ delegation ∈ operators,
      delegation.lastUpdateSlot / epochLength = vault.lastFullStateUpdateSlot / epochLength)
    (slots : List Nat) (last : Nat) (sorted : (slots ++ [last]).Pairwise (· ≤ ·))
    (later : ∀ slot ∈ slots ++ [last], vault.lastFullStateUpdateSlot / epochLength ≤ slot / epochLength) :
    ∃ updated, operators.mapM (·.updateAll (slots ++ [last]) epochLength) = .ok updated ∧
      operators.mapM (·.update last epochLength) = .ok updated ∧
      vault.delegationStateAfterUpdate last epochLength = .ok (updated.map (·.delegationState)).sum ∧
      vault.calculateAdditionalSupportedAssetsNeededToUnstake last epochLength = (do
        let requested ← asProgramError vault.calculateSupportedAssetsRequestedForWithdrawal
        vault.neededFrom requested (updated.map (·.delegationState)).sum) := by
  have lastLater := later last (by simp)
  have epochs : ((slots ++ [last]).map (· / epochLength)).Pairwise (· ≤ ·) :=
    pairwise_map.mpr (sorted.imp Nat.div_le_div_right)
  have once : ∀ delegation ∈ operators, delegation.update last epochLength =
      .ok (delegation.aged (last / epochLength - vault.lastFullStateUpdateSlot / epochLength) last) := by
    intro delegation mem
    rw [update_of_le pos (by rw [sameEpoch delegation mem]; exact lastLater), sameEpoch delegation mem]
  have simulated : vault.delegationStateAfterUpdate last epochLength = .ok ((operators.map (·.aged
      (last / epochLength - vault.lastFullStateUpdateSlot / epochLength) last)).map (·.delegationState)).sum := by
    simp only [Vault.delegationStateAfterUpdate, getEpoch_of_pos pos, ok_iffs,
      exists_eq_left']
    refine ⟨_, ⟨lastLater, rfl⟩, ?_⟩
    rw [summed, ← updateFor_sum, map_map, map_map]
    rfl
  refine ⟨_, mapM_ok_iff.mpr ?_, mapM_ok_iff.mpr ?_, simulated, ?_⟩
  rotate_left
  · rw [forall₂_map_right_iff, forall₂_same]
    exact once
  · rw [Vault.calculateAdditionalSupportedAssetsNeededToUnstake_eq, simulated]
    rfl
  · rw [forall₂_map_right_iff, forall₂_same]
    intro delegation mem
    rw [updateAll_eq_update pos (pairwise_cons.mpr ⟨?_, epochs⟩)]
    · exact once delegation mem
    · rw [sameEpoch delegation mem]
      exact forall_mem_map.mpr later

/-- Two operators are caught up over three epochs, with two stops on the way. -/
theorem catching_up_is_path_independent_sample :
    ∃ updated : List VaultOperatorDelegation,
      [mk ⟨1, 2, 0⟩ 0 0, ⟨⟨2, 3, 0⟩, 4, 1⟩].mapM (·.updateAll [5, 12, 27] 10) = .ok updated ∧
      (updated.map (·.delegationState)).sum = ⟨3, 0, 0⟩ := by
  obtain ⟨updated, all, _, simulated, _⟩ := catching_up_is_path_independent 10 (by decide)
    { state.vault with delegationState := ⟨3, 5, 0⟩ } [⟨⟨1, 2, 0⟩, 0, 0⟩, ⟨⟨2, 3, 0⟩, 4, 1⟩] (by decide)
    (by decide) [5, 12] 27 (by decide) (by decide)
  exact ⟨updated, all, (ok.inj simulated).symm⟩

end Payout.Restaking
