/-
Purpose: What one accepted action does, said once. `Step` has a constructor for every way an action can succeed, with
  the checks that were passed and the state that is left in closed form; `step_of_apply` shows that it says everything
  the program can do.
-/
import Payout.RestakingProofs.Custody

namespace Payout.Restaking

open Lib Except Vault DelegationState TokenLedger State VaultStakerWithdrawalTicket Pubkey

variable {epochDiff amountIn minAmountOut vrtAmount amount ncnEpoch : Nat} {vault after : Vault}
  {base oldOwner newOwner operator vaultOperatorAdmin payer vaultDelegationAdmin vaultFeeAdmin : Pubkey}
  {action : Action}

/-! ### Closed forms -/

namespace Vault

/-- The vault with the settings of another one, which are what the administrative instructions write; its books
    stay. -/
def withSettings (vault settings : Vault) : Vault :=
  { vault with
    admin := settings.admin
    delegationAdmin := settings.delegationAdmin
    operatorAdmin := settings.operatorAdmin
    ncnAdmin := settings.ncnAdmin
    slasherAdmin := settings.slasherAdmin
    capacityAdmin := settings.capacityAdmin
    feeAdmin := settings.feeAdmin
    delegateAssetAdmin := settings.delegateAssetAdmin
    feeWallet := settings.feeWallet
    mintBurnAdmin := settings.mintBurnAdmin
    metadataAdmin := settings.metadataAdmin
    depositCapacity := settings.depositCapacity
    isPaused := settings.isPaused }

theorem withRole_eq (vault : Vault) (role newAdmin) :
    vault.withRole role newAdmin = vault.withSettings (vault.withRole role newAdmin) := by
  cases role <;> rfl

/-- The vault with the fees of the next cycle in force. -/
def withCycleFees (vault : Vault) (config : Config) : Vault :=
  { vault with
    withdrawalFeeBps := vault.nextWithdrawalFeeBps
    programFeeBps := config.programFeeBps }

/-- The VRT amounts shifted down by one epoch. -/
def shifted (vault : Vault) : Vault :=
  { vault with
    vrtReadyToClaimAmount := vault.vrtReadyToClaimAmount + vault.vrtCoolingDownAmount
    vrtCoolingDownAmount := vault.vrtEnqueuedForCooldownAmount
    vrtEnqueuedForCooldownAmount := 0 }

/-- The VRT amounts shifted down for a number of epochs; two shifts empty the first two stages. -/
def shiftedFor (vault : Vault) (epochDiff : Nat) : Vault :=
  -- written as an update of `vault`, so that the other fields can be read off
  let shifted := match epochDiff with
    | 0 => vault
    | 1 => vault.shifted
    | _ => vault.shifted.shifted
  { vault with
    vrtReadyToClaimAmount := shifted.vrtReadyToClaimAmount
    vrtCoolingDownAmount := shifted.vrtCoolingDownAmount
    vrtEnqueuedForCooldownAmount := shifted.vrtEnqueuedForCooldownAmount }

theorem shiftVrtAmounts_succ_ok (shifted : shiftVrtAmounts (times + 1) vault = .ok after) :
    shiftVrtAmounts times vault.shifted = .ok after := by
  simp only [shiftVrtAmounts, incrementVrtReadyToClaimAmount, ok_iffs] at shifted
  obtain ⟨_, ⟨_, ⟨_, rfl⟩, rfl⟩, rest⟩ := shifted
  exact rest

theorem shiftVrtAmounts_ok (shifted : shiftVrtAmounts (min epochDiff 2) vault = .ok after) :
    after = vault.shiftedFor epochDiff := by
  match epochDiff with
  | 0 => exact (ok.inj shifted).symm
  | 1 => exact (ok.inj (shiftVrtAmounts_succ_ok shifted)).symm
  | rest + 2 =>
    rw [Nat.min_eq_right (by omega)] at shifted
    exact (ok.inj (shiftVrtAmounts_succ_ok (shiftVrtAmounts_succ_ok shifted))).symm

end Vault

/-- A fee an instruction may set: given and accepted, or left as it is. -/
def FeeSet (config : Config) (current : Bps) (given : Option Nat) (after : Bps) : Prop :=
  match given with
  | none => after = current
  | some fee => Vault.changedFee current fee config.depositWithdrawalFeeCapBps.value config.feeBumpBps.value
      config.feeRateOfChangeBps.value = .ok after

/-- Stake moved from staked to enqueued for cooldown. -/
def DelegationState.cooled (self : DelegationState) (amount : Nat) : DelegationState :=
  { self with
    stakedAmount := self.stakedAmount - amount
    enqueuedForCooldownAmount := self.enqueuedForCooldownAmount + amount }

/-- What a crank forces into cooldown: nothing from an operator already updated since the last full update,
    and otherwise as much as is needed and staked. -/
def forcedAmount (state : State) (delegation : VaultOperatorDelegation) : Nat :=
  if state.fullEpoch < state.epochOf delegation.lastUpdateSlot then 0
  else min delegation.delegationState.stakedAmount state.vault.additionalAssetsNeedUnstaking

/-- The delegation a crank leaves. -/
def crankedDelegation (state : State) (delegation : VaultOperatorDelegation) : VaultOperatorDelegation :=
  { delegation with
    delegationState := (delegation.delegationState.cooled (forcedAmount state delegation)).updateFor
      (state.epoch - state.epochOf delegation.lastUpdateSlot)
    lastUpdateSlot := state.slot }

namespace State

variable (s : State)

/-- The state after VRT were enqueued for withdrawal under a new ticket. -/
def afterEnqueue (base staker : Pubkey) (vrtAmount : Nat) (ledger : TokenLedger) : State :=
  { s with
    vault := { s.vault with
      vrtEnqueuedForCooldownAmount := s.vault.vrtEnqueuedForCooldownAmount + vrtAmount }
    withdrawalTickets := s.withdrawalTickets.insert base { staker, vrtAmount, slotUnstaked := s.slot }
    ledger }

/-- The state after a cycle was first initialized. -/
def afterStart (method : WithdrawalAllocationMethod) : State :=
  { s with
    vault := { s.vault.withCycleFees s.config with
      additionalAssetsNeedUnstaking := (s.vault.withCycleFees s.config).requested -
        (s.vault.tokensDeposited - s.vault.delegationState.stakedAmount)
      lastStartStateUpdateSlot := s.slot }
    updateStateTrackers := s.updateStateTrackers.insert s.epoch (VaultUpdateStateTracker.new s.epoch method) }

/-- The state after an operator was cranked. -/
def afterCrank (operator : Pubkey) (delegation : VaultOperatorDelegation) (indexed : VaultUpdateStateTracker) :
    State :=
  { s with
    vault := { s.vault with
      additionalAssetsNeedUnstaking := s.vault.additionalAssetsNeedUnstaking - forcedAmount s delegation }
    operatorDelegations := s.operatorDelegations.insert operator (crankedDelegation s delegation)
    updateStateTrackers := s.updateStateTrackers.insert s.epoch { indexed with
      delegationState := indexed.delegationState + (crankedDelegation s delegation).delegationState } }

/-- The state after a cycle was finished. -/
def afterFinish (tracker : VaultUpdateStateTracker) : State :=
  { s with
    vault := ({ s.vault with
      delegationState := tracker.delegationState
      lastFullStateUpdateSlot := s.slot }).shiftedFor (s.epoch - s.fullEpoch)
    updateStateTrackers := s.updateStateTrackers.erase s.epoch }

end State

/-! ### The steps -/

/-- Everything an action can do when it succeeds. -/
inductive Step (s : State) : Action → State → Prop where
  | mintTo {signers accounts amountIn minAmountOut summary ledger}
      (upToDate : s.epoch ≤ s.fullEpoch)
      (minted : s.vault.Minted amountIn summary)
      (received : s.ledger.balance s.vault.tokenAccount + amountIn ≤ ledger.balance s.vault.tokenAccount)
      (kept : ∀ key, s.vault.Guards key → s.ledger.balance key ≤ ledger.balance key)
      (supply : ledger.supply s.vault.vrtMint =
        s.ledger.supply s.vault.vrtMint + (summary.vrtToDepositor + summary.vrtToFeeWallet))
      (authority : ledger.authority s.vault.vrtMint = s.ledger.authority s.vault.vrtMint) :
      Step s (.mintTo signers accounts amountIn minAmountOut)
        { s with vault := s.vault.afterMint amountIn summary, ledger }
  | enqueueWithdrawal {signers accounts vrtAmount ledger}
      (upToDate : s.epoch ≤ s.fullEpoch)
      (absent : s.withdrawalTickets.lookup accounts.base = none)
      (pos : 0 < vrtAmount)
      (received : s.ledger.balance (s.vault.ticketAccount accounts.base) + vrtAmount ≤
        ledger.balance (s.vault.ticketAccount accounts.base))
      (kept : ∀ key, s.vault.Guards key → s.ledger.balance key ≤ ledger.balance key)
      (supply : ledger.supply s.vault.vrtMint = s.ledger.supply s.vault.vrtMint)
      (authority : ledger.authority s.vault.vrtMint = s.ledger.authority s.vault.vrtMint) :
      Step s (.enqueueWithdrawal signers accounts vrtAmount)
        (s.afterEnqueue accounts.base accounts.staker vrtAmount ledger)
  | changeWithdrawalTicketOwner {signers base oldOwner newOwner ticket}
      (found : s.withdrawalTickets.lookup base = some ticket) :
      Step s (.changeWithdrawalTicketOwner signers base oldOwner newOwner)
        { s with
          withdrawalTickets := s.withdrawalTickets.insert base { ticket with staker := newOwner } }
  | burnWithdrawalTicket {signers accounts ticket summary ledger}
      (upToDate : s.epoch ≤ s.fullEpoch)
      (found : s.withdrawalTickets.lookup accounts.base = some ticket)
      (staker : ticket.staker = accounts.staker)
      (withdrawable : s.epochOf ticket.slotUnstaked + 2 ≤ s.epoch)
      (burned : s.vault.Burned (decide (s.config.programFeeWallet = accounts.staker))
        (decide (s.vault.feeWallet = accounts.staker)) ticket.vrtAmount summary)
      (claimed : ticket.vrtAmount ≤ s.vault.vrtReadyToClaimAmount)
      (paidOut : PaidOut s.vault accounts.base s.ledger summary.burnAmount summary.outAmount ledger) :
      Step s (.burnWithdrawalTicket signers accounts)
        { s with
          vault := { s.vault.afterBurn summary with
            vrtReadyToClaimAmount := s.vault.vrtReadyToClaimAmount - ticket.vrtAmount }
          withdrawalTickets := s.withdrawalTickets.erase accounts.base
          ledger }
  | updateVaultBalance {accounts vrtRewardFee ledger}
      (upToDate : s.epoch ≤ s.fullEpoch)
      (updated : s.vault.BalanceUpdated (s.ledger.balance s.vault.tokenAccount) vrtRewardFee)
      (kept : ∀ key, s.vault.Guards key → s.ledger.balance key ≤ ledger.balance key)
      (supply : ledger.supply s.vault.vrtMint = s.ledger.supply s.vault.vrtMint + vrtRewardFee)
      (authority : ledger.authority s.vault.vrtMint = s.ledger.authority s.vault.vrtMint) :
      Step s (.updateVaultBalance accounts)
        { s with vault := s.vault.afterUpdate (s.ledger.balance s.vault.tokenAccount) vrtRewardFee, ledger }
  | initializeVaultOperatorDelegation {signers operator vaultOperatorAdmin payer}
      (upToDate : s.epoch ≤ s.fullEpoch)
      (absent : s.operatorDelegations.lookup operator = none)
      (fits : s.vault.operatorCount + 1 < 2 ^ 64) :
      Step s (.initializeVaultOperatorDelegation signers operator vaultOperatorAdmin payer)
        { s with
          vault := { s.vault with operatorCount := s.vault.operatorCount + 1 }
          operatorDelegations := s.operatorDelegations.insert operator
            (VaultOperatorDelegation.new s.vault.operatorCount s.slot) }
  | addDelegation {signers operator vaultDelegationAdmin amount delegation}
      (upToDate : s.epoch ≤ s.fullEpoch)
      (found : s.operatorDelegations.lookup operator = some delegation)
      (available : s.vault.delegationState.total + s.vault.requested + amount ≤ s.vault.tokensDeposited) :
      Step s (.addDelegation signers operator vaultDelegationAdmin amount)
        { s with
          vault := { s.vault with delegationState := { s.vault.delegationState with
            stakedAmount := s.vault.delegationState.stakedAmount + amount } }
          operatorDelegations := s.operatorDelegations.insert operator { delegation with
            delegationState := { delegation.delegationState with
              stakedAmount := delegation.delegationState.stakedAmount + amount } } }
  | cooldownDelegation {signers operator vaultDelegationAdmin amount delegation}
      (upToDate : s.epoch ≤ s.fullEpoch)
      (found : s.operatorDelegations.lookup operator = some delegation)
      (within : amount ≤ delegation.delegationState.stakedAmount)
      (vaultWithin : amount ≤ s.vault.delegationState.stakedAmount) :
      Step s (.cooldownDelegation signers operator vaultDelegationAdmin amount)
        { s with
          vault := { s.vault with delegationState := s.vault.delegationState.cooled amount }
          operatorDelegations := s.operatorDelegations.insert operator { delegation with
            delegationState := delegation.delegationState.cooled amount } }
  | resumeUpdate {signers payer method}
      (outdated : s.fullEpoch < s.epoch)
      (untracked : s.updateStateTrackers.lookup s.epoch = none)
      (pending : s.fullEpoch ≠ s.startEpoch) :
      Step s (.initializeVaultUpdateStateTracker signers payer method)
        { s with
          vault := { s.vault with lastStartStateUpdateSlot := s.slot }
          updateStateTrackers := s.updateStateTrackers.insert s.epoch
            (VaultUpdateStateTracker.new s.epoch method) }
  | startUpdate {signers payer method}
      (outdated : s.fullEpoch < s.epoch)
      (untracked : s.updateStateTrackers.lookup s.epoch = none)
      (complete : s.fullEpoch = s.startEpoch)
      (funded : s.vault.delegationState.stakedAmount ≤ s.vault.tokensDeposited)
      (computed : (s.vault.withCycleFees s.config).calculateSupportedAssetsRequestedForWithdrawal =
        .ok (s.vault.withCycleFees s.config).requested) :
      Step s (.initializeVaultUpdateStateTracker signers payer method) (s.afterStart method)
  | crankVaultUpdateStateTracker {operator delegation tracker indexed}
      (found : s.operatorDelegations.lookup operator = some delegation)
      (tracked : s.updateStateTrackers.lookup s.epoch = some tracker)
      (outdated : s.epochOf delegation.lastUpdateSlot < s.epoch)
      (inTurn : tracker.checkAndUpdateIndex delegation.index s.vault.operatorCount = .ok indexed) :
      Step s (.crankVaultUpdateStateTracker operator) (s.afterCrank operator delegation indexed)
  | closeOldTracker {signers payer ncnEpoch}
      (old : ncnEpoch ≠ s.epoch) :
      Step s (.closeVaultUpdateStateTracker signers payer ncnEpoch)
        { s with updateStateTrackers := s.updateStateTrackers.erase ncnEpoch }
  | finishUpdate {signers payer tracker}
      (tracked : s.updateStateTrackers.lookup s.epoch = some tracker)
      (finished : 0 < s.vault.operatorCount →
        tracker.allOperatorsUpdated s.vault.operatorCount = .ok true)
      (unstaked : s.vault.additionalAssetsNeedUnstaking = 0)
      (later : s.fullEpoch ≤ s.epoch) :
      Step s (.closeVaultUpdateStateTracker signers payer s.epoch) (s.afterFinish tracker)
  | setFees {signers vaultFeeAdmin depositFeeBps withdrawalFeeBps rewardFeeBps depositFee nextWithdrawalFee rewardFee}
      (fullEpochPassed : s.epochOf s.vault.lastFeeChangeSlot + 1 < s.epoch)
      (depositSet : FeeSet s.config s.vault.depositFeeBps depositFeeBps depositFee)
      (withdrawalSet : withdrawalFeeBps = none ∧ nextWithdrawalFee = s.vault.nextWithdrawalFeeBps ∨
        withdrawalFeeBps ≠ none ∧
          FeeSet s.config s.vault.withdrawalFeeBps withdrawalFeeBps nextWithdrawalFee) :
      Step s (.setFees signers vaultFeeAdmin depositFeeBps withdrawalFeeBps rewardFeeBps)
        { s with
          vault := { s.vault with
            depositFeeBps := depositFee
            nextWithdrawalFeeBps := nextWithdrawalFee
            rewardFeeBps := rewardFee
            lastFeeChangeSlot := s.slot } }
  | configure {action : Action} (settings : Vault) (programFeeBps : Bps) (programFeeWallet : Pubkey)
      (administrative : action.administrative = true) :
      Step s action
        { s with
          vault := s.vault.withSettings settings
          config := { s.config with programFeeBps, programFeeWallet } }
  | token {action : TokenAction} {ledger : TokenLedger}
      (taken : processTokenAction s.vault s.ledger action = .ok ledger) :
      Step s (.token action) { s with ledger }
  | wait {slot} (later : s.slot ≤ slot) : Step s (.wait slot) { s with slot }

/-! ### Every instruction is one of the steps -/

section Instructions

variable {s after : State} {signers : Signers}

theorem processMint_step (taken : processMint s signers accounts amountIn minAmountOut = .ok after) :
    Step s (.mintTo signers accounts amountIn minAmountOut) after := by
  simp only [processMint, ok_iffs, asProgramError_eq_ok, checkVrtMint, checkUpdateStateOk_eq_ok,
    Prod.exists] at taken
  obtain ⟨_, _, _, signed, _, depositorLoaded, _, vaultLoaded, _, _, _, _, _, _, mintEq, upToDate, _, _, _, distinct,
    summary, vault, minted, _, first, deposited, second, toDepositor, third, toFeeWallet, rfl⟩ := taken
  obtain ⟨checked, rfl⟩ := mintWithFee_ok minted
  have wallet := isWallet_of_loadSigner signed
  have atDepositor := loadAssociatedTokenAccount_ok depositorLoaded
  have atVault : accounts.vaultTokenAccount = s.vault.tokenAccount := loadAssociatedTokenAccount_ok vaultLoaded
  rw [atVault] at deposited distinct
  rw [← mintEq] at toDepositor toFeeWallet
  have deposited := transfer_ok deposited
  have toDepositor := mintTo_ok toDepositor
  have toFeeWallet := mintTo_ok toFeeWallet
  refine .mintTo upToDate checked ?_ ?_ ?_ ?_
  · rw [← deposited.received distinct]
    exact (toDepositor.le _).trans (toFeeWallet.le _)
  · intro key guarded
    have other : key ≠ accounts.depositorTokenAccount := by
      rw [atDepositor]
      exact guarded.ne_of_wallet wallet _
    exact (deposited.le_of_ne other).trans ((toDepositor.le key).trans (toFeeWallet.le key))
  · rw [toFeeWallet.supply, if_pos rfl, toDepositor.supply, if_pos rfl, deposited.supply]
    omega
  · rw [toFeeWallet.authority, toDepositor.authority, deposited.authority]

theorem processEnqueueWithdrawal_step (taken : processEnqueueWithdrawal s signers accounts vrtAmount = .ok after) :
    Step s (.enqueueWithdrawal signers accounts vrtAmount) after := by
  simp only [processEnqueueWithdrawal, ok_iffs, asProgramError_eq_ok, checkUpdateStateOk_eq_ok,
    incrementVrtEnqueuedForCooldownAmount] at taken
  obtain ⟨absent, _, ticketLoaded, _, signed, _, stakerLoaded, _, _, _, _, upToDate, _, _, pos, _,
    ⟨_, ⟨_, rfl⟩, rfl⟩, ledger, moved, rfl⟩ := taken
  have wallet := isWallet_of_loadSigner signed
  have atStaker := loadAssociatedTokenAccount_ok stakerLoaded
  have atTicket : accounts.vaultStakerWithdrawalTicketTokenAccount = s.vault.ticketAccount accounts.base :=
    loadAssociatedTokenAccount_ok ticketLoaded
  rw [atTicket] at moved
  have moved := transfer_ok moved
  have unguarded : ∀ key, s.vault.Guards key → key ≠ accounts.stakerVrtTokenAccount := by
    intro key guarded
    rw [atStaker]
    exact guarded.ne_of_wallet wallet _
  refine .enqueueWithdrawal upToDate absent (by omega) ?_ ?_ (moved.supply _) (moved.authority _)
  · rw [moved.received (unguarded _ (s.vault.guards_ticketAccount _)).symm]
  · exact fun key guarded => moved.le_of_ne (unguarded key guarded)

theorem processBurnWithdrawalTicket_step (taken : processBurnWithdrawalTicket s signers accounts = .ok after) :
    Step s (.burnWithdrawalTicket signers accounts) after := by
  simp only [processBurnWithdrawalTicket, ok_iffs, asProgramError_eq_ok, checkVrtMint, checkUpdateStateOk_eq_ok,
    decrementVrtReadyToClaimAmount, checkStaker, Prod.exists] at taken
  obtain ⟨_, vaultLoaded, _, _, _, _, ticket, found, _, ticketLoaded, _, _, _, _, _, _, mintEq, upToDate,
    _, _, staker, _, withdrawable, awaited, summary, vault, burned, _, ⟨_, rfl⟩, _, ⟨_, rfl⟩, _,
    ⟨_, ⟨claimed, rfl⟩, rfl⟩, ledger, paidOut, rfl⟩ := taken
  obtain ⟨split, rfl⟩ := burnWithFee_ok burned
  have atVault : accounts.vaultTokenAccount = s.vault.tokenAccount := loadAssociatedTokenAccount_ok vaultLoaded
  have atTicket : accounts.vaultStakerWithdrawalTicketTokenAccount = s.vault.ticketAccount accounts.base :=
    loadAssociatedTokenAccount_ok ticketLoaded
  simp only [Bool.not_eq_false] at awaited
  rw [awaited] at withdrawable
  have matured := isWithdrawable_ok withdrawable
  exact .burnWithdrawalTicket upToDate found staker matured split claimed
    (payOutTicket_ok atVault atTicket mintEq.symm paidOut)

theorem processChangeWithdrawalTicketOwner_step
    (taken : processChangeWithdrawalTicketOwner s signers base oldOwner newOwner = .ok after) :
    Step s (.changeWithdrawalTicketOwner signers base oldOwner newOwner) after := by
  simp only [processChangeWithdrawalTicketOwner, ok_iffs] at taken
  obtain ⟨_, found, _, _, _, _, _, _, rfl⟩ := taken
  exact .changeWithdrawalTicketOwner found

theorem processUpdateVaultBalance_step (taken : processUpdateVaultBalance s accounts = .ok after) :
    Step s (.updateVaultBalance accounts) after := by
  simp only [processUpdateVaultBalance, ok_iffs, asProgramError_eq_ok, checkVrtMint, checkUpdateStateOk_eq_ok,
    Prod.exists] at taken
  obtain ⟨_, _, _, _, _, vaultLoaded, upToDate, mintEq, _, _, vrtRewardFee, vault, updated, taken⟩ := taken
  have atVault : accounts.vaultTokenAccount = s.vault.tokenAccount := loadAssociatedTokenAccount_ok vaultLoaded
  rw [atVault] at updated
  obtain ⟨checked, rfl⟩ := updateBalance_ok updated
  split at taken
  · simp only [ok_iffs] at taken
    obtain ⟨_, minted, rfl⟩ := taken
    rw [← mintEq] at minted
    have minted := mintTo_ok minted
    refine .updateVaultBalance upToDate checked (fun key _ => minted.le key) ?_ (minted.authority _)
    rw [minted.supply, if_pos rfl]
  · rename_i none
    simp only [pure_ok_iff] at taken
    subst taken
    exact .updateVaultBalance upToDate checked (fun _ _ => le_refl _) (by omega) rfl

theorem processInitializeVaultOperatorDelegation_step
    (taken : processInitializeVaultOperatorDelegation s signers operator vaultOperatorAdmin payer = .ok after) :
    Step s (.initializeVaultOperatorDelegation signers operator vaultOperatorAdmin payer) after := by
  simp only [processInitializeVaultOperatorDelegation, ok_iffs, asProgramError_eq_ok, checkUpdateStateOk_eq_ok,
    incrementOperatorCount] at taken
  obtain ⟨absent, _, _, _, _, _, _, upToDate, _, _, _, ⟨_, ⟨fits, rfl⟩, rfl⟩, rfl⟩ := taken
  exact .initializeVaultOperatorDelegation upToDate absent fits

theorem processAddDelegation_step
    (taken : processAddDelegation s signers operator vaultDelegationAdmin amount = .ok after) :
    Step s (.addDelegation signers operator vaultDelegationAdmin amount) after := by
  simp only [processAddDelegation, ok_iffs, asProgramError_eq_ok, checkUpdateStateOk_eq_ok, delegate_eq_ok] at taken
  obtain ⟨_, found, _, _, _, _, upToDate, _, _, _, delegated, _, ⟨_, _, rfl⟩, rfl⟩ := taken
  obtain ⟨available, rfl⟩ := delegate_ok delegated
  exact .addDelegation upToDate found available

theorem processCooldownDelegation_step
    (taken : processCooldownDelegation s signers operator vaultDelegationAdmin amount = .ok after) :
    Step s (.cooldownDelegation signers operator vaultDelegationAdmin amount) after := by
  simp only [processCooldownDelegation, ok_iffs, asProgramError_eq_ok, checkUpdateStateOk_eq_ok,
    cooldown_eq_ok] at taken
  obtain ⟨delegation, found, _, _, _, _, upToDate, _, _, _, ⟨_, within, _, rfl⟩, _,
    ⟨_, vaultWithin, _, rfl⟩, rfl⟩ := taken
  exact .cooldownDelegation upToDate found within vaultWithin

theorem processInitializeVaultUpdateStateTracker_step
    (taken : processInitializeVaultUpdateStateTracker s signers payer method = .ok after) :
    Step s (.initializeVaultUpdateStateTracker signers payer method) after := by
  simp only [processInitializeVaultUpdateStateTracker, ok_iffs, asProgramError_eq_ok, Config.getEpoch_epochLength,
    exists_eq_left'] at taken
  obtain ⟨_, _, untracked, outdated, _, _, vault, started, rfl⟩ := taken
  have outdated : s.fullEpoch < s.epoch := by
    by_contra upToDate
    have passed : s.vault.checkUpdateStateOk s.slot s.config.epochLength = .ok () :=
      checkUpdateStateOk_eq_ok.mpr (not_lt.mp upToDate)
    exact outdated (by rw [passed]; rfl)
  simp only [Payout.Restaking.startUpdate, Config.getEpoch_epochLength, bind_ok_iff, ok.injEq,
    exists_eq_left'] at started
  split at started
  · rename_i pending
    simp only [pure_ok_iff] at started
    subst started
    exact .resumeUpdate outdated untracked pending
  · rename_i complete
    simp only [ok_iffs, asProgramError_eq_ok, setWithdrawalFeeBps, setProgramFeeBps, Bps.check_eq_some] at started
    obtain ⟨_, ⟨_, withdrawalEq, rfl⟩, _, ⟨_, programEq, rfl⟩, _, computed, rfl⟩ := started
    have withdrawalEq := Bps.ext withdrawalEq
    have programEq := Bps.ext programEq
    subst withdrawalEq programEq
    obtain ⟨requested, rfl, funded⟩ := calculateAdditionalSupportedAssetsNeededToUnstake_ok computed
    exact .startUpdate outdated untracked (not_not.mp complete) funded requested

theorem forceCooldown_ok
    (forced : forceCooldown s.vault delegation (decide (s.fullEpoch < s.epochOf delegation.lastUpdateSlot)) =
      .ok (vault, delegation')) :
    vault = { s.vault with
        additionalAssetsNeedUnstaking := s.vault.additionalAssetsNeedUnstaking - forcedAmount s delegation } ∧
      delegation' = { delegation with
        delegationState := delegation.delegationState.cooled (forcedAmount s delegation) } := by
  unfold forceCooldown at forced
  split at forced
  · rename_i needed
    obtain ⟨fresh, _, _⟩ := needed
    simp only [decide_eq_false_iff_not] at fresh
    simp only [ok_iffs, cooldown_eq_ok, decrementAdditionalAssetsNeedUnstaking,
      Prod.mk.injEq] at forced
    obtain ⟨_, ⟨_, _, _, rfl⟩, _, ⟨_, ⟨_, rfl⟩, rfl⟩, rfl, rfl⟩ := forced
    simp [forcedAmount, if_neg fresh, cooled]
  · rename_i unneeded
    have nothing : forcedAmount s delegation = 0 := by
      unfold forcedAmount
      split
      · rfl
      · rename_i fresh
        simp only [decide_eq_false_iff_not] at unneeded
        by_contra pos
        exact unneeded ⟨fresh, by omega, by omega⟩
    simp only [pure_ok_iff, Prod.mk.injEq] at forced
    obtain ⟨rfl, rfl⟩ := forced
    simp [nothing, cooled]

theorem processCrankVaultUpdateStateTracker_step (taken : processCrankVaultUpdateStateTracker s operator = .ok after) :
    Step s (.crankVaultUpdateStateTracker operator) after := by
  simp only [processCrankVaultUpdateStateTracker, ok_iffs, asProgramError_eq_ok, Config.getEpoch_epochLength,
    exists_eq_left', Prod.exists] at taken
  obtain ⟨delegation, found, tracker, tracked, _, _, _, outdated, indexed, inTurn, vault, forcedDelegation,
    forced, updatedDelegation, updated, _, accumulated, rfl⟩ := taken
  have outdated := VaultOperatorDelegation.checkIsAlreadyUpdated_ok outdated
  obtain ⟨rfl, rfl⟩ := forceCooldown_ok forced
  have updated := VaultOperatorDelegation.update_ok updated
  subst updated
  have accumulated := accumulate_eq_add accumulated
  subst accumulated
  exact .crankVaultUpdateStateTracker found tracked outdated inTurn

theorem processCloseVaultUpdateStateTracker_step
    (taken : processCloseVaultUpdateStateTracker s signers payer ncnEpoch = .ok after) :
    Step s (.closeVaultUpdateStateTracker signers payer ncnEpoch) after := by
  simp only [processCloseVaultUpdateStateTracker, ok_iffs, asProgramError_eq_ok, Config.getEpoch_epochLength,
    exists_eq_left'] at taken
  obtain ⟨tracker, tracked, _, _, _, _, taken⟩ := taken
  split at taken
  · rename_i old
    simp only [pure_ok_iff] at taken
    subst taken
    exact .closeOldTracker old
  · rename_i current
    have current : ncnEpoch = s.epoch := not_not.mp current
    subst current
    simp only [ok_iffs, Payout.Restaking.finishUpdate, asProgramError_eq_ok] at taken
    obtain ⟨vault, ⟨allUpdated, finished, all, unstaked, _, ⟨later, rfl⟩, shifted⟩, rfl⟩ := taken
    rw [shiftVrtAmounts_ok shifted]
    refine .finishUpdate tracked ?_ (by omega) later
    intro pos
    rw [if_pos pos] at finished
    rw [finished]
    simpa using all

theorem processSetFees_step {depositFeeBps withdrawalFeeBps rewardFeeBps : Option Nat}
    (taken : processSetFees s signers vaultFeeAdmin depositFeeBps withdrawalFeeBps rewardFeeBps = .ok after) :
    Step s (.setFees signers vaultFeeAdmin depositFeeBps withdrawalFeeBps rewardFeeBps) after := by
  simp only [processSetFees, ok_iffs, asProgramError_eq_ok, checkCanModifyFees, Config.getEpoch_epochLength,
    exists_eq_left'] at taken
  obtain ⟨_, _, _, _, ⟨_, ⟨_, rfl⟩, passed⟩, _, first, depositSet, second, withdrawalSet, third, rewardSet,
    rfl⟩ := taken
  obtain ⟨depositFee, depositGiven, rfl⟩ : ∃ depositFee,
      FeeSet s.config s.vault.depositFeeBps depositFeeBps depositFee ∧
        first = { s.vault with depositFeeBps := depositFee } := by
    cases depositFeeBps with
    | none => exact ⟨s.vault.depositFeeBps, rfl, (ok.inj depositSet).symm⟩
    | some =>
      simp only [asProgramError_eq_ok, setDepositFeeBps, ok_iffs] at depositSet
      obtain ⟨depositFee, changed, rfl⟩ := depositSet
      exact ⟨depositFee, changed, rfl⟩
  obtain ⟨nextWithdrawalFee, withdrawalGiven, rfl⟩ : ∃ nextWithdrawalFee,
      (withdrawalFeeBps = none ∧ nextWithdrawalFee = s.vault.nextWithdrawalFeeBps ∨
        withdrawalFeeBps ≠ none ∧
          FeeSet s.config s.vault.withdrawalFeeBps withdrawalFeeBps nextWithdrawalFee) ∧
        second = { s.vault with
          depositFeeBps := depositFee
          nextWithdrawalFeeBps := nextWithdrawalFee } := by
    cases withdrawalFeeBps with
    | none => exact ⟨s.vault.nextWithdrawalFeeBps, .inl ⟨rfl, rfl⟩, (ok.inj withdrawalSet).symm⟩
    | some =>
      simp only [asProgramError_eq_ok, setNextWithdrawalFeeBps, ok_iffs] at withdrawalSet
      obtain ⟨nextWithdrawalFee, changed, rfl⟩ := withdrawalSet
      exact ⟨nextWithdrawalFee, .inr ⟨by simp, changed⟩, rfl⟩
  obtain ⟨rewardFee, rfl⟩ : ∃ rewardFee, third = { s.vault with
      depositFeeBps := depositFee
      nextWithdrawalFeeBps := nextWithdrawalFee
      rewardFeeBps := rewardFee } := by
    cases rewardFeeBps with
    | none => exact ⟨s.vault.rewardFeeBps, (ok.inj rewardSet).symm⟩
    | some =>
      simp only [asProgramError_eq_ok, setRewardFeeBps, ok_iffs] at rewardSet
      obtain ⟨rewardFee, _, rfl⟩ := rewardSet
      exact ⟨rewardFee, rfl⟩
  exact .setFees (not_le.mp passed) depositGiven withdrawalGiven

theorem administrative_step (administrative : action.administrative = true) (taken : s.apply action = .ok after) :
    Step s action after := by
  cases action with
  | setProgramFee =>
    simp only [apply, processSetProgramFee, Config.setProgramFeeBps, bind_ok_iff, pure_ok_iff] at taken
    obtain ⟨_, _, _, _, _, ⟨programFeeBps, _, rfl⟩, rfl⟩ := taken
    exact .configure s.vault programFeeBps s.config.programFeeWallet administrative
  | setProgramFeeWallet signers configFeeAdmin newFeeWallet =>
    simp only [apply, processSetProgramFeeWallet, ok_iffs] at taken
    obtain ⟨_, _, _, _, rfl⟩ := taken
    exact .configure s.vault s.config.programFeeBps newFeeWallet administrative
  | setSecondaryAdmin signers admin newAdmin role =>
    simp only [apply, processSetSecondaryAdmin, ok_iffs] at taken
    obtain ⟨_, _, _, _, rfl⟩ := taken
    rw [s.vault.withRole_eq role newAdmin]
    exact .configure _ s.config.programFeeBps s.config.programFeeWallet administrative
  | setAdmin signers oldAdmin newAdmin =>
    simp only [apply, processSetAdmin, ok_iffs] at taken
    obtain ⟨_, _, _, _, _, _, rfl⟩ := taken
    exact .configure (updateSecondaryAdmin { s.vault with admin := newAdmin } oldAdmin newAdmin)
      s.config.programFeeBps s.config.programFeeWallet administrative
  | setDepositCapacity signers vaultCapacityAdmin capacity =>
    simp only [apply, processSetDepositCapacity, ok_iffs] at taken
    obtain ⟨_, _, _, _, rfl⟩ := taken
    exact .configure { s.vault with depositCapacity := capacity } s.config.programFeeBps
      s.config.programFeeWallet administrative
  | setIsPaused signers admin isPaused =>
    simp only [apply, processSetIsPaused, ok_iffs] at taken
    obtain ⟨_, _, _, _, rfl⟩ := taken
    exact .configure { s.vault with isPaused } s.config.programFeeBps s.config.programFeeWallet
      administrative
  | _ => simp [Action.administrative] at administrative

end Instructions

/-- Whatever an action does when it succeeds is one of the steps. -/
theorem step_of_apply {s after : State} (taken : s.apply action = .ok after) : Step s action after := by
  cases action with
  | mintTo => exact processMint_step taken
  | enqueueWithdrawal => exact processEnqueueWithdrawal_step taken
  | changeWithdrawalTicketOwner => exact processChangeWithdrawalTicketOwner_step taken
  | burnWithdrawalTicket => exact processBurnWithdrawalTicket_step taken
  | updateVaultBalance => exact processUpdateVaultBalance_step taken
  | initializeVaultOperatorDelegation => exact processInitializeVaultOperatorDelegation_step taken
  | addDelegation => exact processAddDelegation_step taken
  | cooldownDelegation => exact processCooldownDelegation_step taken
  | initializeVaultUpdateStateTracker => exact processInitializeVaultUpdateStateTracker_step taken
  | crankVaultUpdateStateTracker => exact processCrankVaultUpdateStateTracker_step taken
  | closeVaultUpdateStateTracker => exact processCloseVaultUpdateStateTracker_step taken
  | setFees => exact processSetFees_step taken
  | token =>
    simp only [apply, ok_iffs] at taken
    obtain ⟨_, taken, rfl⟩ := taken
    exact .token taken
  | wait =>
    simp only [apply, ok_iffs] at taken
    obtain ⟨later, rfl⟩ := taken
    exact .wait (not_lt.mp later)
  | _ => exact administrative_step rfl taken

/-! ### The first state -/

/-- What `InitializeVault` leaves behind. -/
structure Genesis (s : State) : Prop where
  tokensDeposited_lt : s.vault.tokensDeposited < 2 ^ 64
  vrtSupply_eq : s.vault.vrtSupply = s.vault.tokensDeposited
  delegationState_eq : s.vault.delegationState = 0
  enqueued_eq : s.vault.vrtEnqueuedForCooldownAmount = 0
  coolingDown_eq : s.vault.vrtCoolingDownAmount = 0
  readyToClaim_eq : s.vault.vrtReadyToClaimAmount = 0
  operatorCount_eq : s.vault.operatorCount = 0
  lastFullStateUpdateSlot_eq : s.vault.lastFullStateUpdateSlot = s.slot
  lastStartStateUpdateSlot_eq : s.vault.lastStartStateUpdateSlot = s.slot
  depositFee_le : s.vault.depositFeeBps.value ≤ s.config.depositWithdrawalFeeCapBps.value
  withdrawalFee_le : s.vault.withdrawalFeeBps.value ≤ s.config.depositWithdrawalFeeCapBps.value
  nextWithdrawalFee_eq : s.vault.nextWithdrawalFeeBps = s.vault.withdrawalFeeBps
  operatorDelegations_eq : s.operatorDelegations = ∅
  updateStateTrackers_eq : s.updateStateTrackers = ∅
  withdrawalTickets_eq : s.withdrawalTickets = ∅
  supply_eq : s.ledger.supply s.vault.vrtMint = s.vault.vrtSupply
  authority_eq : s.ledger.authority s.vault.vrtMint = some s.vault.key

section Genesis

variable {slot : Nat} {config : Config} {ledger : TokenLedger} {signers : Signers}
  {accounts : InitializeVaultAccounts}
  {depositFeeBps withdrawalFeeBps rewardFeeBps initializeTokenAmount : Nat} {s : State}

theorem initialVault_ok
    (created : initialVault slot config signers accounts depositFeeBps withdrawalFeeBps rewardFeeBps
      initializeTokenAmount = .ok vault) :
    ∃ depositFee withdrawalFee rewardFee : Bps, depositFee.value = depositFeeBps ∧
      withdrawalFee.value = withdrawalFeeBps ∧ initializeTokenAmount < 2 ^ 64 ∧
      vault = { Vault.empty accounts.vrtMint accounts.stMint accounts.admin config.numVaults accounts.base
          depositFee withdrawalFee rewardFee config.programFeeBps slot with
        vrtSupply := initializeTokenAmount
        tokensDeposited := initializeTokenAmount } := by
  simp only [initialVault, new, initializeVaultOverrideDepositFeeBps, ok_iffs, asProgramError_eq_ok, Bps.check_eq_some,
    not_or, Prod.exists] at created
  obtain ⟨_, ⟨_, _, withdrawalFee, withdrawalEq, rewardFee, _, rfl⟩, _, ⟨_, _, _, _, rfl⟩, summary, _, minted,
    ⟨toDepositor, toFeeWallet⟩, _, _, depositFee, depositEq, rfl⟩ := created
  obtain ⟨⟨_, _, fits, _⟩, rfl⟩ := mintWithFee_ok minted
  refine ⟨depositFee, withdrawalFee, rewardFee, depositEq, withdrawalEq, ?_, ?_⟩
  · simpa [Vault.empty] using fits
  · simp [Vault.empty, afterMint, toDepositor, toFeeWallet]

/-- A successful `InitializeVault` leaves a first state, with the initial deposit in the account it was given. -/
theorem processInitializeVault_ok (created : processInitializeVault slot config ledger signers accounts
      depositFeeBps withdrawalFeeBps rewardFeeBps initializeTokenAmount = .ok s) :
    Genesis s ∧ s.vault.tokensDeposited = initializeTokenAmount ∧
      s.vault.tokenAccount = .associatedToken (.vault accounts.base) accounts.stMint ∧
      s.ledger.balance s.vault.tokenAccount =
        if accounts.vaultStTokenAccount = s.vault.tokenAccount then
          ledger.balance s.vault.tokenAccount + initializeTokenAmount
        else ledger.balance s.vault.tokenAccount := by
  simp only [processInitializeVault, ok_iffs, loadTokenAccount, asProgramError_eq_ok, Config.incrementNumVaults, not_or,
    not_lt] at created
  obtain ⟨_, _, _, _, _, _, ⟨adminAccount, adminFound, adminOwner, _⟩, ⟨vaultAccount, vaultFound, vaultOwner, _⟩, _, _,
    _, adminSigned, _, _, _, ⟨depositLe, withdrawalLe, _⟩, first, mintCreated, vault, opened, second, deposited, third,
    accountCreated, fourth, minted, _, ⟨_, ⟨_, rfl⟩, rfl⟩, rfl⟩ := created
  obtain ⟨_, _, _, rfl, rfl, fits, rfl⟩ := initialVault_ok opened
  obtain ⟨mintCreated, mintAuthority, free⟩ := createMint_ok mintCreated
  have deposited := transfer_ok deposited
  have accountCreated := createAccount_ok accountCreated
  have minted := mintTo_ok minted
  have unsupplied : ledger.supply accounts.vrtMint = 0 := by
    have absent : ledger.mints.lookup accounts.vrtMint = none := by
      by_contra present
      exact free (.inr present)
    simp [TokenAccounts.supply, absent]
  refine ⟨?_, rfl, rfl, ?_⟩
  · have supplied : fourth.supply accounts.vrtMint = initializeTokenAmount := by
      rw [minted.supply, if_pos rfl, accountCreated.supply, deposited.supply, mintCreated.supply, unsupplied,
        Nat.zero_add]
    have owned : fourth.authority accounts.vrtMint = some (.vault accounts.base) := by
      rw [minted.authority, accountCreated.authority _ (by rw [deposited.authority, mintAuthority]; simp),
        deposited.authority, mintAuthority]
    exact {
      tokensDeposited_lt := fits
      vrtSupply_eq := rfl
      delegationState_eq := rfl
      enqueued_eq := rfl
      coolingDown_eq := rfl
      readyToClaim_eq := rfl
      operatorCount_eq := rfl
      lastFullStateUpdateSlot_eq := rfl
      lastStartStateUpdateSlot_eq := rfl
      depositFee_le := depositLe
      withdrawalFee_le := withdrawalLe
      nextWithdrawalFee_eq := rfl
      operatorDelegations_eq := rfl
      updateStateTrackers_eq := rfl
      withdrawalTickets_eq := rfl
      supply_eq := supplied
      authority_eq := owned }
  · -- the admin's account belongs to a wallet, so it is neither the vault's account nor the one given
    have wallet := isWallet_of_loadSigner adminSigned
    have notAssociated : associatedToken (.vault accounts.base) accounts.stMint ≠
        accounts.adminStTokenAccount := by
      intro same
      rw [← same] at adminFound
      have owner := (ledger.sound.associated _ _ _ adminFound).2 rfl
      rw [← adminOwner, owner] at wallet
      simp [isWallet] at wallet
    have distinct : accounts.adminStTokenAccount ≠ accounts.vaultStTokenAccount := by
      intro same
      rw [same, vaultFound] at adminFound
      cases adminFound
      rw [← adminOwner, vaultOwner] at wallet
      simp [isWallet] at wallet
    change fourth.balance (.associatedToken (.vault accounts.base) accounts.stMint) =
      if accounts.vaultStTokenAccount = .associatedToken (.vault accounts.base) accounts.stMint then
        ledger.balance (.associatedToken (.vault accounts.base) accounts.stMint) + initializeTokenAmount
      else ledger.balance (.associatedToken (.vault accounts.base) accounts.stMint)
    rw [minted.balance, if_neg (by simp), accountCreated.balance, deposited.balance, if_neg distinct,
      mintCreated.balance]
    by_cases given : accounts.vaultStTokenAccount = associatedToken (.vault accounts.base) accounts.stMint
    · rw [if_pos given.symm, if_pos given]
    · rw [if_neg (Ne.symm given), if_neg notAssociated, if_neg given]

end Genesis

/-- What holds of a new vault and is kept by every step holds after every run. -/
theorem Initialized.always {P : State → Prop} {guard : State → Action → Prop} (init : Initialized s₀)
    (run : State.Steps guard s₀ actions s) (start : ∀ s, Genesis s → P s)
    (kept : ∀ s action after, P s → guard s action → Step s action after → P after) : P s := by
  obtain ⟨_, _, _, _, _, _, _, _, _, created⟩ := init
  refine run.invariant ?_ (start s₀ (processInitializeVault_ok created).1)
  intro s action after here meets taken
  exact kept s action after here meets (step_of_apply taken)

/-! ### A vault to run the results on -/

namespace Sample

theorem noFee_le : 0 ≤ maxBps := Nat.zero_le maxBps

theorem epochLength_pos : 0 < 10 := by decide

/-- Epochs of ten slots, no program fee. -/
def config : Config :=
  { Config.new (.wallet 9) (.wallet 8) ⟨0, noFee_le⟩ with epochLength := 10, epochLength_pos }

def stMint : Pubkey := .wallet 4

def vrtMint : Pubkey := .wallet 3

/-- The associated token account of a wallet. -/
def ata (id : Nat) (mint : Pubkey) : Pubkey := .associatedToken (.wallet id) mint

def vaultKey : Pubkey := .vault (.wallet 2)

/-- A supported mint, with a thousand tokens in the hands of wallet 1. -/
def ledger : TokenLedger :=
  (do
    let ledger ← TokenLedger.empty.createMint stMint (.wallet 5)
    let ledger ← ledger.createAccount (ata 1 stMint) (.wallet 1) stMint
    let ledger ← ledger.createAccount (.associatedToken vaultKey stMint) vaultKey stMint
    ledger.mintTo stMint (ata 1 stMint) (.wallet 5) 1000 :
    Except ProgramError TokenLedger).toOption.getD TokenLedger.empty

def signers (ids : List Nat) : Signers := ⟨ids.map .wallet, by simp [isWallet]⟩

/-- Wallet 1 creates a vault with a hundred tokens and the given fees. -/
def create (depositFeeBps withdrawalFeeBps rewardFeeBps : Nat) : Except ProgramError State :=
  processInitializeVault 0 config ledger (signers [1, 2, 3])
    { vrtMint, stMint
      adminStTokenAccount := ata 1 stMint
      vaultStTokenAccount := .associatedToken vaultKey stMint
      admin := .wallet 1
      base := .wallet 2 }
    depositFeeBps withdrawalFeeBps rewardFeeBps 100

/-- A vault without fees. -/
def state : State := (create 0 0 0).toOption.get (by decide)

theorem create_eq_ok : create 0 0 0 = .ok state := eq_ok_get _

theorem state_initialized : Initialized state :=
  ⟨_, _, _, _, _, _, _, _, _, create_eq_ok⟩

/-- Wallet 1 opens its VRT account, and the VRT account of the ticket of base 7. -/
def openAccounts : List Action :=
  [.token (.createAccount (ata 1 vrtMint) (.wallet 1) vrtMint),
    .token (.createAccount (state.vault.ticketAccount (.wallet 7)) (.withdrawalTicket vaultKey (.wallet 7))
      vrtMint)]

/-- Wallet 1 deposits. -/
def deposit (amount : Nat) : Action :=
  .mintTo (signers [1])
    { vrtMint
      depositor := .wallet 1
      depositorTokenAccount := ata 1 stMint
      vaultTokenAccount := state.vault.tokenAccount
      depositorVrtTokenAccount := ata 1 vrtMint
      vaultFeeTokenAccount := ata 1 vrtMint
      mintBurnAdmin := none }
    amount 0

/-- Wallet 1 asks for its VRT back, with the ticket of base 7. -/
def enqueue (amount : Nat) : Action :=
  .enqueueWithdrawal (signers [1, 7])
    { vaultStakerWithdrawalTicketTokenAccount := state.vault.ticketAccount (.wallet 7)
      staker := .wallet 1
      stakerVrtTokenAccount := ata 1 vrtMint
      base := .wallet 7
      mintBurnAdmin := none }
    amount

/-- A whole update of a vault without operators, at the given slot. -/
def update (slot : Nat) : List Action :=
  [.wait slot, .initializeVaultUpdateStateTracker (signers [1]) (.wallet 1) .greedy,
    .closeVaultUpdateStateTracker (signers [1]) (.wallet 1) (slot / 10)]

end Sample

end Payout.Restaking
